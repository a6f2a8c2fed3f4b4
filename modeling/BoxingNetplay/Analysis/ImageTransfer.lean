import BoxingNetplay.Interface.Receive

/-!
# The state image travels whole

The frames a push sends, handled in order by a guest, leave the guest with the host's image,
tick, rings, countdowns and checksum.  The chunks cross the borders between the sections of
the image, so the induction is over chunks and carries the prefix of positions received.
-/

set_option autoImplicit false

namespace BoxingNetplay.Analysis

open BoxingNetplay.Library
open BoxingNetplay.Model
open BoxingNetplay.Interface

/-- A STATE frame in the frame buffer, handled.
SOURCE: session.asm:531-543, 558-586 -/
def deliver (c : Cpu) (frame : List ℕ) : Cpu := RS_ON_STATE (c.blit FRMBUF frame)

/-- Putting a frame in the buffer stores to the buffer. -/
theorem frame_buffer (c : Cpu) (frame : List ℕ) (h : frame.length ≤ 128) :
    Frame FrameBuffer c (c.blit FRMBUF frame) :=
  (Frame.refl _ c).blit fun _ h1 h2 => ⟨h1, by omega⟩

/-- A byte of the frame in the buffer. -/
theorem buffer_cell (c : Cpu) (frame : List ℕ) (h : frame.length ≤ 128) {i : ℕ}
    (hi : i < frame.length) : (c.blit FRMBUF frame).cell (FRMBUF + i) = frame.getD i 0 % 256 := by
  rw [Cpu.blit_cell, if_pos ⟨by omega, by omega⟩, Nat.add_sub_cancel_left,
    cellWidth_cart (by simp only [FRMBUF]; omega) (by simp only [FRMBUF]; omega)]
  rfl

/-- What a guest stores to while it receives an image. -/
def ReceiveArea : Set ℕ := FrameBuffer ∪ ResyncVars ∪ CrcRecords ∪ ImageCells

/-- A delivered frame is in the frame buffer. -/
theorem carries_deliver (c : Cpu) (frame : List ℕ) (h : frame.length ≤ 128)
    (hb : ∀ b ∈ frame, b < 256) : Carries (c.blit FRMBUF frame) frame := by
  unfold Carries
  refine List.ext_getElem (by simp [frameBuf]) ?_
  intro i h1 h2
  simp only [frameBuf, List.getElem_map, List.getElem_range]
  rw [buffer_cell c frame h h2, List.getD_eq_getElem?_getD, List.getElem?_eq_getElem h2,
    Option.getD_some]
  exact Nat.mod_eq_of_lt (hb _ (List.getElem_mem h2))

/-- The same, of the frames of a push. -/
theorem carries_begin (H c : Cpu) : Carries (c.blit FRMBUF (beginFrame H)) (beginFrame H) := by
  have htick : pushTick H < 65536 := Nat.mod_lt _ (by decide)
  refine carries_deliver c _ (by simp [beginFrame]) ?_
  simp [beginFrame]
  omega

/-- A chunk in the buffer is carried there. -/
theorem carries_chunk (H c : Cpu) {p : ℕ} (h : p < IMG_TOTAL) :
    Carries (c.blit FRMBUF (chunkFrame H p)) (chunkFrame H p) := by
  obtain ⟨hn, hend⟩ := chunkLen_le (Nat.le_of_lt h)
  refine carries_deliver c _ (by rw [length_chunkFrame]; omega) ?_
  intro b hb
  rcases List.mem_append.mp hb with hb | hb
  · simp only [IMG_TOTAL] at h
    simp only [List.mem_cons, List.not_mem_nil, or_false] at hb
    rcases hb with rfl | rfl | rfl | rfl
    · omega
    · decide
    · omega
    · omega
  · obtain ⟨i, hi, rfl⟩ := List.mem_map.mp hb
    have := List.mem_range.mp hi
    exact IMG_GET_lt H (by omega)

/-- An END in the buffer is carried there. -/
theorem carries_end (c : Cpu) : Carries (c.blit FRMBUF endFrame) endFrame :=
  carries_deliver c _ (by simp) (by simp)

/-- The frame buffer is none of the cells a guest that receives needs. -/
theorem receiving_blit {H g : Cpu} {p : ℕ} (h : Receiving H g p) (hp : p ≤ IMG_TOTAL)
    (frame : List ℕ) (hl : frame.length ≤ 128) : Receiving H (g.blit FRMBUF frame) p := by
  refine h.congr hp fun a ha => (frame_buffer g frame hl).cell_eq fun hb => ?_
  rcases ha with (rfl | rfl | rfl) | himg
  · simp [FrameBuffer] at hb
  · simp [FrameBuffer] at hb
  · simp [FrameBuffer] at hb
  · exact (frameBuffer_apart hb).2.1 himg

/-- A guest that started as `G` and has received the positions below `p`. -/
structure Delivered (H G g : Cpu) (p : ℕ) : Prop where
  got : Receiving H g p
  rejected : g.cell DIAG_REJ = G.cell DIAG_REJ
  delay : g.cell NET_DELAY = G.cell NET_DELAY
  frame : Frame ReceiveArea G g

/-- BEGIN delivered. -/
theorem delivered_begin (H G : Cpu) : Delivered H G (deliver G (beginFrame H)) 0 := by
  obtain ⟨hgot, hf⟩ := receiving_begin (carries_begin H G)
  have hbuf := frame_buffer G (beginFrame H) (by simp [beginFrame])
  refine ⟨hgot, ?_, ?_, ?_⟩
  · exact (hf.cell_eq (by simp [BeginArea, CrcRecords])).trans (hbuf.cell_eq (by simp [FrameBuffer]))
  · exact (hf.cell_eq (by simp [BeginArea, CrcRecords])).trans (hbuf.cell_eq (by simp [FrameBuffer]))
  · refine (hbuf.mono fun _ h => Or.inl (Or.inl (Or.inl h))).trans (hf.mono ?_)
    rintro a (h | h)
    · refine Or.inl (Or.inl (Or.inr ?_))
      rcases h with rfl | rfl | rfl | rfl | rfl <;> simp [ResyncVars]
    · exact Or.inl (Or.inr h)

/-- A chunk delivered. -/
theorem delivered_chunk {H G g : Cpu} {p : ℕ} (hd : Delivered H G g p) (hp : p < IMG_TOTAL) :
    Delivered H G (deliver g (chunkFrame H p)) (p + chunkLen p) := by
  have hlen : (chunkFrame H p).length ≤ 128 := by
    have := (chunkLen_le (Nat.le_of_lt hp)).1
    rw [length_chunkFrame]
    omega
  obtain ⟨hgot, hf⟩ := receiving_chunk (receiving_blit hd.got (Nat.le_of_lt hp) _ hlen) hp
    (carries_chunk H g hp)
  have hbuf := frame_buffer g (chunkFrame H p) hlen
  refine ⟨hgot, ?_, ?_, ?_⟩
  · exact (hf.cell_eq (flags_not_apply (by simp))).trans
      ((hbuf.cell_eq (by simp [FrameBuffer])).trans hd.rejected)
  · exact (hf.cell_eq (flags_not_apply (by simp))).trans
      ((hbuf.cell_eq (by simp [FrameBuffer])).trans hd.delay)
  · refine hd.frame.trans ((hbuf.mono fun _ h => Or.inl (Or.inl (Or.inl h))).trans (hf.mono ?_))
    rintro a (h | h)
    · refine Or.inl (Or.inl (Or.inr ?_))
      rcases h with rfl | rfl | rfl | rfl <;> simp [ResyncVars]
    · exact Or.inr h

/-- The chunks from a position on complete the image. -/
theorem delivered_chunks (fuel : ℕ) {H G g : Cpu} {p : ℕ} (hd : Delivered H G g p)
    (hp : p ≤ IMG_TOTAL) (hfuel : IMG_TOTAL ≤ p + fuel * 96) :
    Delivered H G ((chunkFrames H p fuel).foldl deliver g) IMG_TOTAL := by
  induction fuel generalizing g p with
  | zero =>
    have hdone : p = IMG_TOTAL := by omega
    rw [← hdone]
    exact hd
  | succ fuel ih =>
    rw [chunkFrames]
    by_cases hdone : p = IMG_TOTAL
    · rw [if_pos hdone, ← hdone]
      exact hd
    · rw [if_neg hdone, List.foldl_cons]
      refine ih (delivered_chunk hd (by omega)) (chunkLen_le hp).2 ?_
      unfold chunkLen
      simp only [IMG_TOTAL, RS_CHUNK] at hp hfuel ⊢
      split <;> omega

/-- END delivered to a guest that is in a hold. -/
theorem deliver_end {H g : Cpu} {p : ℕ} (hr : Receiving H g p) (hp : p ≤ IMG_TOTAL) :
    deliver g endFrame = RS_REBASE (g.blit FRMBUF endFrame) :=
  state_end (receiving_blit hr hp endFrame (by simp)).hold (carries_end g)

/-! ### The whole push -/

/-- Every cell of the checksum is an image cell. -/
theorem cksum_image : ∀ a ∈ cksumCells, a ∈ ImageCells := by
  intro a ha
  unfold cksumCells at ha
  rcases List.mem_append.mp ha with ha | ha
  · rcases List.mem_append.mp ha with ha | ha
    · rcases List.mem_append.mp ha with ha | ha
      · have := List.mem_range'_1.mp ha
        exact Or.inl ⟨by omega, by omega⟩
      · refine Or.inr (Or.inr (Or.inr ?_))
        simp only [List.mem_cons, List.not_mem_nil, or_false] at ha
        rcases ha with rfl | rfl | rfl | rfl <;> decide
    · refine Or.inr (Or.inr (Or.inr ?_))
      simp only [List.mem_cons, List.not_mem_nil, or_false] at ha
      rcases ha with rfl | rfl | rfl | rfl | rfl | rfl <;> decide
  · refine Or.inr (Or.inr (Or.inr ?_))
    simp only [List.mem_cons, List.not_mem_nil, or_false] at ha
    subst ha
    decide

/-- Machines with the same image have the same checksum. -/
theorem cksum_congr {c c' : Cpu} (h : ∀ a ∈ ImageCells, c.cell a = c'.cell a) :
    LS_CKSUM c = LS_CKSUM c' := by
  have hcells : ∀ a ∈ cksumCells, c.cell a = c'.cell a := fun a ha => h a (cksum_image a ha)
  unfold LS_CKSUM
  generalize (0 : ℕ) = acc
  revert hcells
  generalize cksumCells = l
  intro hcells
  induction l generalizing acc with
  | nil => rfl
  | cons a l ih =>
    rw [List.foldl_cons, List.foldl_cons, hcells a List.mem_cons_self]
    exact ih _ fun b hb => hcells b (List.mem_cons_of_mem _ hb)

/-- The guest after the whole push. -/
def received (H G : Cpu) : Cpu := (pushFrames H).foldl deliver G

/-- Both consoles after a push: what each re-baselined from, and that the images agree. -/
theorem push_both (H G : Cpu) : ∃ g, Delivered H G g IMG_TOTAL ∧
    Rebased (g.blit FRMBUF endFrame) (received H G) ∧ Rebased (pushBody H) (RS_PUSH H) ∧
    ∀ a ∈ ImageCells, (received H G).cell a = (RS_PUSH H).cell a := by
  have hrecv := delivered_chunks 9 (delivered_begin H G) (Nat.zero_le _) (by decide)
  have heq : received H G = RS_REBASE
      (((chunkFrames H 0 9).foldl deliver (deliver G (beginFrame H))).blit FRMBUF endFrame) := by
    rw [← deliver_end hrecv.got le_rfl]
    unfold received pushFrames
    rw [List.foldl_cons, List.foldl_append, List.foldl_cons, List.foldl_nil]
  have hguest := rebased
    (((chunkFrames H 0 9).foldl deliver (deliver G (beginFrame H))).blit FRMBUF endFrame)
  rw [← heq] at hguest
  have hpush := pushed H
  have hhost := rebased (pushBody H)
  rw [← hpush.eq] at hhost
  refine ⟨_, hrecv, hguest, hhost, fun a ha => ?_⟩
  by_cases hlo : a = SC_ISR_SAVE
  · rw [hlo, hguest.saved_lo, hhost.saved_lo]
  by_cases hhi : a = SC_ISR_SAVE + 1
  · rw [hhi, hguest.saved_hi, hhost.saved_hi]
  · rw [rebased_image hguest ha ⟨hlo, hhi⟩, rebased_image hhost ha ⟨hlo, hhi⟩,
      hpush.frame.cell_eq (image_not_push ha),
      (frame_buffer _ _ (by simp)).cell_eq fun h => (frameBuffer_apart h).2.1 ha]
    exact image_cells_eq hrecv.got.image a ha

/-- The tick and the watermarks both consoles restart from, each from its own delay. -/
theorem push_restart (H G : Cpu) :
    (tickWord (RS_PUSH H) = pushTick H ∧ tickWord (received H G) = pushTick H) ∧
    ∀ seat < 4, seatWm (RS_PUSH H) seat = (pushTick H + H.cell NET_DELAY + 65535) % 65536 ∧
      seatWm (received H G) seat = (pushTick H + G.cell NET_DELAY + 65535) % 65536 := by
  obtain ⟨g, hrecv, hguest, hhost, -⟩ := push_both H G
  have hpush := pushed H
  have htick : pushTick H < 65536 := Nat.mod_lt _ (by decide)
  have hout : ∀ a, a = RS_R_LO ∨ a = RS_R_HI ∨ a = NET_DELAY →
      (g.blit FRMBUF endFrame).cell a = g.cell a := by
    intro a ha
    refine (frame_buffer g endFrame (by simp)).cell_eq ?_
    rintro ⟨h, h'⟩
    rcases ha with rfl | rfl | rfl <;> simp at h
  have hwordG : word (g.blit FRMBUF endFrame) RS_R_LO RS_R_HI = pushTick H := by
    unfold word
    rw [hout _ (by simp), hout _ (by simp), hrecv.got.tick_lo, hrecv.got.tick_hi]
    omega
  have hwordH : word (pushBody H) RS_R_LO RS_R_HI = pushTick H := by
    unfold word
    rw [hpush.tick_lo, hpush.tick_hi]
    omega
  have hdelay : (pushBody H).cell NET_DELAY = H.cell NET_DELAY := by
    refine hpush.frame.cell_eq ?_
    rintro (((h | h) | h) | h)
    · simp [MailboxArea] at h
    · simp [ResyncVars] at h
    · simp [CrcRecords] at h
    · simp at h
  refine ⟨⟨?_, ?_⟩, fun seat hseat => ⟨?_, ?_⟩⟩
  · rw [hhost.tick, hwordH]
  · rw [hguest.tick, hwordG]
  · rw [hhost.watermark seat hseat, hwordH, hdelay]
  · rw [hguest.watermark seat hseat, hwordG, hout _ (by simp), hrecv.delay]

/-- For every host and guest memory: a push sends its frames in order; handling them leaves no
chunk refused, the same image in every position on both (the host's own, with the saved
interrupt vector clamped), the same tick, idle rings and countdowns, and the same checksum;
the guest stores to nothing but the image, the cells a re-baseline names and netcode RAM; and
two consoles with the same delay get the same watermarks.
SOURCE: resync.asm:163-419, 550-647, lockstep.asm:465-501 -/
theorem image_transfer (H G : Cpu) :
    (AllAcked H → (RS_PUSH H).out = H.out ++ (pushFrames H).flatten) ∧
    (received H G).cell DIAG_REJ = G.cell DIAG_REJ ∧
    (∀ pos < IMG_TOTAL, IMG_GET (received H G) pos = IMG_GET (RS_PUSH H) pos) ∧
    (∀ pos < IMG_TOTAL, imgAddr pos ≠ SC_ISR_SAVE → imgAddr pos ≠ SC_ISR_SAVE + 1 →
      IMG_GET (RS_PUSH H) pos = IMG_GET H pos) ∧
    ((RS_PUSH H).cell SC_ISR_SAVE = EXEC_ISR_DEF % 256 ∧
      (RS_PUSH H).cell (SC_ISR_SAVE + 1) = EXEC_ISR_DEF / 256) ∧
    (tickWord (RS_PUSH H) = pushTick H ∧ tickWord (received H G) = pushTick H) ∧
    (IdleRings (RS_PUSH H) ∧ IdleRings (received H G)) ∧
    (∀ p ∈ countdowns, (received H G).cell p.1 = (RS_PUSH H).cell p.1) ∧
    Frame (ReceiveArea ∪ RebaseArea) G (received H G) ∧
    LS_CKSUM (received H G) = LS_CKSUM (RS_PUSH H) ∧
    (G.cell NET_DELAY = H.cell NET_DELAY →
      ∀ seat < 4, seatWm (received H G) seat = seatWm (RS_PUSH H) seat) := by
  obtain ⟨g, hrecv, hguest, hhost, himg⟩ := push_both H G
  obtain ⟨hticks, hwms⟩ := push_restart H G
  have hpush := pushed H
  have hbuf := frame_buffer g endFrame (by simp)
  refine ⟨?_, ?_, ?_, ?_, ⟨hhost.saved_lo, hhost.saved_hi⟩, hticks,
    ⟨hhost.rings, hguest.rings⟩, ?_, ?_, cksum_congr himg, ?_⟩
  · intro ha
    rw [hhost.out, hpush.sends.out ha]
  · rw [hguest.rejected, hbuf.cell_eq fun h => by simp [FrameBuffer] at h, hrecv.rejected]
  · intro pos hpos
    exact IMG_GET_congr himg hpos
  · intro pos hpos hlo hhi
    rw [IMG_GET_eq _ hpos, IMG_GET_eq _ hpos, rebased_image hhost (imgAddr_mem hpos) ⟨hlo, hhi⟩,
      hpush.frame.cell_eq (image_not_push (imgAddr_mem hpos))]
  · intro p hp
    have hmirror : p.2 ∈ ImageCells ∧ p.2 ≠ SC_ISR_SAVE ∧ p.2 ≠ SC_ISR_SAVE + 1 := by
      simp only [countdowns, List.mem_cons, List.not_mem_nil, or_false] at hp
      rcases hp with rfl | rfl | rfl | rfl | rfl | rfl <;>
        exact ⟨Or.inr (Or.inr (Or.inr (by decide))), by decide, by decide⟩
    rw [hguest.countdown p hp, hhost.countdown p hp,
      ← rebased_image hguest hmirror.1 hmirror.2, ← rebased_image hhost hmirror.1 hmirror.2]
    exact himg _ hmirror.1
  · refine (hrecv.frame.mono fun _ h => Or.inl h).trans
      ((hbuf.mono fun _ h => Or.inl (Or.inl (Or.inl (Or.inl h)))).trans
        (hguest.frame.mono fun _ h => Or.inr h))
  · intro hd seat hseat
    rw [(hwms seat hseat).1, (hwms seat hseat).2, hd]

/-- Two consoles with delay 3: the watermarks agree. -/
theorem image_transfer_delay_three : ∀ seat < 4,
    seatWm (received ((default : Cpu).sto NET_DELAY 3) ((default : Cpu).sto NET_DELAY 3)) seat =
      seatWm (RS_PUSH ((default : Cpu).sto NET_DELAY 3)) seat :=
  (image_transfer ((default : Cpu).sto NET_DELAY 3)
    ((default : Cpu).sto NET_DELAY 3)).2.2.2.2.2.2.2.2.2.2 rfl

/-- A host with delay 0 and a guest with delay 1: the watermarks differ after the push. -/
theorem watermarks_differ_with_delays :
    seatWm (received (default : Cpu) ((default : Cpu).sto NET_DELAY 1)) 0 ≠
      seatWm (RS_PUSH (default : Cpu)) 0 := by
  obtain ⟨hhost, hguest⟩ := (push_restart (default : Cpu) ((default : Cpu).sto NET_DELAY 1)).2 0
    (by decide)
  rw [hhost, hguest]
  decide

end BoxingNetplay.Analysis
