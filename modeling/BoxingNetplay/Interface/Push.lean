import BoxingNetplay.Interface.Rebase

/-!
# What a push sends

The bytes `RS_PUSH` hands to the network are the concatenation of a BEGIN, nine chunks of
the state image and an END (`pushFrames`), and until its final re-baseline it stores to nothing
but the mailbox and resync state, so the image it sends is the one it started with.
-/

set_option autoImplicit false

namespace BoxingNetplay.Interface

open BoxingNetplay.Library
open BoxingNetplay.Model

/-! ### Sending -/

/-- Every listed answer acknowledges its transaction. -/
def AllAcked (c : Cpu) : Prop := ∀ r ∈ c.replies, acked r = true

/-- A routine that, when its writes are acknowledged, sends `bytes`. -/
structure Sends (bytes : List ℕ) (c c' : Cpu) : Prop where
  out : AllAcked c → c'.out = c.out ++ bytes
  acked : AllAcked c → AllAcked c'

namespace Sends

variable {b b' : List ℕ} {c c' c'' : Cpu}

/-- Sending composes in sequence. -/
theorem trans (h : Sends b c c') (h' : Sends b' c' c'') : Sends (b ++ b') c c'' where
  out ha := by rw [h'.out (h.acked ha), h.out ha, List.append_assoc]
  acked ha := h'.acked (h.acked ha)

/-- A routine that leaves the observations alone sends nothing. -/
theorem silent (ho : c'.out = c.out) (hr : c'.replies = c.replies) : Sends [] c c' where
  out _ := by rw [ho, List.append_nil]
  acked ha r hmem := ha r (hr ▸ hmem)

/-- What is sent before a silent routine. -/
theorem then_silent (h : Sends b c c') (ho : c''.out = c'.out) (hr : c''.replies = c'.replies) :
    Sends b c c'' := by
  have := h.trans (silent ho hr)
  rwa [List.append_nil] at this

/-- What is sent after a silent routine. -/
theorem after_silent (h : Sends b c' c'') (ho : c'.out = c.out) (hr : c'.replies = c.replies) :
    Sends b c c'' := (silent ho hr).trans h

end Sends

/-- The bytes staged for a write. -/
def staged (c : Cpu) : List ℕ :=
  (List.range (word c NREQ_LO NREQ_HI)).map fun i => c.cell (FN_TX + i)

/-- They depend on the staging area and on the length of the write. -/
theorem staged_congr {c d : Cpu}
    (hd : ∀ a, FN_TX ≤ a ∨ a = NREQ_LO ∨ a = NREQ_HI → d.cell a = c.cell a) :
    staged d = staged c := by
  unfold staged word
  rw [hd _ (Or.inr (Or.inl rfl)), hd _ (Or.inr (Or.inr rfl))]
  refine List.map_congr_left ?_
  intro i _
  exact hd _ (Or.inl (by omega))

/-- A write sends what is staged, or nothing when it is not acknowledged. -/
theorem out_NET_WRITE (c : Cpu) :
    (NET_WRITE c).out = c.out ++ if acked (nextReply c).1 then staged c else [] := by
  unfold NET_WRITE
  extract_lets c1 c2 c3 c4 bytes reply sent
  have h4 : bytes = staged c := by
    refine staged_congr ?_
    intro a ha
    simp only [c4, c3, c2, c1, Cpu.sto_cell]
    simp only [FN_TX, NREQ_LO, NREQ_HI] at ha
    repeat rw [if_neg (by simp only [MB_DEV, MB_CMD, MB_NPARAM, MB_TXLEN_LO, MB_TXLEN_HI,
      FN_PARAM_SIZE, FN_PARAM_VAL]; omega)]
  have hrep : reply = nextReply c := rfl
  rw [(silent_MB_TRANSACT _ _).out]
  change c.out ++ sent = _
  rw [← h4, ← hrep]
  simp only [sent]
  cases reply.1 <;> rfl

/-- An acknowledged write sends what is staged. -/
theorem sends_NET_WRITE (c : Cpu) : Sends (staged c) c (NET_WRITE c) := by
  refine ⟨fun ha => ?_, fun ha => ?_⟩
  · have hack : acked (nextReply c).1 = true := by
      unfold nextReply
      cases hc : c.replies with
      | nil => rfl
      | cons r rs => exact ha r (by rw [hc]; exact List.mem_cons_self)
    rw [out_NET_WRITE, if_pos hack]
  · intro r hmem
    unfold NET_WRITE at hmem
    extract_lets c1 c2 c3 c4 bytes reply sent at hmem
    rw [(silent_MB_TRANSACT _ _).replies] at hmem
    change r ∈ (nextReply c).2 at hmem
    unfold nextReply at hmem
    cases hc : c.replies with
    | nil => rw [hc] at hmem; cases hmem
    | cons r' rs =>
      rw [hc] at hmem
      exact ha r (by rw [hc]; exact List.mem_cons_of_mem _ hmem)

/-- What a short frame leaves staged. -/
theorem staged_frame (c : Cpu) (frame : List ℕ) (h : frame.length < 256) :
    staged (((c.blit FN_TX frame).sto NREQ_LO frame.length).sto NREQ_HI 0) =
      frame.map (· % 256) := by
  have hn : word (((c.blit FN_TX frame).sto NREQ_LO frame.length).sto NREQ_HI 0) NREQ_LO
      NREQ_HI = frame.length := by
    simp [word, cellWidth]
    omega
  unfold staged
  rw [hn]
  refine List.ext_getElem (by simp) ?_
  intro i h1 h2
  simp only [List.length_map, List.length_range] at h1
  simp only [List.getElem_map, List.getElem_range, Cpu.sto_cell, Cpu.blit_cell]
  rw [if_neg (by simp only [FN_TX, NREQ_HI]; omega), if_neg (by simp only [FN_TX, NREQ_LO]; omega),
    if_pos ⟨by omega, by omega⟩, cellWidth_cart (by simp only [FN_TX]; omega)
    (by simp only [FN_TX]; omega), Nat.add_sub_cancel_left, List.getD_eq_getElem?_getD,
    List.getElem?_eq_getElem h1, Option.getD_some]
  rfl

/-- A short frame that is staged and sent. -/
theorem sends_sendFrame (c : Cpu) (frame : List ℕ) (h : frame.length < 256) :
    Sends (frame.map (· % 256)) c (sendFrame c frame) := by
  unfold sendFrame
  rw [← staged_frame c frame h]
  exact (sends_NET_WRITE _).after_silent rfl rfl

/-- A frame goes out as a whole or not at all. -/
theorem out_sendFrame (c : Cpu) (frame : List ℕ) (h : frame.length < 256)
    (hb : ∀ b ∈ frame, b < 256) :
    (sendFrame c frame).out = c.out ∨ (sendFrame c frame).out = c.out ++ frame := by
  have hmap : frame.map (· % 256) = frame := by
    conv_rhs => rw [← List.map_id frame]
    exact List.map_congr_left fun b hm => Nat.mod_eq_of_lt (hb b hm)
  unfold sendFrame
  rw [out_NET_WRITE, staged_frame c frame h, hmap]
  split
  · exact Or.inr rfl
  · exact Or.inl (List.append_nil _)

/-- A short frame of bytes that is staged and sent. -/
theorem sends_frame (c : Cpu) (frame : List ℕ) (h : frame.length < 256)
    (hb : ∀ b ∈ frame, b < 256) : Sends frame c (sendFrame c frame) := by
  have hmap : frame.map (· % 256) = frame := by
    conv_rhs => rw [← List.map_id frame]
    exact List.map_congr_left fun b hm => Nat.mod_eq_of_lt (hb b hm)
  rw [← hmap]
  conv_rhs => rw [hmap]
  exact sends_sendFrame c frame h

/-! ### The frames of a push -/

/-- The tick a push agrees on.
SOURCE: resync.asm:165-173 -/
def pushTick (c : Cpu) : ℕ := (tickWord c + 16) % 65536

/-- The number of image bytes in the chunk at a position.
SOURCE: resync.asm:199-206 -/
def chunkLen (pos : ℕ) : ℕ := if IMG_TOTAL - pos < RS_CHUNK then IMG_TOTAL - pos else RS_CHUNK

/-- The chunk at a position.
SOURCE: resync.asm:207-237 -/
def chunkFrame (c : Cpu) (pos : ℕ) : List ℕ :=
  [chunkLen pos + 3, FT_STATE, pos % 256, pos / 256] ++
    (List.range (chunkLen pos)).map fun i => IMG_GET c (pos + i)

/-- The chunks from a position on. -/
def chunkFrames (c : Cpu) (pos : ℕ) : ℕ → List (List ℕ)
  | 0 => []
  | fuel + 1 =>
    if pos = IMG_TOTAL then [] else chunkFrame c pos :: chunkFrames c (pos + chunkLen pos) fuel

/-- BEGIN.
SOURCE: resync.asm:163-256 -/
def beginFrame (c : Cpu) : List ℕ := [5, FT_STATE, 0, 0xFF, pushTick c % 256, pushTick c / 256]

/-- END. -/
@[simp] abbrev endFrame : List ℕ := [3, FT_STATE, 1, 0xFF]

/-- The frames of a push. -/
def pushFrames (c : Cpu) : List (List ℕ) :=
  beginFrame c :: (chunkFrames c 0 9 ++ [endFrame])

/-- What a push stores to before it re-baselines. -/
def PushArea : Set ℕ := MailboxArea ∪ ResyncVars ∪ CrcRecords ∪ {LS_TMPB}

theorem mailbox_push : MailboxArea ⊆ PushArea := fun _ h => Or.inl (Or.inl (Or.inl h))
theorem resync_push : ResyncVars ⊆ PushArea := fun _ h => Or.inl (Or.inl (Or.inr h))

/-- All of it is netcode RAM or the mailbox. -/
theorem push_bound {a : ℕ} (h : a ∈ PushArea) : 0x8090 ≤ a := by
  rcases h with ((hm | hr) | ⟨h1, -⟩) | ht
  · simp only [MailboxArea, MB_DEV, NAVAIL_HI, NREQ_LO, NGOT_HI, DIAG_TMO, DIAG_ERR, FN_SEQ] at hm
    rcases hm with hm | hm | hm | hm | hm <;> omega
  · simp only [ResyncVars, RESYNC_HOLD, RS_TMP2, DIAG_REJ, RS_PEND, RS_PTMO, TICK_LO, TICK_HI,
      LS_WAITC_LO, LS_WAITC_HI] at hr
    rcases hr with hr | hr | hr | hr | hr | hr | hr | hr <;> omega
  · simp only [OWN_CRC] at h1
    omega
  · cases ht
    decide

/-- None of it is an image cell. -/
theorem image_not_push {a : ℕ} (h : a ∈ ImageCells) : a ∉ PushArea := by
  have htail : ∀ b ∈ RS_TAILTBL, ¬ (((((MB_DEV ≤ b ∧ b ≤ NAVAIL_HI) ∨ (NREQ_LO ≤ b ∧ b ≤ NGOT_HI) ∨
      b = DIAG_TMO ∨ b = DIAG_ERR ∨ (FN_SEQ ≤ b ∧ b ≤ 0x9FFF)) ∨
      ((RESYNC_HOLD ≤ b ∧ b ≤ RS_TMP2) ∨ b = DIAG_REJ ∨ b = RS_PEND ∨ b = RS_PTMO ∨
        b = TICK_LO ∨ b = TICK_HI ∨ b = LS_WAITC_LO ∨ b = LS_WAITC_HI)) ∨
      (OWN_CRC ≤ b ∧ b < OWN_CRC + 32)) ∨ b = LS_TMPB) := by
    decide
  intro hpush
  have hge := push_bound hpush
  rcases h with h | h | h | h
  · omega
  · omega
  · omega
  · exact htail a h hpush

/-! ### The chunks -/

/-- Staging image bytes leaves them where they were staged and stores nowhere else. -/
theorem staged_image (n : ℕ) (c d : Cpu) (pos r3 : ℕ) (hpos : pos + n ≤ IMG_TOTAL)
    (h3 : FN_TX ≤ r3 ∧ r3 + n ≤ FN_TX + 256) (himg : ∀ a ∈ ImageCells, d.cell a = c.cell a) :
    (∀ i < n, (stageImage d pos r3 n).cell (r3 + i) = IMG_GET c (pos + i)) ∧
      Frame {a | a = RS_TMP2 ∨ (r3 ≤ a ∧ a < r3 + n)} d (stageImage d pos r3 n) ∧
      (stageImage d pos r3 n).out = d.out ∧ (stageImage d pos r3 n).replies = d.replies := by
  induction n generalizing d pos r3 with
  | zero => exact ⟨fun i hi => absurd hi (Nat.not_lt_zero i), Frame.refl _ d, rfl, rfl⟩
  | succ n ih =>
    simp only [FN_TX] at h3
    rw [stageImage]
    generalize hdef : d.sto r3 (IMG_GET d pos) = e
    have he : Frame {a | a = RS_TMP2 ∨ (r3 ≤ a ∧ a < r3 + (n + 1))} d
        (e.sto RS_TMP2 (e.cell RS_TMP2 + 255)) :=
      hdef ▸ ((Frame.refl _ d).sto (Or.inr ⟨by omega, by omega⟩)).sto (Or.inl rfl)
    have himg' : ∀ a ∈ ImageCells, (e.sto RS_TMP2 (e.cell RS_TMP2 + 255)).cell a = c.cell a := by
      intro a ha
      rw [he.cell_eq, himg a ha]
      have hnot := image_not_push ha
      rintro (rfl | ⟨h1, h2⟩)
      · exact hnot (resync_push (by simp [ResyncVars]))
      · refine hnot (mailbox_push (Or.inr (Or.inr (Or.inr (Or.inr ⟨?_, ?_⟩)))))
        · simp only [FN_SEQ]
          omega
        · omega
    obtain ⟨hcell, hf, hout, hrep⟩ := ih (e.sto RS_TMP2 (e.cell RS_TMP2 + 255)) (pos + 1) (r3 + 1)
      (by omega) ⟨by simp only [FN_TX]; omega, by simp only [FN_TX]; omega⟩ himg'
    refine ⟨?_, he.trans (hf.mono ?_), hout.trans (by rw [← hdef]; rfl),
      hrep.trans (by rw [← hdef]; rfl)⟩
    · intro i hi
      cases i with
      | zero =>
        have hout : r3 ∉ {a | a = RS_TMP2 ∨ (r3 + 1 ≤ a ∧ a < r3 + 1 + n)} := by
          rintro (h | ⟨h, -⟩)
          · simp only [RS_TMP2] at h
            omega
          · omega
        have hget : IMG_GET d pos = IMG_GET c pos := IMG_GET_congr himg (by omega)
        have hlt : IMG_GET c pos < 256 := IMG_GET_lt c (by omega)
        rw [show r3 + 0 = r3 from rfl, hf.cell_eq hout, Cpu.sto_cell,
          if_neg (by simp only [RS_TMP2]; omega), ← hdef, Cpu.sto_cell, if_pos rfl,
          cellWidth_cart (by omega) (by omega), hget]
        exact Nat.mod_eq_of_lt hlt
      | succ i =>
        have hi' := hcell i (by omega)
        rwa [show r3 + 1 + i = r3 + (i + 1) by omega, show pos + 1 + i = pos + (i + 1) by omega] at hi'
    · rintro a (rfl | ⟨h1, h2⟩)
      · exact Or.inl rfl
      · exact Or.inr ⟨by omega, by omega⟩

/-- A chunk has at most 96 bytes, and none past the end of the image. -/
theorem chunkLen_le {pos : ℕ} (h : pos ≤ IMG_TOTAL) :
    chunkLen pos ≤ 96 ∧ pos + chunkLen pos ≤ IMG_TOTAL := by
  unfold chunkLen
  simp only [IMG_TOTAL, RS_CHUNK] at h ⊢
  split <;> omega

/-- A chunk before the end of the image is not empty. -/
theorem chunkLen_pos {pos : ℕ} (h : pos < IMG_TOTAL) : 0 < chunkLen pos := by
  unfold chunkLen
  simp only [IMG_TOTAL, RS_CHUNK] at h ⊢
  split <;> omega

/-- What a routine of the push does: it sends, stores to what a push stores to, and keeps the
agreed tick. -/
structure PushStep (bytes : List ℕ) (c c' : Cpu) : Prop where
  sends : Sends bytes c c'
  frame : Frame PushArea c c'
  tick_lo : c'.cell RS_R_LO = c.cell RS_R_LO
  tick_hi : c'.cell RS_R_HI = c.cell RS_R_HI

/-- Steps of a push compose in sequence. -/
theorem PushStep.trans {b b' : List ℕ} {c c' c'' : Cpu} (h : PushStep b c c')
    (h' : PushStep b' c' c'') : PushStep (b ++ b') c c'' :=
  ⟨h.sends.trans h'.sends, h.frame.trans h'.frame, h'.tick_lo.trans h.tick_lo,
    h'.tick_hi.trans h.tick_hi⟩

/-- A step of a push leaves the image alone. -/
theorem PushStep.image {b : List ℕ} {c c' : Cpu} (h : PushStep b c c') :
    ∀ a ∈ ImageCells, c'.cell a = c.cell a := fun _ ha => h.frame.cell_eq (image_not_push ha)

/-- A transmit cell belongs to what a push stores to. -/
theorem tx_push {a : ℕ} (h1 : FN_TX ≤ a) (h2 : a < FN_TX + 256) : a ∈ PushArea := by
  simp only [FN_TX] at h1 h2
  refine mailbox_push (Or.inr (Or.inr (Or.inr (Or.inr ⟨?_, by omega⟩))))
  simp only [FN_SEQ]
  omega

/-- Sending a short frame is a step of a push. -/
theorem pushStep_sendFrame (c : Cpu) (frame : List ℕ) (h : frame.length < 256) :
    PushStep (frame.map (· % 256)) c (sendFrame c frame) := by
  have hf := frame_sendFrame c frame (by omega)
  refine ⟨sends_sendFrame c frame h, hf.mono mailbox_push, hf.cell_eq ?_, hf.cell_eq ?_⟩ <;>
    simp [MailboxArea]

/-- Sending a chunk sends the chunk's frame and advances the position. -/
theorem pushStep_sendChunk (c d : Cpu) (pos : ℕ) (hpos : pos ≤ IMG_TOTAL)
    (himg : ∀ a ∈ ImageCells, d.cell a = c.cell a) :
    PushStep (chunkFrame c pos) d (sendChunk d pos (chunkLen pos)) ∧
      word (sendChunk d pos (chunkLen pos)) RS_POS_LO RS_POS_HI = pos + chunkLen pos := by
  obtain ⟨hn, hend⟩ := chunkLen_le hpos
  generalize hlen : chunkLen pos = n at hn hend ⊢
  simp only [IMG_TOTAL] at hend
  unfold sendChunk
  extract_lets c1 c2 c3 c4
  have h2 : Frame PushArea d c2 := by
    refine (((Frame.refl _ d).sto ?_).sto (Or.inr rfl)).blit ?_
    · exact resync_push (by simp [ResyncVars])
    · intro x hx1 hx2
      exact tx_push hx1 (by simp only [List.length_cons, List.length_nil] at hx2; omega)
  have himg2 : ∀ a ∈ ImageCells, c2.cell a = c.cell a := fun a ha =>
    (h2.cell_eq (image_not_push ha)).trans (himg a ha)
  obtain ⟨hcell, hf3, hout3, hrep3⟩ := staged_image n c c2 pos (FN_TX + 4) hend
    ⟨by omega, by omega⟩ himg2
  have h3 : Frame PushArea d c3 := by
    refine h2.trans (hf3.mono ?_)
    rintro a (rfl | ⟨h1, h2⟩)
    · exact resync_push (by simp [ResyncVars])
    · exact tx_push (by omega) (by omega)
  have h4 : Frame PushArea d c4 := by
    refine (h3.sto ?_).sto ?_ <;> exact resync_push (by simp [ResyncVars])
  -- the cells the write reads
  have htmp : c4.cell LS_TMPB = n := by
    have hnot : LS_TMPB ∉ {a | a = RS_TMP2 ∨ (FN_TX + 4 ≤ a ∧ a < FN_TX + 4 + n)} := by
      rintro (h | ⟨h, -⟩)
      · simp at h
      · simp at h
    simp only [c4, Cpu.sto_cell]
    rw [if_neg (by decide), if_neg (by decide), hf3.cell_eq hnot]
    simp [c2, c1, cellWidth]
    omega
  have hkeep : ∀ a, a = RS_R_LO ∨ a = RS_R_HI → c4.cell a = d.cell a := by
    intro a ha
    have hnot : a ∉ {a | a = RS_TMP2 ∨ (FN_TX + 4 ≤ a ∧ a < FN_TX + 4 + n)} := by
      rintro (h | ⟨h, -⟩)
      · rcases ha with rfl | rfl <;> simp at h
      · rcases ha with rfl | rfl <;> simp at h
    simp only [c4, Cpu.sto_cell]
    rw [if_neg (by rcases ha with rfl | rfl <;> decide), if_neg (by rcases ha with rfl | rfl <;> decide),
      hf3.cell_eq hnot]
    rcases ha with rfl | rfl <;> simp [c2, c1]
  have hst : staged ((c4.sto NREQ_LO (c4.cell LS_TMPB + 4)).sto NREQ_HI 0) = chunkFrame c pos := by
    have hw : word ((c4.sto NREQ_LO (c4.cell LS_TMPB + 4)).sto NREQ_HI 0) NREQ_LO NREQ_HI =
        n + 4 := by
      simp [word, cellWidth, htmp]
      omega
    have hhead : ∀ i < 4, c4.cell (FN_TX + i) =
        [n + 3, FT_STATE, pos % 256, pos / 256].getD i 0 := by
      intro i hi
      have hnot : FN_TX + i ∉ {a | a = RS_TMP2 ∨ (FN_TX + 4 ≤ a ∧ a < FN_TX + 4 + n)} := by
        rintro (h | ⟨h, -⟩)
        · simp only [FN_TX, RS_TMP2] at h
          omega
        · omega
      simp only [c4, Cpu.sto_cell]
      rw [if_neg (by simp only [FN_TX, RS_POS_HI]; omega),
        if_neg (by simp only [FN_TX, RS_POS_LO]; omega), hf3.cell_eq hnot]
      simp only [c2, Cpu.blit_cell]
      rw [if_pos ⟨by omega, by simp only [List.length_cons, List.length_nil]; omega⟩,
        cellWidth_cart (by simp only [FN_TX]; omega) (by simp only [FN_TX]; omega),
        Nat.add_sub_cancel_left]
      have hcase : i = 0 ∨ i = 1 ∨ i = 2 ∨ i = 3 := by omega
      rcases hcase with rfl | rfl | rfl | rfl
      · simp
        omega
      · rfl
      · rfl
      · simp only [List.getD_cons_succ, List.getD_cons_zero, swap]
        omega
    have hbody : ∀ i < n, c4.cell (FN_TX + 4 + i) = IMG_GET c (pos + i) := by
      intro i hi
      simp only [c4, Cpu.sto_cell]
      rw [if_neg (by simp only [FN_TX, RS_POS_HI]; omega),
        if_neg (by simp only [FN_TX, RS_POS_LO]; omega), hcell i hi]
    have hcells : ∀ i < n + 4, ((c4.sto NREQ_LO (c4.cell LS_TMPB + 4)).sto NREQ_HI 0).cell (FN_TX + i) =
        c4.cell (FN_TX + i) := by
      intro i hi
      simp only [Cpu.sto_cell]
      rw [if_neg (by simp only [FN_TX, NREQ_HI]; omega), if_neg (by simp only [FN_TX, NREQ_LO]; omega)]
    unfold staged chunkFrame
    rw [hw, hlen, show n + 4 = 4 + n by omega, List.range_add, List.map_append, List.map_map]
    refine congrArg₂ _ ?_ (List.map_congr_left ?_)
    · simp only [List.range_succ, List.range_zero, List.nil_append, List.map_cons, List.map_nil,
        List.cons_append]
      rw [hcells 0 (by omega), hcells 1 (by omega), hcells 2 (by omega), hcells 3 (by omega),
        hhead 0 (by omega), hhead 1 (by omega), hhead 2 (by omega), hhead 3 (by omega)]
      rfl
    · intro i hi
      have hi' := List.mem_range.mp hi
      rw [Function.comp_apply, hcells (4 + i) (by omega), ← Nat.add_assoc, hbody i hi']
  have hwrite := frame_NET_WRITE ((c4.sto NREQ_LO (c4.cell LS_TMPB + 4)).sto NREQ_HI 0)
  have hnot : ∀ a, a = RS_R_LO ∨ a = RS_R_HI ∨ a = RS_POS_LO ∨ a = RS_POS_HI → a ∉ MailboxArea := by
    intro a ha
    rcases ha with rfl | rfl | rfl | rfl <;> simp [MailboxArea]
  refine ⟨⟨?_, ?_, ?_, ?_⟩, ?_⟩
  · rw [← hst]
    exact (sends_NET_WRITE _).after_silent hout3 hrep3
  · refine Frame.trans ((h4.sto ?_).sto ?_) (hwrite.mono mailbox_push) <;>
      exact mailbox_push (by simp [MailboxArea])
  · rw [hwrite.cell_eq (hnot _ (by simp)), ← hkeep _ (Or.inl rfl)]
    simp
  · rw [hwrite.cell_eq (hnot _ (by simp)), ← hkeep _ (Or.inr rfl)]
    simp
  · unfold word
    rw [hwrite.cell_eq (hnot _ (by simp)), hwrite.cell_eq (hnot _ (by simp))]
    simp [c4, cellWidth, swap]
    omega

/-- The loop of a push sends the remaining chunks. -/
theorem pushStep_sendImage (fuel : ℕ) (c d : Cpu) (pos : ℕ) (hpos : pos ≤ IMG_TOTAL)
    (hword : word d RS_POS_LO RS_POS_HI = pos) (himg : ∀ a ∈ ImageCells, d.cell a = c.cell a) :
    PushStep (chunkFrames c pos fuel).flatten d (sendImage d fuel) := by
  induction fuel generalizing d pos with
  | zero => exact ⟨Sends.silent rfl rfl, Frame.refl _ d, rfl, rfl⟩
  | succ fuel ih =>
    have hp : pos ≤ 769 := hpos
    have hleft : (IMG_TOTAL + 65536 - pos) % 65536 = IMG_TOTAL - pos := by
      simp only [IMG_TOTAL]
      omega
    have hlen : (if slt16 (IMG_TOTAL - pos) RS_CHUNK then IMG_TOTAL - pos else RS_CHUNK) =
        chunkLen pos := by
      have hs : slt16 (IMG_TOTAL - pos) RS_CHUNK = decide (IMG_TOTAL - pos < RS_CHUNK) :=
        slt16_of_lt (by simp only [IMG_TOTAL]; omega) (by decide)
      rw [hs]
      simp only [decide_eq_true_eq]
      rfl
    rw [sendImage, chunkFrames]
    simp only [hword, hleft, hlen]
    by_cases hdone : pos = IMG_TOTAL
    · rw [if_pos hdone, if_pos (by omega)]
      exact ⟨Sends.silent rfl rfl, Frame.refl _ d, rfl, rfl⟩
    · rw [if_neg hdone, if_neg (by omega), List.flatten_cons]
      obtain ⟨hstep, hnext⟩ := pushStep_sendChunk c d pos hpos himg
      exact hstep.trans (ih _ _ (chunkLen_le hpos).2 hnext fun a ha =>
        (hstep.image a ha).trans (himg a ha))

/-- The push up to its re-baseline. -/
structure Pushed (c d : Cpu) : Prop where
  eq : RS_PUSH c = RS_REBASE d
  sends : Sends (pushFrames c).flatten c d
  frame : Frame PushArea c d
  tick_lo : d.cell RS_R_LO = pushTick c % 256
  tick_hi : d.cell RS_R_HI = pushTick c / 256

/-- The push up to its re-baseline, as `RS_PUSH` computes it.
SOURCE: resync.asm:163-255 -/
def pushBody (c : Cpu) : Cpu :=
  let c := RS_ENTER_HOLD c
  let r := (word c TICK_LO TICK_HI + 16) % 65536
  let c := (c.sto RS_R_LO r).sto RS_R_HI (swap r)
  let c := sendFrame c [5, FT_STATE, 0, 0xFF, c.cell RS_R_LO, c.cell RS_R_HI]
  let c := sendImage ((c.sto RS_POS_LO 0).sto RS_POS_HI 0) 9
  sendFrame c [3, FT_STATE, 1, 0xFF]

/-- A push sends its frames and then re-baselines to the tick it agreed on. -/
theorem pushed (c : Cpu) : Pushed c (pushBody c) := by
  have htick : pushTick c < 65536 := Nat.mod_lt _ (by decide)
  have hentered : Frame PushArea c (RS_ENTER_HOLD c) := (frame_RS_ENTER_HOLD c).mono (by
    rintro a (h | h)
    · exact Or.inl (Or.inl (Or.inr h))
    · exact Or.inl (Or.inr h))
  have hword : word (RS_ENTER_HOLD c) TICK_LO TICK_HI = tickWord c := by
    have hnot : ∀ a, a = TICK_LO ∨ a = TICK_HI → (RS_ENTER_HOLD c).cell a = c.cell a := by
      intro a ha
      rcases ha with rfl | rfl <;> simp [RS_ENTER_HOLD, RS_CLR_CRC]
    unfold tickWord word
    rw [hnot _ (Or.inl rfl), hnot _ (Or.inr rfl)]
  suffices h : Sends (pushFrames c).flatten c (pushBody c) ∧ Frame PushArea c (pushBody c) ∧
      (pushBody c).cell RS_R_LO = pushTick c % 256 ∧ (pushBody c).cell RS_R_HI = pushTick c / 256 from
    ⟨rfl, h.1, h.2.1, h.2.2.1, h.2.2.2⟩
  unfold pushBody
  simp only [hword]
  generalize hc2 : ((RS_ENTER_HOLD c).sto RS_R_LO ((tickWord c + 16) % 65536)).sto RS_R_HI
    (swap ((tickWord c + 16) % 65536)) = c2
  have h2 : Frame PushArea c c2 := by
    rw [← hc2]
    refine (hentered.sto ?_).sto ?_ <;> exact resync_push (by simp [ResyncVars])
  have h2lo : c2.cell RS_R_LO = pushTick c % 256 := by
    rw [← hc2]
    simp [cellWidth, pushTick]
  have h2hi : c2.cell RS_R_HI = pushTick c / 256 := by
    rw [← hc2]
    simp only [Cpu.sto_cell, if_true, swap]
    rw [cellWidth_cart (by decide) (by decide)]
    unfold pushTick at htick ⊢
    omega
  have h2out : c2.out = c.out ∧ c2.replies = c.replies := by
    rw [← hc2]
    simp [RS_ENTER_HOLD, RS_CLR_CRC]
  have hbegin := pushStep_sendFrame c2 [5, FT_STATE, 0, 0xFF, c2.cell RS_R_LO, c2.cell RS_R_HI]
    (by simp)
  generalize hc3 : sendFrame c2 [5, FT_STATE, 0, 0xFF, c2.cell RS_R_LO, c2.cell RS_R_HI] = c3
    at hbegin ⊢
  have h4 : Frame PushArea c3 ((c3.sto RS_POS_LO 0).sto RS_POS_HI 0) := by
    refine ((Frame.refl _ c3).sto ?_).sto ?_ <;> exact resync_push (by simp [ResyncVars])
  have himage := pushStep_sendImage 9 c ((c3.sto RS_POS_LO 0).sto RS_POS_HI 0) 0 (by decide)
    (by simp [word]) fun a ha => (h4.cell_eq (image_not_push ha)).trans
      ((hbegin.image a ha).trans (h2.cell_eq (image_not_push ha)))
  generalize hc5 : sendImage ((c3.sto RS_POS_LO 0).sto RS_POS_HI 0) 9 = c5 at himage ⊢
  have hend := pushStep_sendFrame c5 [3, FT_STATE, 1, 0xFF] (by simp)
  refine ⟨?_, ?_, ?_, ?_⟩
  · have hsend := ((hbegin.sends.after_silent h2out.1 h2out.2).trans
      (himage.sends.after_silent (c := c3) rfl rfl)).trans hend.sends
    have hbytes : [5, FT_STATE, 0, 0xFF, c2.cell RS_R_LO, c2.cell RS_R_HI].map (· % 256) =
        beginFrame c := by
      rw [h2lo, h2hi]
      simp [beginFrame]
      omega
    rw [hbytes] at hsend
    have hflat : (pushFrames c).flatten = beginFrame c ++ (chunkFrames c 0 9).flatten ++
        [3, FT_STATE, 1, 0xFF].map (· % 256) := by
      simp [pushFrames]
    rw [hflat]
    exact hsend
  · exact ((h2.trans hbegin.frame).trans (h4.trans himage.frame)).trans hend.frame
  · rw [hend.tick_lo, himage.tick_lo, Cpu.sto_cell, if_neg (by decide), Cpu.sto_cell,
      if_neg (by decide), hbegin.tick_lo, h2lo]
  · rw [hend.tick_hi, himage.tick_hi, Cpu.sto_cell, if_neg (by decide), Cpu.sto_cell,
      if_neg (by decide), hbegin.tick_hi, h2hi]

end BoxingNetplay.Interface
