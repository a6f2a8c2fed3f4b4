import BoxingNetplay.Interface.Push
import BoxingNetplay.Interface.Pump

/-!
# A guest receiving an image

What `RS_ON_STATE` does with each frame of a push, on any machine whose frame buffer holds that
frame: BEGIN opens the hold, a chunk extends the prefix of positions that agree with the
host's image, END re-baselines.
-/

set_option autoImplicit false

namespace BoxingNetplay.Interface

open BoxingNetplay.Library
open BoxingNetplay.Model

/-! ### The frames of a push are frames of a peer -/

/-- BEGIN, the chunks and END are complete STATE frames. -/
theorem peerFrame_begin (H : Cpu) : PeerFrame (beginFrame H) :=
  ⟨⟨rfl, rfl⟩, by simp [beginFrame], fun h => by simp [beginFrame] at h⟩

theorem peerFrame_end : PeerFrame endFrame := ⟨⟨rfl, rfl⟩, by simp, fun h => by simp at h⟩

theorem peerFrame_chunk (H : Cpu) {pos : ℕ} (h : pos ≤ IMG_TOTAL) : PeerFrame (chunkFrame H pos) := by
  have hlen := (chunkLen_le h).1
  refine ⟨⟨?_, ?_⟩, by simp [chunkFrame], fun h => by simp [chunkFrame] at h⟩
  · have hok : ∀ n ≤ 96, flenOk FT_STATE (n + 3) = true := by decide
    exact hok _ hlen
  · simp

/-- The chunk at a position has four bytes before its image bytes. -/
theorem length_chunkFrame (H : Cpu) (pos : ℕ) : (chunkFrame H pos).length = chunkLen pos + 4 := by
  simp [chunkFrame]

/-- The chunks of a push are such frames. -/
theorem peerFrame_chunks (fuel : ℕ) (H : Cpu) {pos : ℕ} (h : pos ≤ IMG_TOTAL) :
    ∀ f ∈ chunkFrames H pos fuel, PeerFrame f := by
  induction fuel generalizing pos with
  | zero => simp [chunkFrames]
  | succ fuel ih =>
    intro f hf
    rw [chunkFrames] at hf
    split at hf
    · cases hf
    · rcases List.mem_cons.mp hf with rfl | hf
      · exact peerFrame_chunk H h
      · exact ih (chunkLen_le h).2 f hf

theorem peerFrame_push (H : Cpu) : ∀ f ∈ pushFrames H, PeerFrame f := by
  intro f hf
  rcases List.mem_cons.mp hf with rfl | hf
  · exact peerFrame_begin H
  rcases List.mem_append.mp hf with hf | hf
  · exact peerFrame_chunks 9 H (Nat.zero_le _) f hf
  · rw [List.mem_singleton.mp hf]
    exact peerFrame_end

/-! ### The applier -/

/-- The frame buffer. -/
def FrameBuffer : Set ℕ := {a | FRMBUF ≤ a ∧ a < FRMBUF + 128}

/-- The frame buffer is apart from what the applier and a re-baseline store to. -/
theorem frameBuffer_apart {a : ℕ} (h : a ∈ FrameBuffer) :
    a ∉ ApplyArea ∧ a ∉ ImageCells ∧ a ∉ ResyncVars ∧ a ∉ CrcRecords := by
  obtain ⟨h1, h2⟩ := h
  simp only [FRMBUF] at h1 h2
  have himg : a ∉ ImageCells := by
    rintro (h | h | h | h)
    · omega
    · omega
    · omega
    · simp only [RS_TAILTBL, List.mem_cons, List.not_mem_nil, or_false] at h
      rcases h with h | h | h | h | h | h | h | h | h | h | h | h | h | h <;> simp at h <;> omega
  refine ⟨?_, himg, ?_, ?_⟩
  · rintro (h | h)
    · rcases h with h | h | h | h <;> simp at h <;> omega
    · exact himg h
  · simp only [ResyncVars, RESYNC_HOLD, RS_TMP2, DIAG_REJ, RS_PEND, RS_PTMO, TICK_LO, TICK_HI,
      LS_WAITC_LO, LS_WAITC_HI]
    rintro (h | h | h | h | h | h | h | h) <;> omega
  · rintro ⟨h3, -⟩
    simp only [OWN_CRC] at h3
    omega

/-- Applying a chunk writes its bytes to its positions and changes no other position. -/
theorem applyImage_image (n : ℕ) (c : Cpu) (r3 pos : ℕ) (hlo : c.cell RS_POS_LO = pos % 256)
    (hhi : c.cell RS_POS_HI = pos / 256) (h : pos + n ≤ IMG_TOTAL)
    (h3 : FRMBUF ≤ r3 ∧ r3 + n ≤ FRMBUF + 128) {q : ℕ} (hq : q < IMG_TOTAL) :
    IMG_GET (applyImage c r3 n) q =
      if pos ≤ q ∧ q < pos + n then c.cell (r3 + (q - pos)) else IMG_GET c q := by
  induction n generalizing c r3 pos with
  | zero =>
    rw [if_neg (by omega)]
    rfl
  | succ n ih =>
    have hpos : pos < IMG_TOTAL := by omega
    have h3' := h3
    simp only [FRMBUF] at h3'
    have hv : c.cell r3 < 256 := c.cell_lt_cart (by omega) (by omega)
    obtain ⟨d, heq, hdlo, hdhi, hd⟩ := applyImage_succ c r3 n hlo hhi hpos
    have hround := frame_apply_round hpos hd
    have himg : IMG_GET d q = IMG_GET (IMG_PUT c pos (c.cell r3)) q := by
      refine IMG_GET_congr (fun a ha => hd.cell_eq ?_) hq
      rintro (h | h | h)
      · exact pos_not_image (Or.inl h) ha
      · exact pos_not_image (Or.inr h) ha
      · exact image_not_push ha (resync_push (by rw [h]; simp [ResyncVars]))
    rw [heq, ih d (r3 + 1) (pos + 1) hdlo hdhi (by omega) ⟨by omega, by omega⟩]
    by_cases hin : pos + 1 ≤ q ∧ q < pos + 1 + n
    · have hcell : d.cell (r3 + 1 + (q - (pos + 1))) = c.cell (r3 + 1 + (q - (pos + 1))) :=
        hround.cell_eq (frameBuffer_apart ⟨by omega, by omega⟩).1
      rw [if_pos hin, if_pos (by omega), hcell,
        show r3 + 1 + (q - (pos + 1)) = r3 + (q - pos) by omega]
    · rw [if_neg hin, himg]
      by_cases hqp : q = pos
      · rw [hqp, if_pos (by omega), IMG_GET_PUT c hpos hv, Nat.sub_self, Nat.add_zero]
      · rw [if_neg (by omega), IMG_GET_PUT_other c hpos hq hqp hv]

/-! ### Receiving -/

/-- A guest that has received the positions below `p` of the image of `H`. -/
structure Receiving (H g : Cpu) (p : ℕ) : Prop where
  hold : g.cell RESYNC_HOLD ≠ 0
  tick_lo : g.cell RS_R_LO = pushTick H % 256
  tick_hi : g.cell RS_R_HI = pushTick H / 256
  image : ∀ q < p, IMG_GET g q = IMG_GET H q

/-- What it needs: the hold flag, the agreed tick and the image. -/
def ReceiveCells : Set ℕ := {a | a = RESYNC_HOLD ∨ a = RS_R_LO ∨ a = RS_R_HI} ∪ ImageCells

/-- Whatever leaves those alone keeps what was received. -/
theorem Receiving.congr {H g d : Cpu} {p : ℕ} (h : Receiving H g p) (hp : p ≤ IMG_TOTAL)
    (heq : ∀ a ∈ ReceiveCells, d.cell a = g.cell a) : Receiving H d p := by
  refine ⟨?_, ?_, ?_, fun q hq => ?_⟩
  · rw [heq _ (Or.inl (Or.inl rfl))]
    exact h.hold
  · rw [heq _ (Or.inl (Or.inr (Or.inl rfl)))]
    exact h.tick_lo
  · rw [heq _ (Or.inl (Or.inr (Or.inr rfl)))]
    exact h.tick_hi
  · rw [IMG_GET_congr (fun a ha => heq a (Or.inr ha)) (by omega)]
    exact h.image q hq

/-- What BEGIN stores to. -/
def BeginArea : Set ℕ :=
  {a | a = RESYNC_HOLD ∨ a = RS_TO_LO ∨ a = RS_TO_HI ∨ a = RS_R_LO ∨ a = RS_R_HI} ∪ CrcRecords

/-- BEGIN opens the hold and sets the agreed tick. -/
theorem receiving_begin {H d : Cpu} (hc : Carries d (beginFrame H)) :
    Receiving H (RS_ON_STATE d) 0 ∧ Frame BeginArea d (RS_ON_STATE d) := by
  have hcell : ∀ i < 6, d.cell (FRMBUF + i) = (beginFrame H).getD i 0 :=
    fun i hi => hc.cell (by simpa [beginFrame] using hi)
  have htick : pushTick H < 65536 := Nat.mod_lt _ (by decide)
  have h0 : d.cell FRMBUF = 5 := hcell 0 (by omega)
  have h2 : d.cell (FRMBUF + 2) = 0 := hcell 2 (by omega)
  have h3 : d.cell (FRMBUF + 3) = 0xFF := hcell 3 (by omega)
  have h4 : d.cell (FRMBUF + 4) = pushTick H % 256 := hcell 4 (by omega)
  have h5 : d.cell (FRMBUF + 5) = pushTick H / 256 := hcell 5 (by omega)
  have henter : Frame BeginArea d (RS_ENTER_HOLD d) := by
    refine Frame.trans ((((Frame.refl _ d).sto ?_).sto ?_).sto ?_)
      ((frame_RS_CLR_CRC _).mono fun _ h => Or.inr h) <;> exact Or.inl (by simp)
  have hkeep : ∀ a, a = FRMBUF + 4 ∨ a = FRMBUF + 5 → (RS_ENTER_HOLD d).cell a = d.cell a := by
    intro a ha
    rcases ha with rfl | rfl <;> simp [RS_ENTER_HOLD, RS_CLR_CRC]
  unfold RS_ON_STATE
  simp only [h0, h2, h3]
  rw [if_neg (by decide), if_pos trivial, if_pos trivial, if_neg (by decide)]
  refine ⟨⟨?_, ?_, ?_, fun q hq => absurd hq (Nat.not_lt_zero q)⟩, ?_⟩
  · simp [RS_ENTER_HOLD, RS_CLR_CRC, cellWidth]
  · rw [Cpu.sto_cell, if_neg (by decide), Cpu.sto_cell, if_pos rfl, hkeep _ (Or.inl rfl), h4,
      cellWidth_cart (by decide) (by decide)]
    omega
  · rw [Cpu.sto_cell, if_pos rfl, hkeep _ (Or.inr rfl), h5,
      cellWidth_cart (by decide) (by decide)]
    omega
  · refine (henter.sto ?_).sto ?_ <;> exact Or.inl (by simp)

/-- And invalidates the records. -/
theorem begin_records {H d : Cpu} (hc : Carries d (beginFrame H)) :
    ∀ i < 32, (RS_ON_STATE d).cell (OWN_CRC + i) = 0xFF := by
  have hcell : ∀ i < 6, d.cell (FRMBUF + i) = (beginFrame H).getD i 0 := fun i hi => hc.cell hi
  have h0 : d.cell FRMBUF = 5 := hcell 0 (by omega)
  have h2 : d.cell (FRMBUF + 2) = 0 := hcell 2 (by omega)
  have h3 : d.cell (FRMBUF + 3) = 0xFF := hcell 3 (by omega)
  intro i hi
  unfold RS_ON_STATE
  simp only [h0, h2, h3]
  rw [if_neg (by decide), if_pos trivial, if_pos trivial, if_neg (by decide), Cpu.sto_cell,
    if_neg (by simp only [OWN_CRC, RS_R_HI]; omega), Cpu.sto_cell,
    if_neg (by simp only [OWN_CRC, RS_R_LO]; omega)]
  unfold RS_ENTER_HOLD RS_CLR_CRC
  rw [Cpu.fill_cell, if_pos ⟨by omega, by omega⟩, cellWidth_cart (by simp only [OWN_CRC]; omega)
    (by simp only [OWN_CRC]; omega)]
  rfl

/-- What `RS_ON_STATE` does with the frame in the buffer: it opens a hold, re-baselines, applies a chunk,
or at most counts a refusal.
SOURCE: resync.asm:267-355 -/
inductive StateStep (c : Cpu) : Cpu → Prop where
  | begins (h : 5 ≤ c.cell FRMBUF ∧ c.cell (FRMBUF + 3) = 0xFF ∧ c.cell (FRMBUF + 2) = 0) :
      StateStep c (((RS_ENTER_HOLD c).sto RS_R_LO ((RS_ENTER_HOLD c).cell (FRMBUF + 4))).sto RS_R_HI
        (((RS_ENTER_HOLD c).sto RS_R_LO ((RS_ENTER_HOLD c).cell (FRMBUF + 4))).cell (FRMBUF + 5)))
  | rebases (h : 3 ≤ c.cell FRMBUF ∧ c.cell (FRMBUF + 3) = 0xFF ∧ c.cell (FRMBUF + 2) = 1 ∧
      c.cell RESYNC_HOLD ≠ 0) : StateStep c (RS_REBASE c)
  | applies (h : 3 < c.cell FRMBUF ∧ c.cell (FRMBUF + 3) ≠ 0xFF ∧ c.cell RESYNC_HOLD ≠ 0 ∧
      c.cell (FRMBUF + 3) < 4 ∧
      c.cell (FRMBUF + 3) * 256 + c.cell (FRMBUF + 2) + (c.cell FRMBUF - 3) ≤ IMG_TOTAL) (c' : Cpu)
      (hf : Frame ApplyArea c c') : StateStep c c'
  | neither (hb : ¬ (5 ≤ c.cell FRMBUF ∧ c.cell (FRMBUF + 3) = 0xFF ∧ c.cell (FRMBUF + 2) = 0))
      (hr : ¬ (3 ≤ c.cell FRMBUF ∧ c.cell (FRMBUF + 3) = 0xFF ∧ c.cell (FRMBUF + 2) = 1 ∧
        c.cell RESYNC_HOLD ≠ 0)) (c' : Cpu) (hf : Frame {a | a = RS_TMP2 ∨ a = DIAG_REJ} c c') :
      StateStep c c'

/-- One of these is what it does. -/
theorem state_cases (c : Cpu) : StateStep c (RS_ON_STATE c) := by
  have hbad : ∀ d, Frame {a | a = RS_TMP2 ∨ a = DIAG_REJ} d (RS_BAD d) := fun d =>
    frame_DIAG_BUMP d (Or.inr rfl)
  unfold RS_ON_STATE
  extract_lets len c1 count c2 posHi c3
  split
  · exact .neither (by omega) (by omega) _ (hbad c)
  split
  · split
    · split
      · exact .neither (by omega) (by omega) _ (hbad c)
      · exact .begins ⟨by omega, ‹_›, ‹_›⟩
    · split
      · rename_i hlen hff _ hend
        exact .rebases ⟨Nat.not_lt.mp hlen, hff, hend⟩
      · rename_i hzero hend
        exact .neither (fun h => hzero h.2.2) (fun h => hend h.2.2) _ (Frame.refl _ c)
  · rename_i hlen hff
    have hnot : ∀ {p : Prop} {q : Prop}, ¬ (p ∧ c.cell (FRMBUF + 3) = 0xFF ∧ q) := fun h => hff h.2.1
    have h2 : Frame {a | a = RS_TMP2 ∨ a = DIAG_REJ} c c2 := (Frame.refl _ c).sto (Or.inl rfl)
    split
    · exact .neither hnot hnot _ (hbad c)
    split
    · exact .neither hnot hnot _ (hbad c)
    split
    · exact .neither hnot hnot _ (h2.trans (hbad c2))
    split
    · exact .neither hnot hnot _ (h2.trans (hbad c2))
    rename_i hhold hthree hfour hfit
    have hkeep : ∀ a, a = FRMBUF + 2 ∨ a = FRMBUF + 3 → c2.cell a = c.cell a := by
      rintro a (rfl | rfl) <;> simp [c2]
    have hlo : c.cell (FRMBUF + 2) < 256 := c.cell_lt_cart (by decide) (by decide)
    have hhi : c.cell (FRMBUF + 3) < 256 := c.cell_lt_cart (by decide) (by decide)
    have hposHi : posHi = c.cell (FRMBUF + 3) := hkeep _ (Or.inr rfl)
    rw [hposHi] at hfour
    rw [hposHi, hkeep _ (Or.inl rfl)] at hfit
    have hposlo : c3.cell RS_POS_LO = c.cell (FRMBUF + 2) := by
      simp [c3, c2, cellWidth]
      exact hlo
    have hposhi : c3.cell RS_POS_HI = c.cell (FRMBUF + 3) := by
      simp [c3, c2, cellWidth]
      exact hhi
    have h3 : Frame ApplyArea c c3 := by
      refine (((Frame.refl _ c).sto ?_).sto ?_).sto ?_ <;> exact Or.inl (by simp)
    exact .applies ⟨by omega, hff, hhold, by omega, by omega⟩ _
      (h3.trans (frame_applyImage count c3 (FRMBUF + 4)
        (c.cell (FRMBUF + 3) * 256 + c.cell (FRMBUF + 2)) (by omega) (by omega) (by omega)))

/-- Opening a hold stores what a BEGIN stores. -/
theorem frame_begin (c : Cpu) (lo hi : ℕ) :
    Frame BeginArea c (((RS_ENTER_HOLD c).sto RS_R_LO lo).sto RS_R_HI hi) := by
  have henter : Frame BeginArea c (RS_ENTER_HOLD c) := by
    refine Frame.trans ((((Frame.refl _ c).sto ?_).sto ?_).sto ?_)
      ((frame_RS_CLR_CRC _).mono fun _ h => Or.inr h) <;> exact Or.inl (by simp)
  refine (henter.sto ?_).sto ?_ <;> exact Or.inl (by simp)

/-- A STATE frame that does not re-baseline stores what a BEGIN or the applier stores, or counts a
refusal. -/
theorem frame_state_applies (c : Cpu) (h : ¬ (3 ≤ c.cell FRMBUF ∧ c.cell (FRMBUF + 3) = 0xFF ∧
    c.cell (FRMBUF + 2) = 1 ∧ c.cell RESYNC_HOLD ≠ 0)) :
    Frame (BeginArea ∪ ApplyArea ∪ {a | a = DIAG_REJ}) c (RS_ON_STATE c) := by
  have hstep := state_cases c
  generalize RS_ON_STATE c = d at hstep ⊢
  cases hstep with
  | begins => exact (frame_begin c _ _).mono fun _ ha => Or.inl (Or.inl ha)
  | rebases hr => exact absurd hr h
  | applies _ _ hf => exact hf.mono fun _ ha => Or.inl (Or.inr ha)
  | neither _ _ _ hf =>
    apply hf.mono
    rintro a (rfl | rfl)
    · exact Or.inl (Or.inr (Or.inl (Or.inr (Or.inl rfl))))
    · exact Or.inr rfl

/-- Where the applier stores no resync flag, agreed tick, refusal count or delay is. -/
theorem flags_not_apply {a : ℕ} (ha : a = RESYNC_HOLD ∨ a = RS_R_LO ∨ a = RS_R_HI ∨
    a = DIAG_REJ ∨ a = NET_DELAY) : a ∉ ApplyArea := by
  rintro (h | h)
  · rcases ha with rfl | rfl | rfl | rfl | rfl <;> simp at h
  · rcases ha with rfl | rfl | rfl | rfl | rfl <;> simp [ImageCells, RS_TAILTBL] at h

/-- Handling a chunk in a hold: the applier runs from its position over its bytes. -/
structure ChunkHandled (H d e : Cpu) (p : ℕ) : Prop where
  eq : RS_ON_STATE d = applyImage e (FRMBUF + 4) (chunkLen p)
  frame : Frame {a | a = RS_TMP ∨ a = RS_TMP2 ∨ a = RS_POS_LO ∨ a = RS_POS_HI} d e
  pos_lo : e.cell RS_POS_LO = p % 256
  pos_hi : e.cell RS_POS_HI = p / 256
  body : ∀ i < chunkLen p, d.cell (FRMBUF + 4 + i) = IMG_GET H (p + i)

/-- A chunk that is handled in a hold is applied. -/
theorem chunkHandled {H d : Cpu} {p : ℕ} (hh : d.cell RESYNC_HOLD ≠ 0) (hp : p < IMG_TOTAL)
    (hc : Carries d (chunkFrame H p)) : ∃ e, ChunkHandled H d e p := by
  obtain ⟨hn, hend⟩ := chunkLen_le (Nat.le_of_lt hp)
  have hpos := chunkLen_pos hp
  have hcell : ∀ i < chunkLen p + 4, d.cell (FRMBUF + i) = (chunkFrame H p).getD i 0 :=
    fun i hi => hc.cell (by rwa [length_chunkFrame])
  simp only [IMG_TOTAL] at hp hend
  have h0 : d.cell FRMBUF = chunkLen p + 3 := by
    rw [show FRMBUF = FRMBUF + 0 from rfl, hcell 0 (by omega)]
    simp [chunkFrame]
  have h2 : d.cell (FRMBUF + 2) = p % 256 := by
    rw [hcell 2 (by omega)]
    simp [chunkFrame]
  have h3 : d.cell (FRMBUF + 3) = p / 256 := by
    rw [hcell 3 (by omega)]
    simp [chunkFrame]
  have hc2 : ∀ a, a = FRMBUF + 2 ∨ a = FRMBUF + 3 →
      (d.sto RS_TMP2 (chunkLen p)).cell a = d.cell a := by
    intro a ha
    rw [Cpu.sto_cell, if_neg (by rcases ha with rfl | rfl <;> decide)]
  refine ⟨((d.sto RS_TMP2 (chunkLen p)).sto RS_POS_LO (p % 256)).sto RS_POS_HI (p / 256),
    ?_, ?_, ?_, ?_, ?_⟩
  · unfold RS_ON_STATE
    simp only [h0, show chunkLen p + 3 - 3 = chunkLen p by omega, hc2 _ (Or.inl rfl),
      hc2 _ (Or.inr rfl), h2, h3]
    rw [if_neg (by omega), if_neg (by omega), if_neg hh, if_neg (by omega), if_neg (by omega),
      if_neg (by simp only [IMG_TOTAL]; omega)]
  · refine (((Frame.refl _ d).sto ?_).sto ?_).sto ?_ <;> simp
  · simp [cellWidth]
  · simp [cellWidth]
    omega
  · intro i hi
    rw [Nat.add_assoc, hcell (4 + i) (by omega), List.getD_eq_getElem?_getD]
    simp only [chunkFrame, List.cons_append, List.nil_append,
      show 4 + i = i + 1 + 1 + 1 + 1 by omega, List.getElem?_cons_succ, List.getElem?_map,
      List.getElem?_range hi, Option.map_some, Option.getD_some]

/-- Handling a chunk stores where the applier does. -/
theorem ChunkHandled.frame_state {H d e : Cpu} {p : ℕ} (h : ChunkHandled H d e p)
    (hp : p < IMG_TOTAL) : Frame ApplyArea d (RS_ON_STATE d) := by
  rw [h.eq]
  exact (h.frame.mono fun _ h => Or.inl h).trans
    (frame_applyImage _ e _ p h.pos_lo h.pos_hi (chunkLen_le (Nat.le_of_lt hp)).2)

/-- A chunk that continues the prefix extends it. -/
theorem receiving_chunk {H d : Cpu} {p : ℕ} (hr : Receiving H d p) (hp : p < IMG_TOTAL)
    (hc : Carries d (chunkFrame H p)) :
    Receiving H (RS_ON_STATE d) (p + chunkLen p) ∧ Frame ApplyArea d (RS_ON_STATE d) := by
  obtain ⟨hn, hend⟩ := chunkLen_le (Nat.le_of_lt hp)
  obtain ⟨e, he⟩ := chunkHandled hr.hold hp hc
  have happ := he.frame_state hp
  have hkeep : ∀ a, a = RESYNC_HOLD ∨ a = RS_R_LO ∨ a = RS_R_HI →
      (RS_ON_STATE d).cell a = d.cell a := by
    intro a ha
    refine happ.cell_eq (flags_not_apply ?_)
    rcases ha with ha | ha | ha
    · exact Or.inl ha
    · exact Or.inr (Or.inl ha)
    · exact Or.inr (Or.inr (Or.inl ha))
  refine ⟨⟨?_, ?_, ?_, ?_⟩, happ⟩
  · rw [hkeep _ (by simp)]
    exact hr.hold
  · rw [hkeep _ (by simp)]
    exact hr.tick_lo
  · rw [hkeep _ (by simp)]
    exact hr.tick_hi
  · intro q hq
    have hqt : q < IMG_TOTAL := by omega
    rw [he.eq, applyImage_image _ e _ p he.pos_lo he.pos_hi hend ⟨by omega, by omega⟩ hqt]
    have heimg : ∀ a ∈ ImageCells, e.cell a = d.cell a := by
      intro a ha
      rw [he.frame.cell_eq]
      rintro h
      refine image_not_push ha (resync_push ?_)
      rcases h with rfl | rfl | rfl | rfl <;> simp [ResyncVars]
    by_cases hin : p ≤ q ∧ q < p + chunkLen p
    · have hecell : e.cell (FRMBUF + 4 + (q - p)) = d.cell (FRMBUF + 4 + (q - p)) := by
        refine he.frame.cell_eq ?_
        simp only [FRMBUF, RS_TMP, RS_TMP2, RS_POS_LO, RS_POS_HI]
        rintro (h | h | h | h) <;> omega
      rw [if_pos hin, hecell, he.body _ (by omega), show p + (q - p) = q by omega]
    · rw [if_neg hin, IMG_GET_congr heimg hqt]
      exact hr.image q (by omega)

/-- END re-baselines a guest that is in a hold. -/
theorem state_end {d : Cpu} (hh : d.cell RESYNC_HOLD ≠ 0) (hc : Carries d endFrame) :
    RS_ON_STATE d = RS_REBASE d := by
  have hcell : ∀ i < 4, d.cell (FRMBUF + i) = endFrame.getD i 0 := fun i hi => hc.cell (by simpa using hi)
  have h0 : d.cell FRMBUF = 3 := hcell 0 (by omega)
  have h2 : d.cell (FRMBUF + 2) = 1 := hcell 2 (by omega)
  have h3 : d.cell (FRMBUF + 3) = 0xFF := hcell 3 (by omega)
  unfold RS_ON_STATE
  simp only [h0, h2, h3]
  rw [if_neg (by decide), if_pos trivial, if_neg (by decide), if_pos ⟨trivial, hh⟩]

/-- The only image cells a re-baseline stores to are the saved interrupt vector. -/
theorem rebase_image {a : ℕ} (h : a ∈ ImageCells) (hr : a ∈ RebaseArea) :
    a = SC_ISR_SAVE ∨ a = SC_ISR_SAVE + 1 := by
  have hnot := image_not_push h
  rcases hr with (((hd | hv) | hrings) | hw) | hc
  · have hhigh : 0x0103 ≤ a ∧ (a < 0x015D → a = 0x0103) := by
      rcases h with h | h | h | h
      · omega
      · omega
      · omega
      · simp only [RS_TAILTBL, List.mem_cons, List.not_mem_nil, or_false] at h
        rcases h with h | h | h | h | h | h | h | h | h | h | h | h | h | h <;> simp at h <;> omega
    simp only [DisplayArea, STIC_CS, STIC_EXT, ISR_VEC_LO, ISR_VEC_HI, SC_ISR_SAVE, BX_CNT2_LO,
      BX_CNT4_HI] at hd ⊢
    rcases hd with hd | hd | hd | hd | hd | hd | hd <;> omega
  · exact absurd (resync_push hv) hnot
  · exfalso
    obtain ⟨h1, h2⟩ := hrings
    simp only [SEAT_RING] at h1
    rcases h with h | h | h | h
    · omega
    · omega
    · omega
    · simp only [RS_TAILTBL, List.mem_cons, List.not_mem_nil, or_false] at h
      rcases h with h | h | h | h | h | h | h | h | h | h | h | h | h | h <;> simp at h <;> omega
  · exfalso
    obtain ⟨h1, h2⟩ := hw
    simp only [SEAT_WM] at h1 h2
    rcases h with h | h | h | h
    · omega
    · omega
    · omega
    · simp only [RS_TAILTBL, List.mem_cons, List.not_mem_nil, or_false] at h
      rcases h with h | h | h | h | h | h | h | h | h | h | h | h | h | h <;> simp at h <;> omega
  · exact absurd (Or.inl (Or.inr hc)) hnot

/-- A re-baseline changes no image cell but the saved interrupt vector. -/
theorem rebased_image {c c' : Cpu} (h : Rebased c c') {a : ℕ} (ha : a ∈ ImageCells)
    (hne : a ≠ SC_ISR_SAVE ∧ a ≠ SC_ISR_SAVE + 1) : c'.cell a = c.cell a :=
  h.frame.cell_eq fun hr => (rebase_image ha hr).elim hne.1 hne.2

end BoxingNetplay.Interface
