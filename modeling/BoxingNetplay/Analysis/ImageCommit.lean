import BoxingNetplay.Analysis.HalfImage
import BoxingNetplay.Analysis.ImageTransfer
import BoxingNetplay.Interface.Inputs
import Mathlib.Order.Interval.Finset.Nat

/-!
# What an END commits

`RS_ON_STATE` keeps one flag about a transfer, the hold: an END inside a hold re-baselines, whatever has
been written since the BEGIN.  Here a console receives any STATE frames; the positions written since the
most recent BEGIN are recorded beside it.
-/

set_option autoImplicit false

namespace BoxingNetplay.Analysis

open BoxingNetplay.Library
open BoxingNetplay.Model
open BoxingNetplay.Interface

/-! ### One frame in the buffer -/

/-- The frame in the buffer is a BEGIN.
SOURCE: resync.asm:327-342 -/
def OpensTransfer (c : Cpu) : Prop :=
  c.cell (FRMBUF + 1) = FT_STATE ∧ 5 ≤ c.cell FRMBUF ∧ c.cell (FRMBUF + 3) = 0xFF ∧
    c.cell (FRMBUF + 2) = 0

instance (c : Cpu) : Decidable (OpensTransfer c) := inferInstanceAs (Decidable (_ ∧ _))

/-- The image position of the chunk in the buffer. -/
def chunkPos (c : Cpu) : ℕ := c.cell (FRMBUF + 3) * 256 + c.cell (FRMBUF + 2)

/-- The image positions `RS_ON_STATE` writes. -/
def imageWrites (c : Cpu) : Finset ℕ :=
  if AppliesImage c then Finset.Ico (chunkPos c) (chunkPos c + (c.cell FRMBUF - 3)) else ∅

/-- A chunk inside the bounds is applied from its position on. -/
theorem chunk_applied {d : Cpu} (h : AppliesImage d) :
    ∃ e, RS_ON_STATE d = applyImage e (FRMBUF + 4) (d.cell FRMBUF - 3) ∧
      Frame {a | a = RS_TMP2 ∨ a = RS_POS_LO ∨ a = RS_POS_HI} d e ∧
      e.cell RS_POS_LO = chunkPos d % 256 ∧ e.cell RS_POS_HI = chunkPos d / 256 := by
  obtain ⟨-, hlen, hctl, hhold, hhi, hend⟩ := h
  have hlo : d.cell (FRMBUF + 2) < 256 := d.cell_lt_cart (by simp) (by simp)
  generalize hc1 : d.sto RS_TMP2 (d.cell FRMBUF - 3) = c1
  have h2 : c1.cell (FRMBUF + 2) = d.cell (FRMBUF + 2) := hc1 ▸ sto_other d (by simp)
  have h3 : c1.cell (FRMBUF + 3) = d.cell (FRMBUF + 3) := hc1 ▸ sto_other d (by simp)
  refine ⟨(c1.sto RS_POS_LO (c1.cell (FRMBUF + 2))).sto RS_POS_HI (c1.cell (FRMBUF + 3)),
    ?_, ?_, ?_, ?_⟩
  · unfold RS_ON_STATE
    extract_lets len c count c' posHi c''
    have hc' : c' = c1 := hc1
    rw [if_neg (show ¬ len < 3 by omega), if_neg hctl, if_neg hhold,
      if_neg (show ¬ len = 3 by omega), if_neg (show ¬ 4 ≤ posHi by simp only [posHi, hc', h3]; omega),
      if_neg (show ¬ IMG_TOTAL + 1 ≤ posHi * 256 + c'.cell (FRMBUF + 2) + count by
        simp only [posHi, count, len, hc', h2, h3]; omega)]
    simp only [c'', hc']
    have hnext : (c1.sto RS_POS_LO (c1.cell (FRMBUF + 2))).cell (FRMBUF + 3) = c1.cell (FRMBUF + 3) :=
      sto_other c1 (by simp)
    rfl
  · rw [← hc1]
    exact (((Frame.refl _ d).sto (by simp)).sto (by simp)).sto (by simp)
  · rw [sto_other _ (by simp), sto_cart _ (by simp) (by simp) (h2 ▸ hlo), h2, chunkPos]
    omega
  · rw [sto_cart _ (by simp) (by simp) (by omega), h3, chunkPos]
    omega

/-- The bytes of a chunk are written to its positions, and no other position changes before a
re-baseline. -/
theorem writes_spec {d : Cpu} (hty : d.cell (FRMBUF + 1) = FT_STATE) (hlen : d.cell FRMBUF < 128)
    (hr : ¬ Rebases d) {p : ℕ} (hp : p < IMG_TOTAL) :
    IMG_GET (RS_ON_STATE d) p =
      if p ∈ imageWrites d then d.cell (FRMBUF + 4 + (p - chunkPos d)) else IMG_GET d p := by
  by_cases ha : AppliesImage d
  · have hw : imageWrites d = Finset.Ico (chunkPos d) (chunkPos d + (d.cell FRMBUF - 3)) := if_pos ha
    obtain ⟨e, heq, hf, hlo, hhi⟩ := chunk_applied ha
    have hin : chunkPos d + (d.cell FRMBUF - 3) ≤ IMG_TOTAL := ha.2.2.2.2.2
    rw [hw, heq, applyImage_image _ e _ _ hlo hhi hin ⟨by omega, by omega⟩ hp]
    simp only [Finset.mem_Ico]
    by_cases hm : chunkPos d ≤ p ∧ p < chunkPos d + (d.cell FRMBUF - 3)
    · rw [if_pos hm, if_pos hm]
      refine hf.cell_eq ?_
      simp only [Set.mem_ofPred_eq, FRMBUF, RS_TMP2, RS_POS_LO, RS_POS_HI]
      omega
    · rw [if_neg hm, if_neg hm]
      refine IMG_GET_congr (fun a hmem => hf.cell_eq ?_) hp
      rintro (rfl | rfl | rfl) <;> exact image_not_push hmem (resync_push (by simp [ResyncVars]))
  · have hw : imageWrites d = ∅ := if_neg ha
    rw [hw, if_neg (by simp)]
    exact IMG_GET_congr (image_of_neither d hty ha hr) hp

/-- The hold flag after a STATE frame: BEGIN opens the hold, END closes it. -/
theorem hold_of_begin {d : Cpu} (h : OpensTransfer d) : (RS_ON_STATE d).cell RESYNC_HOLD ≠ 0 := by
  obtain ⟨-, hlen, hctl, hpos⟩ := h
  unfold RS_ON_STATE
  extract_lets len c count c' posHi c''
  rw [if_neg (show ¬ len < 3 by omega), if_pos hctl, if_pos hpos,
    if_neg (show ¬ len < 5 by omega)]
  simp [c, RS_ENTER_HOLD, RS_CLR_CRC, cellWidth]

/-- An END inside a hold re-baselines, and that is all it does. -/
theorem state_of_end {d : Cpu} (h : Rebases d) : RS_ON_STATE d = RS_REBASE d := by
  obtain ⟨-, hlen, hctl, hpos, hhold⟩ := h
  unfold RS_ON_STATE
  extract_lets len c count c' posHi c''
  rw [if_neg (show ¬ len < 3 by omega), if_pos hctl, if_neg (by omega), if_pos ⟨hpos, hhold⟩]

/-- A frame that is neither keeps the hold as it is. -/
theorem hold_of_neither {d : Cpu} (hty : d.cell (FRMBUF + 1) = FT_STATE) (hb : ¬ OpensTransfer d)
    (hr : ¬ Rebases d) : (RS_ON_STATE d).cell RESYNC_HOLD = d.cell RESYNC_HOLD := by
  have hstep := state_cases d
  generalize RS_ON_STATE d = c at hstep ⊢
  cases hstep with
  | begins h => exact absurd ⟨hty, h⟩ hb
  | rebases h => exact absurd ⟨hty, h⟩ hr
  | applies _ _ hf => exact hf.cell_eq (flags_not_apply (Or.inl rfl))
  | neither _ _ _ hf => exact hf.cell_eq (by simp)

/-! ### A sequence of frames -/

/-- A STATE frame as a pump hands it on: a length byte, the type, and as many bytes as the length says.
SOURCE: session.asm:505-543 -/
structure StateFrame (f : List ℕ) : Prop where
  whole : f.length = f.getD 0 0 + 1
  short : f.length ≤ 128
  type : f.getD 1 0 = FT_STATE
  bytes : ∀ b ∈ f, b < 256

/-- A console and the positions written since the most recent BEGIN. -/
structure Transfer where
  cpu : Cpu
  written : Finset ℕ

/-- A frame is received. -/
def receiveState (s : Transfer) (f : List ℕ) : Transfer :=
  let d := s.cpu.blit FRMBUF f
  ⟨RS_ON_STATE d, if OpensTransfer d then ∅ else s.written ∪ imageWrites d⟩

/-- What receiving a frame does: it re-baselines, or else it stores bytes of the frame at the positions that
are recorded for it and changes no other position of the image. -/
structure StateReceived (s : Transfer) (f : List ℕ) : Prop where
  commits : Rebases (s.cpu.blit FRMBUF f) → (receiveState s f).cpu = RS_REBASE (s.cpu.blit FRMBUF f)
  stores : ¬ Rebases (s.cpu.blit FRMBUF f) → ∀ p < IMG_TOTAL, IMG_GET (receiveState s f).cpu p =
    if p ∈ imageWrites (s.cpu.blit FRMBUF f) then f.getD (4 + (p - chunkPos (s.cpu.blit FRMBUF f))) 0
    else IMG_GET s.cpu p

/-- Every END that re-baselines finds the whole image written since the most recent BEGIN. -/
def CommitsWhole : Transfer → List (List ℕ) → Prop
  | _, [] => True
  | s, f :: fs =>
    (Rebases (s.cpu.blit FRMBUF f) → ∀ p < IMG_TOTAL, p ∈ s.written) ∧ CommitsWhole (receiveState s f) fs

/-! ### The frames alone -/

/-- A BEGIN. -/
def IsBegin (f : List ℕ) : Prop := 5 ≤ f.getD 0 0 ∧ f.getD 3 0 = 0xFF ∧ f.getD 2 0 = 0

/-- An END. -/
def IsEnd (f : List ℕ) : Prop := 3 ≤ f.getD 0 0 ∧ f.getD 3 0 = 0xFF ∧ f.getD 2 0 = 1

/-- A chunk inside the bounds. -/
def IsChunk (f : List ℕ) : Prop :=
  3 < f.getD 0 0 ∧ f.getD 3 0 < 4 ∧
    f.getD 3 0 * 256 + f.getD 2 0 + (f.getD 0 0 - 3) ≤ IMG_TOTAL

instance (f : List ℕ) : Decidable (IsBegin f) := inferInstanceAs (Decidable (_ ∧ _))

instance (f : List ℕ) : Decidable (IsEnd f) := inferInstanceAs (Decidable (_ ∧ _))

instance (f : List ℕ) : Decidable (IsChunk f) := inferInstanceAs (Decidable (_ ∧ _))

/-- The positions it brings. -/
def chunkOf (f : List ℕ) : Finset ℕ :=
  if IsChunk f then
    Finset.Ico (f.getD 3 0 * 256 + f.getD 2 0)
      (f.getD 3 0 * 256 + f.getD 2 0 + (f.getD 0 0 - 3))
  else ∅

/-- The transfer that is open after a frame, as the positions its chunks have brought. -/
def openAfter (t : Option (Finset ℕ)) (f : List ℕ) : Option (Finset ℕ) :=
  if IsBegin f then some ∅ else if IsEnd f then none else t.map (· ∪ chunkOf f)

/-- Between them the chunks of every transfer that an END closes, those after its last BEGIN, have
brought every position. -/
def ChunksCover : Option (Finset ℕ) → List (List ℕ) → Prop
  | _, [] => True
  | t, f :: fs =>
    (IsEnd f → ∀ w, t = some w → ∀ p < IMG_TOTAL, p ∈ w) ∧ ChunksCover (openAfter t f) fs

section Buffer

variable {c : Cpu} {f : List ℕ}

/-- A STATE frame in the buffer. -/
theorem StateFrame.cell (h : StateFrame f) {i : ℕ} (hi : i < f.length) :
    (c.blit FRMBUF f).cell (FRMBUF + i) = f.getD i 0 := by
  rw [buffer_cell c f h.short hi]
  apply Nat.mod_eq_of_lt
  rw [List.getD_eq_getElem?_getD, List.getElem?_eq_getElem hi, Option.getD_some]
  exact h.bytes _ (List.getElem_mem hi)

/-- Such a frame has a length and a type. -/
theorem StateFrame.two_le (h : StateFrame f) : 2 ≤ f.length := by
  by_contra hlt
  have htype := h.type
  rw [List.getD_eq_getElem?_getD, List.getElem?_eq_none (by omega)] at htype
  cases htype

/-- Its length is in the first cell of the buffer. -/
theorem StateFrame.head (h : StateFrame f) : (c.blit FRMBUF f).cell FRMBUF = f.getD 0 0 :=
  h.cell (i := 0) (by have := h.two_le; omega)

/-- Its type is in the second. -/
theorem StateFrame.type_cell (h : StateFrame f) :
    (c.blit FRMBUF f).cell (FRMBUF + 1) = FT_STATE := by
  rw [h.cell (by have := h.two_le; omega), h.type]

/-- In the buffer it opens a transfer exactly when it is a BEGIN. -/
theorem begins_iff (h : StateFrame f) : OpensTransfer (c.blit FRMBUF f) ↔ IsBegin f := by
  unfold OpensTransfer IsBegin
  rw [h.head, h.type_cell]
  have hw := h.whole
  constructor
  · rintro ⟨-, hlen, h3, h2⟩
    rw [h.cell (by omega)] at h3 h2
    exact ⟨hlen, h3, h2⟩
  · rintro ⟨hlen, h3, h2⟩
    rw [h.cell (by omega), h.cell (by omega)]
    exact ⟨rfl, hlen, h3, h2⟩

/-- The buffer is not the hold. -/
theorem hold_blit (h : StateFrame f) : (c.blit FRMBUF f).cell RESYNC_HOLD = c.cell RESYNC_HOLD :=
  (frame_buffer c f h.short).cell_eq (by simp [FrameBuffer])

/-- It re-baselines exactly when it is an END in a hold. -/
theorem rebases_iff (h : StateFrame f) :
    Rebases (c.blit FRMBUF f) ↔ IsEnd f ∧ c.cell RESYNC_HOLD ≠ 0 := by
  unfold Rebases IsEnd
  rw [h.head, h.type_cell, hold_blit h]
  have hw := h.whole
  constructor
  · rintro ⟨-, hlen, h3, h2, hhold⟩
    rw [h.cell (by omega)] at h3 h2
    exact ⟨⟨hlen, h3, h2⟩, hhold⟩
  · rintro ⟨⟨hlen, h3, h2⟩, hhold⟩
    rw [h.cell (by omega), h.cell (by omega)]
    exact ⟨rfl, hlen, h3, h2, hhold⟩

/-- It stores image bytes exactly when it is a chunk inside the bounds, in a hold. -/
theorem applies_iff (h : StateFrame f) :
    AppliesImage (c.blit FRMBUF f) ↔ IsChunk f ∧ c.cell RESYNC_HOLD ≠ 0 := by
  unfold AppliesImage IsChunk
  rw [h.head, h.type_cell, hold_blit h]
  have hw := h.whole
  constructor
  · rintro ⟨-, hlen, -, hhold, hhi, hend⟩
    rw [h.cell (by omega)] at hhi
    rw [h.cell (by omega), h.cell (by omega)] at hend
    exact ⟨⟨hlen, hhi, hend⟩, hhold⟩
  · rintro ⟨⟨hlen, hhi, hend⟩, hhold⟩
    rw [h.cell (by omega), h.cell (by omega)]
    exact ⟨rfl, hlen, by omega, hhold, hhi, hend⟩

/-- Inside a hold a chunk writes what it brings. -/
theorem writes_eq (h : StateFrame f) (hhold : c.cell RESYNC_HOLD ≠ 0) :
    imageWrites (c.blit FRMBUF f) = chunkOf f := by
  have happ := applies_iff (c := c) h
  unfold imageWrites chunkOf
  by_cases hc : IsChunk f
  · have hw := h.whole
    have hlen := hc.1
    rw [if_pos (happ.mpr ⟨hc, hhold⟩), if_pos hc, chunkPos, h.head, h.cell (by omega),
      h.cell (by omega)]
  · rw [if_neg (fun ha => hc (happ.mp ha).1), if_neg hc]

end Buffer

/-- The hold flag says whether a transfer is open, and what is written is what its chunks
have brought. -/
structure Tracks (t : Option (Finset ℕ)) (s : Transfer) : Prop where
  hold : s.cpu.cell RESYNC_HOLD ≠ 0 ↔ t.isSome = true
  written : ∀ w, t = some w → s.written = w

/-- A frame keeps it so. -/
theorem Tracks.receiveState {t : Option (Finset ℕ)} {s : Transfer} (h : Tracks t s) {f : List ℕ}
    (hf : StateFrame f) : Tracks (openAfter t f) (receiveState s f) := by
  have hbegin := begins_iff (c := s.cpu) hf
  have hend := rebases_iff (c := s.cpu) hf
  show Tracks (openAfter t f) ⟨RS_ON_STATE (s.cpu.blit FRMBUF f),
    if OpensTransfer (s.cpu.blit FRMBUF f) then ∅ else s.written ∪ imageWrites (s.cpu.blit FRMBUF f)⟩
  unfold openAfter
  by_cases hb : IsBegin f
  · rw [if_pos hb, if_pos (hbegin.mpr hb)]
    refine ⟨iff_of_true (hold_of_begin (hbegin.mpr hb)) rfl, fun w hw => ?_⟩
    injection hw
  rw [if_neg hb, if_neg (mt hbegin.mp hb)]
  by_cases he : IsEnd f
  · rw [if_pos he]
    refine ⟨?_, fun w hw => (nomatch hw)⟩
    by_cases hhold : s.cpu.cell RESYNC_HOLD ≠ 0
    · rw [state_of_end (hend.mpr ⟨he, hhold⟩), (rebased _).hold]
      simp
    · rw [hold_of_neither hf.type_cell (mt hbegin.mp hb) (fun h => hhold (hend.mp h).2), hold_blit hf]
      simpa using hhold
  · rw [if_neg he]
    have hsame := hold_of_neither hf.type_cell (mt hbegin.mp hb) (fun h => he (hend.mp h).1)
    rw [hold_blit hf] at hsame
    refine ⟨?_, fun w hw => ?_⟩
    · rw [hsame, h.hold, Option.isSome_map]
    · obtain ⟨w', hw', rfl⟩ := Option.map_eq_some_iff.mp hw
      have hhold : s.cpu.cell RESYNC_HOLD ≠ 0 := h.hold.mpr (by rw [hw']; rfl)
      rw [writes_eq hf hhold, h.written w' hw']

/-- Along any sequence of frames, commits are whole exactly when the chunks cover the image. -/
theorem Tracks.commits_iff {t : Option (Finset ℕ)} {s : Transfer} (h : Tracks t s)
    (fs : List (List ℕ)) (hfs : ∀ f ∈ fs, StateFrame f) : CommitsWhole s fs ↔ ChunksCover t fs := by
  induction fs generalizing t s with
  | nil => exact Iff.rfl
  | cons f fs ih =>
    have hf := hfs f List.mem_cons_self
    have hnext := ih (h.receiveState hf) fun g hg => hfs g (List.mem_cons_of_mem _ hg)
    apply and_congr _ hnext
    rw [rebases_iff hf]
    constructor
    · intro hcommit he w hw
      rw [← h.written w hw]
      exact hcommit ⟨he, h.hold.mpr (by rw [hw]; rfl)⟩
    · rintro hcover ⟨he, hhold⟩
      obtain ⟨w, hw⟩ := Option.isSome_iff_exists.mp (h.hold.mp hhold)
      rw [h.written w hw]
      exact hcover he w hw

/-- Receiving a STATE frame does to the image what is recorded of it. -/
theorem stateReceived (s : Transfer) {f : List ℕ} (hf : StateFrame f) : StateReceived s f := by
  have hhead := hf.head (c := s.cpu)
  have hwhole := hf.whole
  have hshort := hf.short
  refine ⟨state_of_end, fun hr p hp => ?_⟩
  have hspec := writes_spec (hf.type_cell (c := s.cpu)) (by omega) hr hp
  refine hspec.trans ?_
  split
  · rename_i hmem
    have happ : AppliesImage (s.cpu.blit FRMBUF f) := by
      by_contra hnot
      rw [imageWrites, if_neg hnot] at hmem
      cases hmem
    rw [imageWrites, if_pos happ, Finset.mem_Ico] at hmem
    rw [Nat.add_assoc]
    exact hf.cell (by omega)
  · refine IMG_GET_congr (fun a ha => (frame_buffer s.cpu f hshort).cell_eq ?_) hp
    have hcases := image_cases ha
    simp only [FrameBuffer, Set.mem_ofPred_eq, FRMBUF]
    omega

/-- A console outside a hold, given any STATE frames, commits whole images only exactly when the chunks
of every transfer it commits have brought every position; and what is recorded of each frame is what it does to
the image.
SOURCE: resync.asm:267-432 -/
theorem commits_whole_iff (c : Cpu) (hh : c.cell RESYNC_HOLD = 0) (fs : List (List ℕ))
    (hfs : ∀ f ∈ fs, StateFrame f) : (CommitsWhole ⟨c, ∅⟩ fs ↔ ChunksCover none fs) ∧
      ∀ pre f post, fs = pre ++ f :: post → StateReceived (pre.foldl receiveState ⟨c, ∅⟩) f := by
  have htracks : Tracks none ⟨c, ∅⟩ := ⟨by simp [hh], fun _ h => (nomatch h)⟩
  refine ⟨htracks.commits_iff fs hfs, fun pre f post hsplit => stateReceived _ (hfs f ?_)⟩
  rw [hsplit]
  exact List.mem_append_right _ List.mem_cons_self

/-! ### A push, and a push with a chunk lost -/

/-- BEGIN, the chunks and END are STATE frames. -/
theorem stateFrame_begin (H : Cpu) : StateFrame (beginFrame H) := by
  have htick : pushTick H < 65536 := Nat.mod_lt _ (by decide)
  refine ⟨rfl, by simp [beginFrame], rfl, ?_⟩
  simp [beginFrame]
  omega

theorem stateFrame_end : StateFrame endFrame := ⟨rfl, by simp, rfl, by simp⟩

theorem stateFrame_chunk (H : Cpu) {p : ℕ} (h : p < IMG_TOTAL) : StateFrame (chunkFrame H p) := by
  obtain ⟨hn, hend⟩ := chunkLen_le (Nat.le_of_lt h)
  refine ⟨?_, by rw [length_chunkFrame]; omega, rfl, ?_⟩
  · rw [length_chunkFrame]
    rfl
  · intro b hb
    rcases List.mem_append.mp hb with hb | hb
    · simp only [IMG_TOTAL] at h
      simp only [List.mem_cons, List.not_mem_nil, or_false] at hb
      rcases hb with rfl | rfl | rfl | rfl <;> first | omega | decide
    · obtain ⟨i, hi, rfl⟩ := List.mem_map.mp hb
      have := List.mem_range.mp hi
      exact IMG_GET_lt H (by omega)

theorem stateFrame_chunks (fuel : ℕ) (H : Cpu) {p : ℕ} (h : p ≤ IMG_TOTAL) :
    ∀ f ∈ chunkFrames H p fuel, StateFrame f := by
  induction fuel generalizing p with
  | zero => simp [chunkFrames]
  | succ fuel ih =>
    intro f hf
    rw [chunkFrames] at hf
    split at hf
    · cases hf
    · rcases List.mem_cons.mp hf with rfl | hf
      · exact stateFrame_chunk H (by omega)
      · exact ih (chunkLen_le h).2 f hf

/-- The positions of a chunk of a push. -/
theorem openAfter_chunk (H : Cpu) (w : Finset ℕ) {p : ℕ} (h : p < IMG_TOTAL) :
    openAfter (some w) (chunkFrame H p) = some (w ∪ Finset.Ico p (p + chunkLen p)) := by
  obtain ⟨hn, hend⟩ := chunkLen_le (Nat.le_of_lt h)
  have hpos := chunkLen_pos h
  have h0 : (chunkFrame H p).getD 0 0 = chunkLen p + 3 := rfl
  have h2 : (chunkFrame H p).getD 2 0 = p % 256 := rfl
  have h3 : (chunkFrame H p).getD 3 0 = p / 256 := rfl
  simp only [IMG_TOTAL] at h hend
  have hbegin : ¬ IsBegin (chunkFrame H p) := by
    rintro ⟨-, h, -⟩
    omega
  have hlast : ¬ IsEnd (chunkFrame H p) := by
    rintro ⟨-, h, -⟩
    omega
  have hchunk : IsChunk (chunkFrame H p) := by
    unfold IsChunk
    rw [h0, h2, h3]
    simp only [IMG_TOTAL]
    omega
  rw [openAfter, if_neg hbegin, if_neg hlast, Option.map_some, chunkOf, if_pos hchunk, h0, h2, h3,
    Nat.add_sub_cancel, Nat.div_add_mod']

/-- An END alone needs every position. -/
theorem chunksCover_end (w : Finset ℕ) {p : ℕ} (hp : p = IMG_TOTAL) :
    ChunksCover (some w) [endFrame] ↔ ∀ q < IMG_TOTAL, q ∈ w ∨ p ≤ q := by
  constructor
  · intro h q hq
    exact Or.inl (h.1 ⟨by simp, rfl, rfl⟩ w rfl q hq)
  · intro h
    refine ⟨fun _ w' hw q hq => ?_, trivial⟩
    injection hw with hw
    rw [← hw]
    exact (h q hq).resolve_right (by omega)

/-- The chunks of a push from a position on bring what is from there on. -/
theorem chunksCover_chunks (fuel : ℕ) (H : Cpu) (w : Finset ℕ) {p : ℕ} (hp : p ≤ IMG_TOTAL)
    (hfuel : IMG_TOTAL ≤ p + fuel * 96) :
    ChunksCover (some w) (chunkFrames H p fuel ++ [endFrame]) ↔ ∀ q < IMG_TOTAL, q ∈ w ∨ p ≤ q := by
  induction fuel generalizing w p with
  | zero => exact chunksCover_end w (by omega)
  | succ fuel ih =>
    rw [chunkFrames]
    by_cases hend : p = IMG_TOTAL
    · rw [if_pos hend]
      exact chunksCover_end w hend
    · obtain ⟨hn, hle⟩ := chunkLen_le hp
      have hlt : p < IMG_TOTAL := by omega
      have hmin : chunkLen p = 96 ∨ p + chunkLen p = IMG_TOTAL := by
        unfold chunkLen
        simp only [IMG_TOTAL, RS_CHUNK] at hlt ⊢
        split <;> omega
      have hnot : ¬ IsEnd (chunkFrame H p) := by
        rintro ⟨-, h3, -⟩
        have h3' : p / 256 = 0xFF := h3
        simp only [IMG_TOTAL] at hlt
        omega
      have hrest := ih (w ∪ Finset.Ico p (p + chunkLen p)) hle (by omega)
      rw [if_neg hend, List.cons_append, ChunksCover, openAfter_chunk H w hlt, hrest]
      constructor
      · rintro ⟨-, h⟩ q hq
        have hq' := h q hq
        simp only [Finset.mem_union, Finset.mem_Ico] at hq'
        rcases hq' with (hw | hw) | hw
        · exact Or.inl hw
        · exact Or.inr hw.1
        · exact Or.inr (by omega)
      · intro h
        refine ⟨fun he => absurd he hnot, fun q hq => ?_⟩
        simp only [Finset.mem_union, Finset.mem_Ico]
        rcases h q hq with hw | hw
        · exact Or.inl (Or.inl hw)
        · by_cases hin : q < p + chunkLen p
          · exact Or.inl (Or.inr ⟨hw, hin⟩)
          · exact Or.inr (by omega)

/-- The chunks of a push whose first chunks are lost, up to a position. -/
theorem chunksCover_push (H : Cpu) {p : ℕ} (hp : p ≤ IMG_TOTAL) :
    ChunksCover none (beginFrame H :: (chunkFrames H p 9 ++ [endFrame])) ↔ p = 0 := by
  have hbegin : openAfter none (beginFrame H) = some ∅ := if_pos ⟨by simp [beginFrame], rfl, rfl⟩
  have hcover := chunksCover_chunks 9 H ∅ hp (by simp only [IMG_TOTAL]; omega)
  rw [ChunksCover, hbegin, hcover]
  constructor
  · rintro ⟨-, h⟩
    simpa using h 0 (by simp)
  · rintro rfl
    refine ⟨fun _ w hw => ?_, fun q _ => Or.inr (Nat.zero_le q)⟩
    cases hw

/-- The frames of a push, from whichever chunk on, are STATE frames. -/
theorem stateFrames_push (H : Cpu) {p : ℕ} (hp : p ≤ IMG_TOTAL) :
    ∀ f ∈ beginFrame H :: (chunkFrames H p 9 ++ [endFrame]), StateFrame f := by
  intro f hf
  rcases List.mem_cons.mp hf with rfl | hf
  · exact stateFrame_begin H
  rcases List.mem_append.mp hf with hf | hf
  · exact stateFrame_chunks 9 H hp f hf
  · rw [List.mem_singleton.mp hf]
    exact stateFrame_end

/-- A push that arrives whole. -/
theorem push_commits_whole :
    CommitsWhole ⟨default, ∅⟩ (pushFrames default) ↔ ChunksCover none (pushFrames default) :=
  (commits_whole_iff default (by decide) (pushFrames default)
    (stateFrames_push default (Nat.zero_le _))).1

/-- A push that lost its first chunk is committed. -/
theorem commit_without_first_chunk : ¬ ∀ (c : Cpu) (fs : List (List ℕ)), c.cell RESYNC_HOLD = 0 →
    (∀ f ∈ fs, StateFrame f) → CommitsWhole ⟨c, ∅⟩ fs := by
  intro h
  have hp : 96 ≤ IMG_TOTAL := by decide
  have hfs := stateFrames_push default hp
  have htracks : Tracks none ⟨default, ∅⟩ := ⟨by decide, fun _ h => (nomatch h)⟩
  have hcover := (htracks.commits_iff _ hfs).mp (h default _ (by decide) hfs)
  exact absurd ((chunksCover_push default hp).mp hcover) (by decide)

end BoxingNetplay.Analysis
