import BoxingNetplay.Interface.Handlers

/-!
# The state image as positions and bytes

`IMG_GET` and `IMG_PUT` seen as one family: a position has an address (`imgAddr`) and, in the
two word sections, a half.  Reading after writing gives the byte written, and writing a
position changes no other, although two positions may share a cell.  Equal images mean equal
image cells.
-/

set_option autoImplicit false

namespace BoxingNetplay.Interface

open BoxingNetplay.Library
open BoxingNetplay.Model

/-- The half of a word a position names, `none` in the two byte sections.
SOURCE: resync.asm:571-588 -/
def imgHalf (pos : ℕ) : Option ℕ :=
  if pos < IMG_S1 then none
  else if pos < IMG_S2 then some ((pos - IMG_S1) % 2)
  else if pos < IMG_S3 then some ((pos - IMG_S2) % 2)
  else none

/-- The byte of a cell's content that a position names. -/
def halfGet (w : ℕ) : Option ℕ → ℕ
  | none => w
  | some hi => wordHalf w hi

/-- The content of a cell after the byte a position names is replaced. -/
def halfPut (w v : ℕ) : Option ℕ → ℕ
  | none => v
  | some hi => wordPut w hi v

/-- Positions of the image compare like numbers. -/
theorem slt16_pos {pos : ℕ} (h : pos < IMG_TOTAL) {b : ℕ} (hb : b < 32768) :
    slt16 pos b = decide (pos < b) := by
  simp only [IMG_TOTAL] at h
  exact slt16_of_lt (by omega) hb

/-- `IMG_GET` reads the byte its position names. -/
theorem IMG_GET_eq (c : Cpu) {pos : ℕ} (h : pos < IMG_TOTAL) :
    IMG_GET c pos = halfGet (c.cell (imgAddr pos)) (imgHalf pos) := by
  unfold IMG_GET imgAddr imgHalf
  rw [slt16_pos h (by decide), slt16_pos h (by decide), slt16_pos h (by decide)]
  simp only [decide_eq_true_eq]
  by_cases h1 : pos < IMG_S1
  · rw [if_pos h1, if_pos h1, if_pos h1]
    rfl
  rw [if_neg h1, if_neg h1, if_neg h1]
  by_cases h2 : pos < IMG_S2
  · rw [if_pos h2, if_pos h2, if_pos h2]
    rfl
  rw [if_neg h2, if_neg h2, if_neg h2]
  by_cases h3 : pos < IMG_S3
  · rw [if_pos h3, if_pos h3, if_pos h3]
    rfl
  · rw [if_neg h3, if_neg h3, if_neg h3]
    rfl

/-- `IMG_PUT` replaces the byte its position names, by way of `RS_TMP`. -/
theorem IMG_PUT_eq (c : Cpu) {pos v : ℕ} (h : pos < IMG_TOTAL) (hv : v < 256) :
    IMG_PUT c pos v =
      (c.sto RS_TMP v).sto (imgAddr pos) (halfPut (c.cell (imgAddr pos)) v (imgHalf pos)) := by
  have htmp : (c.sto RS_TMP v).cell RS_TMP = v := by
    rw [Cpu.sto_cell, if_pos rfl, cellWidth_cart (by decide) (by decide)]
    exact Nat.mod_eq_of_lt hv
  have hkeep : ∀ a, a ∈ ImageCells → (c.sto RS_TMP v).cell a = c.cell a := by
    intro a ha
    rw [Cpu.sto_cell, if_neg]
    rintro rfl
    simp [ImageCells, RS_TAILTBL] at ha
  have haddr := hkeep _ (imgAddr_mem h)
  unfold IMG_PUT
  rw [slt16_pos h (by decide), slt16_pos h (by decide), slt16_pos h (by decide)]
  simp only [decide_eq_true_eq, htmp]
  unfold imgAddr at haddr ⊢
  unfold imgHalf
  by_cases h1 : pos < IMG_S1
  · rw [if_pos h1, if_pos h1, if_pos h1]
    rfl
  rw [if_neg h1] at haddr ⊢
  rw [if_neg h1, if_neg h1]
  by_cases h2 : pos < IMG_S2
  · rw [if_pos h2] at haddr ⊢
    rw [if_pos h2, if_pos h2, haddr]
    rfl
  rw [if_neg h2] at haddr ⊢
  rw [if_neg h2, if_neg h2]
  by_cases h3 : pos < IMG_S3
  · rw [if_pos h3] at haddr ⊢
    rw [if_pos h3, if_pos h3, haddr]
    rfl
  · rw [if_neg h3, if_neg h3, if_neg h3]
    rfl

/-! ### Positions and cells -/

/-- The tail table addresses single byte cells, none of them in another section. -/
theorem tail_apart : ∀ i < 14, (RS_TAILTBL.getD i 0 = SC_PASSLEN ∨
    (0x80C0 ≤ RS_TAILTBL.getD i 0 ∧ RS_TAILTBL.getD i 0 ≤ 0x819F)) ∧
    ∀ j < 14, RS_TAILTBL.getD i 0 = RS_TAILTBL.getD j 0 → i = j := by
  decide

/-- The four sections: where a position is, and which half of a word it names. -/
theorem imgSection {p : ℕ} (h : p < IMG_TOTAL) :
    (p < 147 ∧ imgAddr p = 0x015D + p ∧ imgHalf p = none) ∨
    (147 ≤ p ∧ p < 627 ∧ imgAddr p = (p - 147) / 2 + 0x0200 ∧ imgHalf p = some ((p - 147) % 2)) ∨
    (627 ≤ p ∧ p < 755 ∧ imgAddr p = (p - 627) / 2 + 0x031D ∧ imgHalf p = some ((p - 627) % 2)) ∨
    (755 ≤ p ∧ p < 769 ∧ imgAddr p = RS_TAILTBL.getD (p - 755) 0 ∧ imgHalf p = none) := by
  unfold imgAddr imgHalf
  simp only [IMG_S1, IMG_S2, IMG_S3, IMG_TOTAL, BACKTAB, OBJ_TBL] at h ⊢
  by_cases h1 : p < 147
  · exact Or.inl ⟨h1, if_pos h1, if_pos h1⟩
  rw [if_neg h1, if_neg h1]
  by_cases h2 : p < 627
  · exact Or.inr (Or.inl ⟨by omega, h2, if_pos h2, if_pos h2⟩)
  rw [if_neg h2, if_neg h2]
  by_cases h3 : p < 755
  · exact Or.inr (Or.inr (Or.inl ⟨by omega, h3, if_pos h3, if_pos h3⟩))
  · exact Or.inr (Or.inr (Or.inr ⟨by omega, h, if_neg h3, if_neg h3⟩))

/-- A tail address as the section lemma gives it. -/
theorem tail_bounds {p : ℕ} (h1 : 755 ≤ p) (h2 : p < 769) :
    RS_TAILTBL.getD (p - 755) 0 = 0x0103 ∨
      (0x80C0 ≤ RS_TAILTBL.getD (p - 755) 0 ∧ RS_TAILTBL.getD (p - 755) 0 ≤ 0x819F) :=
  (tail_apart (p - 755) (by omega)).1

/-- Two positions that share a cell are the two halves of one word. -/
theorem imgHalf_of_shared {p q : ℕ} (hp : p < IMG_TOTAL) (hq : q < IMG_TOTAL) (hne : p ≠ q)
    (h : imgAddr p = imgAddr q) :
    ∃ k ≤ 1, imgHalf p = some k ∧ imgHalf q = some (1 - k) := by
  rcases imgSection hp with ⟨p1, pa, -⟩ | ⟨p1, p2, pa, ph⟩ | ⟨p1, p2, pa, ph⟩ | ⟨p1, p2, pa, -⟩
  · rcases imgSection hq with ⟨q1, qa, -⟩ | ⟨q1, q2, qa, -⟩ | ⟨q1, q2, qa, -⟩ | ⟨q1, q2, qa, -⟩
    · omega
    · omega
    · omega
    · have := tail_bounds q1 q2
      omega
  · rcases imgSection hq with ⟨q1, qa, -⟩ | ⟨q1, q2, qa, qh⟩ | ⟨q1, q2, qa, -⟩ | ⟨q1, q2, qa, -⟩
    · omega
    · refine ⟨(p - 147) % 2, by omega, ph, ?_⟩
      rw [qh, show (q - 147) % 2 = 1 - (p - 147) % 2 by omega]
    · omega
    · have := tail_bounds q1 q2
      omega
  · rcases imgSection hq with ⟨q1, qa, -⟩ | ⟨q1, q2, qa, -⟩ | ⟨q1, q2, qa, qh⟩ | ⟨q1, q2, qa, -⟩
    · omega
    · omega
    · refine ⟨(p - 627) % 2, by omega, ph, ?_⟩
      rw [qh, show (q - 627) % 2 = 1 - (p - 627) % 2 by omega]
    · have := tail_bounds q1 q2
      omega
  · have hpt := tail_bounds p1 p2
    rcases imgSection hq with ⟨q1, qa, -⟩ | ⟨q1, q2, qa, -⟩ | ⟨q1, q2, qa, -⟩ | ⟨q1, q2, qa, -⟩
    · omega
    · omega
    · omega
    · have heq := (tail_apart (p - 755) (by omega)).2 (q - 755) (by omega) (by rw [← pa, ← qa, h])
      omega

/-- A position of a byte section addresses a byte cell, one of a word section a word cell. -/
theorem imgAddr_width {p : ℕ} (h : p < IMG_TOTAL) :
    cellWidth (imgAddr p) = if imgHalf p = none then 8 else 16 := by
  rcases imgSection h with ⟨p1, pa, ph⟩ | ⟨p1, p2, pa, ph⟩ | ⟨p1, p2, pa, ph⟩ | ⟨p1, p2, pa, ph⟩
  · rw [pa, ph, if_pos rfl, cellWidth_scratch (by omega) (by omega)]
  · rw [pa, ph, if_neg (by simp), cellWidth_system (by omega) (by omega)]
  · rw [pa, ph, if_neg (by simp), cellWidth_system (by omega) (by omega)]
  · rw [pa, ph, if_pos rfl]
    rcases tail_bounds p1 p2 with ht | ⟨ht1, ht2⟩
    · rw [ht, cellWidth_scratch (by omega) (by omega)]
    · exact cellWidth_cart (by omega) (by omega)

/-! ### Reading and writing halves -/

/-- The high half by division. -/
theorem wordHalf_eq (w hi : ℕ) : wordHalf w hi = if hi = 0 then w % 256 else w / 256 % 256 := by
  unfold wordHalf swap
  rw [Nat.mul_add_mod_self_right, Nat.mod_mod]

/-- A half just written reads back. -/
theorem wordHalf_wordPut {w hi v : ℕ} (hw : w < 65536) (hv : v < 256) :
    wordPut w hi v < 65536 ∧ wordHalf (wordPut w hi v) hi = v := by
  rw [wordHalf_eq]
  unfold wordPut
  by_cases h : hi = 0
  · rw [if_pos h, if_pos h]
    omega
  · rw [if_neg h, if_neg h]
    omega

/-- Writing one half leaves the other. -/
theorem wordHalf_wordPut_other {w k v : ℕ} (hv : v < 256) (hk : k ≤ 1) :
    wordHalf (wordPut w k v) (1 - k) = wordHalf w (1 - k) := by
  rw [wordHalf_eq, wordHalf_eq]
  unfold wordPut
  by_cases h : k = 0
  · rw [if_pos h, if_neg (by omega), if_neg (by omega)]
    omega
  · rw [if_neg h, if_pos (by omega), if_pos (by omega)]
    omega

/-- A word is determined by its halves. -/
theorem word_of_halves {w w' : ℕ} (hw : w < 65536) (hw' : w' < 65536)
    (h0 : wordHalf w 0 = wordHalf w' 0) (h1 : wordHalf w 1 = wordHalf w' 1) : w = w' := by
  rw [wordHalf_eq, wordHalf_eq, if_pos rfl, if_pos rfl] at h0
  rw [wordHalf_eq, wordHalf_eq, if_neg one_ne_zero, if_neg one_ne_zero] at h1
  omega

/-- What a written position's cell holds. -/
theorem IMG_PUT_cell (c : Cpu) {pos v : ℕ} (h : pos < IMG_TOTAL) (hv : v < 256) :
    (IMG_PUT c pos v).cell (imgAddr pos) = halfPut (c.cell (imgAddr pos)) v (imgHalf pos) := by
  rw [IMG_PUT_eq c h hv, Cpu.sto_cell, if_pos rfl, imgAddr_width h]
  cases hhalf : imgHalf pos with
  | none => exact Nat.mod_eq_of_lt hv
  | some k => exact Nat.mod_eq_of_lt (wordHalf_wordPut (c.cell_lt_word _) hv).1

/-- A position that was written reads as written. -/
theorem IMG_GET_PUT (c : Cpu) {pos v : ℕ} (h : pos < IMG_TOTAL) (hv : v < 256) :
    IMG_GET (IMG_PUT c pos v) pos = v := by
  rw [IMG_GET_eq _ h, IMG_PUT_cell c h hv]
  cases imgHalf pos with
  | none => rfl
  | some k => exact (wordHalf_wordPut (c.cell_lt_word _) hv).2

/-- Every other position reads as before. -/
theorem IMG_GET_PUT_other (c : Cpu) {pos q v : ℕ} (h : pos < IMG_TOTAL) (hq : q < IMG_TOTAL)
    (hne : q ≠ pos) (hv : v < 256) : IMG_GET (IMG_PUT c pos v) q = IMG_GET c q := by
  rw [IMG_GET_eq _ hq, IMG_GET_eq _ hq]
  by_cases haddr : imgAddr q = imgAddr pos
  · obtain ⟨k, hk, hpk, hqk⟩ := imgHalf_of_shared h hq (Ne.symm hne) haddr.symm
    rw [haddr, IMG_PUT_cell c h hv, hpk, hqk]
    exact wordHalf_wordPut_other hv hk
  · have hframe : imgAddr q ∉ {a | a = RS_TMP ∨ a = imgAddr pos} := by
      rintro (htmp | hpos)
      · have hmem := imgAddr_mem hq
        rw [htmp] at hmem
        simp [ImageCells, RS_TAILTBL] at hmem
      · exact haddr hpos
    rw [(frame_IMG_PUT c pos v h).cell_eq hframe]

/-- An image byte is a byte. -/
theorem IMG_GET_lt (c : Cpu) {pos : ℕ} (h : pos < IMG_TOTAL) : IMG_GET c pos < 256 := by
  rw [IMG_GET_eq c h]
  have hw := imgAddr_width h
  cases hhalf : imgHalf pos with
  | none =>
    rw [hhalf, if_pos rfl] at hw
    exact c.mem.cell_lt _ 8 hw
  | some k =>
    change wordHalf _ k < 256
    rw [wordHalf_eq]
    split
    · exact Nat.mod_lt _ (by decide)
    · exact Nat.mod_lt _ (by decide)

/-- The positions of an image cell: one for a byte, two for a word. -/
theorem exists_pos {a : ℕ} (h : a ∈ ImageCells) :
    (∃ p < IMG_TOTAL, imgAddr p = a ∧ imgHalf p = none) ∨
    ∃ p q, p < IMG_TOTAL ∧ q < IMG_TOTAL ∧ imgAddr p = a ∧ imgAddr q = a ∧
      imgHalf p = some 0 ∧ imgHalf q = some 1 := by
  have hsec : ∀ {p}, p < 769 → _ := fun {p} hp => imgSection (p := p) hp
  rcases h with ⟨h1, h2⟩ | ⟨h1, h2⟩ | ⟨h1, h2⟩ | h
  · left
    refine ⟨a - 0x015D, by simp only [IMG_TOTAL]; omega, ?_⟩
    rcases hsec (p := a - 0x015D) (by omega) with ⟨_, pa, ph⟩ | ⟨_, _, _⟩ | ⟨_, _, _⟩ | ⟨_, _, _⟩
    · exact ⟨by omega, ph⟩
    all_goals omega
  · right
    refine ⟨147 + 2 * (a - 0x0200), 148 + 2 * (a - 0x0200), by simp only [IMG_TOTAL]; omega,
      by simp only [IMG_TOTAL]; omega, ?_⟩
    rcases hsec (p := 147 + 2 * (a - 0x0200)) (by omega) with
      ⟨_, _⟩ | ⟨_, _, pa, ph⟩ | ⟨_, _, _⟩ | ⟨_, _, _⟩
    · omega
    · rcases hsec (p := 148 + 2 * (a - 0x0200)) (by omega) with
        ⟨_, _⟩ | ⟨_, _, qa, qh⟩ | ⟨_, _, _⟩ | ⟨_, _, _⟩
      · omega
      · refine ⟨by omega, by omega, ?_, ?_⟩
        · rw [ph, show (147 + 2 * (a - 0x0200) - 147) % 2 = 0 by omega]
        · rw [qh, show (148 + 2 * (a - 0x0200) - 147) % 2 = 1 by omega]
      all_goals omega
    all_goals omega
  · right
    refine ⟨627 + 2 * (a - 0x031D), 628 + 2 * (a - 0x031D), by simp only [IMG_TOTAL]; omega,
      by simp only [IMG_TOTAL]; omega, ?_⟩
    rcases hsec (p := 627 + 2 * (a - 0x031D)) (by omega) with
      ⟨_, _⟩ | ⟨_, _, _⟩ | ⟨_, _, pa, ph⟩ | ⟨_, _, _⟩
    · omega
    · omega
    · rcases hsec (p := 628 + 2 * (a - 0x031D)) (by omega) with
        ⟨_, _⟩ | ⟨_, _, _⟩ | ⟨_, _, qa, qh⟩ | ⟨_, _, _⟩
      · omega
      · omega
      · refine ⟨by omega, by omega, ?_, ?_⟩
        · rw [ph, show (627 + 2 * (a - 0x031D) - 627) % 2 = 0 by omega]
        · rw [qh, show (628 + 2 * (a - 0x031D) - 627) % 2 = 1 by omega]
      · omega
    · omega
  · left
    obtain ⟨i, hi, hget⟩ := List.getElem_of_mem h
    have hi14 : i < 14 := hi
    refine ⟨755 + i, by simp only [IMG_TOTAL]; omega, ?_⟩
    rcases hsec (p := 755 + i) (by omega) with ⟨_, _⟩ | ⟨_, _, _⟩ | ⟨_, _, _⟩ | ⟨_, _, pa, ph⟩
    · omega
    · omega
    · omega
    · refine ⟨?_, ph⟩
      rw [pa, show 755 + i - 755 = i by omega, List.getD_eq_getElem?_getD,
        List.getElem?_eq_getElem hi, Option.getD_some, hget]

/-- Two machines with the same image bytes have the same image cells. -/
theorem image_cells_eq {c c' : Cpu} (h : ∀ pos < IMG_TOTAL, IMG_GET c pos = IMG_GET c' pos) :
    ∀ a ∈ ImageCells, c.cell a = c'.cell a := by
  intro a ha
  rcases exists_pos ha with ⟨p, hp, rfl, hnone⟩ | ⟨p, q, hp, hq, hpa, hqa, hp0, hq1⟩
  · have hbyte := h p hp
    rwa [IMG_GET_eq c hp, IMG_GET_eq c' hp, hnone] at hbyte
  · have h0 := h p hp
    have h1 := h q hq
    rw [IMG_GET_eq c hp, IMG_GET_eq c' hp, hp0, hpa] at h0
    rw [IMG_GET_eq c hq, IMG_GET_eq c' hq, hq1, hqa] at h1
    exact word_of_halves (c.cell_lt_word a) (c'.cell_lt_word a) h0 h1

/-- Two machines with the same image cells have the same image bytes. -/
theorem IMG_GET_congr {c c' : Cpu} (h : ∀ a ∈ ImageCells, c.cell a = c'.cell a) {pos : ℕ}
    (hpos : pos < IMG_TOTAL) : IMG_GET c pos = IMG_GET c' pos := by
  rw [IMG_GET_eq c hpos, IMG_GET_eq c' hpos, h _ (imgAddr_mem hpos)]

end BoxingNetplay.Interface
