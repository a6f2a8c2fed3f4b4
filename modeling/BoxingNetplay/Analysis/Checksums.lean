import BoxingNetplay.Interface.Pass
import BoxingNetplay.Library.Fold
import BoxingNetplay.Model.Local
import Mathlib.Data.Finset.Range

/-!
# Two checksums

`LS_CKSUM` is written out, with two loops; `TRACE_TICK` goes through a table of ranges.  Both are
one fold of the rotate-add step over the same cells in the same order.  The step is a bijection of the
16-bit accumulator and injective in the cell, so that a change of a single cell shows.
-/

set_option autoImplicit false

namespace BoxingNetplay.Analysis.Checksums

open BoxingNetplay.Library
open BoxingNetplay.Model
open BoxingNetplay.Interface

/-- The cells of the ranges of a table.
SOURCE: debug.asm:23-37 -/
def Covered : List ℕ → Set ℕ
  | first :: last :: rest => if first = 0 then ∅ else {a | first ≤ a ∧ a < last} ∪ Covered rest
  | _ => ∅

/-- The checksum in the trace's entry for a tick, low byte first.
SOURCE: debug.asm:61-69 -/
def traced (c : Cpu) (tick : ℕ) : ℕ :=
  c.cell (TRACE_RING + 2 * (tick % 256)) + 256 * c.cell (TRACE_RING + 2 * (tick % 256) + 1)

/-! ### One step -/

/-- The top bit comes back at the bottom. -/
theorem rotate_eq {x : ℕ} (hx : x < 65536) :
    (2 * x + x / 32768) % 65536 = 2 * (x % 32768) + x / 32768 := by omega

/-- It is one bit. -/
theorem topBit_lt {x : ℕ} (hx : x < 65536) : x / 32768 < 2 := by omega

/-- A rotation only moves bits. -/
theorem rotate_inj {a b : ℕ} (ha : a < 65536) (hb : b < 65536)
    (h : (2 * a + a / 32768) % 65536 = (2 * b + b / 32768) % 65536) : a = b := by
  have hbits : ∀ {p q r s : ℕ}, q < 2 → s < 2 → 2 * p + q = 2 * r + s → p = r ∧ q = s := by
    intro p q r s hq hs hpq
    omega
  rw [rotate_eq ha, rotate_eq hb] at h
  obtain ⟨hlow, htop⟩ := hbits (topBit_lt ha) (topBit_lt hb) h
  rw [← Nat.div_add_mod a 32768, hlow, htop, Nat.div_add_mod]

/-- Adding the same word to two words keeps them apart. -/
theorem add_inj {v a b : ℕ} (ha : a < 65536) (hb : b < 65536) (h : (a + v) % 65536 = (b + v) % 65536) :
    a = b := by omega

/-- Rotating and adding is a bijection of the accumulator, and loses nothing of the cell. -/
theorem rotateAdd_lossless : Lossless rotateAdd (Finset.range 65536) {v | v < 65536} := by
  apply Lossless.of_finset
  · intro a _ v _
    exact Finset.mem_range.mpr (Nat.mod_lt _ (by decide))
  · intro v _ a ha b hb heq
    exact rotate_inj (Finset.mem_range.mp ha) (Finset.mem_range.mp hb)
      (add_inj (Nat.mod_lt _ (by decide)) (Nat.mod_lt _ (by decide)) heq)
  · intro a _ v hv w hw heq
    apply add_inj (v := (2 * a + a / 32768) % 65536) hv hw
    rw [Nat.add_comm v, Nat.add_comm w]
    exact heq

/-! ### The loops -/

section Loops

variable (c : Cpu)

/-- A sum over cells. -/
def cellSum (as : List ℕ) (acc : ℕ) : ℕ := sumOf rotateAdd c.cell as acc

/-- The checksum of a report is the sum of its cells. -/
theorem LS_CKSUM_eq : LS_CKSUM c = cellSum c cksumCells 0 := rfl

/-- Where no more than the upper address is in the upper half, the signed comparison of the loop is that of
the addresses. -/
theorem slt16_half {a b : ℕ} (h : b < 32768 ∨ 32768 ≤ a) (ha : a < 65536) (hb : b < 65536) (hab : a ≤ b) :
    slt16 a b = decide (a < b) := by
  unfold slt16
  apply decide_eq_decide.mpr
  omega

/-- A loop whose range stays in one half of the address space sums its range. -/
theorem sumRange_eq {n last r4 : ℕ} (acc : ℕ) (hlast : last = r4 + n + 1) (hn : last < 65536)
    (h : last < 32768 ∨ 32768 ≤ r4) :
    sumRange c last r4 acc = cellSum c (List.range' r4 (n + 1)) acc := by
  induction n generalizing r4 acc with
  | zero =>
    unfold sumRange
    simp only
    rw [Nat.mod_eq_of_lt (by omega), slt16_half (by omega) (by omega) (by omega) (by omega),
      if_neg (by simp [hlast])]
    rfl
  | succ n ih =>
    unfold sumRange
    simp only
    rw [Nat.mod_eq_of_lt (by omega), slt16_half (by omega) (by omega) (by omega) (by omega),
      if_pos (by simp [hlast]), ih _ (by omega) (by omega), List.range'_succ (n := n + 1)]
    rfl

/-- The first range, 147 cells. -/
theorem sumRange_scratch (acc : ℕ) :
    sumRange c 0x01F0 0x015D acc = cellSum c (List.range' 0x015D 147) acc :=
  sumRange_eq c acc rfl (by decide) (Or.inl (by decide))

/-- The mirrors of the countdowns. -/
theorem sumRange_mirrors (acc : ℕ) : sumRange c (SC_CNT7 + 1) SC_CNT2 acc =
    cellSum c [SC_CNT2, SC_CNT3, SC_CNT4, SC_CNT5, SC_CNT6, SC_CNT7] acc :=
  sumRange_eq c (n := 5) acc rfl (by decide) (Or.inr (by decide))

/-- A range of a single cell. -/
theorem sumRange_one {a : ℕ} (h : 32768 ≤ a ∧ a + 1 < 65536) (acc : ℕ) :
    sumRange c (a + 1) a acc = rotateAdd acc (c.cell a) :=
  sumRange_eq c (n := 0) acc rfl (by omega) (Or.inr h.1)

/-- The written-out listing sums the cells. -/
theorem cksumLoops_eq : cksumLoops c = LS_CKSUM c := by
  have hcells : cksumCells = List.range' 0x015D 147 ++ ([RNG_LO, RNG_HI, RS_SPARE0, RS_SPARE1] ++
      ([SC_CNT2, SC_CNT3, SC_CNT4, SC_CNT5, SC_CNT6, SC_CNT7] ++ [RS_SPARE5])) := rfl
  unfold cksumLoops
  simp only [sumRange_scratch, sumRange_mirrors, LS_CKSUM_eq, hcells]
  unfold cellSum
  rw [sumOf_append, sumOf_append, sumOf_append]
  rfl

/-- So does the table. -/
theorem sumRanges_eq : sumRanges c TRACE_RANGES 0 = LS_CKSUM c := by
  have hrng : sumRange c (RNG_HI + 1) RNG_LO = fun acc => cellSum c [RNG_LO, RNG_HI] acc :=
    funext fun acc => sumRange_eq c (n := 1) acc rfl (by decide) (Or.inr (by decide))
  rw [← cksumLoops_eq]
  unfold TRACE_RANGES cksumLoops
  simp only [sumRanges, hrng, sumRange_one c (a := RS_SPARE0) (by decide),
    sumRange_one c (a := RS_SPARE1) (by decide), sumRange_one c (a := RS_SPARE5) (by decide)]
  rfl

/-! ### What is stored -/

/-- Noting a change of the random number stores to its four cells. -/
theorem noteRng_frame : Frame {a | 0x8110 ≤ a ∧ a ≤ 0x8113} c (noteRng c) := by
  unfold noteRng
  extract_lets d
  have hd : Frame {a | 0x8110 ≤ a ∧ a ≤ 0x8113} c d :=
    ((Frame.refl _ c).sto (by simp)).sto (by simp)
  apply Frame.ite (fun _ => Frame.refl _ c) fun _ => ?_
  exact Frame.ite (fun _ => hd) fun _ => (hd.sto (by simp)).sto (by simp)

/-- The trace has the checksum at the entry of its tick. -/
theorem traced_TRACE_TICK : traced (TRACE_TICK c) (tickWord c) = LS_CKSUM c := by
  have hnote := noteRng_frame c
  have hsum : LS_CKSUM c < 65536 := by
    rw [LS_CKSUM_eq]
    apply Finset.mem_range.mp
    exact rotateAdd_lossless.sumOf_mem (fun x _ => c.cell_lt_word x) (Finset.mem_range.mpr (by decide))
  have hlo : c.cell TICK_LO < 256 := c.cell_lt_cart (by decide) (by decide)
  have htick : tickWord c % 256 = c.cell TICK_LO := by
    unfold tickWord word
    omega
  have hkeep : (noteRng c).cell TICK_LO = c.cell TICK_LO := hnote.cell_eq (by simp)
  have hw : ∀ k < 512, cellWidth (TRACE_RING + k) = 8 := fun k hk =>
    cellWidth_cart (by simp only [TRACE_RING]; omega) (by simp only [TRACE_RING]; omega)
  unfold traced TRACE_TICK
  rw [sumRanges_eq, htick]
  extract_lets r0 d r4 e
  have hr4 : r4 = TRACE_RING + 2 * c.cell TICK_LO := by
    simp only [r4, d, hkeep, TRACE_RING]
    omega
  have hr5 : (r4 + 1) % 65536 = TRACE_RING + 2 * c.cell TICK_LO + 1 := by
    rw [hr4]
    simp only [TRACE_RING]
    omega
  -- counting the tick does not reach the trace
  have hcount : ∀ k, (countUp e TICK_LO TICK_HI).cell (TRACE_RING + k) = e.cell (TRACE_RING + k) := by
    intro k
    apply (frame_countUp _ _ _).cell_eq
    simp only [Set.mem_ofPred_eq, TRACE_RING, TICK_LO, TICK_HI]
    omega
  rw [hcount, Nat.add_assoc, hcount, ← Nat.add_assoc]
  have hlow : e.cell (TRACE_RING + 2 * c.cell TICK_LO) = r0 % 256 := by
    simp only [e, hr4, Cpu.sto_cell, if_true]
    rw [if_neg (by omega), hw _ (by omega)]
    rfl
  have hhigh : e.cell (TRACE_RING + 2 * c.cell TICK_LO + 1) = r0 / 256 % 256 := by
    simp only [e, hr5, Cpu.sto_cell, if_true]
    rw [Nat.add_assoc, hw _ (by omega)]
    unfold swap
    omega
  rw [hlow, hhigh]
  simp only [r0]
  omega

end Loops

/-! ### Sensitivity -/

/-- The cells of the checksum are those that the traced ranges cover. -/
theorem mem_covered (a : ℕ) : a ∈ cksumCells ↔ a ∈ Covered TRACE_RANGES := by
  simp only [cksumCells, Covered, TRACE_RANGES, List.mem_append, List.mem_range'_1, List.mem_cons,
    List.not_mem_nil, or_false, RNG_LO, RNG_HI, RS_SPARE0, RS_SPARE1,
    SC_CNT2, SC_CNT3, SC_CNT4, SC_CNT5, SC_CNT6, SC_CNT7, RS_SPARE5]
  norm_num
  omega

/-- The listing of `LS_CKSUM` and the table-driven loop compute one function, whose value
the trace keeps; and no two memories that differ in one cell of the ranges have the same value.
SOURCE: lockstep.asm:461-501, debug.asm:17-69, 100-112 -/
theorem checksums_agree :
    (∀ c : Cpu, cksumLoops c = LS_CKSUM c ∧ sumRanges c TRACE_RANGES 0 = LS_CKSUM c ∧
      traced (TRACE_TICK c) (tickWord c) = LS_CKSUM c) ∧
    ∀ c c' : Cpu, (∃ a ∈ Covered TRACE_RANGES, c.cell a ≠ c'.cell a ∧
        ∀ x ∈ Covered TRACE_RANGES, x ≠ a → c.cell x = c'.cell x) →
      LS_CKSUM c ≠ LS_CKSUM c' := by
  constructor
  · intro c
    exact ⟨cksumLoops_eq c, sumRanges_eq c, traced_TRACE_TICK c⟩
  · rintro c c' ⟨a, ha, hne, hrest⟩
    rw [LS_CKSUM_eq, LS_CKSUM_eq]
    apply rotateAdd_lossless.sumOf_ne (k := a)
    · decide +kernel
    · exact fun x _ => c.cell_lt_word x
    · exact fun x _ => c'.cell_lt_word x
    · exact (mem_covered a).mpr ha
    · exact hne
    · exact fun x hx => hrest x ((mem_covered x).mp hx)
    · exact Finset.mem_range.mpr (by decide)

/-- A cell of the RNG shows in the checksum. -/
theorem rng_shows : (default : Cpu).cell RNG_LO ≠ ((default : Cpu).sto RNG_LO 1).cell RNG_LO ∧
    LS_CKSUM (default : Cpu) ≠ LS_CKSUM ((default : Cpu).sto RNG_LO 1) := by
  refine ⟨by decide, checksums_agree.2 _ _ ⟨RNG_LO, ?_, by decide, ?_⟩⟩
  · exact (mem_covered _).mp (by decide)
  · intro x _ hne
    rw [Cpu.sto_cell, if_neg hne]

end BoxingNetplay.Analysis.Checksums
