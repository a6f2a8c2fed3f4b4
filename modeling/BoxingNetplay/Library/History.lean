import BoxingNetplay.Library.Ring

/-!
# Histories kept in a ring

A sequence of entries, one for each tick, written into a ring of `N` slots.  `Holds slot N f hi`
says that the ring has the last `N` entries of `f` up to tick `hi`, idle before tick 0.  Writing
the next entry keeps it; so does not writing it, when the next entry is idle and so is the
one a whole lap before, whose slot it would have taken.  A reader at tick `n` finds the entries
of `n` and of the tick before it as long as the writer is less than a lap ahead.
-/

set_option autoImplicit false

namespace BoxingNetplay.Library

variable {α : Type} {idle : α}

/-- The entry `i` ticks before tick `n`, idle before tick 0. -/
def ago (idle : α) (f : ℕ → α) (n i : ℕ) : α := if i ≤ n then f (n - i) else idle

/-- The ring has the last `N` entries up to tick `hi`. -/
def Holds (idle : α) (slot : ℕ → α) (N : ℕ) (f : ℕ → α) (hi : ℕ) : Prop :=
  ∀ i < N, slot ((hi + N - i) % N) = ago idle f hi i

/-- An idle entry is idle however long ago. -/
theorem ago_idle {f : ℕ → α} {n : ℕ} (h : ∀ k ≤ n, f k = idle) (i : ℕ) : ago idle f n i = idle := by
  unfold ago
  split
  · exact h _ (Nat.sub_le n i)
  · rfl

/-- Only the entries up to `n` matter. -/
theorem ago_congr {f g : ℕ → α} {n : ℕ} (h : ∀ k ≤ n, f k = g k) (i : ℕ) :
    ago idle f n i = ago idle g n i := by
  unfold ago
  split
  · exact h _ (Nat.sub_le n i)
  · rfl

/-- One tick later everything is one tick longer ago. -/
theorem ago_succ (f : ℕ → α) (n i : ℕ) : ago idle f (n + 1) (i + 1) = ago idle f n i := by
  unfold ago
  by_cases h : i ≤ n
  · rw [if_pos h, if_pos (by omega), Nat.add_sub_add_right]
  · rw [if_neg h, if_neg (by omega)]

namespace Holds

variable {slot slot' : ℕ → α} {N : ℕ} {f g : ℕ → α} {hi : ℕ}

/-- The slots and the entries up to `hi` are all that matters. -/
theorem congr (h : Holds idle slot N f hi) (hs : ∀ j < N, slot' j = slot j)
    (hf : ∀ k ≤ hi, g k = f k) : Holds idle slot' N g hi := by
  intro i hi'
  rw [hs _ (Nat.mod_lt _ (by omega)), h i hi']
  exact (ago_congr hf i).symm

/-- An idle ring holds idle entries. -/
theorem ofIdle (hs : ∀ j < N, slot j = idle) (hf : ∀ k ≤ hi, f k = idle) :
    Holds idle slot N f hi := by
  intro i hi'
  rw [hs _ (Nat.mod_lt _ (by omega)), ago_idle hf]

/-- The slot of an entry, seen from the next tick. -/
theorem slot_succ {i : ℕ} (hi' : i + 1 < N) : (hi + 1 + N - (i + 1)) % N = (hi + N - i) % N := by
  congr 1
  omega

/-- Writing the next entry into its slot. -/
theorem put (h : Holds idle slot N f hi) (hs : ∀ j < N, slot' j =
    if j = (hi + 1) % N then f (hi + 1) else slot j) : Holds idle slot' N f (hi + 1) := by
  intro i hi'
  have hlt := Nat.mod_lt (hi + 1 + N - i) (show N > 0 by omega)
  rw [hs _ hlt]
  cases i with
  | zero =>
    rw [if_pos (by rw [Nat.sub_zero, Nat.add_mod_right])]
    rfl
  | succ i =>
    -- an older entry has another slot
    have hne : (hi + 1 + N - (i + 1)) % N ≠ (hi + 1) % N := by
      intro heq
      have hslot := @slot_ne_of_lt N (hi + N - i) (i + 1) 0 (by omega) (by omega)
      rw [Nat.add_zero, show hi + N - i + (i + 1) = hi + 1 + N by omega, Nat.add_mod_right,
        ← slot_succ hi'] at hslot
      exact hslot heq
    rw [if_neg hne, slot_succ hi', h i (by omega), ago_succ]

/-- Leaving out an idle entry whose slot is idle. -/
theorem skip (h : Holds idle slot N f hi) (hN : 0 < N) (hnext : f (hi + 1) = idle)
    (hlap : ago idle f hi (N - 1) = idle) : Holds idle slot N f (hi + 1) := by
  intro i hi'
  cases i with
  | zero =>
    have hold := h (N - 1) (by omega)
    rw [hlap, show hi + N - (N - 1) = hi + 1 by omega] at hold
    rw [Nat.sub_zero, Nat.add_mod_right, hold]
    exact hnext.symm
  | succ i => rw [slot_succ hi', h i (by omega), ago_succ]

/-- Reading an entry less than a lap old. -/
theorem read (h : Holds idle slot N f hi) {n : ℕ} (hn : n ≤ hi) (hlap : hi < n + N) :
    slot (n % N) = f n := by
  have hold := h (hi - n) (by omega)
  rw [show hi + N - (hi - n) = n + N by omega, Nat.add_mod_right] at hold
  rw [hold]
  unfold ago
  rw [if_pos (by omega), show hi - (hi - n) = n by omega]

/-- Reading the entry before it. -/
theorem read_prev (h : Holds idle slot N f hi) {n : ℕ} (hn : n ≤ hi) (hlap : hi + 1 < n + N) :
    slot ((n + N - 1) % N) = ago idle f n 1 := by
  have hold := h (hi - n + 1) (by omega)
  rw [show hi + N - (hi - n + 1) = n + N - 1 by omega] at hold
  rw [hold]
  unfold ago
  by_cases h1 : 1 ≤ n
  · rw [if_pos h1, if_pos (by omega), show hi - (hi - n + 1) = n - 1 by omega]
  · rw [if_neg h1, if_neg (by omega)]

end Holds

end BoxingNetplay.Library
