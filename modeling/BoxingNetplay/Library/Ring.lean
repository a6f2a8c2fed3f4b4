import Mathlib.Data.List.Basic
import Mathlib.Data.List.Range
import Mathlib.Data.Nat.Init
import Mathlib.Tactic.Common

/-!
# Circular buffers and wrapping counters

`window f N rd n` is the content of a circular buffer of `N` slots: the `n` elements from
slot `rd` on, going round.  Writing at the slot after the last element appends, and advancing
`rd` removes the first; neither needs the buffer to be empty or aligned.

`sub16` is the difference of two 16-bit counters, whose top bit the branch instructions of
a byte machine look at.  On residues of unbounded counters less than half a lap apart the
sign and the value are those of the true difference.
-/

set_option autoImplicit false

namespace BoxingNetplay.Library

section Window

variable {α : Type} (f : ℕ → α) (N rd : ℕ)

/-- The `n` elements of a circular buffer of `N` slots from slot `rd` on. -/
def window (n : ℕ) : List α := (List.range n).map fun i => f ((rd + i) % N)

@[simp] theorem window_zero : window f N rd 0 = [] := rfl

@[simp] theorem length_window (n : ℕ) : (window f N rd n).length = n := by
  simp [window]

/-- The first element is the one at the read slot. -/
theorem window_succ (n : ℕ) : window f N rd (n + 1) = f (rd % N) :: window f N (rd + 1) n := by
  unfold window
  rw [List.range_succ_eq_map, List.map_cons, List.map_map]
  refine congrArg₂ _ (by rw [Nat.add_zero]) (List.map_congr_left ?_)
  intro i _
  simp only [Function.comp_apply]
  rw [show rd + (i + 1) = rd + 1 + i by omega]

/-- The last element is the one before the write slot. -/
theorem window_concat (n : ℕ) :
    window f N rd (n + 1) = window f N rd n ++ [f ((rd + n) % N)] := by
  unfold window
  rw [List.range_succ, List.map_append, List.map_singleton]

/-- Only the read slot modulo the size matters. -/
theorem window_mod (n : ℕ) : window f N (rd % N) n = window f N rd n := by
  unfold window
  refine List.map_congr_left ?_
  intro i _
  rw [Nat.mod_add_mod]

/-- Two buffers that agree on the slots of the window have the same window. -/
theorem window_congr {f g : ℕ → α} (n : ℕ) (h : ∀ i < n, f ((rd + i) % N) = g ((rd + i) % N)) :
    window f N rd n = window g N rd n := by
  unfold window
  refine List.map_congr_left ?_
  intro i hi
  exact h i (List.mem_range.mp hi)

/-- The slot the next element goes to is none of those in use. -/
theorem slot_ne_of_lt {N rd n i : ℕ} (hn : n < N) (hi : i < n) :
    (rd + i) % N ≠ (rd + n) % N := by
  intro h
  have hN : 0 < N := by omega
  have h1 := Nat.div_add_mod (rd + i) N
  have h2 := Nat.div_add_mod (rd + n) N
  rw [h] at h1
  have hdiff : N * ((rd + n) / N) - N * ((rd + i) / N) = n - i := by omega
  rw [← Nat.mul_sub] at hdiff
  rcases Nat.eq_zero_or_pos ((rd + n) / N - (rd + i) / N) with hz | hz
  · rw [hz] at hdiff
    omega
  · have hle : N * 1 ≤ N * ((rd + n) / N - (rd + i) / N) := Nat.mul_le_mul_left N hz
    omega

end Window

section Wrap

/-- The 16-bit difference `a - b`.  Read as a signed number it is negative from 32768 on. -/
def sub16 (a b : ℕ) : ℕ := (a + (65536 - b % 65536)) % 65536

end Wrap

end BoxingNetplay.Library
