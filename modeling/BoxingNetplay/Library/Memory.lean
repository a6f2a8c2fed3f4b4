import Mathlib.Data.Set.Basic
import Mathlib.Order.Interval.Set.Basic
import Mathlib.Tactic.Ring

/-!
# Memory with cells of bounded width and a log of stores

A memory is a total map from addresses to cells.  The width of a cell is a function
of its address, and a store keeps only the low bits that fit, so that a cell can never
hold more than its width allows: this is a field of the structure.  A second field
lists every address stored to, newest first.  It is not read by any operation; it is what
a statement such as "this routine writes nothing outside `A`" is about.

The three loops a byte machine is made of (`fill`, `blit`, `copy`) are defined by recursion
on their counter and come with one lemma that says what a cell holds afterwards.
`WritesIn A m m'` is the frame rule: every store between `m` and `m'` lands in `A`.
-/

set_option autoImplicit false

namespace BoxingNetplay.Library

/-- A memory whose cell at address `a` is `width a` bits wide. -/
@[ext]
structure Memory (width : ℕ → ℕ) where
  cell : ℕ → ℕ
  bounded : ∀ a, cell a < 2 ^ width a
  stores : List ℕ

namespace Memory

variable {width : ℕ → ℕ}

/-- Store `v` at `a`: the cell keeps the low `width a` bits. -/
def store (m : Memory width) (a v : ℕ) : Memory width where
  cell x := if x = a then v % 2 ^ width a else m.cell x
  bounded x := by
    by_cases h : x = a
    · subst h
      simpa using Nat.mod_lt v (Nat.two_pow_pos (width x))
    · simpa [h] using m.bounded x
  stores := a :: m.stores

@[simp] theorem store_cell (m : Memory width) (a v x : ℕ) :
    (m.store a v).cell x = if x = a then v % 2 ^ width a else m.cell x := rfl

@[simp] theorem store_stores (m : Memory width) (a v : ℕ) :
    (m.store a v).stores = a :: m.stores := rfl

/-- Store `v` in the `n` cells from `a` on, in ascending order. -/
def fill (m : Memory width) (a : ℕ) : ℕ → ℕ → Memory width
  | 0, _ => m
  | n + 1, v => fill (m.store a v) (a + 1) n v

/-- Store the elements of a list in the cells from `a` on, in ascending order. -/
def blit (m : Memory width) (a : ℕ) : List ℕ → Memory width
  | [] => m
  | v :: vs => blit (m.store a v) (a + 1) vs

/-- Copy `n` cells from `src` on to `dst` on, one at a time and in ascending order. -/
def copy (m : Memory width) (src dst : ℕ) : ℕ → Memory width
  | 0 => m
  | n + 1 => copy (m.store dst (m.cell src)) (src + 1) (dst + 1) n

/-- After a fill the cells of the range hold the value, the others what they held. -/
@[simp] theorem fill_cell (m : Memory width) (a n v x : ℕ) :
    (m.fill a n v).cell x = if a ≤ x ∧ x < a + n then v % 2 ^ width x else m.cell x := by
  induction n generalizing m a with
  | zero =>
    have h : ¬ (a ≤ x ∧ x < a + 0) := by omega
    rw [if_neg h]
    rfl
  | succ n ih =>
    rw [fill, ih, store_cell]
    by_cases hx : x = a
    · subst hx
      have h1 : ¬ (x + 1 ≤ x ∧ x < x + 1 + n) := by omega
      have h2 : x ≤ x ∧ x < x + (n + 1) := by omega
      rw [if_neg h1, if_pos h2, if_pos rfl]
    · have h : (a + 1 ≤ x ∧ x < a + 1 + n) ↔ (a ≤ x ∧ x < a + (n + 1)) := by omega
      simp only [h, if_neg hx]

/-- After a blit the cells of the range hold the list's elements, truncated. -/
@[simp] theorem blit_cell (m : Memory width) (a : ℕ) (vs : List ℕ) (x : ℕ) :
    (m.blit a vs).cell x =
      if a ≤ x ∧ x < a + vs.length then vs.getD (x - a) 0 % 2 ^ width x else m.cell x := by
  induction vs generalizing m a with
  | nil =>
    have h : ¬ (a ≤ x ∧ x < a + ([] : List ℕ).length) := by simp
    rw [if_neg h]
    rfl
  | cons v vs ih =>
    rw [blit, ih, store_cell]
    by_cases hx : x = a
    · subst hx
      have h1 : ¬ (x + 1 ≤ x ∧ x < x + 1 + vs.length) := by omega
      have h2 : x ≤ x ∧ x < x + (v :: vs).length := by simp
      rw [if_neg h1, if_pos h2, if_pos rfl]
      simp
    · have h : (a + 1 ≤ x ∧ x < a + 1 + vs.length) ↔
          (a ≤ x ∧ x < a + (v :: vs).length) := by
        rw [List.length_cons]
        omega
      simp only [h, if_neg hx]
      split
      · rename_i hin
        have hsub : x - a = (x - (a + 1)) + 1 := by omega
        rw [hsub, List.getD_cons_succ]
      · rfl

/-- Copying between two ranges that do not meet moves the cells as they were. -/
theorem copy_cell (m : Memory width) (src dst n x : ℕ)
    (hsep : dst + n ≤ src ∨ src + n ≤ dst) :
    (m.copy src dst n).cell x =
      if dst ≤ x ∧ x < dst + n then m.cell (src + (x - dst)) % 2 ^ width x
      else m.cell x := by
  induction n generalizing m src dst with
  | zero =>
    have h : ¬ (dst ≤ x ∧ x < dst + 0) := by omega
    rw [if_neg h]
    rfl
  | succ n ih =>
    rw [copy, ih _ _ _ (by omega), store_cell]
    by_cases hx : x = dst
    · subst hx
      have h1 : ¬ (x + 1 ≤ x ∧ x < x + 1 + n) := by omega
      have h2 : x ≤ x ∧ x < x + (n + 1) := by omega
      rw [if_neg h1, if_pos h2, store_cell, if_pos rfl, Nat.sub_self, Nat.add_zero]
    · have h : (dst + 1 ≤ x ∧ x < dst + 1 + n) ↔ (dst ≤ x ∧ x < dst + (n + 1)) := by omega
      simp only [h]
      split
      · rename_i hin
        have hsrc : src + 1 + (x - (dst + 1)) = src + (x - dst) := by omega
        have hne : src + (x - dst) ≠ dst := by omega
        rw [hsrc, if_neg hne]
      · rw [store_cell, if_neg hx]

/-- A cell of known width is below the corresponding power of two. -/
theorem cell_lt (m : Memory width) (a k : ℕ) (h : width a = k) : m.cell a < 2 ^ k :=
  h ▸ m.bounded a

end Memory

/-! ### The frame rule -/

variable {width : ℕ → ℕ}

/-- Every store made between `m` and `m'` is at an address of `A`, and a cell whose
address was not stored to is what it was. -/
def WritesIn (A : Set ℕ) (m m' : Memory width) : Prop :=
  ∃ l : List ℕ, m'.stores = l ++ m.stores ∧ (∀ a ∈ l, a ∈ A) ∧
    ∀ a, a ∉ l → m'.cell a = m.cell a

namespace WritesIn

variable {A B : Set ℕ} {m m' m'' : Memory width}

/-- Making no store writes in every set. -/
theorem refl (A : Set ℕ) (m : Memory width) : WritesIn A m m :=
  ⟨[], rfl, by simp, fun _ _ => rfl⟩

/-- Frames compose in sequence. -/
theorem trans (h : WritesIn A m m') (h' : WritesIn A m' m'') : WritesIn A m m'' := by
  obtain ⟨l, hl, hA, hc⟩ := h
  obtain ⟨l', hl', hA', hc'⟩ := h'
  refine ⟨l' ++ l, by rw [hl', hl, List.append_assoc], ?_, ?_⟩
  · intro a ha
    rcases List.mem_append.mp ha with ha | ha
    · exact hA' a ha
    · exact hA a ha
  · intro a ha
    have hsplit : a ∉ l' ∧ a ∉ l := by simpa using ha
    rw [hc' a hsplit.1, hc a hsplit.2]

/-- A frame may be widened. -/
theorem mono (hAB : A ⊆ B) (h : WritesIn A m m') : WritesIn B m m' := by
  obtain ⟨l, hl, hA, hc⟩ := h
  exact ⟨l, hl, fun a ha => hAB (hA a ha), hc⟩

/-- A cell outside the frame is unchanged. -/
theorem cell_eq (h : WritesIn A m m') {a : ℕ} (ha : a ∉ A) : m'.cell a = m.cell a := by
  obtain ⟨l, _, hA, hc⟩ := h
  exact hc a (fun hmem => ha (hA a hmem))

/-- One more store inside the frame. -/
theorem store (h : WritesIn A m m') {a : ℕ} (v : ℕ) (ha : a ∈ A) :
    WritesIn A m (m'.store a v) := by
  refine h.trans ⟨[a], rfl, by simpa using ha, ?_⟩
  intro x hx
  have hne : x ≠ a := by simpa using hx
  rw [Memory.store_cell, if_neg hne]

/-- One more fill inside the frame. -/
theorem fill (h : WritesIn A m m') {a n : ℕ} (v : ℕ) (ha : ∀ x, a ≤ x → x < a + n → x ∈ A) :
    WritesIn A m (m'.fill a n v) := by
  induction n generalizing m' a with
  | zero => exact h
  | succ n ih =>
    refine ih (h.store v (ha a le_rfl (by omega))) ?_
    intro x hx hlt
    exact ha x (by omega) (by omega)

/-- One more blit inside the frame. -/
theorem blit (h : WritesIn A m m') {a : ℕ} {vs : List ℕ}
    (ha : ∀ x, a ≤ x → x < a + vs.length → x ∈ A) : WritesIn A m (m'.blit a vs) := by
  induction vs generalizing m' a with
  | nil => exact h
  | cons v vs ih =>
    refine ih (h.store v (ha a le_rfl (by simp))) ?_
    intro x hx hlt
    exact ha x (by omega) (by rw [List.length_cons]; omega)

/-- One more copy inside the frame. -/
theorem copy (h : WritesIn A m m') {src dst n : ℕ}
    (ha : ∀ x, dst ≤ x → x < dst + n → x ∈ A) : WritesIn A m (m'.copy src dst n) := by
  induction n generalizing m' src dst with
  | zero => exact h
  | succ n ih =>
    refine ih (h.store _ (ha dst le_rfl (by omega))) ?_
    intro x hx hlt
    exact ha x (by omega) (by omega)

/-- Between two memories a cell outside the frame never changes. -/
theorem cell_between {C D : Set ℕ} (h : WritesIn A m m') (h1 : WritesIn C m m'') (h2 : WritesIn D m'' m')
    {a : ℕ} (ha : a ∉ A) : m''.cell a = m.cell a := by
  obtain ⟨l, hl, hA, _⟩ := h
  obtain ⟨l₁, hl₁, _, hc₁⟩ := h1
  obtain ⟨l₂, hl₂, _, _⟩ := h2
  rw [hl₂, hl₁, ← List.append_assoc] at hl
  have heq : l₂ ++ l₁ = l := List.append_cancel_right hl
  apply hc₁
  intro hmem
  exact ha (hA a (heq ▸ List.mem_append_right _ hmem))

end WritesIn

end BoxingNetplay.Library
