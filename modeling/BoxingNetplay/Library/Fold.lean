import Mathlib.Data.Finset.Card
import Mathlib.Data.List.Nodup

/-!
# Folds that lose nothing

A checksum folds a step over the values of some keys.  When the step is a bijection of the accumulators
and injective in the value, a change of one value changes the sum.
-/

set_option autoImplicit false

namespace BoxingNetplay.Library

variable {α β κ : Type} {step : α → β → α} {S : Set α} {V : Set β}

/-- A step on the accumulators `S` that keeps what it is given. -/
structure Lossless (step : α → β → α) (S : Set α) (V : Set β) : Prop where
  acc : ∀ v ∈ V, Set.BijOn (fun a => step a v) S S
  value : ∀ a ∈ S, Set.InjOn (step a) V

/-- Of finitely many accumulators an injective step reaches all. -/
theorem Lossless.of_finset {S : Finset α} (hmaps : ∀ a ∈ S, ∀ v ∈ V, step a v ∈ S)
    (hacc : ∀ v ∈ V, Set.InjOn (fun a => step a v) S) (hval : ∀ a ∈ S, Set.InjOn (step a) V) :
    Lossless step S V := by
  refine ⟨fun v hv => ?_, hval⟩
  have hmapsTo : Set.MapsTo (fun a => step a v) S S := fun a ha => hmaps a ha v hv
  exact ⟨hmapsTo, hacc v hv, Finset.surjOn_of_injOn_of_card_le _ hmapsTo (hacc v hv) le_rfl⟩

/-- The sum of the values of some keys. -/
def sumOf (step : α → β → α) (f : κ → β) (xs : List κ) (a : α) : α :=
  xs.foldl (fun a x => step a (f x)) a

@[simp] theorem sumOf_nil (f : κ → β) (a : α) : sumOf step f [] a = a := rfl

@[simp] theorem sumOf_cons (f : κ → β) (x : κ) (xs : List κ) (a : α) :
    sumOf step f (x :: xs) a = sumOf step f xs (step a (f x)) := rfl

/-- A sum is carried through two lists one after the other. -/
theorem sumOf_append (f : κ → β) (xs ys : List κ) (a : α) :
    sumOf step f (xs ++ ys) a = sumOf step f ys (sumOf step f xs a) := List.foldl_append

/-- Only the values of the keys matter. -/
theorem sumOf_congr {f g : κ → β} {xs : List κ} (h : ∀ x ∈ xs, f x = g x) (a : α) :
    sumOf step f xs a = sumOf step g xs a := by
  induction xs generalizing a with
  | nil => rfl
  | cons x xs ih =>
    rw [sumOf_cons, sumOf_cons, h x List.mem_cons_self]
    exact ih (fun y hy => h y (List.mem_cons_of_mem x hy)) _

namespace Lossless

variable (h : Lossless step S V) {f g : κ → β} {xs : List κ}

include h

/-- A sum stays in a set that each step stays in. -/
theorem sumOf_mem (hf : ∀ x ∈ xs, f x ∈ V) {a : α} (ha : a ∈ S) : sumOf step f xs a ∈ S := by
  induction xs generalizing a with
  | nil => exact ha
  | cons x xs ih =>
    apply ih (fun y hy => hf y (List.mem_cons_of_mem x hy))
    exact (h.acc _ (hf x List.mem_cons_self)).mapsTo ha

/-- A sum keeps the accumulator it starts from. -/
theorem sumOf_injOn (hf : ∀ x ∈ xs, f x ∈ V) : Set.InjOn (sumOf step f xs) S := by
  induction xs with
  | nil => exact Set.injOn_id S
  | cons x xs ih =>
    have hx := h.acc _ (hf x List.mem_cons_self)
    intro a ha b hb heq
    apply hx.injOn ha hb
    apply ih (fun y hy => hf y (List.mem_cons_of_mem x hy)) (hx.mapsTo ha) (hx.mapsTo hb)
    exact heq

/-- A change of the value of one key changes the sum. -/
theorem sumOf_ne (hd : xs.Nodup) (hf : ∀ x ∈ xs, f x ∈ V) (hg : ∀ x ∈ xs, g x ∈ V) {k : κ}
    (hk : k ∈ xs) (hne : f k ≠ g k) (hrest : ∀ x ∈ xs, x ≠ k → f x = g x) {a : α} (ha : a ∈ S) :
    sumOf step f xs a ≠ sumOf step g xs a := by
  obtain ⟨pre, post, rfl⟩ := List.append_of_mem hk
  have hnotin : k ∉ pre ∧ k ∉ post := by
    have := List.nodup_middle.mp hd
    simpa using (List.nodup_cons.mp this).1
  have hpre : sumOf step f pre a = sumOf step g pre a := by
    apply sumOf_congr
    intro x hx
    exact hrest x (List.mem_append_left _ hx) fun heq => hnotin.1 (heq ▸ hx)
  have hpost : ∀ b, sumOf step f post b = sumOf step g post b := by
    intro b
    apply sumOf_congr
    intro x hx
    exact hrest x (by simp [hx]) fun heq => hnotin.2 (heq ▸ hx)
  rw [sumOf_append, sumOf_append, sumOf_cons, sumOf_cons, hpre, hpost]
  intro heq
  -- the sums agree behind the key, so they agree at it, so its values agree
  have hmem : sumOf step g pre a ∈ S :=
    h.sumOf_mem (fun x hx => hg x (List.mem_append_left _ hx)) ha
  have hin : ∀ v ∈ V, step (sumOf step g pre a) v ∈ S := fun v hv => (h.acc v hv).mapsTo hmem
  have hstep := h.sumOf_injOn (fun x hx => hg x (by simp [hx])) (hin _ (hf k hk)) (hin _ (hg k hk)) heq
  exact hne (h.value _ hmem (hf k hk) (hg k hk) hstep)

end Lossless

end BoxingNetplay.Library
