import BoxingNetplay.Library.Dict
import Mathlib.Data.Finset.Card
import Mathlib.Data.Finset.Range
import Mathlib.Data.List.MinMax
import Mathlib.Logic.Function.Basic
import Mathlib.Tactic.Common

/-!
# Tables of slots

A fixed number of slots, some of them in use, and the loops that search them: for a key, for a free
slot, for the lowest key.  A table holds a dictionary when the slots in use are its entries.
-/

set_option autoImplicit false

namespace BoxingNetplay.Library.SlotTable

variable {κ α β : Type} [DecidableEq κ]

section Loops

variable (used : α → Bool) (key : α → κ)

/-- The first slot in use under a key. -/
def findKey (n : ℕ) (t : ℕ → α) (k : κ) : Option ℕ :=
  (List.range n).find? fun i => used (t i) && key (t i) = k

/-- The first slot not in use. -/
def findFree (n : ℕ) (t : ℕ → α) : Option ℕ := (List.range n).find? fun i => !used (t i)

/-- The first of the slots in use with the lowest key. -/
def lowest (rank : α → ℕ) (n : ℕ) (t : ℕ → α) : Option ℕ :=
  (List.range n).foldl (fun low i =>
    if used (t i) && (low.all fun j => rank (t i) < rank (t j)) then some i else low) none

/-- The slots in use. -/
def live (n : ℕ) (t : ℕ → α) : Finset ℕ := (Finset.range n).filter fun i => used (t i) = true

end Loops

section Spec

variable {used : α → Bool} {key : α → κ} {n i : ℕ} {t : ℕ → α} {k : κ}

/-- What a search for a key finds is a used slot with this key. -/
theorem findKey_some (h : findKey used key n t k = some i) :
    i < n ∧ used (t i) = true ∧ key (t i) = k := by
  have hmem := List.mem_of_find?_eq_some h
  have hp := List.find?_some h
  simp only [Bool.and_eq_true, decide_eq_true_eq] at hp
  exact ⟨List.mem_range.mp hmem, hp⟩

/-- When it finds none, no used slot has the key. -/
theorem findKey_none (h : findKey used key n t k = none) :
    ∀ i < n, used (t i) = true → key (t i) ≠ k := by
  intro i hi hu hk
  have hp := List.find?_eq_none.mp h i (List.mem_range.mpr hi)
  simp [hu, hk] at hp

/-- What a search for a free slot finds is a free slot. -/
theorem findFree_some (h : findFree used n t = some i) : i < n ∧ used (t i) = false := by
  have hmem := List.mem_of_find?_eq_some h
  have hp := List.find?_some h
  simp only [Bool.not_eq_true'] at hp
  exact ⟨List.mem_range.mp hmem, hp⟩

/-- When it finds none, all slots are used. -/
theorem findFree_none (h : findFree used n t = none) : (live used n t).card = n := by
  have hall : live used n t = Finset.range n := by
    apply Finset.filter_true_of_mem
    intro i hi
    have hp := List.find?_eq_none.mp h i (List.mem_range.mpr (Finset.mem_range.mp hi))
    simpa using hp
  rw [hall, Finset.card_range]

/-- The loop for the lowest key has seen the lowest of the slots before it. -/
theorem lowest_spec (used : α → Bool) (rank : α → ℕ) (n : ℕ) (t : ℕ → α) :
    match lowest used rank n t with
    | none => ∀ j < n, used (t j) = false
    | some i => i < n ∧ used (t i) = true ∧ ∀ j < n, used (t j) = true → rank (t i) ≤ rank (t j) := by
  unfold lowest
  induction n with
  | zero => simp
  | succ n ih =>
    rw [List.range_succ, List.foldl_append, List.foldl_cons, List.foldl_nil]
    cases hlow : (List.range n).foldl (fun low i =>
        if used (t i) && (low.all fun j => rank (t i) < rank (t j)) then some i else low) none with
    | none =>
      rw [hlow] at ih
      cases hu : used (t n) with
      | false =>
        simp only [Bool.false_and, Bool.false_eq_true, if_false]
        intro j hj
        rcases Nat.lt_succ_iff_lt_or_eq.mp hj with hj | rfl
        · exact ih j hj
        · exact hu
      | true =>
        simp only [Option.all_none, Bool.and_self, if_true]
        refine ⟨Nat.lt_succ_self n, hu, fun j hj huj => ?_⟩
        rcases Nat.lt_succ_iff_lt_or_eq.mp hj with hj | rfl
        · rw [ih j hj] at huj
          cases huj
        · exact Nat.le_refl _
    | some i =>
      rw [hlow] at ih
      obtain ⟨hi, hui, hmin⟩ := ih
      by_cases hp : used (t n) = true ∧ rank (t n) < rank (t i)
      · rw [if_pos (by simpa using hp)]
        refine ⟨Nat.lt_succ_self n, hp.1, fun j hj huj => ?_⟩
        rcases Nat.lt_succ_iff_lt_or_eq.mp hj with hj | rfl
        · exact Nat.le_trans (Nat.le_of_lt hp.2) (hmin j hj huj)
        · exact Nat.le_refl _
      · rw [if_neg (by simpa using hp)]
        refine ⟨Nat.lt_succ_of_lt hi, hui, fun j hj huj => ?_⟩
        rcases Nat.lt_succ_iff_lt_or_eq.mp hj with hj | rfl
        · exact hmin j hj huj
        · exact Nat.not_lt.mp fun hlt => hp ⟨huj, hlt⟩

end Spec

/-! ### The dictionary a table holds -/

/-- The slots in use of the table are the entries of the dictionary; `R` relates a slot with the value it
stands for. -/
structure Holds (used : α → Bool) (key : α → κ) (R : α → β → Prop) (n : ℕ) (t : ℕ → α)
    (d : List (κ × β)) : Prop where
  inj : ∀ i < n, ∀ j < n, used (t i) = true → used (t j) = true → key (t i) = key (t j) → i = j
  there : ∀ i < n, used (t i) = true → ∃ b, (key (t i), b) ∈ d ∧ R (t i) b
  back : ∀ e ∈ d, ∃ i < n, used (t i) = true ∧ key (t i) = e.1 ∧ R (t i) e.2
  nodup : (d.map Prod.fst).Nodup

namespace Holds

variable {used : α → Bool} {key : α → κ} {R : α → β → Prop} {n i : ℕ} {t : ℕ → α}
  {d : List (κ × β)} {k : κ} {b : β} {x : α}

omit [DecidableEq κ] in
/-- A table with no slot in use. -/
theorem empty (h : ∀ i < n, used (t i) = false) : Holds used key R n t ([] : List (κ × β)) where
  inj i hi j hj hu := by
    rw [h i hi] at hu
    cases hu
  there i hi hu := by
    rw [h i hi] at hu
    cases hu
  back e he := by cases he
  nodup := List.nodup_nil

/-- As many slots are in use as there are entries. -/
theorem card_live (h : Holds used key R n t d) : (live used n t).card = d.length := by
  have hinj : Set.InjOn (fun i => key (t i)) (live used n t) := by
    intro i hi j hj heq
    simp only [live, Finset.coe_filter, Finset.mem_range, Set.mem_ofPred_eq] at hi hj
    exact h.inj i hi.1 j hj.1 hi.2 hj.2 heq
  have himage : (live used n t).image (fun i => key (t i)) = (d.map Prod.fst).toFinset := by
    ext k
    simp only [live, Finset.mem_image, Finset.mem_filter, Finset.mem_range, List.mem_toFinset,
      List.mem_map]
    constructor
    · rintro ⟨i, ⟨hi, hu⟩, rfl⟩
      obtain ⟨b, hb, -⟩ := h.there i hi hu
      exact ⟨_, hb, rfl⟩
    · rintro ⟨e, he, rfl⟩
      obtain ⟨i, hi, hu, hk, -⟩ := h.back e he
      exact ⟨i, ⟨hi, hu⟩, hk⟩
  rw [← Finset.card_image_of_injOn hinj, himage, List.toFinset_card_of_nodup h.nodup,
    List.length_map]

/-- The slot of a key stands for its value. -/
theorem get_of_find (h : Holds used key R n t d) (hf : findKey used key n t k = some i) :
    ∃ b, Dict.get d k = some b ∧ R (t i) b := by
  obtain ⟨hi, hu, rfl⟩ := findKey_some hf
  obtain ⟨b, hb, hR⟩ := h.there i hi hu
  exact ⟨b, Dict.get_eq h.nodup hb, hR⟩

/-- A key with no slot has no entry. -/
theorem get_of_none (h : Holds used key R n t d) (hf : findKey used key n t k = none) :
    Dict.get d k = none := by
  apply Dict.get_none
  intro e he hk
  obtain ⟨i, hi, hu, hkey, -⟩ := h.back e he
  exact findKey_none hf i hi hu (hkey.trans hk)

/-- A table with fewer entries than slots has a free slot. -/
theorem exists_free (h : Holds used key R n t d) (hlt : d.length < n) :
    ∃ i, findFree used n t = some i := by
  cases hf : findFree used n t with
  | some i => exact ⟨i, rfl⟩
  | none =>
    have := findFree_none hf
    rw [h.card_live] at this
    omega

/-- A slot is written: the one of its key, or a free one when the key is new. -/
theorem set (h : Holds used key R n t d) (hi : i < n) (hu : used x = true) (hR : R x b)
    (hslot : used (t i) = true ∧ key (t i) = key x ∨
      used (t i) = false ∧ Dict.get d (key x) = none) :
    Holds used key R n (Function.update t i x) (Dict.set d (key x) b) := by
  -- no other slot has the key
  have hother : ∀ j < n, j ≠ i → used (t j) = true → key (t j) ≠ key x := by
    intro j hj hne huj hk
    rcases hslot with ⟨hui, hki⟩ | ⟨-, hnone⟩
    · exact hne (h.inj j hj i hi huj hui (hk.trans hki.symm))
    · obtain ⟨b', hb', -⟩ := h.there j hj huj
      exact Dict.ne_of_get_none hnone _ hb' hk
  have hat : ∀ j, j ≠ i → Function.update t i x j = t j := fun j hj =>
    Function.update_of_ne hj x t
  refine ⟨fun j hj l hl huj hul hk => ?_, fun j hj huj => ?_, fun e he => ?_,
    Dict.nodup_set h.nodup _ _⟩
  · by_cases hji : j = i
    · by_cases hli : l = i
      · rw [hji, hli]
      · rw [hat l hli] at hul hk
        rw [hji, Function.update_self] at hk
        exact absurd hk.symm (hother l hl hli hul)
    · rw [hat j hji] at huj hk
      by_cases hli : l = i
      · rw [hli, Function.update_self] at hk
        exact absurd hk (hother j hj hji huj)
      · rw [hat l hli] at hul hk
        exact h.inj j hj l hl huj hul hk
  · by_cases hji : j = i
    · rw [hji, Function.update_self]
      exact ⟨b, Dict.mem_set_self .., hR⟩
    · rw [hat j hji] at huj ⊢
      obtain ⟨b', hb', hR'⟩ := h.there j hj huj
      exact ⟨b', Dict.mem_set_of_ne hb' (hother j hj hji huj), hR'⟩
  · rcases Dict.mem_set he with rfl | ⟨hmem, hne⟩
    · exact ⟨i, hi, by rwa [Function.update_self], by rw [Function.update_self],
        by rwa [Function.update_self]⟩
    · obtain ⟨j, hj, huj, hkj, hRj⟩ := h.back e hmem
      have hji : j ≠ i := by
        rintro rfl
        rcases hslot with ⟨-, hki⟩ | ⟨hfree, -⟩
        · exact hne (hkj.symm.trans hki)
        · rw [hfree] at huj
          cases huj
      exact ⟨j, hj, by rwa [hat j hji], by rwa [hat j hji], by rwa [hat j hji]⟩

/-- A slot is given up. -/
theorem del (h : Holds used key R n t d) (hi : i < n) (hu : used (t i) = true)
    (hx : used x = false) :
    Holds used key R n (Function.update t i x) (Dict.del d (key (t i))) := by
  have hat : ∀ j, j ≠ i → Function.update t i x j = t j := fun j hj =>
    Function.update_of_ne hj x t
  have hne : ∀ j, used (Function.update t i x j) = true → j ≠ i := by
    rintro j huj rfl
    rw [Function.update_self, hx] at huj
    cases huj
  refine ⟨fun j hj l hl huj hul hk => ?_, fun j hj huj => ?_, fun e he => ?_, ?_⟩
  · have hji := hne j huj
    have hli := hne l hul
    rw [hat j hji] at huj hk
    rw [hat l hli] at hul hk
    exact h.inj j hj l hl huj hul hk
  · have hji := hne j huj
    rw [hat j hji] at huj ⊢
    obtain ⟨b, hb, hR⟩ := h.there j hj huj
    refine ⟨b, (Dict.mem_del h.nodup _ _).mpr ⟨hb, fun hk => hji ?_⟩, hR⟩
    exact h.inj j hj i hi huj hu hk
  · obtain ⟨hmem, hk⟩ := (Dict.mem_del h.nodup _ _).mp he
    obtain ⟨j, hj, huj, hkj, hR⟩ := h.back e hmem
    have hji : j ≠ i := by
      rintro rfl
      exact hk hkj.symm
    exact ⟨j, hj, by rwa [hat j hji], by rwa [hat j hji], by rwa [hat j hji]⟩
  · exact h.nodup.sublist ((Dict.del_sublist d _).map _)

end Holds

/-- The lowest key of a table is the lowest of its dictionary. -/
theorem Holds.min_key {used : α → Bool} {key : α → ℕ} {R : α → β → Prop} {n : ℕ} {t : ℕ → α}
    {d : List (ℕ × β)} (h : Holds used key R n t d) (hne : d ≠ []) :
    ∃ i < n, used (t i) = true ∧ lowest used key n t = some i ∧
      (d.map Prod.fst).min? = some (key (t i)) := by
  have hspec := lowest_spec used key n t
  cases hlow : lowest used key n t with
  | none =>
    rw [hlow] at hspec
    obtain ⟨e, he⟩ := List.exists_mem_of_ne_nil d hne
    obtain ⟨i, hi, hu, -⟩ := h.back e he
    rw [hspec i hi] at hu
    cases hu
  | some i =>
    rw [hlow] at hspec
    obtain ⟨hi, hu, hmin⟩ := hspec
    refine ⟨i, hi, hu, rfl, ?_⟩
    rw [List.min?_eq_some_iff]
    constructor
    · obtain ⟨b, hb, -⟩ := h.there i hi hu
      exact List.mem_map_of_mem hb
    · intro k hk
      obtain ⟨e, he, rfl⟩ := List.mem_map.mp hk
      obtain ⟨j, hj, huj, hkj, -⟩ := h.back e he
      rw [← hkj]
      exact hmin j hj huj

end BoxingNetplay.Library.SlotTable
