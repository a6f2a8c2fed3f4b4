import Mathlib.Data.List.Basic
import Mathlib.Data.List.Nodup

/-!
# Dictionaries that keep their order

A dictionary as the list of its entries, in the order in which their keys came: setting a key that
is there keeps its position, and deleting one closes the gap.
-/

set_option autoImplicit false

namespace BoxingNetplay.Library.Dict

variable {κ α : Type} [DecidableEq κ] {d : List (κ × α)} {k : κ} {v : α}

/-- The value under a key. -/
def get (d : List (κ × α)) (k : κ) : Option α := (d.find? fun e => e.1 = k).map Prod.snd

/-- A key that is there keeps its position; another goes to the end. -/
def set (d : List (κ × α)) (k : κ) (v : α) : List (κ × α) :=
  if (get d k).isSome then d.map fun e => if e.1 = k then (k, v) else e else d ++ [(k, v)]

/-- A key goes, with its entry. -/
def del (d : List (κ × α)) (k : κ) : List (κ × α) := d.eraseP fun e => e.1 = k

/-- What is found under a key is in the dictionary with it. -/
theorem mem_of_get (h : get d k = some v) : (k, v) ∈ d := by
  simp only [get, Option.map_eq_some_iff] at h
  obtain ⟨e, he, rfl⟩ := h
  have hkey : e.1 = k := by simpa using List.find?_some he
  exact hkey ▸ List.mem_of_find?_eq_some he

/-- A key under which nothing is found is the key of no entry. -/
theorem ne_of_get_none (h : get d k = none) : ∀ e ∈ d, e.1 ≠ k := by
  simp only [get, Option.map_eq_none_iff, List.find?_eq_none, decide_eq_true_eq] at h
  exact h

theorem get_none (h : ∀ e ∈ d, e.1 ≠ k) : get d k = none := by
  simp only [get, Option.map_eq_none_iff, List.find?_eq_none, decide_eq_true_eq]
  exact h

/-- Keys are distinct, so an entry is found. -/
theorem get_eq (hn : (d.map Prod.fst).Nodup) (h : (k, v) ∈ d) : get d k = some v := by
  cases hg : get d k with
  | none => exact absurd rfl (ne_of_get_none hg _ h)
  | some w =>
    have heq := List.inj_on_of_nodup_map hn (mem_of_get hg) h rfl
    rw [(Prod.mk.inj heq).2]

/-- What is left when a key goes. -/
theorem mem_del (hn : (d.map Prod.fst).Nodup) (k : κ) (e : κ × α) :
    e ∈ del d k ↔ e ∈ d ∧ e.1 ≠ k := by
  rw [del]
  induction d with
  | nil => simp
  | cons x d ih =>
    rw [List.map_cons, List.nodup_cons] at hn
    by_cases hx : x.1 = k
    · rw [List.eraseP_cons_of_pos (by simpa using hx)]
      constructor
      · intro he
        refine ⟨List.mem_cons_of_mem x he, fun hk => hn.1 ?_⟩
        rw [hx, ← hk]
        exact List.mem_map_of_mem he
      · rintro ⟨he, hk⟩
        rcases List.mem_cons.mp he with rfl | he
        · exact absurd hx hk
        · exact he
    · rw [List.eraseP_cons_of_neg (by simpa using hx), List.mem_cons, List.mem_cons, ih hn.2]
      constructor
      · rintro (rfl | ⟨h1, h2⟩)
        · exact ⟨Or.inl rfl, hx⟩
        · exact ⟨Or.inr h1, h2⟩
      · rintro ⟨rfl | h1, h2⟩
        · exact Or.inl rfl
        · exact Or.inr ⟨h1, h2⟩

/-- A deletion takes entries out and moves none. -/
theorem del_sublist (d : List (κ × α)) (k : κ) : (del d k).Sublist d := List.eraseP_sublist

/-- What is there once a key is set. -/
theorem mem_set {e : κ × α} (h : e ∈ set d k v) : e = (k, v) ∨ e ∈ d ∧ e.1 ≠ k := by
  rw [set] at h
  split at h
  · obtain ⟨x, hx, rfl⟩ := List.mem_map.mp h
    split
    · exact Or.inl rfl
    · rename_i hne
      exact Or.inr ⟨hx, hne⟩
  · rename_i hnone
    rcases List.mem_append.mp h with hd | hd
    · exact Or.inr ⟨hd, ne_of_get_none (Option.not_isSome_iff_eq_none.mp hnone) e hd⟩
    · exact Or.inl (List.mem_singleton.mp hd)

/-- An entry that is set is there. -/
theorem mem_set_self (d : List (κ × α)) (k : κ) (v : α) : (k, v) ∈ set d k v := by
  rw [set]
  split
  · rename_i hsome
    obtain ⟨w, hw⟩ := Option.isSome_iff_exists.mp hsome
    exact List.mem_map.mpr ⟨_, mem_of_get hw, if_pos rfl⟩
  · exact List.mem_append_right _ List.mem_cons_self

/-- Setting one key loses no entry of another. -/
theorem mem_set_of_ne {e : κ × α} (h : e ∈ d) (hne : e.1 ≠ k) : e ∈ set d k v := by
  rw [set]
  split
  · exact List.mem_map.mpr ⟨e, h, if_neg hne⟩
  · exact List.mem_append_left _ h

/-- Setting a key that is there adds nothing. -/
theorem length_set_some {w : α} (h : get d k = some w) : (set d k v).length = d.length := by
  rw [set, if_pos (by rw [h]; rfl), List.length_map]

/-- Setting one that is not adds an entry. -/
theorem length_set_none (h : get d k = none) : (set d k v).length = d.length + 1 := by
  rw [set, if_neg (by rw [h]; simp), List.length_append, List.length_singleton]

/-- Deleting a key that is there takes an entry away; another key, nothing. -/
theorem length_del_some {w : α} (h : get d k = some w) : (del d k).length = d.length - 1 := by
  rw [del, List.length_eraseP, if_pos]
  exact List.any_eq_true.mpr ⟨_, mem_of_get h, by simp⟩

/-- A key that is not there is not there after a deletion, nor after another key is set. -/
theorem get_del_none (h : get d k = none) (k' : κ) : get (del d k') k = none := by
  apply get_none
  intro e he
  exact ne_of_get_none h e ((del_sublist d k').subset he)

theorem get_set_none {k' : κ} (h : get d k = none) (hne : k ≠ k') : get (set d k' v) k = none := by
  apply get_none
  intro e he
  rcases mem_set he with rfl | ⟨he, -⟩
  · exact Ne.symm hne
  · exact ne_of_get_none h e he

/-- There is nothing to delete under a key that is not there. -/
theorem del_none (h : get d k = none) : del d k = d := by
  rw [del, List.eraseP_of_forall_not]
  intro e he
  simpa using ne_of_get_none h e he

/-- Keys stay distinct. -/
theorem nodup_set (hn : (d.map Prod.fst).Nodup) (k : κ) (v : α) :
    ((set d k v).map Prod.fst).Nodup := by
  rw [set]
  split
  · have hkeys : (d.map fun e => if e.1 = k then (k, v) else e).map Prod.fst = d.map Prod.fst := by
      rw [List.map_map]
      refine List.map_congr_left fun e _ => ?_
      rw [Function.comp_apply]
      split
      · rename_i he
        exact he.symm
      · rfl
    rw [hkeys]
    exact hn
  · rename_i hnone
    rw [List.map_append, List.nodup_append]
    refine ⟨hn, List.nodup_singleton _, ?_⟩
    rintro x hx y hy rfl
    obtain ⟨e, he, rfl⟩ := List.mem_map.mp hx
    exact ne_of_get_none (Option.not_isSome_iff_eq_none.mp hnone) e he (List.mem_singleton.mp hy)

/-! ### Dictionaries by index -/

section Table

variable {ι : Type} {key : ι → κ} {f : ι → α} {l : List ι} {i : ι}

/-- The entries under the keys of a list of indices. -/
def table (key : ι → κ) (f : ι → α) (l : List ι) : List (κ × α) := l.map fun i => (key i, f i)

omit [DecidableEq κ] in
/-- A table has one entry for each index. -/
theorem length_table (key : ι → κ) (f : ι → α) (l : List ι) : (table key f l).length = l.length :=
  List.length_map _

/-- An index that is there is found under its key, if no other has it. -/
theorem get_table (hi : i ∈ l) (hinj : ∀ j ∈ l, key j = key i → j = i) :
    get (table key f l) (key i) = some (f i) := by
  induction l with
  | nil => cases hi
  | cons j l ih =>
    rw [table, List.map_cons, get]
    by_cases hj : key j = key i
    · rw [List.find?_cons_of_pos (by simpa using hj), hinj j List.mem_cons_self hj]
      rfl
    · rw [List.find?_cons_of_neg (by simpa using hj)]
      rcases List.mem_cons.mp hi with rfl | hi
      · exact absurd rfl hj
      · exact ih hi fun k hk => hinj k (List.mem_cons_of_mem j hk)

/-- Another key is not. -/
theorem get_table_none {k : κ} (h : ∀ j ∈ l, key j ≠ k) : get (table key f l) k = none := by
  apply get_none
  intro e he
  obtain ⟨j, hj, rfl⟩ := List.mem_map.mp he
  exact h j hj

/-- Setting the entry of an index changes it, at the end of the list when it is new. -/
theorem set_table [DecidableEq ι] (hinj : ∀ j ∈ l, key j = key i → j = i) (v : α) :
    set (table key f l) (key i) v =
      table key (Function.update f i v) (if i ∈ l then l else l ++ [i]) := by
  have hkeep : ∀ j, j ≠ i → Function.update f i v j = f j := fun j hj =>
    Function.update_of_ne hj v f
  by_cases hi : i ∈ l
  · rw [set, get_table hi hinj, if_pos (by rfl), if_pos hi, table, table, List.map_map]
    apply List.map_congr_left
    intro j hj
    rw [Function.comp_apply]
    by_cases hji : j = i
    · rw [hji, if_pos rfl, Function.update_self]
    · rw [if_neg fun h => hji (hinj j hj h), hkeep j hji]
  · have hne : ∀ j ∈ l, key j ≠ key i := fun j hj h => hi (hinj j hj h ▸ hj)
    rw [set, get_table_none hne, if_neg (by simp), if_neg hi, table, table, List.map_append,
      List.map_singleton, Function.update_self]
    congr 1
    apply List.map_congr_left
    intro j hj
    rw [hkeep j fun h => hi (h ▸ hj)]

/-- The entry of the first index goes. -/
theorem del_table (key : ι → κ) (f : ι → α) (i : ι) (l : List ι) :
    del (table key f (i :: l)) (key i) = table key f l := by
  rw [table, List.map_cons, del, List.eraseP_cons_of_pos (by simp)]
  rfl

end Table

end BoxingNetplay.Library.Dict
