import Mathlib.Data.List.MinMax
import Mathlib.Data.List.Nodup
import Mathlib.Logic.Function.Basic
import Mathlib.Tactic.Common

/-!
# Rounds of several reporters

Each of `n` reporters reports for one round after the other, at its own pace, so that what has been reported is
known from how many reports each has made.  A round is over once everybody has reported for it, and the rounds
that have begun and are not over form a window that moves on.
-/

set_option autoImplicit false

namespace BoxingNetplay.Library.Rounds

/-- The rounds that everybody has reported for are those below this one. -/
def closed (n : ℕ) (c : ℕ → ℕ) : ℕ := ((List.range n).map c).min?.getD 0

/-- The rounds that somebody has reported for are those below this one. -/
def begun (n : ℕ) (c : ℕ → ℕ) : ℕ := ((List.range n).map c).max?.getD 0

/-- The rounds in between. -/
def underway (n : ℕ) (c : ℕ → ℕ) : List ℕ := List.range' (closed n c) (begun n c - closed n c)

/-- Who has reported for a round. -/
def reporters (n : ℕ) (c : ℕ → ℕ) (k : ℕ) : List ℕ := (List.range n).filter fun s => k < c s

/-- One more report. -/
def bump (c : ℕ → ℕ) (s : ℕ) : ℕ → ℕ := Function.update c s (c s + 1)

variable {n s k m : ℕ} {c : ℕ → ℕ}

/-- The one who reports has made one more report. -/
@[simp] theorem bump_self (c : ℕ → ℕ) (s : ℕ) : bump c s s = c s + 1 := Function.update_self ..

/-- Nobody else has. -/
theorem bump_of_ne (c : ℕ → ℕ) {j : ℕ} (h : j ≠ s) : bump c s j = c j := Function.update_of_ne h ..

/-- No count goes down. -/
theorem bump_le (c : ℕ → ℕ) (s j : ℕ) : c j ≤ bump c s j := by
  by_cases hj : j = s
  · subst hj
    rw [bump_self]
    exact Nat.le_succ _
  · rw [bump_of_ne c hj]

/-- One more round joins those with a property when it has it. -/
theorem filter_range_succ (f : ℕ → Bool) (m : ℕ) :
    (List.range (m + 1)).filter f = (List.range m).filter f ++ if f m then [m] else [] := by
  rw [List.range_succ, List.filter_append, List.filter_singleton, Bool.cond_eq_ite]

/-! ### The bounds of the window -/

/-- The smallest count is the number of closed rounds. -/
theorem closed_eq (hle : ∀ s < n, m ≤ c s) (hat : ∃ s < n, c s = m) : closed n c = m := by
  obtain ⟨s, hs, rfl⟩ := hat
  have hmin : ((List.range n).map c).min? = some (c s) := by
    rw [List.min?_eq_some_iff]
    constructor
    · exact List.mem_map_of_mem (List.mem_range.mpr hs)
    · intro x hx
      obtain ⟨j, hj, rfl⟩ := List.mem_map.mp hx
      exact hle j (List.mem_range.mp hj)
  rw [closed, hmin, Option.getD_some]

/-- The largest count is the number of rounds begun. -/
theorem begun_eq (hle : ∀ s < n, c s ≤ m) (hat : ∃ s < n, c s = m) : begun n c = m := by
  obtain ⟨s, hs, rfl⟩ := hat
  have hmax : ((List.range n).map c).max? = some (c s) := by
    rw [List.max?_eq_some_iff]
    constructor
    · exact List.mem_map_of_mem (List.mem_range.mpr hs)
    · intro x hx
      obtain ⟨j, hj, rfl⟩ := List.mem_map.mp hx
      exact hle j (List.mem_range.mp hj)
  rw [begun, hmax, Option.getD_some]

/-- Somebody is the last one. -/
theorem closed_spec (hn : 0 < n) (c : ℕ → ℕ) :
    (∀ s < n, closed n c ≤ c s) ∧ ∃ s < n, c s = closed n c := by
  have hne : (List.range n).map c ≠ [] := by
    simp only [ne_eq, List.map_eq_nil_iff, List.range_eq_nil]
    omega
  obtain ⟨m, hm⟩ := Option.isSome_iff_exists.mp (List.isSome_min?_of_ne_nil hne)
  obtain ⟨hmem, hle⟩ := List.min?_eq_some_iff.mp hm
  obtain ⟨s, hs, rfl⟩ := List.mem_map.mp hmem
  rw [closed, hm, Option.getD_some]
  refine ⟨fun j hj => hle _ ?_, s, List.mem_range.mp hs, rfl⟩
  exact List.mem_map_of_mem (List.mem_range.mpr hj)

/-- Somebody is the first one. -/
theorem begun_spec (hn : 0 < n) (c : ℕ → ℕ) :
    (∀ s < n, c s ≤ begun n c) ∧ ∃ s < n, c s = begun n c := by
  have hne : (List.range n).map c ≠ [] := by
    simp only [ne_eq, List.map_eq_nil_iff, List.range_eq_nil]
    omega
  obtain ⟨m, hm⟩ := Option.isSome_iff_exists.mp (List.isSome_max?_of_ne_nil hne)
  obtain ⟨hmem, hle⟩ := List.max?_eq_some_iff.mp hm
  obtain ⟨s, hs, rfl⟩ := List.mem_map.mp hmem
  rw [begun, hm, Option.getD_some]
  refine ⟨fun j hj => hle _ ?_, s, List.mem_range.mp hs, rfl⟩
  exact List.mem_map_of_mem (List.mem_range.mpr hj)

/-- No round is over before it has begun. -/
theorem closed_le_begun (hn : 0 < n) (c : ℕ → ℕ) : closed n c ≤ begun n c :=
  Nat.le_trans ((closed_spec hn c).1 0 hn) ((begun_spec hn c).1 0 hn)

/-- A report ends the round it is for when the others have all reported for it, and then it was the first of
the window; otherwise none ends. -/
theorem closed_bump (hs : s < n) (c : ℕ → ℕ) :
    ((∀ j < n, c s < bump c s j) ∧ c s = closed n c ∧ closed n (bump c s) = closed n c + 1) ∨
      ((∃ j < n, bump c s j ≤ c s) ∧ closed n (bump c s) = closed n c) := by
  have hn : 0 < n := Nat.zero_lt_of_lt hs
  obtain ⟨hle, last, hlast, hat⟩ := closed_spec hn c
  by_cases hall : ∀ j < n, c s < bump c s j
  · left
    have hsame : c s = closed n c := by
      by_contra hne
      have hls : last ≠ s := fun h => hne (h ▸ hat)
      have h1 := hall last hlast
      rw [bump_of_ne c hls, hat] at h1
      exact absurd (hle s hs) (Nat.not_le.mpr h1)
    refine ⟨hall, hsame, closed_eq (fun j hj => ?_) ⟨s, hs, ?_⟩⟩
    · rw [← hsame]
      exact hall j hj
    · rw [bump_self, hsame]
  · right
    push Not at hall
    obtain ⟨j, hj, hjs⟩ := hall
    refine ⟨⟨j, hj, hjs⟩, closed_eq (fun i hi => Nat.le_trans (hle i hi) (bump_le c s i)) ?_⟩
    by_cases hls : last = s
    · -- the one that is not ahead of the last one is as far as it was
      have hne : j ≠ s := by
        rintro rfl
        rw [bump_self] at hjs
        omega
      rw [bump_of_ne c hne] at hjs
      rw [← hls, hat] at hjs
      refine ⟨j, hj, ?_⟩
      rw [bump_of_ne c hne]
      exact Nat.le_antisymm hjs (hle j hj)
    · exact ⟨last, hlast, by rw [bump_of_ne c hls, hat]⟩

/-- A report begins a round when nobody had reported for it. -/
theorem begun_bump (hs : s < n) (c : ℕ → ℕ) :
    (c s = begun n c ∧ begun n (bump c s) = begun n c + 1) ∨
      (c s < begun n c ∧ begun n (bump c s) = begun n c) := by
  have hn : 0 < n := Nat.zero_lt_of_lt hs
  obtain ⟨hle, first, hfirst, hat⟩ := begun_spec hn c
  rcases Nat.lt_or_eq_of_le (hle s hs) with hlt | heq
  · right
    refine ⟨hlt, begun_eq (fun j hj => ?_) ⟨first, hfirst, ?_⟩⟩
    · by_cases hj' : j = s
      · rw [hj', bump_self]
        exact hlt
      · rw [bump_of_ne c hj']
        exact hle j hj
    · rw [bump_of_ne c (by rintro rfl; omega), hat]
  · left
    refine ⟨heq, begun_eq (fun j hj => ?_) ⟨s, hs, ?_⟩⟩
    · by_cases hj' : j = s
      · rw [hj', bump_self, heq]
      · rw [bump_of_ne c hj']
        exact Nat.le_succ_of_le (hle j hj)
    · rw [bump_self, heq]

/-! ### The reporters of a round -/

/-- A report for one round changes nobody's part in another. -/
theorem reporters_bump_of_ne (c : ℕ → ℕ) (h : k ≠ c s) :
    reporters n (bump c s) k = reporters n c k := by
  apply List.filter_congr
  intro j _
  by_cases hj : j = s
  · subst hj
    rw [bump_self]
    apply decide_eq_decide.mpr
    omega
  · rw [bump_of_ne c hj]

/-- The one that reports joins those of the round. -/
theorem reporters_bump_self (hs : s < n) (c : ℕ → ℕ) :
    (reporters n (bump c s) (c s)).Perm (reporters n c (c s) ++ [s]) := by
  have hnodup : (reporters n (bump c s) (c s)).Nodup := List.nodup_range.filter _
  rw [List.perm_ext_iff_of_nodup hnodup]
  · intro j
    simp only [reporters, List.mem_filter, List.mem_range, decide_eq_true_eq, List.mem_append,
      List.mem_singleton]
    by_cases hj : j = s
    · subst hj
      simp [hs]
    · rw [bump_of_ne c hj]
      simp [hj]
  · rw [List.nodup_append]
    refine ⟨List.nodup_range.filter _, List.nodup_singleton _, ?_⟩
    rintro j hj i hi rfl
    have hlt := (List.mem_filter.mp hj).2
    rw [List.mem_singleton.mp hi, decide_eq_true_eq] at hlt
    exact Nat.lt_irrefl _ hlt

/-- Nobody has yet reported for the round that is next for them. -/
theorem reporters_self (n : ℕ) (c : ℕ → ℕ) (s : ℕ) : s ∉ reporters n c (c s) := by
  intro h
  have hlt := (List.mem_filter.mp h).2
  rw [decide_eq_true_eq] at hlt
  exact Nat.lt_irrefl _ hlt

/-- Everybody has reported for a round that is over. -/
theorem reporters_all (h : ∀ j < n, k < c j) : reporters n c k = List.range n := by
  apply List.filter_eq_self.mpr
  intro j hj
  exact decide_eq_true (h j (List.mem_range.mp hj))

/-- One is missing otherwise. -/
theorem reporters_length_lt {j : ℕ} (hj : j < n) (h : c j ≤ k) : (reporters n c k).length < n := by
  have hlt : (reporters n c k).length < (List.range n).length := by
    apply List.length_filter_lt_length_iff_exists.mpr
    refine ⟨j, List.mem_range.mpr hj, ?_⟩
    simp only [decide_eq_true_eq]
    omega
  rwa [List.length_range] at hlt

/-- Nobody has reported for a round that has not begun. -/
theorem reporters_none (hn : 0 < n) (h : begun n c ≤ k) : reporters n c k = [] := by
  apply List.filter_eq_nil_iff.mpr
  intro j hj
  have := (begun_spec hn c).1 j (List.mem_range.mp hj)
  simp only [decide_eq_true_eq]
  omega

/-! ### The window -/

/-- The rounds underway are those begun and not over. -/
theorem mem_underway {k : ℕ} (hn : 0 < n) : k ∈ underway n c ↔ closed n c ≤ k ∧ k < begun n c := by
  have := closed_le_begun hn c
  rw [underway, List.mem_range'_1]
  omega

/-- A report for a round takes its place at the end of the window when it begins the round, and the first round
of the window leaves it when it ends. -/
theorem underway_bump (hs : s < n) (c : ℕ → ℕ) : ∃ w,
    w = (if c s ∈ underway n c then underway n c else underway n c ++ [c s]) ∧
      (((∀ j < n, c s < bump c s j) ∧ w = c s :: underway n (bump c s) ∧ c s = closed n c ∧
          closed n (bump c s) = closed n c + 1) ∨
        ((∃ j < n, bump c s j ≤ c s) ∧ w = underway n (bump c s) ∧ closed n (bump c s) = closed n c)) := by
  have hn : 0 < n := Nat.zero_lt_of_lt hs
  have hle := closed_le_begun hn c
  have hlo := (closed_spec hn c).1 s hs
  have hw : (if c s ∈ underway n c then underway n c else underway n c ++ [c s]) =
      List.range' (closed n c) (begun n (bump c s) - closed n c) := by
    rcases begun_bump hs c with ⟨heq, hnext⟩ | ⟨hlt, hsame⟩
    · have hnew : c s ∉ underway n c := by
        rw [mem_underway hn]
        omega
      rw [if_neg hnew, hnext, Nat.succ_sub hle, underway, List.range'_concat]
      congr 2
      omega
    · rw [if_pos ((mem_underway hn).mpr ⟨hlo, hlt⟩), hsame, underway]
  refine ⟨_, rfl, ?_⟩
  rw [hw]
  rcases closed_bump hs c with ⟨hall, hat, hnext⟩ | ⟨hsome, hsame⟩
  · left
    refine ⟨hall, ?_, hat, hnext⟩
    have hlt : closed n c < begun n (bump c s) := by
      rcases begun_bump hs c with h | h <;> omega
    have hsub : begun n (bump c s) - closed n c = (begun n (bump c s) - (closed n c + 1)) + 1 := by omega
    rw [underway, hnext, hsub, List.range'_succ, hat]
  · right
    exact ⟨hsome, by rw [underway, hsame], hsame⟩

end BoxingNetplay.Library.Rounds
