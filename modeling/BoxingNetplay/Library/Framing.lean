import Mathlib.Data.List.Basic
import Mathlib.Data.Nat.Init
import Mathlib.Tactic.Common

/-!
# Self-resynchronising framings of a byte stream

A framing looks at the front of a stream and says one of three things: wait for more,
discard one element, or take the first `n` elements as a frame.  The only law is that a
decision, once made, does not depend on what arrives later (`verdict_append`).

`scan` reads a stream from left to right and returns what it extracted and what is left
over.  The main fact is `scan_append`: scanning a stream in two pieces, carrying the
left-over of the first piece into the second, is the same as scanning it whole.  A receiver that
scans whatever has arrived each time it is polled therefore computes the scan of the
whole stream, however the stream is cut.
-/

set_option autoImplicit false

namespace BoxingNetplay.Library

/-- What a framing says about the front of a stream. -/
inductive Verdict where
  | wait
  | slip
  | take (n : ℕ)
  deriving DecidableEq, Repr

/-- One thing extracted from a stream. -/
inductive Item (β : Type) where
  | frame (bytes : List β)
  | slip (byte : β)
  deriving DecidableEq, Repr

/-- The frames among what was extracted, in order. -/
def framesOf {β : Type} : List (Item β) → List (List β)
  | [] => []
  | .slip _ :: is => framesOf is
  | .frame f :: is => f :: framesOf is

@[simp] theorem framesOf_append {β : Type} (is js : List (Item β)) :
    framesOf (is ++ js) = framesOf is ++ framesOf js := by
  induction is with
  | nil => rfl
  | cons i is ih =>
    cases i with
    | slip b => exact ih
    | frame f => exact congrArg (List.cons f) ih

/-- A list of frames has these frames. -/
@[simp] theorem framesOf_map {β : Type} (fs : List (List β)) : framesOf (fs.map Item.frame) = fs := by
  induction fs with
  | nil => rfl
  | cons f fs ih => exact congrArg (List.cons f) ih

/-- A framing: decisions are about present elements, and they are final. -/
structure Framing (β : Type) where
  verdict : List β → Verdict
  nil_wait : verdict [] = .wait
  take_pos : ∀ xs n, verdict xs = .take n → 0 < n ∧ n ≤ xs.length
  verdict_append : ∀ xs ys, verdict xs ≠ .wait → verdict (xs ++ ys) = verdict xs

namespace Framing

variable {β : Type} (F : Framing β)

/-- The scan with an explicit bound on the number of decisions. -/
def scanFuel : ℕ → List β → List (Item β) × List β
  | 0, xs => ([], xs)
  | fuel + 1, xs =>
    match F.verdict xs with
    | .wait => ([], xs)
    | .slip =>
      let rest := scanFuel fuel xs.tail
      ((xs.head?.map Item.slip).toList ++ rest.1, rest.2)
    | .take n =>
      let rest := scanFuel fuel (xs.drop n)
      (.frame (xs.take n) :: rest.1, rest.2)

/-- One left-to-right scan of a stream: what was extracted, and the left-over. -/
def scan (xs : List β) : List (Item β) × List β := F.scanFuel xs.length xs

/-- Fuel beyond the length of the stream changes nothing. -/
theorem scanFuel_eq_scan (fuel : ℕ) (xs : List β) (h : xs.length ≤ fuel) :
    F.scanFuel fuel xs = F.scan xs := by
  suffices key : ∀ (f g : ℕ) (xs : List β), xs.length ≤ f → xs.length ≤ g →
      F.scanFuel f xs = F.scanFuel g xs from key fuel xs.length xs h (Nat.le_refl _)
  intro f
  induction f with
  | zero =>
    intro g xs hf _
    have hnil : xs = [] := List.length_eq_zero_iff.mp (by omega)
    subst hnil
    cases g with
    | zero => rfl
    | succ g => simp only [scanFuel, F.nil_wait]
  | succ f ih =>
    intro g xs hf hg
    cases g with
    | zero =>
      have hnil : xs = [] := List.length_eq_zero_iff.mp (by omega)
      subst hnil
      simp only [scanFuel, F.nil_wait]
    | succ g =>
      cases hv : F.verdict xs with
      | wait => simp only [scanFuel, hv]
      | slip =>
        have htail := ih g xs.tail (by simp; omega) (by simp; omega)
        simp only [scanFuel, hv, htail]
      | take n =>
        have hpos := F.take_pos xs n hv
        have hdrop := ih g (xs.drop n) (by rw [List.length_drop]; omega)
          (by rw [List.length_drop]; omega)
        simp only [scanFuel, hv, hdrop]

/-- The scan stops where the framing waits. -/
theorem scan_wait (xs : List β) (h : F.verdict xs = .wait) : F.scan xs = ([], xs) := by
  unfold scan
  cases xs with
  | nil => rfl
  | cons x xs => simp only [List.length_cons, scanFuel, h]

/-- The scan discards one element where the framing says so. -/
theorem scan_slip (x : β) (xs : List β) (h : F.verdict (x :: xs) = .slip) :
    F.scan (x :: xs) = (.slip x :: (F.scan xs).1, (F.scan xs).2) := by
  unfold scan
  simp only [List.length_cons, scanFuel, h]
  rfl

/-- The scan takes a frame where the framing says so. -/
theorem scan_take (xs : List β) (n : ℕ) (h : F.verdict xs = .take n) :
    F.scan xs = (.frame (xs.take n) :: (F.scan (xs.drop n)).1, (F.scan (xs.drop n)).2) := by
  obtain ⟨hpos, hle⟩ := F.take_pos xs n h
  cases xs with
  | nil => simp at hle; omega
  | cons x xs =>
    have hfuel := F.scanFuel_eq_scan xs.length ((x :: xs).drop n)
      (by rw [List.length_drop, List.length_cons]; omega)
    conv_lhs => unfold scan
    simp only [List.length_cons, scanFuel, h, hfuel]

/-- The left-over of a scan is a stream the framing waits on. -/
theorem verdict_scan_rest (xs : List β) : F.verdict (F.scan xs).2 = .wait := by
  induction hn : xs.length using Nat.strongRecOn generalizing xs with
  | _ n ih =>
    cases hv : F.verdict xs with
    | wait => rw [F.scan_wait xs hv, hv]
    | slip =>
      cases xs with
      | nil => rw [F.nil_wait] at hv; cases hv
      | cons x xs =>
        rw [F.scan_slip x xs hv]
        exact ih xs.length (by rw [← hn]; simp) xs rfl
    | take k =>
      obtain ⟨hpos, hle⟩ := F.take_pos xs k hv
      rw [F.scan_take xs k hv]
      exact ih (xs.drop k).length (by rw [List.length_drop]; omega) _ rfl

/-- Scanning in two pieces, with the left-over carried over, is scanning the whole. -/
theorem scan_append (xs ys : List β) :
    F.scan (xs ++ ys) =
      ((F.scan xs).1 ++ (F.scan ((F.scan xs).2 ++ ys)).1, (F.scan ((F.scan xs).2 ++ ys)).2) := by
  induction hn : xs.length using Nat.strongRecOn generalizing xs with
  | _ n ih =>
    cases hv : F.verdict xs with
    | wait => rw [F.scan_wait xs hv, List.nil_append]
    | slip =>
      cases xs with
      | nil => rw [F.nil_wait] at hv; cases hv
      | cons x xs =>
        have happ := F.verdict_append (x :: xs) ys (by rw [hv]; exact Verdict.noConfusion)
        rw [hv, List.cons_append] at happ
        rw [List.cons_append, F.scan_slip x (xs ++ ys) happ, F.scan_slip x xs hv,
          ih xs.length (by rw [← hn]; simp) xs rfl]
        rfl
    | take k =>
      obtain ⟨hpos, hle⟩ := F.take_pos xs k hv
      have happ := F.verdict_append xs ys (by rw [hv]; exact Verdict.noConfusion)
      rw [hv] at happ
      rw [F.scan_take (xs ++ ys) k happ, F.scan_take xs k hv, List.drop_append_of_le_length hle,
        List.take_append_of_le_length hle,
        ih (xs.drop k).length (by rw [List.length_drop]; omega) _ rfl]
      rfl

/-- A frame at the front of the stream is delivered first. -/
theorem scan_frame_append (f xs : List β) (h : F.verdict f = .take f.length) :
    F.scan (f ++ xs) = (.frame f :: (F.scan xs).1, (F.scan xs).2) := by
  have happ := F.verdict_append f xs (by rw [h]; exact Verdict.noConfusion)
  rw [h] at happ
  rw [F.scan_take _ _ happ, List.take_left, List.drop_left]

/-- A concatenation of frames is delivered in full, in order, with nothing discarded. -/
theorem scan_flatten (fs : List (List β)) (h : ∀ f ∈ fs, F.verdict f = .take f.length) :
    F.scan fs.flatten = (fs.map Item.frame, []) := by
  induction fs with
  | nil => exact F.scan_wait [] F.nil_wait
  | cons f fs ih =>
    rw [List.flatten_cons, F.scan_frame_append f _ (h f (by simp)),
      ih (fun g hg => h g (by simp [hg])), List.map_cons]

/-- Scanning piece after piece, as a receiver that is polled does. -/
def feed : List β → List (List β) → List (Item β) × List β
  | rest, [] => ([], rest)
  | rest, c :: cs =>
    ((F.scan (rest ++ c)).1 ++ (feed (F.scan (rest ++ c)).2 cs).1,
      (feed (F.scan (rest ++ c)).2 cs).2)

/-- However a stream is cut, feeding the pieces is scanning the whole. -/
theorem feed_eq_scan (rest : List β) (cs : List (List β)) (h : F.verdict rest = .wait) :
    F.feed rest cs = F.scan (rest ++ cs.flatten) := by
  induction cs generalizing rest with
  | nil => rw [feed, List.flatten_nil, List.append_nil, F.scan_wait rest h]
  | cons c cs ih =>
    rw [feed, ih _ (F.verdict_scan_rest _), List.flatten_cons, ← List.append_assoc,
      F.scan_append (rest ++ c)]

end Framing

/-! ### Up to the first discarded element -/

section Leading

variable {β : Type}

/-- The frames extracted before anything is discarded. -/
def leading : List (Item β) → List (List β)
  | [] => []
  | .slip _ :: _ => []
  | .frame f :: is => f :: leading is

/-- Nothing is discarded. -/
def Intact (is : List (Item β)) : Prop := ∀ b, Item.slip b ∉ is

/-- Nothing is intact. -/
theorem intact_nil : Intact ([] : List (Item β)) := fun _ h => by cases h

/-- A frame in front changes nothing about whether the rest is intact. -/
theorem intact_frame {f : List β} {is : List (Item β)} : Intact (.frame f :: is) ↔ Intact is :=
  ⟨fun h b hb => h b (List.mem_cons_of_mem _ hb), fun h b hb =>
    (List.mem_cons.mp hb).elim (fun heq => by cases heq) (h b)⟩

/-- Two stretches are intact together when each is. -/
theorem intact_append {is js : List (Item β)} : Intact (is ++ js) ↔ Intact is ∧ Intact js := by
  refine ⟨fun h => ⟨fun b hb => ?_, fun b hb => ?_⟩, fun h b hb => ?_⟩
  · exact h b (List.mem_append_left _ hb)
  · exact h b (List.mem_append_right _ hb)
  · exact (List.mem_append.mp hb).elim (h.1 b) (h.2 b)

/-- Once something is discarded, nothing does. -/
theorem leading_append_of_not {is js : List (Item β)} (h : ¬ Intact is) :
    leading (is ++ js) = leading is := by
  induction is with
  | nil => exact absurd intact_nil h
  | cons i is ih =>
    cases i with
    | slip b => rfl
    | frame f =>
      rw [List.cons_append, leading, leading, ih fun hi => h (intact_frame.mpr hi)]

end Leading

end BoxingNetplay.Library
