import BoxingNetplay.Library.Framing
import BoxingNetplay.Model.Wire

/-!
# The relay's framing

What both relays decide about the bytes at the front of a client's stream, before they know
that the frame is complete: a length byte of 1 to 200 announces a frame, any other is an
error.
-/

set_option autoImplicit false

namespace BoxingNetplay.Interface

open BoxingNetplay.Library
open BoxingNetplay.Model.Wire

/-- SOURCE: intv-relay.c:742-757, intv_relay_server.py:333-340 -/
def relayVerdict : List ℕ → Verdict
  | [] => .wait
  | lenb :: rest =>
    if lenb = 0 ∨ lenb > 200 then .slip
    else if rest.length < lenb then .wait else .take (lenb + 1)

/-- The framing of a client's stream. -/
def relayFraming : Framing ℕ where
  verdict := relayVerdict
  nil_wait := rfl
  take_pos xs n h := by
    cases xs with
    | nil => cases h
    | cons lenb rest =>
      simp only [relayVerdict] at h
      split at h
      · cases h
      split at h
      · cases h
      injection h with h
      rw [List.length_cons]
      omega
  verdict_append xs ys h := by
    cases xs with
    | nil => exact absurd rfl h
    | cons lenb rest =>
      simp only [relayVerdict, List.cons_append, List.length_append] at h ⊢
      by_cases hbad : lenb = 0 ∨ lenb > 200
      · rw [if_pos hbad, if_pos hbad]
      rw [if_neg hbad] at h ⊢
      rw [if_neg hbad]
      by_cases hlen : rest.length < lenb
      · rw [if_pos hlen] at h
        exact absurd rfl h
      · rw [if_neg hlen, if_neg (by omega)]

/-- A whole frame: its length byte, and as many bytes. -/
def IsWhole : List ℕ → Prop
  | lenb :: body => 1 ≤ lenb ∧ lenb ≤ 200 ∧ body.length = lenb
  | [] => False

/-- The rule of the relay takes all of it. -/
theorem IsWhole.verdict {f : List ℕ} (h : IsWhole f) : relayFraming.verdict f = .take f.length := by
  cases f with
  | nil => exact h.elim
  | cons lenb body =>
    obtain ⟨h1, h2, h3⟩ := h
    change relayVerdict (lenb :: body) = _
    rw [relayVerdict, if_neg (by omega), if_neg (by omega), List.length_cons, h3]

/-- A payload of at most 199 bytes makes a whole frame. -/
theorem isWhole_frame (ftype : ℕ) {payload : List ℕ} (h : payload.length ≤ 199) :
    IsWhole (frame ftype payload) := by
  have hmod : (payload.length + 1) % 256 = payload.length + 1 := Nat.mod_eq_of_lt (by omega)
  refine ⟨by omega, by omega, ?_⟩
  rw [List.length_cons, hmod]

/-- What the framing takes has the layout of a frame. -/
theorem frame_of_take {lenb : ℕ} {rest : List ℕ}
    (h : 1 ≤ lenb ∧ lenb ≤ 200 ∧ lenb ≤ rest.length) :
    lenb :: rest.take lenb = frame ((rest.take lenb).headD 0) (rest.take lenb).tail := by
  cases htake : rest.take lenb with
  | nil =>
    have hlen := congrArg List.length htake
    rw [List.length_take, List.length_nil] at hlen
    omega
  | cons a body =>
    have hlen := congrArg List.length htake
    rw [List.length_take, List.length_cons] at hlen
    rw [List.headD_cons, List.tail_cons, frame, ← hlen, Nat.min_eq_left (by omega),
      Nat.mod_eq_of_lt (by omega)]

/-- A framing that waits holds less than a frame. -/
theorem length_le_of_relay_wait {xs : List ℕ} (h : relayFraming.verdict xs = .wait) :
    xs.length ≤ 200 := by
  cases xs with
  | nil => exact Nat.zero_le _
  | cons lenb rest =>
    change relayVerdict (lenb :: rest) = _ at h
    simp only [relayVerdict] at h
    split at h
    · cases h
    split at h
    · rw [List.length_cons]
      omega
    · cases h

end BoxingNetplay.Interface
