import Mathlib.Data.Nat.Digits.Defs
import Mathlib.Data.List.Basic

/-!
# JSON text

Values and the text that `json.dumps` of Python gives for them with its defaults: the separators
`", "` and `": "`, the keys in the order of the dictionary, and every character outside the
printable ASCII range escaped.  A string is the list of its code points.
-/

set_option autoImplicit false

namespace BoxingNetplay.Library.Json

/-- The code points of a literal. -/
def ascii (s : String) : List ℕ := s.toList.map Char.toNat

/-- The digits of a natural number, most significant first. -/
def digits (n : ℕ) : List ℕ := if n = 0 then [48] else (Nat.digits 10 n).reverse.map fun d => d + 48

/-- An integer as `%d` prints it. -/
def decimal (i : ℤ) : List ℕ := if i < 0 then 45 :: digits i.natAbs else digits i.natAbs

/-- One lower-case hexadecimal digit. -/
def hexDigit (d : ℕ) : ℕ := if d < 10 then d + 48 else d + 87

/-- The escape `\uXXXX`. -/
def hexEscape (u : ℕ) : List ℕ :=
  [0x5C, 0x75, hexDigit (u / 4096 % 16), hexDigit (u / 256 % 16), hexDigit (u / 16 % 16),
    hexDigit (u % 16)]

/-- What follows the backslash in an escape of two characters. -/
def shortForm (c : ℕ) : Option ℕ :=
  if c = 0x22 then some 0x22
  else if c = 0x5C then some 0x5C
  else if c = 0x08 then some 0x62
  else if c = 0x0C then some 0x66
  else if c = 0x0A then some 0x6E
  else if c = 0x0D then some 0x72
  else if c = 0x09 then some 0x74
  else none

/-- A code point the way `ensure_ascii` writes it; beyond the basic plane it takes a surrogate
pair. -/
def escape (c : ℕ) : List ℕ :=
  match shortForm c with
  | some e => [0x5C, e]
  | none =>
    if 0x20 ≤ c ∧ c ≤ 0x7E then [c]
    else if c < 0x10000 then hexEscape c
    else hexEscape (0xD800 + (c - 0x10000) / 1024) ++ hexEscape (0xDC00 + (c - 0x10000) % 1024)

/-- A string between quotes. -/
def quoted (s : List ℕ) : List ℕ := 0x22 :: s.flatMap escape ++ [0x22]

/-- The values of this development's documents. -/
inductive Value where
  | str (s : List ℕ)
  | num (i : ℤ)
  | list (xs : List Value)
  | dict (fields : List (List ℕ × Value))

mutual

/-- The text of a value. -/
def dumps : Value → List ℕ
  | .str s => quoted s
  | .num i => decimal i
  | .list xs => 0x5B :: dumpsItems xs ++ [0x5D]
  | .dict fields => 0x7B :: dumpsFields fields ++ [0x7D]

/-- The items of a list. -/
def dumpsItems : List Value → List ℕ
  | [] => []
  | [x] => dumps x
  | x :: y :: rest => dumps x ++ [0x2C, 0x20] ++ dumpsItems (y :: rest)

/-- The fields of a dictionary. -/
def dumpsFields : List (List ℕ × Value) → List ℕ
  | [] => []
  | [(k, v)] => quoted k ++ [0x3A, 0x20] ++ dumps v
  | (k, v) :: f :: rest =>
    quoted k ++ [0x3A, 0x20] ++ dumps v ++ [0x2C, 0x20] ++ dumpsFields (f :: rest)

end

/-- Printable ASCII. -/
def Printable (s : List ℕ) : Prop := ∀ b ∈ s, 0x20 ≤ b ∧ b ≤ 0x7E

/-- Two printable strings are printable one after the other. -/
theorem Printable.append {s t : List ℕ} (hs : Printable s) (ht : Printable t) :
    Printable (s ++ t) := by
  intro b hb
  cases List.mem_append.mp hb with
  | inl h => exact hs b h
  | inr h => exact ht b h

/-- A printable character may be put in front. -/
theorem Printable.cons {b : ℕ} {s : List ℕ} (hb : 0x20 ≤ b ∧ b ≤ 0x7E) (hs : Printable s) :
    Printable (b :: s) := by
  intro x hx
  cases List.mem_cons.mp hx with
  | inl h => exact h ▸ hb
  | inr h => exact hs x h

/-- A hexadecimal digit is printable. -/
theorem hexDigit_bounds {d : ℕ} (h : d < 16) : 0x20 ≤ hexDigit d ∧ hexDigit d ≤ 0x7E := by
  unfold hexDigit
  split <;> omega

theorem printable_hexEscape (u : ℕ) : Printable (hexEscape u) := by
  have hdigit : ∀ n, 0x20 ≤ hexDigit (n % 16) ∧ hexDigit (n % 16) ≤ 0x7E := fun n =>
    hexDigit_bounds (Nat.mod_lt n (by omega))
  intro b hb
  simp only [hexEscape, List.mem_cons, List.not_mem_nil, or_false] at hb
  obtain rfl | rfl | rfl | rfl | rfl | rfl := hb
  · omega
  · omega
  · apply hdigit
  · apply hdigit
  · apply hdigit
  · apply hdigit

theorem shortForm_bounds {c e : ℕ} (h : shortForm c = some e) : 0x20 ≤ e ∧ e ≤ 0x7E := by
  unfold shortForm at h
  split_ifs at h <;> cases h <;> omega

/-- Whatever a character is, what stands for it is printable. -/
theorem printable_escape (c : ℕ) : Printable (escape c) := by
  unfold escape
  cases hs : shortForm c with
  | some e =>
    have he := shortForm_bounds hs
    exact Printable.cons (by omega) (Printable.cons he (by simp [Printable]))
  | none =>
    simp only
    split_ifs with hp
    · exact Printable.cons hp (by simp [Printable])
    · exact printable_hexEscape c
    · exact (printable_hexEscape _).append (printable_hexEscape _)

theorem printable_quoted (s : List ℕ) : Printable (quoted s) := by
  have hbody : Printable (s.flatMap escape) := by
    intro b hb
    obtain ⟨c, -, hc⟩ := List.mem_flatMap.mp hb
    exact printable_escape c b hc
  have hquote : Printable [0x22] := by simp [Printable]
  exact Printable.append (hbody.cons (by omega)) hquote

/-- The digits of a number are printable. -/
theorem printable_digits (n : ℕ) : Printable (digits n) := by
  unfold digits
  split
  · simp [Printable]
  · intro b hb
    simp only [List.mem_map, List.mem_reverse] at hb
    obtain ⟨d, hd, rfl⟩ := hb
    have hlt : d < 10 := Nat.digits_lt_base (by omega) hd
    omega

/-- With their sign as well. -/
theorem printable_decimal (i : ℤ) : Printable (decimal i) := by
  unfold decimal
  split
  · exact (printable_digits _).cons (by omega)
  · exact printable_digits _

mutual

/-- What `dumps` gives is printable, whatever the value holds. -/
theorem printable_dumps : ∀ v : Value, Printable (dumps v)
  | .str s => by
    rw [dumps]
    exact printable_quoted s
  | .num i => by
    rw [dumps]
    exact printable_decimal i
  | .list xs => by
    rw [dumps]
    exact Printable.append ((printable_dumpsItems xs).cons (by omega)) (by simp [Printable])
  | .dict fields => by
    rw [dumps]
    exact Printable.append ((printable_dumpsFields fields).cons (by omega)) (by simp [Printable])

/-- The items of a list are printable when each is. -/
theorem printable_dumpsItems : ∀ xs : List Value, Printable (dumpsItems xs)
  | [] => by simp [dumpsItems, Printable]
  | [x] => by
    rw [dumpsItems]
    exact printable_dumps x
  | x :: y :: rest => by
    rw [dumpsItems]
    have hsep : Printable [0x2C, 0x20] := by simp [Printable]
    exact ((printable_dumps x).append hsep).append (printable_dumpsItems (y :: rest))

/-- The fields of an object are printable when each is. -/
theorem printable_dumpsFields : ∀ fields : List (List ℕ × Value), Printable (dumpsFields fields)
  | [] => by simp [dumpsFields, Printable]
  | [(k, v)] => by
    rw [dumpsFields]
    have hsep : Printable [0x3A, 0x20] := by simp [Printable]
    exact ((printable_quoted k).append hsep).append (printable_dumps v)
  | (k, v) :: f :: rest => by
    rw [dumpsFields]
    have hcolon : Printable [0x3A, 0x20] := by simp [Printable]
    have hcomma : Printable [0x2C, 0x20] := by simp [Printable]
    exact ((((printable_quoted k).append hcolon).append (printable_dumps v)).append hcomma).append
      (printable_dumpsFields (f :: rest))

end

end BoxingNetplay.Library.Json
