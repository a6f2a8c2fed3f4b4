import Mathlib.Order.Basic

/-!
# Waits counted in two bytes

A wait is counted in a low and a high byte.  A round increments the low byte, carries into the high
one, and gives up when the carry takes the high byte to a limit; the low byte is not looked at then.
-/

set_option autoImplicit false

namespace BoxingNetplay.Library

/-- The rounds a wait has left, the one that gives up included. -/
def roundsLeft (limit lo hi : ℕ) : ℕ := 256 * (limit - min hi (limit - 1)) - lo

section Rounds

variable {limit lo hi : ℕ}

/-- A wait never has more than 256 times the limit of its high byte left. -/
theorem roundsLeft_le (h : 0 < limit) : roundsLeft limit lo hi ≤ 256 * limit := by
  unfold roundsLeft
  omega

/-- As long as its low byte is one, a wait has at least one round left. -/
theorem roundsLeft_pos (h : 0 < limit) (hlo : lo < 256) : 0 < roundsLeft limit lo hi := by
  unfold roundsLeft
  omega

/-- A round without a carry. -/
theorem roundsLeft_low (h : 0 < limit) (hlo : lo + 1 < 256) :
    roundsLeft limit (lo + 1) hi + 1 = roundsLeft limit lo hi := by
  unfold roundsLeft
  omega

/-- A round with a carry that does not reach the limit. -/
theorem roundsLeft_carry (hhi : hi + 1 < limit) :
    roundsLeft limit 0 (hi + 1) + 1 = roundsLeft limit 255 hi := by
  unfold roundsLeft
  omega

end Rounds

end BoxingNetplay.Library
