import BoxingNetplay.Interface.Dispatch
import BoxingNetplay.Interface.Inputs

/-!
# What a dispatch reads, and the events of the action keys

A dispatch of a seat reads the slots of the tick and of the tick before it in the seat's two ring
pages.  The events of an action key follow from the two keypad cells alone: a key that the earlier
cell has and the later one has not is released, one that only the later one has is pressed, and
one that both have fires again.
-/

set_option autoImplicit false

namespace BoxingNetplay.Interface

open BoxingNetplay.Library
open BoxingNetplay.Model

/-! ### The cells that are read -/

/-- The cells of a seat's rings for a tick and the tick before it. -/
def seatCells (c : Cpu) (seat tick : ℕ) : Cells where
  cur := c.cell (ringSlot seat tick)
  prev := c.cell (ringSlot seat (tick + 255))
  kp := c.cell (keypadSlot seat tick)
  kppre := c.cell (keypadSlot seat (tick + 255))

/-- The slot before the slot of the tick is that of the tick before, in the same page. -/
theorem prevSlot_eq (c : Cpu) (page : ℕ) (hp : page < 65280) (hpos : 0 < page) :
    prevSlot c (page + tickWord c % 256) = page + (tickWord c + 255) % 256 := by
  have hlo : c.cell TICK_LO < 256 := c.cell_lt_cart (by decide) (by decide)
  have htick : tickWord c % 256 = c.cell TICK_LO := by
    unfold tickWord word
    omega
  unfold prevSlot
  simp only
  split <;> omega

/-- What `VD_READ` reads. -/
theorem VD_READ_eq (c : Cpu) {seat : ℕ} (hs : seat ≤ 3) (h : c.cell VD_SIDE = seat) :
    VD_READ c = seatCells c seat (tickWord c) := by
  have hlo : c.cell TICK_LO < 256 := c.cell_lt_cart (by decide) (by decide)
  have htick : tickWord c % 256 = c.cell TICK_LO := by
    unfold tickWord word
    omega
  have hpage : (swap (c.cell VD_SIDE) + SEAT_RING) % 65536 = SEAT_RING + 256 * seat := by
    rw [h, swap_byte (by omega)]
    simp only [SEAT_RING]
    omega
  have hring : (c.cell TICK_LO + (SEAT_RING + 256 * seat)) % 65536 =
      SEAT_RING + 256 * seat + tickWord c % 256 := by
    simp only [SEAT_RING]
    omega
  have hkeypad : (c.cell TICK_LO + (SEAT_RING + 256 * seat + (SEAT_KP - SEAT_RING)) % 65536) % 65536 =
      SEAT_KP + 256 * seat + tickWord c % 256 := by
    simp only [SEAT_RING, SEAT_KP]
    omega
  have hprev := prevSlot_eq c (SEAT_RING + 256 * seat) (by simp only [SEAT_RING]; omega)
    (by simp only [SEAT_RING]; omega)
  have hprevKp := prevSlot_eq c (SEAT_KP + 256 * seat) (by simp only [SEAT_KP]; omega)
    (by simp only [SEAT_KP]; omega)
  unfold VD_READ seatCells ringSlot keypadSlot
  simp only [hpage, hring, hkeypad, hprev, hprevKp]

/-- They are bytes, so that the dispatch cells hold what was read. -/
theorem dispatchCells_load (c : Cpu) {seat : ℕ} (hs : seat ≤ 3) (h : c.cell VD_SIDE = seat) :
    dispatchCells (loadCells c) = seatCells c seat (tickWord c) := by
  have hbyte : ∀ tick, c.cell (ringSlot seat tick) < 2 ^ 8 ∧ c.cell (keypadSlot seat tick) < 2 ^ 8 := by
    intro tick
    obtain ⟨h1, h2, h3⟩ := slots_range hs tick
    exact ⟨c.cell_lt_cart (by omega) (by omega), c.cell_lt_cart (by omega) (by omega)⟩
  have hw : cellWidth VD_CUR = 8 ∧ cellWidth VD_PREV = 8 ∧ cellWidth VD_KP = 8 ∧
      cellWidth VD_KPPRE = 8 := ⟨rfl, rfl, rfl, rfl⟩
  unfold dispatchCells loadCells
  rw [VD_READ_eq c hs h]
  simp only [seatCells, Cpu.sto_cell, hw, VD_CUR, VD_PREV, VD_KP, VD_KPPRE, if_true,
    Nat.mod_eq_of_lt (hbyte _).1, Nat.mod_eq_of_lt (hbyte _).2]
  rfl

/-! ### Action keys -/

/-- The action key of a keypad cell, 1 to 3, or 0.
SOURCE: vdispatch.asm:413-417, 429-433 -/
def actionKey (v : ℕ) : ℕ := if v ≤ 3 then v else 0

/-- The values a list of events has for a key. -/
def keyValues (key : ℕ) (es : List VirtualEvent) : List ℕ :=
  (es.filter fun e => e.slot = 2 * key + 2).map VirtualEvent.value

/-- Presses and releases take turns, from a press on, with re-fires only while the key is down. -/
inductive Paired : List ℕ → Bool → Prop where
  | start : Paired [] false
  | press {vs : List ℕ} (h : Paired vs false) : Paired (vs ++ [1]) true
  | refire {vs : List ℕ} (h : Paired vs true) : Paired (vs ++ [0]) true
  | release {vs : List ℕ} (h : Paired vs true) : Paired (vs ++ [0xFFFF]) false

/-- The values a key is dispatched with add up. -/
theorem keyValues_append (key : ℕ) (es es' : List VirtualEvent) :
    keyValues key (es ++ es') = keyValues key es ++ keyValues key es' := by
  unfold keyValues
  rw [List.filter_append, List.map_append]

section Values

variable {key : ℕ} (hk : 1 ≤ key ∧ key ≤ 3) (r : Cells)

include hk

/-- A release is dispatched for the key that was down before, when it no longer is. -/
theorem keyValues_release : keyValues key (releaseEvents r) =
    if actionKey r.kppre = key ∧ r.kppre ≠ r.kp then [0xFFFF] else [] := by
  unfold releaseEvents actionKey
  split
  · rw [if_neg]
    · rfl
    · split <;> omega
  · rename_i h
    by_cases heq : r.kppre = key
    · rw [if_pos]
      · simp [keyValues, heq, Nat.mul_comm]
      · rw [if_pos (by omega)]
        omega
    · rw [if_neg]
      · simp only [keyValues]
        rw [List.filter_cons_of_neg (by simp only [decide_eq_true_eq]; omega)]
        rfl
      · rw [if_pos (by omega)]
        omega

/-- A press is dispatched for the key that is down, as a re-fire when it was down before. -/
theorem keyValues_press : keyValues key (pressEvents r) =
    if actionKey r.kp = key then [if r.kp = r.kppre then 0 else 1] else [] := by
  unfold pressEvents actionKey
  split
  · rw [if_neg]
    · rfl
    · split <;> omega
  · rename_i h
    rw [if_pos (show r.kp ≤ 3 by omega)]
    by_cases heq : r.kp = key
    · rw [if_pos heq]
      simp [keyValues, heq, Nat.mul_comm]
    · rw [if_neg heq]
      simp only [keyValues]
      rw [List.filter_cons_of_neg (by simp only [decide_eq_true_eq]; omega)]
      rfl

/-- The keypad and the disc have slots of their own. -/
theorem keyValues_fresh : keyValues key (freshEvents r) = [] := by
  unfold freshEvents keyValues
  split
  · rfl
  split
  · rw [List.filter_cons_of_neg]
    · rfl
    · simp only [decide_eq_true_eq]
      split <;> omega
  split
  · rfl
  · rw [List.filter_cons_of_neg]
    · rfl
    · simp only [decide_eq_true_eq]
      omega

/-- The events of one dispatch go on from where the earlier cell has the key, to where the later
has it. -/
theorem Paired.dispatch {vs : List ℕ} (h : Paired vs (decide (actionKey r.kppre = key))) :
    Paired (vs ++ keyValues key (virtualEvents r)) (decide (actionKey r.kp = key)) := by
  unfold virtualEvents
  rw [keyValues_append, keyValues_append, keyValues_release hk, keyValues_press hk,
    keyValues_fresh hk, List.append_nil]
  by_cases hpre : actionKey r.kppre = key <;> by_cases hkp : actionKey r.kp = key
  · -- held, whatever the cell
    have heq : r.kp = r.kppre := by
      unfold actionKey at hpre hkp
      split at hpre <;> split at hkp <;> omega
    rw [if_neg fun hr => hr.2 heq.symm, if_pos hkp, if_pos heq, List.nil_append, decide_eq_true hkp]
    rw [decide_eq_true hpre] at h
    exact h.refire
  · have hne : r.kppre ≠ r.kp := fun heq => hkp (heq ▸ hpre)
    rw [if_pos ⟨hpre, hne⟩, if_neg hkp, List.append_nil, decide_eq_false hkp]
    rw [decide_eq_true hpre] at h
    exact h.release
  · have hne : r.kp ≠ r.kppre := fun heq => hpre (heq ▸ hkp)
    rw [if_neg fun hr => hpre hr.1, if_pos hkp, if_neg hne, List.nil_append, decide_eq_true hkp]
    rw [decide_eq_false hpre] at h
    exact h.press
  · rw [if_neg fun hr => hpre hr.1, if_neg hkp, List.append_nil, List.append_nil,
      decide_eq_false hkp]
    rw [decide_eq_false hpre] at h
    exact h

/-- Without a key in either cell there is no event. -/
theorem keyValues_none (hpre : actionKey r.kppre = 0) (hkp : actionKey r.kp = 0) :
    keyValues key (virtualEvents r) = [] := by
  unfold virtualEvents
  rw [keyValues_append, keyValues_append, keyValues_release hk, keyValues_press hk,
    keyValues_fresh hk, if_neg (by omega), if_neg (by omega)]
  rfl

end Values

end BoxingNetplay.Interface
