import BoxingNetplay.Interface.Rebase

/-!
# Storing and waiting for remote inputs

`of_input` stores an input that its seat's watermark is behind of, in the ring slot of its tick, and
raises the watermark to it.  The gate of a tick waits until every remote watermark has
reached it.
-/

set_option autoImplicit false

namespace BoxingNetplay.Interface

open BoxingNetplay.Library
open BoxingNetplay.Model

/-- A byte stored in cartridge RAM is there. -/
theorem sto_cart (c : Cpu) {a v : ℕ} (h1 : 0x8000 ≤ a) (h2 : a ≤ 0x9FFF) (hv : v < 256) :
    (c.sto a v).cell a = v := by
  rw [Cpu.sto_cell, if_pos rfl, cellWidth_cart h1 h2]
  exact Nat.mod_eq_of_lt hv

/-- A cell beside one that is stored keeps its value. -/
theorem sto_other (c : Cpu) {a v x : ℕ} (h : x ≠ a) : (c.sto a v).cell x = c.cell x :=
  if_neg h

/-- The ring slot of a seat for a tick, with the decoded value. -/
def ringSlot (seat tick : ℕ) : ℕ := SEAT_RING + 256 * seat + tick % 256

/-- The slot of its keypad. -/
def keypadSlot (seat tick : ℕ) : ℕ := SEAT_KP + 256 * seat + tick % 256

/-- The tick of the input in the frame buffer. -/
def inputTick (c : Cpu) : ℕ := word c (FRMBUF + 3) (FRMBUF + 4)

/-- The cells of a seat that an input of a tick is stored to. -/
def InputCells (seat tick : ℕ) : Set ℕ :=
  {a | a = ringSlot seat tick ∨ a = keypadSlot seat tick ∨ a = SEAT_WM + 2 * seat ∨
    a = SEAT_WM + 2 * seat + 1}

/-- An input stored for a seat and a tick. -/
structure InputStored (c c' : Cpu) (seat tick : ℕ) : Prop where
  ring : c'.cell (ringSlot seat tick) = c.cell (FRMBUF + 5)
  keypad : c'.cell (keypadSlot seat tick) = c.cell (FRMBUF + 6)
  watermark : seatWm c' seat = tick
  frame : Frame (InputCells seat tick) c c'

/-- An input that fails a check is ignored. -/
theorem of_input_refused {c : Cpu} (h : ¬ inputAccepted c) : of_input c = c := by
  unfold of_input
  extract_lets seat tick wmAt ahead slot ring c1 c2
  have hahead : inputAhead c = ahead := rfl
  by_cases hlen : c.cell FRMBUF < 6
  · rw [if_pos hlen]
  rw [if_neg hlen]
  by_cases hown : seat = c.cell NET_SEAT
  · rw [if_pos hown]
  rw [if_neg hown]
  by_cases hcnt : c.cell NET_COUNT ≤ seat
  · rw [if_pos hcnt]
  rw [if_neg hcnt]
  by_cases hback : 32768 ≤ ahead
  · rw [if_pos hback]
  rw [if_neg hback]
  by_cases hzero : ahead = 0
  · rw [if_pos hzero]
  exact absurd ⟨by omega, hown, by omega, by omega, by omega⟩ h

/-- The slots of a seat are in the ring pages. -/
theorem slots_range {seat : ℕ} (hs : seat ≤ 3) (tick : ℕ) :
    0x8400 ≤ ringSlot seat tick ∧ ringSlot seat tick + 0x400 = keypadSlot seat tick ∧
      keypadSlot seat tick < 0x8C00 := by
  simp only [ringSlot, keypadSlot, SEAT_RING, SEAT_KP]
  omega

/-- The four stores of an input. -/
theorem inputStored_stores (c : Cpu) {seat : ℕ} (hs : seat ≤ 3) {c1 c2 : Cpu}
    (h1 : c1 = c.sto (ringSlot seat (inputTick c)) (c.cell (FRMBUF + 5)))
    (h2 : c2 = c1.sto (keypadSlot seat (inputTick c)) (c1.cell (FRMBUF + 6))) :
    InputStored c ((c2.sto (SEAT_WM + 2 * seat) (c2.cell (FRMBUF + 3))).sto
      (SEAT_WM + 2 * seat + 1) (c2.cell (FRMBUF + 4))) seat (inputTick c) := by
  obtain ⟨hr, hrk, hk⟩ := slots_range hs (inputTick c)
  have hbyte : ∀ i < 128, c.cell (FRMBUF + i) < 256 := fun i hi =>
    c.cell_lt_cart (by simp only [FRMBUF]; omega) (by simp only [FRMBUF]; omega)
  have hbuf1 : ∀ i < 128, c1.cell (FRMBUF + i) = c.cell (FRMBUF + i) := fun i hi => by
    rw [h1, sto_other]
    simp only [FRMBUF]
    omega
  have hbuf2 : ∀ i < 128, c2.cell (FRMBUF + i) = c.cell (FRMBUF + i) := fun i hi => by
    rw [h2, sto_other, hbuf1 i hi]
    simp only [FRMBUF]
    omega
  rw [hbuf2 3 (by omega), hbuf2 4 (by omega)]
  have hring : ∀ a, 0x8200 ≤ a → ((c2.sto (SEAT_WM + 2 * seat) (c.cell (FRMBUF + 3))).sto
      (SEAT_WM + 2 * seat + 1) (c.cell (FRMBUF + 4))).cell a = c2.cell a := fun a ha => by
    rw [sto_other, sto_other] <;> simp only [SEAT_WM] <;> omega
  refine ⟨?_, ?_, ?_, ?_⟩
  · rw [hring _ (by omega), h2, sto_other _ (by omega), h1,
      sto_cart _ (by omega) (by omega) (hbyte 5 (by omega))]
  · rw [hring _ (by omega), h2, sto_cart _ (by omega) (by omega), hbuf1 6 (by omega)]
    rw [hbuf1 6 (by omega)]
    exact hbyte 6 (by omega)
  · unfold seatWm word
    rw [sto_cart _ (by simp only [SEAT_WM]; omega) (by simp only [SEAT_WM]; omega)
        (hbyte 4 (by omega)), sto_other _ (by omega),
      sto_cart _ (by simp only [SEAT_WM]; omega) (by simp only [SEAT_WM]; omega)
        (hbyte 3 (by omega))]
    rfl
  · rw [h2, h1]
    refine ((((Frame.refl _ c).sto ?_).sto ?_).sto ?_).sto ?_
    · exact Or.inl rfl
    · exact Or.inr (Or.inl rfl)
    · exact Or.inr (Or.inr (Or.inl rfl))
    · exact Or.inr (Or.inr (Or.inr rfl))

/-- An input that passes the checks is stored. -/
theorem of_input_stored {c : Cpu} (h : inputAccepted c) (hs : c.cell (FRMBUF + 2) ≤ 3) :
    InputStored c (of_input c) (c.cell (FRMBUF + 2)) (inputTick c) := by
  obtain ⟨hlen, hown, hcnt, hpos, hback⟩ := h
  have hlo : c.cell (FRMBUF + 3) < 256 := c.cell_lt_cart (by decide) (by decide)
  have htick : inputTick c % 256 = c.cell (FRMBUF + 3) := by
    unfold inputTick word
    omega
  have hring : (swap (c.cell (FRMBUF + 2)) + c.cell (FRMBUF + 3) + SEAT_RING) % 65536 =
      ringSlot (c.cell (FRMBUF + 2)) (inputTick c) := by
    rw [swap_byte (by omega), ringSlot, htick]
    simp only [SEAT_RING]
    omega
  have hkeypad : (ringSlot (c.cell (FRMBUF + 2)) (inputTick c) + (SEAT_KP - SEAT_RING)) % 65536 =
      keypadSlot (c.cell (FRMBUF + 2)) (inputTick c) := by
    simp only [ringSlot, keypadSlot, SEAT_RING, SEAT_KP]
    omega
  have hahead : inputAhead c = sub16 (word c (FRMBUF + 3) (FRMBUF + 4))
      (word c (SEAT_WM + 2 * c.cell (FRMBUF + 2)) (SEAT_WM + 2 * c.cell (FRMBUF + 2) + 1)) := rfl
  unfold of_input
  simp only
  rw [if_neg (by omega), if_neg hown, if_neg (by omega), if_neg (by omega), if_neg (by omega),
    hring, hkeypad]
  exact inputStored_stores c hs rfl rfl

/-! ### The gate -/

/-- A remote seat keeps the gate shut while its watermark is behind the tick. -/
theorem gateOpen_behind {c : Cpu} {seat : ℕ} (hd : c.cell NET_DROPPED = 0)
    (hs : seat < c.cell NET_COUNT) (hown : seat ≠ c.cell NET_SEAT)
    (h : 32768 ≤ sub16 (seatWm c seat) (tickWord c)) : gateOpen c = false := by
  have hmem : seat ∈ List.range (max 1 (c.cell NET_COUNT)) :=
    List.mem_range.mpr (lt_of_lt_of_le hs (Nat.le_max_right _ _))
  have hready : seatReady c seat = false := decide_eq_false (Nat.not_lt.mpr h)
  unfold gateOpen seatsReady
  rw [hd, bne_self_eq_false, Bool.false_or, List.all_eq_false]
  refine ⟨seat, hmem, ?_⟩
  simp [hown, hready]

/-- When it is open in a match that is not over, the watermark of every remote seat has reached the
tick. -/
theorem gateOpen_reached {c : Cpu} {seat : ℕ} (hg : gateOpen c = true)
    (hd : c.cell NET_DROPPED = 0) (hs : seat < c.cell NET_COUNT) (hown : seat ≠ c.cell NET_SEAT) :
    sub16 (seatWm c seat) (tickWord c) < 32768 := by
  by_contra h
  rw [gateOpen_behind hd hs hown (Nat.not_lt.mp h)] at hg
  cases hg

end BoxingNetplay.Interface
