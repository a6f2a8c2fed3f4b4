import BoxingNetplay.Interface.Rebase

/-!
# What a START leaves

`of_start` takes the seat, the count, the seed, the delay and the roster from the frame, and
restarts the tick counter with idle rings, watermarks one short of the delay and no CRC record.
-/

set_option autoImplicit false

namespace BoxingNetplay.Interface

open BoxingNetplay.Library
open BoxingNetplay.Model

/-- What a START of full length leaves. -/
structure Started (c c' : Cpu) : Prop where
  seat : c'.cell NET_SEAT = c.cell (FRMBUF + 2)
  count : c'.cell NET_COUNT = c.cell (FRMBUF + 3)
  seed_lo : c'.cell RNG_LO = c.cell (FRMBUF + 4)
  seed_hi : c'.cell RNG_HI = c.cell (FRMBUF + 5)
  delay : c'.cell NET_DELAY = c.cell (FRMBUF + 6)
  active : c'.cell NET_ACTIVE = 1
  tick_lo : c'.cell TICK_LO = 0
  tick_hi : c'.cell TICK_HI = 0
  rings : IdleRings c'
  watermark : ∀ seat < 4, seatWm c' seat = (c.cell (FRMBUF + 6) + 255) % 256
  records : ∀ i < 32, c'.cell (OWN_CRC + i) = 0xFF
  frame : Frame StartArea c c'

/-- The last part of a START: rings, records, watermarks, and the match is on. -/
def startTail (c : Cpu) : Cpu :=
  let c := RS_CLR_CRC (LS_RING_INIT c)
  let c := setWatermarks c ((c.cell NET_DELAY + 65535) % 65536) 0
  ((c.sto TICK_LO 0).sto TICK_HI 0).sto NET_ACTIVE 1

/-- Switching the match on stores to three cells. -/
theorem frame_on (c : Cpu) :
    Frame {a | a = TICK_LO ∨ a = TICK_HI ∨ a = NET_ACTIVE} c
      (((c.sto TICK_LO 0).sto TICK_HI 0).sto NET_ACTIVE 1) := by
  repeat' apply Frame.sto
  · exact Frame.refl _ c
  all_goals simp

/-- A cell the last part leaves alone. -/
theorem startTail_cell (c : Cpu) {a : ℕ} (h1 : a ∉ RingPages) (h2 : a ∉ CrcRecords)
    (h3 : a ∉ Watermarks) (h4 : ¬ (a = TICK_LO ∨ a = TICK_HI ∨ a = NET_ACTIVE)) :
    (startTail c).cell a = c.cell a :=
  ((frame_on _).cell_eq h4).trans (((frame_setWatermarks _ _ _).cell_eq h3).trans
    (((frame_RS_CLR_CRC _).cell_eq h2).trans ((frame_LS_RING_INIT c).cell_eq h1)))

/-- The last part idles the rings. -/
theorem idle_startTail (c : Cpu) : IdleRings (startTail c) := by
  refine (idle_LS_RING_INIT c).congr fun a ha => ?_
  obtain ⟨h1, h2, -⟩ := rings_apart ha
  refine ((frame_on _).cell_eq ?_).trans
    (((frame_setWatermarks _ _ _).cell_eq h1).trans ((frame_RS_CLR_CRC _).cell_eq h2))
  rintro (rfl | rfl | rfl) <;> simp [RingPages] at ha

/-- The last part sets the watermarks. -/
theorem startTail_watermark (c : Cpu) {seat : ℕ} (h : seat < 4) :
    seatWm (startTail c) seat = (c.cell NET_DELAY + 255) % 256 := by
  have hkeep : ∀ a ∈ Watermarks, (startTail c).cell a =
      (setWatermarks (RS_CLR_CRC (LS_RING_INIT c))
        (((RS_CLR_CRC (LS_RING_INIT c)).cell NET_DELAY + 65535) % 65536) 0).cell a := fun a ha =>
    (frame_on _).cell_eq fun hor => by
      rcases hor with rfl | rfl | rfl <;> simp [Watermarks] at ha
  have hdelay : (RS_CLR_CRC (LS_RING_INIT c)).cell NET_DELAY = c.cell NET_DELAY :=
    ((frame_RS_CLR_CRC _).cell_eq (by simp [CrcRecords])).trans
      ((frame_LS_RING_INIT c).cell_eq (by simp [RingPages]))
  rw [seatWm_congr hkeep h, seatWm_setWatermarks _ _ _ h, hdelay]
  omega

/-- The last part invalidates the records. -/
theorem startTail_records (c : Cpu) {i : ℕ} (h : i < 32) :
    (startTail c).cell (OWN_CRC + i) = 0xFF := by
  refine ((frame_on _).cell_eq ?_).trans (((frame_setWatermarks _ _ _).cell_eq ?_).trans ?_)
  · rintro (ha | ha | ha) <;> simp only [OWN_CRC, TICK_LO, TICK_HI, NET_ACTIVE] at ha <;> omega
  · rintro ⟨h1, h2⟩
    simp only [OWN_CRC, SEAT_WM] at h1 h2
    omega
  · unfold RS_CLR_CRC
    rw [Cpu.fill_cell, if_pos ⟨by omega, by omega⟩, cellWidth_cart (by simp only [OWN_CRC]; omega)
      (by simp only [OWN_CRC]; omega)]
    rfl

/-- A START of full length starts the match. -/
theorem started (c : Cpu) (h : 38 ≤ c.cell FRMBUF) : Started c (of_start c) := by
  obtain ⟨d, heq, hd⟩ : ∃ d, of_start c = startTail d ∧
      ∀ a, a ∉ Roster → d.cell a =
        ((((((c.sto NET_SEAT (c.cell (FRMBUF + 2))).sto NET_COUNT (c.cell (FRMBUF + 3))).sto RNG_LO
          (c.cell (FRMBUF + 4))).sto RNG_HI (c.cell (FRMBUF + 5))).sto NET_DELAY
            (c.cell (FRMBUF + 6)))).cell a := by
    refine ⟨_, if_neg (Nat.not_lt.mpr h), fun a ha => ?_⟩
    refine ((frame_SES_CPR_GO 4 _ _ _ (by omega) (by omega)).cell_eq ha).trans ?_
    simp
  have hbyte : ∀ i < 128, c.cell (FRMBUF + i) % 256 = c.cell (FRMBUF + i) := fun i hi =>
    Nat.mod_eq_of_lt (c.cell_lt_cart (by simp only [FRMBUF]; omega) (by simp only [FRMBUF]; omega))
  have hcell : ∀ a, a = NET_SEAT ∨ a = NET_COUNT ∨ a = RNG_LO ∨ a = RNG_HI ∨ a = NET_DELAY →
      (of_start c).cell a = d.cell a := by
    intro a ha
    rw [heq]
    refine startTail_cell d ?_ ?_ ?_ ?_ <;> rcases ha with rfl | rfl | rfl | rfl | rfl <;>
      simp [RingPages, CrcRecords, Watermarks]
  have hdelay : d.cell NET_DELAY = c.cell (FRMBUF + 6) := by
    rw [hd _ (by simp [Roster])]
    simpa [cellWidth] using hbyte 6 (by omega)
  refine ⟨?_, ?_, ?_, ?_, ?_, ?_, ?_, ?_, ?_, ?_, ?_, frame_of_start c⟩
  · rw [hcell _ (Or.inl rfl), hd _ (by simp [Roster])]
    simpa [cellWidth] using hbyte 2 (by omega)
  · rw [hcell _ (Or.inr (Or.inl rfl)), hd _ (by simp [Roster])]
    simpa [cellWidth] using hbyte 3 (by omega)
  · rw [hcell _ (Or.inr (Or.inr (Or.inl rfl))), hd _ (by simp [Roster])]
    simpa [cellWidth] using hbyte 4 (by omega)
  · rw [hcell _ (Or.inr (Or.inr (Or.inr (Or.inl rfl)))), hd _ (by simp [Roster])]
    simpa [cellWidth] using hbyte 5 (by omega)
  · rw [hcell _ (Or.inr (Or.inr (Or.inr (Or.inr rfl)))), hdelay]
  · rw [heq]
    simp [startTail, cellWidth]
  · rw [heq]
    simp [startTail]
  · rw [heq]
    simp [startTail]
  · rw [heq]
    exact idle_startTail d
  · intro seat hseat
    rw [heq, startTail_watermark d hseat, hdelay]
  · intro i hi
    rw [heq]
    exact startTail_records d hi

/-! ### A START sends nothing -/

/-- Copying the roster sends nothing. -/
theorem silent_SES_CPR_GO (n : ℕ) (c : Cpu) (r4 r5 : ℕ) : Silent c (SES_CPR_GO c r4 r5 n) := by
  induction n generalizing c r4 r5 with
  | zero => exact .refl c
  | succ n ih =>
    have hrow : Silent c ((c.copy r4 r5 8).sto (r5 + 8) 0) := ⟨rfl, rfl⟩
    exact hrow.trans (ih _ _ _)

/-- Clearing the rings sends nothing. -/
theorem silent_LS_RING_INIT (c : Cpu) : Silent c (LS_RING_INIT c) := by
  constructor <;> simp only [LS_RING_INIT, Cpu.fill_out, Cpu.fill_replies]

/-- Nor does setting the watermarks. -/
theorem silent_setWatermarks (c : Cpu) (lo hi : ℕ) : Silent c (setWatermarks c lo hi) := by
  constructor <;> simp only [setWatermarks, Cpu.blit_out, Cpu.blit_replies]

theorem silent_startTail (c : Cpu) : Silent c (startTail c) := by
  have hrecords : ∀ x : Cpu, Silent x (RS_CLR_CRC x) := fun x => by
    constructor <;> simp only [RS_CLR_CRC, Cpu.fill_out, Cpu.fill_replies]
  unfold startTail
  extract_lets c1 c2
  exact ((silent_LS_RING_INIT c).trans
    ((hrecords _).trans (silent_setWatermarks _ _ _))).sto.sto.sto

/-- A START is answered with nothing. -/
theorem silent_of_start (c : Cpu) : Silent c (of_start c) := by
  unfold of_start
  extract_lets c1 c2 c3 c4 c5 c6
  have hnames : Silent c c4 := (Silent.refl c).sto.sto.sto.sto.sto.trans (silent_SES_CPR_GO 4 _ _ _)
  have htail := silent_startTail c4
  exact Silent.ite (.refl c) (hnames.trans htail)

end BoxingNetplay.Interface
