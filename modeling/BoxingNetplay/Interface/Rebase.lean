import BoxingNetplay.Interface.Image

/-!
# What a re-baseline leaves

`RS_REBASE` restarts a console at the agreed tick: tick counter, idle rings, watermarks, native
countdowns, interrupt vector, CRC records and hold flags, each a function of the agreed tick,
the delay and the countdown mirrors.
-/

set_option autoImplicit false

namespace BoxingNetplay.Interface

open BoxingNetplay.Library
open BoxingNetplay.Model

/-- The cells the display reset touches. -/
theorem RS_DISPLAY_RESET_cell (c : Cpu) (a : ℕ) (h : a ∉ DisplayArea) :
    (RS_DISPLAY_RESET c).cell a = c.cell a := (frame_RS_DISPLAY_RESET c).cell_eq h

/-- Idle rings: the neutral decoded value, no keypad. -/
structure IdleRings (c : Cpu) : Prop where
  ring : ∀ i < 1024, c.cell (SEAT_RING + i) = 0x40
  keypad : ∀ i < 1024, c.cell (SEAT_KP + i) = 0

/-- `LS_RING_INIT` idles the rings. -/
theorem idle_LS_RING_INIT (c : Cpu) : IdleRings (LS_RING_INIT c) := by
  have hw : ∀ a, SEAT_RING ≤ a → a < SEAT_RING + 2048 → cellWidth a = 8 := by
    intro a h1 h2
    simp only [SEAT_RING] at h1 h2
    exact cellWidth_cart (by omega) (by omega)
  refine ⟨fun i hi => ?_, fun i hi => ?_⟩
  · unfold LS_RING_INIT
    rw [Cpu.fill_cell, if_neg (by simp only [SEAT_KP, SEAT_RING]; omega), Cpu.fill_cell,
      if_pos (by omega), hw _ (by omega) (by omega)]
    rfl
  · unfold LS_RING_INIT
    rw [Cpu.fill_cell, if_pos (by omega), Nat.zero_mod]

/-- Idle rings stay idle when nothing is stored to them. -/
theorem IdleRings.congr {c c' : Cpu} (h : IdleRings c) (heq : ∀ a ∈ RingPages, c'.cell a = c.cell a) :
    IdleRings c' := by
  refine ⟨fun i hi => ?_, fun i hi => ?_⟩
  · rw [heq _ ⟨by omega, by omega⟩, h.ring i hi]
  · rw [heq _ ⟨by simp only [SEAT_RING, SEAT_KP]; omega, by simp only [SEAT_RING, SEAT_KP]; omega⟩,
      h.keypad i hi]

/-- The watermark of a seat as a word. -/
def seatWm (c : Cpu) (seat : ℕ) : ℕ := word c (SEAT_WM + 2 * seat) (SEAT_WM + 2 * seat + 1)

/-- The watermark of a seat is in the watermark cells. -/
theorem seatWm_congr {c c' : Cpu} (h : ∀ a ∈ Watermarks, c'.cell a = c.cell a) {seat : ℕ}
    (hs : seat < 4) : seatWm c' seat = seatWm c seat := by
  unfold seatWm word
  rw [h _ ⟨by omega, by omega⟩, h _ ⟨by omega, by omega⟩]

/-- All four watermarks after they are set. -/
theorem seatWm_setWatermarks (c : Cpu) (lo hi : ℕ) {seat : ℕ} (h : seat < 4) :
    seatWm (setWatermarks c lo hi) seat = lo % 256 + hi % 256 * 256 := by
  have hw : ∀ a, SEAT_WM ≤ a → a < SEAT_WM + 8 → cellWidth a = 8 := by
    intro a h1 h2
    simp only [SEAT_WM] at h1 h2
    exact cellWidth_cart (by omega) (by omega)
  have hlo : (setWatermarks c lo hi).cell (SEAT_WM + 2 * seat) = lo % 256 := by
    unfold setWatermarks
    rw [Cpu.blit_cell, if_pos ⟨by omega, by simp only [List.length_cons, List.length_nil]; omega⟩,
      hw _ (by omega) (by omega), show SEAT_WM + 2 * seat - SEAT_WM = 2 * seat by omega]
    have hs : seat = 0 ∨ seat = 1 ∨ seat = 2 ∨ seat = 3 := by omega
    rcases hs with rfl | rfl | rfl | rfl <;> rfl
  have hhi : (setWatermarks c lo hi).cell (SEAT_WM + 2 * seat + 1) = hi % 256 := by
    unfold setWatermarks
    rw [Cpu.blit_cell, if_pos ⟨by omega, by simp only [List.length_cons, List.length_nil]; omega⟩,
      hw _ (by omega) (by omega), show SEAT_WM + 2 * seat + 1 - SEAT_WM = 2 * seat + 1 by omega]
    have hs : seat = 0 ∨ seat = 1 ∨ seat = 2 ∨ seat = 3 := by omega
    rcases hs with rfl | rfl | rfl | rfl <;> rfl
  unfold seatWm word
  rw [hlo, hhi]
  omega

/-- The three native countdowns and their mirrors. -/
def countdowns : List (ℕ × ℕ) :=
  [(BX_CNT2_LO, SC_CNT2), (BX_CNT2_HI, SC_CNT3), (BX_CNT3_LO, SC_CNT4), (BX_CNT3_HI, SC_CNT5),
    (BX_CNT4_LO, SC_CNT6), (BX_CNT4_HI, SC_CNT7)]

/-- What a re-baseline leaves. -/
structure Rebased (c c' : Cpu) : Prop where
  tick : tickWord c' = word c RS_R_LO RS_R_HI
  rings : IdleRings c'
  watermark : ∀ seat < 4,
    seatWm c' seat = (word c RS_R_LO RS_R_HI + c.cell NET_DELAY + 65535) % 65536
  countdown : ∀ p ∈ countdowns, c'.cell p.1 = c.cell p.2
  saved_lo : c'.cell SC_ISR_SAVE = EXEC_ISR_DEF % 256
  saved_hi : c'.cell (SC_ISR_SAVE + 1) = EXEC_ISR_DEF / 256
  records : ∀ i < 32, c'.cell (OWN_CRC + i) = 0xFF
  hold : c'.cell RESYNC_HOLD = 0
  pend : c'.cell RS_PEND = 0
  rejected : c'.cell DIAG_REJ = c.cell DIAG_REJ
  frame : Frame RebaseArea c c'
  out : c'.out = c.out
  replies : c'.replies = c.replies


/-- Display cells and what is not. -/
theorem not_display {a : ℕ} (h : 0x01AA ≤ a) : a ∉ DisplayArea := by
  simp only [DisplayArea, STIC_CS, STIC_EXT, ISR_VEC_LO, ISR_VEC_HI, SC_ISR_SAVE, BX_CNT2_LO,
    BX_CNT4_HI]
  rintro (ha | ha | ha | ha | ha | ha | ha) <;> omega

/-- The last part of a re-baseline: watermarks, records and hold flags. -/
def rebaseTail (c : Cpu) (lo hi : ℕ) : Cpu :=
  let c := RS_CLR_CRC (setWatermarks c lo hi)
  let c := ((c.sto RESYNC_HOLD 0).sto RS_TO_LO 0).sto RS_TO_HI 0
  (c.sto LS_WAITC_LO 0).sto LS_WAITC_HI 0

/-- Clearing the flags stores to the resync state. -/
theorem frame_flags (c : Cpu) :
    Frame ResyncVars c (((((c.sto RESYNC_HOLD 0).sto RS_TO_LO 0).sto RS_TO_HI 0).sto
      LS_WAITC_LO 0).sto LS_WAITC_HI 0) := by
  repeat' apply Frame.sto
  · exact Frame.refl _ c
  all_goals simp [ResyncVars]

/-- Netcode cells and the ring pages are apart. -/
theorem rings_apart {a : ℕ} (h : a ∈ RingPages) :
    a ∉ Watermarks ∧ a ∉ CrcRecords ∧ a ∉ ResyncVars := by
  obtain ⟨h1, h2⟩ := h
  simp only [SEAT_RING] at h1 h2
  refine ⟨?_, ?_, ?_⟩
  · rintro ⟨h3, h4⟩
    simp only [SEAT_WM] at h4
    omega
  · rintro ⟨h3, h4⟩
    simp only [OWN_CRC] at h3
    omega
  · simp only [ResyncVars, RESYNC_HOLD, RS_TMP2, DIAG_REJ, RS_PEND, RS_PTMO, TICK_LO, TICK_HI,
      LS_WAITC_LO, LS_WAITC_HI]
    rintro (h | h | h | h | h | h | h | h) <;> omega

/-- The watermarks are apart from the records and the resync state. -/
theorem watermarks_apart {a : ℕ} (h : a ∈ Watermarks) : a ∉ CrcRecords ∧ a ∉ ResyncVars := by
  obtain ⟨h1, h2⟩ := h
  simp only [SEAT_WM] at h1 h2
  refine ⟨?_, ?_⟩
  · rintro ⟨h3, h4⟩
    simp only [OWN_CRC] at h3
    omega
  · simp only [ResyncVars, RESYNC_HOLD, RS_TMP2, DIAG_REJ, RS_PEND, RS_PTMO, TICK_LO, TICK_HI,
      LS_WAITC_LO, LS_WAITC_HI]
    rintro (h | h | h | h | h | h | h | h) <;> omega

/-- The records are apart from the resync state. -/
theorem records_apart {a : ℕ} (h : a ∈ CrcRecords) : a ∉ ResyncVars := by
  obtain ⟨h1, h2⟩ := h
  simp only [OWN_CRC] at h1 h2
  simp only [ResyncVars, RESYNC_HOLD, RS_TMP2, DIAG_REJ, RS_PEND, RS_PTMO, TICK_LO, TICK_HI,
    LS_WAITC_LO, LS_WAITC_HI]
  rintro (h | h | h | h | h | h | h | h) <;> omega

/-- The last part keeps the rings. -/
theorem rebaseTail_rings (c : Cpu) (lo hi : ℕ) {a : ℕ} (h : a ∈ RingPages) :
    (rebaseTail c lo hi).cell a = c.cell a := by
  obtain ⟨h1, h2, h3⟩ := rings_apart h
  exact ((frame_flags _).cell_eq h3).trans
    (((frame_RS_CLR_CRC _).cell_eq h2).trans ((frame_setWatermarks c lo hi).cell_eq h1))

/-- The last part sets the watermarks. -/
theorem rebaseTail_watermark (c : Cpu) (lo hi : ℕ) {seat : ℕ} (h : seat < 4) :
    seatWm (rebaseTail c lo hi) seat = lo % 256 + hi % 256 * 256 := by
  rw [← seatWm_setWatermarks c lo hi h]
  refine seatWm_congr (fun a ha => ?_) h
  obtain ⟨h2, h3⟩ := watermarks_apart ha
  exact ((frame_flags _).cell_eq h3).trans ((frame_RS_CLR_CRC _).cell_eq h2)

/-- The last part invalidates the records. -/
theorem rebaseTail_records (c : Cpu) (lo hi : ℕ) {i : ℕ} (h : i < 32) :
    (rebaseTail c lo hi).cell (OWN_CRC + i) = 0xFF := by
  refine ((frame_flags _).cell_eq (records_apart ⟨by omega, by omega⟩)).trans ?_
  unfold RS_CLR_CRC
  rw [Cpu.fill_cell, if_pos ⟨by omega, by omega⟩, cellWidth_cart (by simp only [OWN_CRC]; omega)
    (by simp only [OWN_CRC]; omega)]
  rfl

/-- A re-baseline restarts the console at the agreed tick. -/
theorem rebased (c : Cpu) : Rebased c (RS_REBASE c) := by
  obtain ⟨d, heq, hring, hlo, hhi, hdelay⟩ : ∃ d, RS_REBASE c = rebaseTail d
        ((word d RS_R_LO RS_R_HI + d.cell NET_DELAY + 65535) % 65536)
        (swap ((word d RS_R_LO RS_R_HI + d.cell NET_DELAY + 65535) % 65536)) ∧ IdleRings d ∧
      d.cell RS_R_LO = c.cell RS_R_LO ∧ d.cell RS_R_HI = c.cell RS_R_HI ∧
      d.cell NET_DELAY = c.cell NET_DELAY := by
    refine ⟨_, rfl, idle_LS_RING_INIT _, ?_, ?_, ?_⟩ <;>
      simp [LS_RING_INIT, BX_REBASE_HOOK, RS_CLAMP_ISR, RS_DISPLAY_RESET_cell, not_display]
  have hword : word d RS_R_LO RS_R_HI = word c RS_R_LO RS_R_HI := by
    unfold word
    rw [hlo, hhi]
  rw [hword, hdelay] at heq
  generalize hwm : (word c RS_R_LO RS_R_HI + c.cell NET_DELAY + 65535) % 65536 = wm at heq
  refine ⟨?_, ?_, ?_, ?_, ?_, ?_, ?_, ?_, ?_, ?_, frame_RS_REBASE c, ?_, ?_⟩
  · simp [RS_REBASE, setWatermarks, RS_CLR_CRC, LS_RING_INIT, BX_REBASE_HOOK, RS_CLAMP_ISR,
      RS_DISPLAY_RESET_cell, not_display, tickWord, word, cellWidth]
    have hlo := c.cell_lt_cart (a := 0x8091) (by decide) (by decide)
    have hhi := c.cell_lt_cart (a := 0x8092) (by decide) (by decide)
    omega
  · rw [heq]
    exact hring.congr fun a ha => rebaseTail_rings d _ _ ha
  · intro seat hseat
    rw [heq, rebaseTail_watermark d _ _ hseat, hwm]
    have hlt : wm < 65536 := hwm ▸ Nat.mod_lt _ (by decide)
    unfold swap
    omega
  · simp [countdowns, RS_REBASE, setWatermarks, RS_CLR_CRC, LS_RING_INIT, BX_REBASE_HOOK,
      RS_CLAMP_ISR, RS_DISPLAY_RESET_cell, not_display, cellWidth]
    refine ⟨?_, ?_, ?_, ?_, ?_, ?_⟩ <;> exact c.cell_lt_cart (by decide) (by decide)
  · simp [RS_REBASE, setWatermarks, RS_CLR_CRC, LS_RING_INIT, BX_REBASE_HOOK, RS_CLAMP_ISR,
      cellWidth]
  · simp [RS_REBASE, setWatermarks, RS_CLR_CRC, LS_RING_INIT, BX_REBASE_HOOK, RS_CLAMP_ISR,
      cellWidth]
  · intro i hi
    rw [heq]
    exact rebaseTail_records d _ _ hi
  · simp [RS_REBASE]
  · simp [RS_REBASE, setWatermarks, RS_CLR_CRC, LS_RING_INIT, BX_REBASE_HOOK, RS_CLAMP_ISR,
      RS_DISPLAY_RESET_cell, not_display]
  · simp [RS_REBASE, setWatermarks, RS_CLR_CRC, LS_RING_INIT, BX_REBASE_HOOK, RS_CLAMP_ISR,
      RS_DISPLAY_RESET_cell, not_display]
  · simp [RS_REBASE, setWatermarks, RS_CLR_CRC, LS_RING_INIT, BX_REBASE_HOOK, RS_CLAMP_ISR,
      RS_DISPLAY_RESET]
  · simp [RS_REBASE, setWatermarks, RS_CLR_CRC, LS_RING_INIT, BX_REBASE_HOOK, RS_CLAMP_ISR,
      RS_DISPLAY_RESET]

end BoxingNetplay.Interface
