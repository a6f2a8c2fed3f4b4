import BoxingNetplay.Interface.Inputs
import BoxingNetplay.Interface.Start

/-!
# The watermarks of a new baseline

A re-baseline sets every watermark to the tick before the first one whose input the peer still has to
send, in 16 bits.  START writes the low byte of the delay less one and a zero high byte, which is the
same word unless the delay is zero.
-/

set_option autoImplicit false

namespace BoxingNetplay.Analysis

open BoxingNetplay.Library
open BoxingNetplay.Model
open BoxingNetplay.Interface

/-- An INPUT of a remote seat of the match is in the frame buffer. -/
structure Arrives (e : Cpu) (seat tick : ℕ) : Prop where
  length : 6 ≤ e.cell FRMBUF
  ofSeat : e.cell (FRMBUF + 2) = seat
  ofTick : inputTick e = tick
  remote : seat ≠ e.cell NET_SEAT
  member : seat < e.cell NET_COUNT

/-- What the watermark `wm` of a seat says after a baseline at tick `base` with delay `d`: the
first input that is taken is the one for tick `base + d`, and until it is stored the gate is shut for
that tick and the 127 after it. -/
structure WatermarkLaw (wm base d seat : ℕ) : Prop where
  value : wm = (base + d + 65535) % 65536
  first : ∀ e, seatWm e seat = wm → Arrives e seat ((base + d) % 65536) →
    seatWm (of_input e) seat = (base + d) % 65536
  before : ∀ e, ∀ k < 32768, seatWm e seat = wm →
    Arrives e seat ((base + d + 65535 - k) % 65536) → of_input e = e
  shut : ∀ e, ∀ k < 128, seatWm e seat = wm → tickWord e = (base + d + k) % 65536 →
    seat ≠ e.cell NET_SEAT → seat < e.cell NET_COUNT → e.cell NET_DROPPED = 0 → gateOpen e = false

/-- How far an arriving input is ahead. -/
theorem Arrives.ahead {e : Cpu} {seat tick : ℕ} (h : Arrives e seat tick) :
    inputAhead e = sub16 tick (seatWm e seat) := by
  unfold inputAhead seatWm
  rw [← h.ofTick, h.ofSeat]
  rfl

/-- The word one short of the delay, in 16 bits, is all it takes. -/
theorem watermarkLaw_of_value {wm base d seat : ℕ} (hs : seat < 4)
    (h : wm = (base + d + 65535) % 65536) : WatermarkLaw wm base d seat := by
  refine ⟨h, fun e hwm ha => ?_, fun e k hk hwm ha => ?_, fun e k hk hwm htick hown hcnt hd => ?_⟩
  · have hahead : inputAhead e = 1 := by
      rw [ha.ahead, hwm, h]
      unfold sub16
      omega
    have hacc : inputAccepted e := by
      refine ⟨ha.length, ?_, ?_, ?_, ?_⟩
      · rw [ha.ofSeat]
        exact ha.remote
      · rw [ha.ofSeat]
        exact ha.member
      · omega
      · omega
    have hst := of_input_stored hacc (by rw [ha.ofSeat]; omega)
    rw [ha.ofSeat, ha.ofTick] at hst
    exact hst.watermark
  · refine of_input_refused fun hacc => ?_
    obtain ⟨-, -, -, hpos, hback⟩ := hacc
    rw [ha.ahead, hwm, h] at hpos hback
    unfold sub16 at hpos hback
    omega
  · refine gateOpen_behind hd hcnt hown ?_
    rw [hwm, htick, h]
    unfold sub16
    omega

/-- After the START in `c` the law holds for every seat exactly when its delay is not zero; after a
re-baseline of any console `r` it always does. -/
theorem baselines_agree (c r : Cpu) (hlen : 38 ≤ c.cell FRMBUF) :
    ((∀ seat < 4, WatermarkLaw (seatWm (of_start c) seat) 0 (c.cell (FRMBUF + 6)) seat) ↔
      c.cell (FRMBUF + 6) ≠ 0) ∧
    ∀ seat < 4, WatermarkLaw (seatWm (RS_REBASE r) seat) (word r RS_R_LO RS_R_HI)
      (r.cell NET_DELAY) seat := by
  refine ⟨⟨fun h h0 => ?_, fun h0 seat hs => ?_⟩, fun seat hs => ?_⟩
  · -- with no delay the high byte lacks the borrow
    have hval := (h 0 (by omega)).value
    rw [(started c hlen).watermark 0 (by omega), h0] at hval
    omega
  · have hbyte : c.cell (FRMBUF + 6) < 256 := c.cell_lt_cart (by decide) (by decide)
    refine watermarkLaw_of_value hs (((started c hlen).watermark seat hs).trans ?_)
    omega
  · exact watermarkLaw_of_value hs ((rebased r).watermark seat hs)

/-- A console with a START of a given delay in its frame buffer. -/
def holdingStart (delay : ℕ) : Cpu := ((default : Cpu).sto FRMBUF 38).sto (FRMBUF + 6) delay

/-- With a delay of three the law holds for both seats. -/
theorem law_delay_three :
    WatermarkLaw (seatWm (of_start (holdingStart 3)) 0) 0 3 0 ∧
      WatermarkLaw (seatWm (of_start (holdingStart 3)) 1) 0 3 1 := by
  have h := (baselines_agree (holdingStart 3) default (by decide)).1.mpr (by decide)
  exact ⟨h 0 (by decide), h 1 (by decide)⟩

/-- With a delay of zero the watermarks are at tick 255, the gate is open for tick 0 and the input for
tick 0 is refused. -/
theorem start_delay_zero :
    seatWm (of_start (holdingStart 0)) 1 = 255 ∧ ¬ WatermarkLaw
      (seatWm (of_start (holdingStart 0)) 1) 0 ((holdingStart 0).cell (FRMBUF + 6)) 1 := by
  have hwm : seatWm (of_start (holdingStart 0)) 1 = 255 := by
    rw [(started _ (by decide)).watermark 1 (by decide)]
    decide
  refine ⟨hwm, fun h => ?_⟩
  have hval := h.value
  rw [hwm] at hval
  exact absurd hval (by decide)

end BoxingNetplay.Analysis
