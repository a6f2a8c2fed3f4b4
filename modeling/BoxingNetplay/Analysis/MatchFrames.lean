import BoxingNetplay.Analysis.Frozen
import BoxingNetplay.Analysis.WireWrites
import BoxingNetplay.Interface.Start

/-!
# Frames and steps of a match

Whatever frames the relay delivers, a match keeps its seats, and a frame stores inside the areas of
its handler: the image, what a re-baseline restarts and what a BEGIN restarts are stored to by
frames that do just that.
-/

set_option autoImplicit false

namespace BoxingNetplay.Analysis.MatchFrames

open BoxingNetplay.Library
open BoxingNetplay.Model
open BoxingNetplay.Interface

/-- A START in the frame buffer is one the relay sends: a seat and a count of at most four players.
SOURCE: intv-relay.c:989-1015, 1438-1442, intv_relay_server.py:452-464 -/
def RelayStart (d : Cpu) : Prop :=
  d.cell (FRMBUF + 1) = FT_START → d.cell (FRMBUF + 2) ≤ 3 ∧ d.cell (FRMBUF + 3) ≤ 4

instance (d : Cpu) : Decidable (RelayStart d) := inferInstanceAs (Decidable (_ → _))

/-! ### The seats of a match -/

/-- A frame of the relay keeps the seats. -/
theorem seats_frame {d : Cpu} (h : SeatsKept d) (hs : RelayStart d) : SeatsKept (SES_ONFRAME d) := by
  by_cases hty : d.cell (FRMBUF + 1) = FT_START
  · obtain ⟨hseat, hcount⟩ := hs hty
    rw [SES_ONFRAME_start hty]
    by_cases hlen : d.cell FRMBUF < 38
    · rw [show of_start d = d from if_pos hlen]
      exact h
    · have hnew := started d (Nat.not_lt.mp hlen)
      constructor
      · rw [hnew.active]
        exact one_ne_zero
      · exact hnew.seat.le.trans hseat
      · exact hnew.count.le.trans hcount
  · exact h.beside (frame_in_match h hty)

/-- What the pump does around its dispatches keeps the seats. -/
theorem seats_moves {c c' : Cpu} (hm : Moves c c') (h : SeatsKept c) : SeatsKept c' :=
  h.beside (hm.frame.mono pump_beside)

theorem seats_freeze {c : Cpu} (h : SeatsKept c) : SeatsKept (freeze c) := by
  apply h.congr
  intro a ha
  apply (frame_freeze c).cell_eq
  rcases ha with rfl | rfl | rfl <;> simp [WaitArea]

/-- The machine a step pumps on has the console's seats. -/
theorem seats_pumping {k : Console} {c : Cpu} (h : SeatsKept k.cpu) (hp : pumping k = some c) :
    SeatsKept c := by
  rcases pumping_cases hp with rfl | rfl
  · exact h
  · exact seats_freeze h

/-- A step keeps the seats. -/
theorem seats_step {k : Console} (h : SeatsKept k.cpu) (o : Outside)
    (hs : ∀ d ∈ dispatched k o, RelayStart d) : SeatsKept (k.step o).cpu := by
  cases hp : pumping k with
  | some c =>
    rw [step_afterPump hp o]
    rw [dispatched_eq hp o] at hs
    have hpump : SeatsKept (SES_PUMP SES_ONFRAME c o.poll).cpu :=
      (handles_pump c o.poll).preserves seats_moves (fun d hd h => seats_frame h (hs d hd))
        (seats_pumping h hp)
    exact hpump.beside (beside_afterPump k _)
  | none =>
    have hstep := stepped k o
    generalize hk : k.step o = k' at hstep ⊢
    cases hstep with
    | shown => exact h
    | left hph hd =>
      unfold Console.step at hk
      rw [hph] at hk
      simp only [Console.stepPass] at hk
      split at hk
      · cases hk
      · cases hk
        exact (seats_freeze h).beside ((beside_LS_PEER_LEFT _).sto (by simp [Beside]))
    | hold _ _ _ hpump => cases hp.symm.trans hpump
    | pass _ _ _ hpump => cases hp.symm.trans hpump
    | due => exact h.beside (beside_captureSend h)
    | opened => exact h
    | stall _ _ hpump => cases hp.symm.trans hpump
    | tick =>
      rw [runTick_cpu]
      exact (h.tick o.game).pending
    | native => exact h.game (o.game.native_frame k.cpu)
    | scan => exact h.game (o.game.scan_frame k.cpu)
    | parked => exact h

/-! ### What a frame stores to -/

/-- What the frame in the buffer may store to during a match. -/
def HandledArea (d : Cpu) : Set ℕ :=
  {a | a = RS_PEND ∨ a = RS_PTMO ∨ a = RS_TMP2 ∨ a = DIAG_REJ} ∪ StartArea ∪ LeftArea ∪ MailboxArea ∪
    {a | isBegin d = true ∧ a ∈ BeginArea} ∪ {a | Rebases d ∧ a ∈ RebaseArea} ∪
    {a | AppliesImage d ∧ a ∈ ApplyArea}

/-- It does. -/
theorem frame_handled {d : Cpu} (h : SeatsKept d) : Frame (HandledArea d) d (SES_ONFRAME d) := by
  have hflags : ∀ {a}, a = RS_PEND ∨ a = RS_PTMO ∨ a = RS_TMP2 ∨ a = DIAG_REJ → a ∈ HandledArea d :=
    fun ha => Or.inl (Or.inl (Or.inl (Or.inl (Or.inl (Or.inl ha)))))
  have hstart : StartArea ⊆ HandledArea d :=
    fun a ha => Or.inl (Or.inl (Or.inl (Or.inl (Or.inl (Or.inr ha)))))
  have hmail : MailboxArea ⊆ HandledArea d := fun a ha => Or.inl (Or.inl (Or.inl (Or.inr ha)))
  apply SES_ONFRAME_rule (P := Frame (HandledArea d) d) d
  · intro _
    apply (frame_of_input d _).mono
    · rintro a (ha | ha)
      · exact hstart (Or.inl (Or.inl (Or.inr ha)))
      · exact hstart (Or.inl (Or.inr ha))
    · intro hacc
      have := hacc.2.2.1
      have := h.count
      omega
  · intro _
    rw [show of_lobby d = d from if_pos h.active]
    exact Frame.refl _ d
  · intro _
    exact (frame_of_start d).mono hstart
  · intro _
    exact (frame_of_pl d).mono fun a ha => Or.inl (Or.inl (Or.inl (Or.inl (Or.inr ha))))
  · intro _
    rw [show of_room d = d from if_pos h.active]
    exact Frame.refl _ d
  · intro _
    apply (frame_RS_ON_CRC d).mono
    rintro a ((ha | ha) | ha)
    · exact hflags (Or.inl ha)
    · exact hflags (Or.inr (Or.inl ha))
    · exact hmail ha
  · intro hty
    have hstep := state_cases d
    generalize RS_ON_STATE d = d' at hstep ⊢
    cases hstep with
    | begins hb =>
      apply (frame_begin d _ _).mono
      intro a ha
      exact Or.inl (Or.inl (Or.inr ⟨decide_eq_true ⟨hty, hb.2.1, hb.2.2, hb.1⟩, ha⟩))
    | rebases hb =>
      apply (frame_RS_REBASE d).mono
      intro a ha
      exact Or.inl (Or.inr ⟨⟨hty, hb⟩, ha⟩)
    | applies hb _ hf =>
      apply hf.mono
      intro a ha
      exact Or.inr ⟨⟨hty, hb⟩, ha⟩
    | neither _ _ _ hf =>
      apply hf.mono
      rintro a (ha | ha)
      · exact hflags (Or.inr (Or.inr (Or.inl ha)))
      · exact hflags (Or.inr (Or.inr (Or.inr ha)))
  · intro _
    apply (frame_RS_ON_REQ d).mono
    rintro a (ha | ha)
    · exact hflags (Or.inl ha)
    · exact hflags (Or.inr (Or.inl ha))
  · exact Frame.refl _ d

end BoxingNetplay.Analysis.MatchFrames
