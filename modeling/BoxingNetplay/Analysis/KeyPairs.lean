import BoxingNetplay.Analysis.GateInputs
import BoxingNetplay.Analysis.StallBounds
import BoxingNetplay.Interface.Keys

/-!
# Presses and releases

A key is released at the tick whose slot has it no more, because the slot of the tick before still
has it.  Inputs are stored ahead of the tick, and none of them reaches back to the slot that
was dispatched last; what does away with it is a re-baseline, which idles all rings.  A key that was down
is then neither released nor remembered, and if it is still down it is pressed again.
-/

set_option autoImplicit false

namespace BoxingNetplay.Analysis.KeyPairs

open BoxingNetplay.Library
open BoxingNetplay.Model
open BoxingNetplay.Interface
open BoxingNetplay.Analysis
open BoxingNetplay.Analysis.StallBounds (stallTail_eq holdTail_eq countRound_cases dropped_idle)

/-! ### Runs -/

/-- The action key in the slot of the tick before the counter's, which was dispatched last. -/
def lastKey (c : Cpu) (seat : ℕ) : ℕ := actionKey (c.cell (keypadSlot seat (tickWord c + 255)))

/-- The action key in the slot of the counter's tick, which is dispatched next. -/
def nextKey (c : Cpu) (seat : ℕ) : ℕ := actionKey (c.cell (keypadSlot seat (tickWord c)))

/-- The events of a tick, with their seats.
SOURCE: lockstep.asm:263-294 -/
def tickEvents (g : Game) (c : Cpu) : List (ℕ × VirtualEvent) :=
  let ran := runTick g c
  (virtualEvents (dispatchCells (loadCells ran.atSeat0))).map (0, ·) ++
    (virtualEvents (dispatchCells (loadCells ran.atSeat1))).map (1, ·)

/-- What a seat's events have been for a key. -/
def keyEvents (seat key : ℕ) (events : List (ℕ × VirtualEvent)) : List ℕ :=
  keyValues key ((events.filter fun e => e.1 = seat).map Prod.snd)

/-- The machine at the end of a tick, when a push may follow. -/
def tickEnd (g : Game) (c : Cpu) : Cpu := countUp (tickBody g c) TICK_LO TICK_HI

/-- A match of a console with the events it dispatched, where the inputs that are stored satisfy
`Q`, and the machines that re-baseline satisfy `P`.
SOURCE: lockstep.asm:8-380, resync.asm:327-419 -/
inductive KeyRun (Q P : Cpu → Prop) : Console → List (ℕ × VirtualEvent) → Prop where
  | begin {c : Cpu} {g : MatchLog} (h : Handover Q c g) : KeyRun Q P ⟨c, .pass⟩ []
  | step {k : Console} {events : List (ℕ × VirtualEvent)} (h : KeyRun Q P k events) (o : Outside)
      (hq : ∀ d ∈ dispatched k o, InPlay Q d ∧ (Rebases d → P d))
      (hp : k.phase = .run → Pushes (tickEnd o.game k.cpu) → P (tickEnd o.game k.cpu)) :
      KeyRun Q P (k.step o)
        (if k.phase = .run then events ++ tickEvents o.game k.cpu else events)

/-- The input in the buffer does not change the action key of the slot that was dispatched last, nor, once
somebody has left, of the one that is next. -/
def SparesSlot (d : Cpu) : Prop := ∀ seat < 2, d.cell (FRMBUF + 2) = seat →
  (inputTick d % 256 = (tickWord d + 255) % 256 →
    actionKey (d.cell (FRMBUF + 6)) = lastKey d seat) ∧
  (d.cell NET_DROPPED ≠ 0 → inputTick d % 256 = tickWord d % 256 →
    actionKey (d.cell (FRMBUF + 6)) = nextKey d seat)

/-- No action key was down at the last dispatch. -/
def NoKey (c : Cpu) : Prop := ∀ seat < 2, lastKey c seat = 0

/-! ### What a frame does to the rings -/

/-- A frame of a match stores an input, re-baselines, ends the match, or leaves the gate and
the rings alone. -/
inductive FrameEffect (d d' : Cpu) : Prop where
  | stored (h : StoresInput d) (hs : d.cell (FRMBUF + 2) ≤ 3)
      (hd : InputStored d d' (d.cell (FRMBUF + 2)) (inputTick d))
  | rebased (h : Rebases d) (hd : Rebased d d')
  | left (h : d' = of_pl d)
  | other (h : ∀ a ∈ SyncCells, d'.cell a = d.cell a)

/-- Every frame of a match but a START is one of these. -/
theorem frameEffect {d : Cpu} (ha : d.cell NET_ACTIVE ≠ 0) (hn : d.cell NET_COUNT ≤ 4)
    (hty : d.cell (FRMBUF + 1) ≠ FT_START) : FrameEffect d (SES_ONFRAME d) := by
  by_cases hin : d.cell (FRMBUF + 1) = FT_INPUT
  · rw [SES_ONFRAME_input hin]
    by_cases hacc : inputAccepted d
    · have hs : d.cell (FRMBUF + 2) ≤ 3 := by
        have := hacc.2.2.1
        omega
      exact .stored ⟨hin, hacc⟩ hs (of_input_stored hacc hs)
    · rw [of_input_refused hacc]
      exact .other fun _ _ => rfl
  by_cases hst : d.cell (FRMBUF + 1) = FT_STATE
  · rw [SES_ONFRAME_state hst]
    by_cases hr : Rebases d
    · have heq : RS_ON_STATE d = RS_REBASE d := by
        obtain ⟨-, h1, h2, h3, h4⟩ := hr
        unfold RS_ON_STATE
        simp only [h2, h3]
        rw [if_neg (by omega), if_pos trivial, if_neg (by decide), if_pos ⟨trivial, h4⟩]
      rw [heq]
      exact .rebased hr (rebased d)
    · apply FrameEffect.other
      intro a hmem
      exact (frame_state_applies d fun hx => hr ⟨hst, hx⟩).cell_eq (sync_not_state hmem)
  refine SES_ONFRAME_rule (P := FrameEffect d) d (fun h => absurd h hin) (fun _ => ?_)
    (fun h => absurd h hty) (fun _ => .left rfl) (fun _ => ?_) (fun _ => ?_) (fun h => absurd h hst)
    (fun _ => ?_) (.other fun _ _ => rfl)
  · rw [show of_lobby d = d from if_pos ha]
    exact .other fun _ _ => rfl
  · rw [show of_room d = d from if_pos ha]
    exact .other fun _ _ => rfl
  · exact .other fun a hmem => (frame_RS_ON_CRC d).cell_eq (sync_not_request hmem)
  · exact .other fun a hmem => (frame_RS_ON_REQ d).cell_eq fun hr => sync_not_request hmem (Or.inl hr)

/-! ### The invariant of a machine -/

/-- A match of at most four seats and a delay of at most half a ring. -/
structure Playing (c : Cpu) : Prop where
  active : c.cell NET_ACTIVE ≠ 0
  seat : c.cell NET_SEAT ≤ 3
  count : c.cell NET_COUNT ≤ 4
  delay : 1 ≤ c.cell NET_DELAY ∧ c.cell NET_DELAY ≤ 127

/-- The key dispatched last is in its slot, or the match is over and neither slot has one. -/
def Holding (seat held : ℕ) (c : Cpu) : Prop :=
  lastKey c seat = held ∨
    (c.cell NET_DROPPED ≠ 0 ∧ lastKey c seat = 0 ∧ nextKey c seat = 0)

section Machines

variable {c c' d d' : Cpu} {seat held : ℕ}

/-- The four cells of a match. -/
theorem Playing.congr (h : Playing c) (heq : ∀ a, a = NET_SEAT ∨ a = NET_COUNT ∨ a = NET_ACTIVE ∨
    a = NET_DELAY → c'.cell a = c.cell a) : Playing c' := by
  have hm := sameMatch_of_cells heq
  exact ⟨hm.active ▸ h.active, hm.seat ▸ h.seat, hm.count ▸ h.count, hm.delay ▸ h.delay⟩

theorem match_sync {a : ℕ} (h : a = NET_SEAT ∨ a = NET_COUNT ∨ a = NET_ACTIVE ∨ a = NET_DELAY) :
    a ∈ SyncCells := by
  rcases h with rfl | rfl | rfl | rfl <;> exact Or.inl (Or.inl (by simp))

/-- The counter of ticks is among the cells of the gate. -/
theorem tickWord_sync (h : ∀ a ∈ SyncCells, c'.cell a = c.cell a) : tickWord c' = tickWord c := by
  unfold tickWord word
  rw [h TICK_LO (Or.inl (Or.inl (by simp))), h TICK_HI (Or.inl (Or.inl (by simp)))]

/-- The keys of the last tick and the next are in the cells of the gate. -/
theorem keys_congr (hs : seat < 2) (h : ∀ a ∈ SyncCells, c'.cell a = c.cell a) :
    lastKey c' seat = lastKey c seat ∧ nextKey c' seat = nextKey c seat := by
  unfold lastKey nextKey
  rw [tickWord_sync h, h _ (slot_sync (by omega) _).2, h _ (slot_sync (by omega) _).2]
  exact ⟨rfl, rfl⟩

/-- Holding a key depends on those cells alone. -/
theorem Holding.congr (h : Holding seat held c) (hs : seat < 2)
    (heq : ∀ a ∈ SyncCells, c'.cell a = c.cell a) : Holding seat held c' := by
  obtain ⟨hlast, hnext⟩ := keys_congr hs heq
  unfold Holding
  rw [hlast, hnext, heq NET_DROPPED (Or.inl (Or.inl (by simp)))]
  exact h

theorem seatCells_congr (hs : seat ≤ 3) (h : ∀ a ∈ SyncCells, c'.cell a = c.cell a) :
    seatCells c' seat (tickWord c') = seatCells c seat (tickWord c) := by
  unfold seatCells
  rw [tickWord_sync h, h _ (slot_sync hs _).1, h _ (slot_sync hs _).1, h _ (slot_sync hs _).2,
    h _ (slot_sync hs _).2]

/-- Idle rings have no keys. -/
theorem keys_idle (hr : IdleRings c) (hs : seat < 2) : lastKey c seat = 0 ∧ nextKey c seat = 0 := by
  have hslot : ∀ tick, c.cell (keypadSlot seat tick) = 0 := by
    intro tick
    have := hr.keypad (256 * seat + tick % 256) (by omega)
    rwa [← Nat.add_assoc] at this
  unfold lastKey nextKey
  rw [hslot, hslot]
  exact ⟨rfl, rfl⟩

/-- Idle inputs for the remote seats are such rings. -/
theorem idle_LS_IDLE_RMT (c : Cpu) : IdleRings (LS_IDLE_RMT c) := by
  apply (idle_LS_RING_INIT c).congr
  intro a ha
  apply (frame_setWatermarks _ _ _).cell_eq
  intro hw
  have h1 : 0x8400 ≤ a := ha.1
  have h2 : a < 0x81A8 := hw.2
  omega

/-- Nobody is left to play with. -/
theorem holding_over (hr : IdleRings c) (hd : c.cell NET_DROPPED ≠ 0) (hs : seat < 2) :
    Holding seat held c := Or.inr ⟨hd, keys_idle hr hs⟩

/-- A PEER_LEFT notes that the match is over. -/
theorem dropped_of_pl (d : Cpu) : (of_pl d).cell NET_DROPPED ≠ 0 := by
  unfold of_pl
  rw [(frame_LS_IDLE_RMT _).cell_eq (by simp [RingPages, Watermarks])]
  simp [cellWidth]

/-- A frame keeps the match. -/
theorem Playing.effect (h : Playing d) (he : FrameEffect d d') : Playing d' := by
  cases he with
  | stored _ hs hd =>
    apply h.congr
    intro a ha
    apply hd.frame.cell_eq
    simp only [InputCells, ringSlot, keypadSlot, SEAT_RING, SEAT_KP, SEAT_WM]
    rcases ha with rfl | rfl | rfl | rfl <;> rintro (hx | hx | hx | hx) <;>
      simp only [NET_SEAT, NET_COUNT, NET_ACTIVE, NET_DELAY] at hx <;> omega
  | rebased _ hd =>
    apply h.congr
    intro a ha
    apply hd.frame.cell_eq
    rcases ha with rfl | rfl | rfl | rfl <;>
      simp [RebaseArea, DisplayArea, ResyncVars, RingPages, Watermarks, CrcRecords]
  | left hd =>
    rw [hd]
    apply h.congr
    intro a ha
    apply (frame_of_pl d).cell_eq
    rcases ha with rfl | rfl | rfl | rfl <;> simp [LeftArea, RingPages, Watermarks]
  | other heq => exact h.congr fun a ha => heq a (match_sync ha)

/-- An input that spares the slots. -/
theorem Holding.store (h : Holding seat held d) (hs : seat < 2)
    (hd : InputStored d d' (d.cell (FRMBUF + 2)) (inputTick d)) (h3 : d.cell (FRMBUF + 2) ≤ 3)
    (hq : SparesSlot d) : Holding seat held d' := by
  have hoff : ∀ a, a < 0x8400 → a < 0x81A0 ∨ 0x81A8 ≤ a → d'.cell a = d.cell a := by
    intro a h1 h2
    apply hd.frame.cell_eq
    simp only [InputCells, ringSlot, keypadSlot, SEAT_RING, SEAT_KP, SEAT_WM]
    rintro (hx | hx | hx | hx) <;> omega
  have htick : tickWord d' = tickWord d := by
    unfold tickWord word
    rw [hoff TICK_LO (by decide) (by decide), hoff TICK_HI (by decide) (by decide)]
  have hdrop : d'.cell NET_DROPPED = d.cell NET_DROPPED := hoff _ (by decide) (by decide)
  -- a slot is written by the input of its seat and tick alone
  have hslot : ∀ tick, ¬ (d.cell (FRMBUF + 2) = seat ∧ inputTick d % 256 = tick % 256) →
      d'.cell (keypadSlot seat tick) = d.cell (keypadSlot seat tick) := by
    intro tick hne
    apply hd.frame.cell_eq
    simp only [InputCells, ringSlot, keypadSlot, SEAT_RING, SEAT_KP, SEAT_WM]
    rintro (hx | hx | hx | hx) <;> omega
  have hwrite : ∀ tick, d.cell (FRMBUF + 2) = seat → inputTick d % 256 = tick % 256 →
      d'.cell (keypadSlot seat tick) = d.cell (FRMBUF + 6) := by
    intro tick h1 h2
    rw [← hd.keypad]
    unfold keypadSlot
    rw [h1, h2]
  have hlast : lastKey d' seat = lastKey d seat := by
    by_cases hw : d.cell (FRMBUF + 2) = seat ∧ inputTick d % 256 = (tickWord d + 255) % 256
    · refine Eq.trans ?_ (((hq seat hs hw.1).1 hw.2))
      unfold lastKey
      rw [htick, hwrite _ hw.1 hw.2]
    · unfold lastKey
      rw [htick, hslot _ hw]
  have hnext : d.cell NET_DROPPED ≠ 0 → nextKey d' seat = nextKey d seat := by
    intro hne
    by_cases hw : d.cell (FRMBUF + 2) = seat ∧ inputTick d % 256 = tickWord d % 256
    · refine Eq.trans ?_ (((hq seat hs hw.1).2 hne hw.2))
      unfold nextKey
      rw [htick, hwrite _ hw.1 hw.2]
    · unfold nextKey
      rw [htick, hslot _ hw]
  rcases h with h | ⟨h1, h2, h3⟩
  · exact Or.inl (hlast.trans h)
  · exact Or.inr ⟨hdrop ▸ h1, hlast.trans h2, (hnext h1).trans h3⟩

/-- A frame that spares the slots, and does not re-baseline while the key is down. -/
theorem Holding.effect (h : Holding seat held d) (hs : seat < 2) (he : FrameEffect d d')
    (hq : StoresInput d → SparesSlot d) (hp : Rebases d → held = 0 ∨ lastKey d seat = 0) :
    Holding seat held d' := by
  cases he with
  | stored hst h3 hd => exact h.store hs hd h3 (hq hst)
  | rebased hr hd =>
    have hidle := keys_idle hd.rings hs
    have hdrop : d'.cell NET_DROPPED = d.cell NET_DROPPED := by
      apply hd.frame.cell_eq
      simp [RebaseArea, DisplayArea, ResyncVars, RingPages, Watermarks, CrcRecords]
    rcases h with h | ⟨h1, -, -⟩
    · refine Or.inl (hidle.1.trans ?_)
      rcases hp hr with h0 | h0
      · exact h0.symm
      · exact h0.symm.trans h
    · exact Or.inr ⟨hdrop ▸ h1, hidle⟩
  | left hd =>
    rw [hd]
    exact holding_over (idle_LS_IDLE_RMT _) (dropped_of_pl d) hs
  | other heq => exact h.congr hs heq

/-- So do all frames of a pump. -/
theorem Holding.pump {ds : List Cpu} (hc : Playing c) (h : Holding seat held c) (hs : seat < 2)
    (hp : Handles SES_ONFRAME c ds c') (hq : ∀ d ∈ ds, InPlay SparesSlot d ∧
      (Rebases d → held = 0 ∨ lastKey d seat = 0)) : Playing c' ∧ Holding seat held c' := by
  induction hp with
  | done hm =>
    have heq : ∀ a ∈ SyncCells, _ = _ := fun a ha => hm.frame.cell_eq (sync_not_pump ha)
    exact ⟨hc.congr fun a ha => heq a (match_sync ha), h.congr hs heq⟩
  | hand hm _ ih =>
    have heq : ∀ a ∈ SyncCells, _ = _ := fun a ha => hm.frame.cell_eq (sync_not_pump ha)
    have hd := hc.congr fun a ha => heq a (match_sync ha)
    obtain ⟨hplay, hre⟩ := hq _ List.mem_cons_self
    have he := frameEffect hd.active hd.count hplay.1
    exact ih (hd.effect he) ((h.congr hs heq).effect hs he hplay.2 hre)
      fun x hx => hq x (List.mem_cons_of_mem _ hx)

/-- A round of the gate waits, or gives up with idle rings. -/
theorem Holding.stall (h : Holding seat held d) (hs : seat < 2) :
    Holding seat held (stallTail d) := by
  rw [stallTail_eq]
  rcases countRound_cases d (fun c => LS_IDLE_RMT (giveUp c)) (l := LS_WAITC_LO) (h := LS_WAITC_HI)
    (n := LS_TIMEOUT / 256) rfl rfl (by decide) (by decide) (by decide) with ⟨x, hx⟩ | ⟨hf, -⟩
  · rw [hx]
    apply holding_over (idle_LS_IDLE_RMT _) _ hs
    apply dropped_idle
    simp [giveUp, cellWidth]
  · apply h.congr hs
    intro a ha
    apply hf.cell_eq
    rintro (rfl | rfl) <;> exact match_not_wait (sync_match ha) (by simp [WaitArea])

/-- So does a round of the hold. -/
theorem Holding.hold (h : Holding seat held d) (hs : seat < 2) :
    Holding seat held (holdTail d) := by
  rw [holdTail_eq]
  rcases countRound_cases d (fun c => LS_IDLE_RMT ((giveUp c).sto RESYNC_HOLD 0)) (l := RS_TO_LO)
    (h := RS_TO_HI) (n := RS_HOLD_TMO / 256) rfl rfl (by decide) (by decide) (by decide) with
    ⟨x, hx⟩ | ⟨hf, -⟩
  · rw [hx]
    apply holding_over (idle_LS_IDLE_RMT _) _ hs
    apply dropped_idle
    simp [giveUp, cellWidth]
  · apply h.congr hs
    intro a ha
    apply hf.cell_eq
    rintro (rfl | rfl) <;> exact match_not_wait (sync_match ha) (by simp [WaitArea])

/-- A round stores to its counters, or to what giving up stores to. -/
theorem Playing.afterPump (h : Playing d) (k : Console) : Playing (afterPump k d).cpu := by
  have hgive : ∀ {c : Cpu}, Playing c → Playing (giveUp c) := fun hc => hc.congr fun a ha => by
    rcases ha with rfl | rfl | rfl | rfl <;> simp [giveUp]
  have hidle : ∀ {c : Cpu}, Playing c → Playing (LS_IDLE_RMT c) := fun hc => hc.congr fun a ha => by
    apply (frame_LS_IDLE_RMT _).cell_eq
    rcases ha with rfl | rfl | rfl | rfl <;> simp [RingPages, Watermarks]
  have hsto : ∀ {c : Cpu} {a v : ℕ}, a ∈ WaitArea ∪ {RESYNC_HOLD} → Playing c → Playing (c.sto a v) := by
    intro c a v ha hc
    apply hc.congr
    intro x hx
    rw [Cpu.sto_cell, if_neg]
    rintro rfl
    rcases ha with ha | ha
    · exact match_not_wait (sync_match (match_sync hx)) ha
    · rw [Set.mem_singleton_iff.mp ha] at hx
      simp at hx
  unfold Analysis.afterPump
  split
  · split
    · unfold holdTail
      extract_lets lo c1 hi c2
      have h1 : Playing c1 := hsto (Or.inl (by simp [WaitArea])) h
      have h2 : Playing c2 := hsto (Or.inl (by simp [WaitArea])) h1
      simp only
      split
      · exact h1
      split
      · exact h2
      · exact hidle (hsto (Or.inr rfl) (hgive h2))
    · exact h
  · unfold stallTail
    extract_lets lo c1 hi c2
    have h1 : Playing c1 := hsto (Or.inl (by simp [WaitArea])) h
    have h2 : Playing c2 := hsto (Or.inl (by simp [WaitArea])) h1
    simp only
    split
    · exact h1
    split
    · exact h2
    · exact hidle (hgive h2)

/-- A capture keeps the match. -/
theorem Playing.capture (h : Playing c) : Playing (captureSend c) := by
  apply h.congr
  intro a ha
  apply (captured c h.seat).match_eq (sync_match (match_sync ha))
  rcases ha with rfl | rfl | rfl | rfl <;> simp [RingPages]

/-- A capture is for a tick that is neither. -/
theorem Holding.capture (h : Holding seat held c) (hs : seat < 2) (hc : Playing c) :
    Holding seat held (captureSend c) := by
  have hcap := captured c hc.seat
  have hdelay := hc.delay
  have hown := hc.seat
  have hkeep : ∀ a ∈ SyncCells, a ∉ RingPages → (captureSend c).cell a = c.cell a := fun a ha hr =>
    hcap.match_eq (sync_match ha) hr
  have hv : ∀ {a}, a = NET_DROPPED ∨ a = TICK_LO ∨ a = TICK_HI →
      (captureSend c).cell a = c.cell a := by
    intro a ha
    apply hkeep a
    · exact Or.inl (Or.inl (by rcases ha with rfl | rfl | rfl <;> simp))
    · rcases ha with rfl | rfl | rfl <;> simp [RingPages]
  have htick : tickWord (captureSend c) = tickWord c := by
    unfold tickWord word
    rw [hv (a := TICK_LO) (by simp), hv (a := TICK_HI) (by simp)]
  have hslot : ∀ tick, tick % 256 ≠ (tickWord c + c.cell NET_DELAY) % 256 →
      (captureSend c).cell (keypadSlot seat tick) = c.cell (keypadSlot seat tick) := by
    intro tick hne
    have hkp := hcap.keypad (256 * seat + tick % 256) (by omega)
    rw [if_neg (by omega), ← Nat.add_assoc] at hkp
    exact hkp
  unfold Holding lastKey nextKey
  rw [htick, hslot _ (by omega), hslot _ (by omega), hv (a := NET_DROPPED) (by simp)]
  exact h

end Machines

/-! ### A tick -/

section Tick

variable (g : Game) (c : Cpu)

/-- The first dispatch reads the slots of seat 0. -/
theorem cells_atSeat0 :
    dispatchCells (loadCells (runTick g c).atSeat0) = seatCells c 0 (tickWord c) := by
  have hplay := plays_atSeat0 g c
  have hside : (runTick g c).atSeat0.cell VD_SIDE = 0 := by
    change (selectSeat _ 0).cell VD_SIDE = 0
    simp [selectSeat]
  rw [dispatchCells_load _ (by omega) hside]
  exact seatCells_congr (by omega) fun a ha => hplay.match_eq (sync_match ha)

/-- The second reads those of seat 1. -/
theorem cells_atSeat1 :
    dispatchCells (loadCells (runTick g c).atSeat1) = seatCells c 1 (tickWord c) := by
  have hplay := plays_atSeat1 g c
  have hside : (runTick g c).atSeat1.cell VD_SIDE = 1 := by
    change (selectSeat _ 1).cell VD_SIDE = 1
    simp [selectSeat, cellWidth]
  rw [dispatchCells_load _ (by omega) hside]
  exact seatCells_congr (by omega) fun a ha => hplay.match_eq (sync_match ha)

/-- What a tick does to the match before a push. -/
structure TickEnd (c e : Cpu) : Prop where
  kept : ∀ a ∈ SyncCells, a ≠ TICK_LO → a ≠ TICK_HI → e.cell a = c.cell a
  tick : tickWord e = (tickWord c + 1) % 65536

/-- This is what a tick does. -/
theorem tickEnd_spec : TickEnd c (tickEnd g c) := by
  have hbody := (tickBody_spec g c).frame
  have hcell : ∀ a ∈ SyncCells, (tickBody g c).cell a = c.cell a := fun a ha =>
    hbody.cell_eq (match_not_tick (sync_match ha) (match_not_mailbox (sync_match ha)))
  constructor
  · intro a ha hlo hhi
    have hcount := (frame_countUp (tickBody g c) TICK_LO TICK_HI).cell_eq fun hm => hm.elim hlo hhi
    exact hcount.trans (hcell a ha)
  · have hword : tickWord (tickEnd g c) = (tickWord (tickBody g c) + 1) % 65536 :=
      word_countUp (tickBody g c) (cellWidth_cart (by decide) (by decide))
        (cellWidth_cart (by decide) (by decide)) (by decide)
    have htick : tickWord (tickBody g c) = tickWord c := tickWord_sync hcell
    exact hword.trans (congrArg (fun t => (t + 1) % 65536) htick)

end Tick

section Tick

variable {c e : Cpu} {seat : ℕ}

/-- The slot that was next is the last one. -/
theorem TickEnd.lastKey (h : TickEnd c e) (hs : seat < 2) : lastKey e seat = nextKey c seat := by
  have hslot := h.kept (keypadSlot seat (tickWord e + 255)) (slot_sync (by omega) _).2
    (by simp only [keypadSlot, SEAT_KP, TICK_LO]; omega)
    (by simp only [keypadSlot, SEAT_KP, TICK_HI]; omega)
  have hsame : keypadSlot seat (tickWord e + 255) = keypadSlot seat (tickWord c) := by
    unfold keypadSlot
    rw [h.tick]
    omega
  unfold KeyPairs.lastKey KeyPairs.nextKey
  rw [hslot, hsame]

/-- It goes on with the match. -/
theorem TickEnd.playing (h : TickEnd c e) (hc : Playing c) : Playing e := by
  apply hc.congr
  intro a ha
  apply h.kept a (match_sync ha) <;> rcases ha with rfl | rfl | rfl | rfl <;> decide

/-- It ends none. -/
theorem TickEnd.dropped (h : TickEnd c e) : e.cell NET_DROPPED = c.cell NET_DROPPED :=
  h.kept _ (Or.inl (Or.inl (by simp))) (by decide) (by decide)

/-- A match goes on through a push. -/
theorem Playing.pending (h : Playing e) : Playing (RS_PENDING e) := by
  apply h.congr
  intro a ha
  apply (frame_RS_PENDING e).cell_eq
  rcases ha with rfl | rfl | rfl | rfl <;> simp [PendingArea, PushArea, RebaseArea, MailboxArea,
    DisplayArea, ResyncVars, RingPages, Watermarks, CrcRecords]

/-- A push ends none, either. -/
theorem pending_dropped (e : Cpu) : (RS_PENDING e).cell NET_DROPPED = e.cell NET_DROPPED := by
  apply (frame_RS_PENDING e).cell_eq
  simp [PendingArea, PushArea, RebaseArea, MailboxArea, DisplayArea, ResyncVars, RingPages,
    Watermarks, CrcRecords]

/-- A push idles the rings; without one the slots stay. -/
theorem lastKey_pending (hs : seat < 2) (hp : Pushes e → lastKey e seat = 0) :
    KeyPairs.lastKey (RS_PENDING e) seat = KeyPairs.lastKey e seat := by
  by_cases hpush : Pushes e
  · obtain ⟨d, heq, -⟩ := RS_PENDING_pushes hpush
    rw [heq, (pushed d).eq, hp hpush]
    exact (keys_idle (rebased (pushBody d)).rings hs).1
  · apply (keys_congr hs fun a ha => (RS_PENDING_waits hpush).cell_eq ?_).1
    rintro rfl
    exact sync_not_request ha (Or.inl (Or.inr rfl))

end Tick

/-! ### The run -/

/-- What a seat's events have been, when more come. -/
theorem keyEvents_append (seat key : ℕ) (es es' : List (ℕ × VirtualEvent)) :
    keyEvents seat key (es ++ es') = keyEvents seat key es ++ keyEvents seat key es' := by
  unfold keyEvents
  rw [List.filter_append, List.map_append, keyValues_append]

/-- Those of a tick are the seat's own. -/
theorem keyEvents_tick (g : Game) (c : Cpu) {seat : ℕ} (hs : seat < 2) (key : ℕ) :
    keyEvents seat key (tickEvents g c) =
      keyValues key (virtualEvents (seatCells c seat (tickWord c))) := by
  have hown : ∀ es : List VirtualEvent,
      ((es.map fun e => (seat, e)).filter fun e => e.1 = seat).map Prod.snd = es := by
    intro es
    rw [List.filter_eq_self.mpr (by simp), List.map_map]
    exact List.map_id es
  have hother : ∀ (es : List VirtualEvent) {s : ℕ}, s ≠ seat →
      ((es.map fun e => (s, e)).filter fun e => e.1 = seat) = [] := by
    intro es s hne
    exact List.filter_eq_nil_iff.mpr (by simp [hne])
  unfold tickEvents
  simp only [cells_atSeat0, cells_atSeat1]
  rw [keyEvents_append]
  unfold keyEvents
  have hcases : seat = 0 ∨ seat = 1 := by omega
  rcases hcases with rfl | rfl
  · rw [hown, hother _ one_ne_zero]
    simp [keyValues]
  · rw [hown, hother _ zero_ne_one]
    simp [keyValues]

/-- After its events a seat's last key is the one of its slots, or the match is over and no tick comes. -/
structure Dispatched (seat held : ℕ) (k : Console) (events : List (ℕ × VirtualEvent)) : Prop where
  paired : ∀ key, 1 ≤ key ∧ key ≤ 3 → Paired (keyEvents seat key events) (decide (held = key))
  slots : k.phase ≠ .parked → Holding seat held k.cpu ∨ (k.cpu.cell NET_DROPPED ≠ 0 ∧
    (k.phase = .native ∨ k.phase = .scan ∨ k.phase = .pass))

/-- Between two steps. -/
structure KeyInv (k : Console) (events : List (ℕ × VirtualEvent)) : Prop where
  playing : k.phase ≠ .parked → Playing k.cpu
  keys : ∀ seat < 2, ∃ held, Dispatched seat held k events

/-- A console whose match is not over holds its keys. -/
theorem Dispatched.holding {seat held : ℕ} {k : Console} {events : List (ℕ × VirtualEvent)}
    (h : Dispatched seat held k events) (hp : k.phase ≠ .parked)
    (hd : k.phase ∈ [Phase.due, .gate, .run] ∨ k.cpu.cell NET_DROPPED = 0) :
    Holding seat held k.cpu := by
  rcases h.slots hp with hh | ⟨hdrop, hph⟩
  · exact hh
  · rcases hd with hd | hd
    · rcases hph with hph | hph | hph <;> rw [hph] at hd <;> simp at hd
    · exact absurd hd hdrop

/-- A START begins without keys. -/
theorem holding_handover {c : Cpu} {g : MatchLog} (h : Handover SparesSlot c g) {seat : ℕ}
    (hs : seat < 2) : Playing c ∧ Holding seat 0 c := by
  induction h with
  | start d h =>
    have hnew := started d h.length
    have hdelay := h.delay
    refine ⟨⟨?_, ?_, ?_, ?_⟩, Or.inl (keys_idle hnew.rings hs).1⟩
    · rw [hnew.active]
      exact one_ne_zero
    · exact hnew.seat.le.trans h.seat
    · exact hnew.count.le.trans h.count
    · rw [hnew.delay]
      exact hdelay
  | pump _ hp hq ih => exact ih.2.pump ih.1 hs hp fun d hd => ⟨hq d hd, fun _ => Or.inl rfl⟩
  | quiet _ heq ih =>
    exact ⟨ih.1.congr fun a ha => heq a (sync_match (match_sync ha)),
      ih.2.congr hs fun a ha => heq a (sync_match ha)⟩

/-- A tick dispatches what its slots say and goes on with the next. -/
theorem Dispatched.tick {seat held : ℕ} {k : Console} {events : List (ℕ × VirtualEvent)}
    (h : Dispatched seat held k events) (hs : seat < 2) (hph : k.phase = .run) (g : Game)
    (hp : Pushes (tickEnd g k.cpu) → NoKey (tickEnd g k.cpu)) :
    ∃ held', Dispatched seat held' ⟨(runTick g k.cpu).cpu, .native⟩
      (events ++ tickEvents g k.cpu) := by
  have hend := tickEnd_spec g k.cpu
  have hlast : lastKey (RS_PENDING (tickEnd g k.cpu)) seat = nextKey k.cpu seat :=
    (lastKey_pending hs fun hpush => hp hpush seat hs).trans (hend.lastKey hs)
  have hdrop : (RS_PENDING (tickEnd g k.cpu)).cell NET_DROPPED = k.cpu.cell NET_DROPPED :=
    (pending_dropped _).trans hend.dropped
  rcases h.holding (by rw [hph]; decide) (Or.inl (by simp [hph])) with hh | ⟨hne, h0, h1⟩
  · refine ⟨nextKey k.cpu seat, fun key hk => ?_, fun _ => Or.inl (Or.inl hlast)⟩
    rw [keyEvents_append, keyEvents_tick g k.cpu hs]
    apply Paired.dispatch hk (seatCells k.cpu seat (tickWord k.cpu))
    rw [show actionKey (seatCells k.cpu seat (tickWord k.cpu)).kppre = held from hh]
    exact h.paired key hk
  · -- the rings are idle, and this tick is the last
    refine ⟨held, fun key hk => ?_, fun _ => Or.inr ⟨?_, Or.inl rfl⟩⟩
    · rw [keyEvents_append, keyEvents_tick g k.cpu hs,
        keyValues_none hk (seatCells k.cpu seat (tickWord k.cpu)) h0 h1, List.append_nil]
      exact h.paired key hk
    · exact fun hz => hne (hdrop.symm.trans hz)

/-- A console pumps at the start of a pass and at the gate, while nobody has left. -/
theorem pumping_waits {k : Console} {c : Cpu} (hp : pumping k = some c) :
    (k.phase = .pass ∨ k.phase = .gate) ∧ k.cpu.cell NET_DROPPED = 0 ∧ Frame WaitArea k.cpu c := by
  have hframe : Frame WaitArea k.cpu c := by
    rcases pumping_cases hp with rfl | rfl
    · exact Frame.refl _ _
    · exact frame_freeze _
  unfold pumping at hp
  cases h : k.phase with
  | pass =>
    simp only [h] at hp
    split at hp
    · cases hp
    split at hp
    · cases hp
    · rename_i hd
      exact ⟨Or.inl rfl, not_not.mp hd, hframe⟩
  | gate =>
    simp only [h] at hp
    split at hp
    · cases hp
    · rename_i ho
      refine ⟨Or.inr rfl, ?_, hframe⟩
      by_contra hd
      simp [gateOpen, hd] at ho
  | _ => simp [h] at hp

/-- A step that pumps. -/
theorem KeyInv.pump {k : Console} {c : Cpu} {events : List (ℕ × VirtualEvent)} (inv : KeyInv k events)
    (o : Outside) (hp : pumping k = some c)
    (hq : ∀ d ∈ dispatched k o, InPlay SparesSlot d ∧ (Rebases d → NoKey d)) :
    KeyInv (k.step o) events := by
  obtain ⟨hph, hd, hf⟩ := pumping_waits hp
  have hne : k.phase ≠ .parked := by rcases hph with h | h <;> rw [h] <;> decide
  have heq : ∀ a ∈ SyncCells, c.cell a = k.cpu.cell a := fun a ha =>
    hf.cell_eq (match_not_wait (sync_match ha))
  have hc := (inv.playing hne).congr fun a ha => heq a (match_sync ha)
  rw [dispatched_eq hp] at hq
  have hpump : ∀ seat < 2, ∃ held,
      (∀ key, 1 ≤ key ∧ key ≤ 3 → Paired (keyEvents seat key events) (decide (held = key))) ∧
      Playing (SES_PUMP SES_ONFRAME c o.poll).cpu ∧
        Holding seat held (SES_PUMP SES_ONFRAME c o.poll).cpu := by
    intro seat hs
    obtain ⟨held, hk⟩ := inv.keys seat hs
    refine ⟨held, hk.paired, ((hk.holding hne (Or.inr hd)).congr hs heq).pump hc hs
      (handles_pump c o.poll) fun d hd => ⟨(hq d hd).1, fun hr => Or.inr ((hq d hd).2 hr seat hs)⟩⟩
  obtain ⟨_, -, hplay, -⟩ := hpump 0 (by omega)
  rw [step_afterPump hp o]
  generalize (SES_PUMP SES_ONFRAME c o.poll).cpu = d at hpump hplay ⊢
  refine ⟨fun _ => hplay.afterPump k, fun seat hs => ?_⟩
  obtain ⟨held, hpaired, -, hh⟩ := hpump seat hs
  refine ⟨held, hpaired, fun _ => Or.inl ?_⟩
  unfold afterPump
  rcases hph with h | h <;> rw [h] <;> simp only
  · split
    · exact hh.hold hs
    · exact hh
  · exact hh.stall hs

/-- A step that leaves the match and the rings alone. -/
theorem KeyInv.quiet {k : Console} {c' : Cpu} {ph : Phase} {events : List (ℕ × VirtualEvent)}
    (inv : KeyInv k events) (hne : k.phase ≠ .parked) (heq : ∀ a ∈ SyncCells, c'.cell a = k.cpu.cell a)
    (hnext : k.phase = .gate ∨ ph ∈ [Phase.native, .scan, .pass]) : KeyInv ⟨c', ph⟩ events := by
  refine ⟨fun _ => (inv.playing hne).congr fun a ha => heq a (match_sync ha), fun seat hs => ?_⟩
  obtain ⟨held, hk⟩ := inv.keys seat hs
  refine ⟨held, hk.paired, fun _ => ?_⟩
  rcases hnext with hnext | hnext
  · exact Or.inl ((hk.holding hne (Or.inl (by simp [hnext]))).congr hs heq)
  · rcases hk.slots hne with hh | ⟨hdrop, -⟩
    · exact Or.inl (hh.congr hs heq)
    · refine Or.inr ⟨?_, by simpa using hnext⟩
      change c'.cell NET_DROPPED ≠ 0
      rw [heq NET_DROPPED (Or.inl (Or.inl (by simp)))]
      exact hdrop

/-- Every step keeps the invariant. -/
theorem KeyInv.step {k : Console} {events : List (ℕ × VirtualEvent)} (inv : KeyInv k events)
    (o : Outside) (hq : ∀ d ∈ dispatched k o, InPlay SparesSlot d ∧ (Rebases d → NoKey d))
    (hp : k.phase = .run → Pushes (tickEnd o.game k.cpu) → NoKey (tickEnd o.game k.cpu)) :
    KeyInv (k.step o) (if k.phase = .run then events ++ tickEvents o.game k.cpu else events) := by
  cases hpk : pumping k with
  | some c =>
    have hrun : k.phase ≠ .run := by
      rcases (pumping_waits hpk).1 with h | h <;> rw [h] <;> decide
    rw [if_neg hrun]
    exact inv.pump o hpk hq
  | none =>
    have hstep := stepped k o
    generalize k.step o = k' at hstep ⊢
    cases hstep with
    | hold _ _ _ hpump => cases hpk.symm.trans hpump
    | pass _ _ _ hpump => cases hpk.symm.trans hpump
    | stall _ _ hpump => cases hpk.symm.trans hpump
    | shown h =>
      rw [if_neg (by rw [h]; decide)]
      exact inv.quiet (by rw [h]; decide) (fun _ _ => rfl) (Or.inr (by simp))
    | left h =>
      rw [if_neg (by rw [h]; decide)]
      refine ⟨fun hn => absurd rfl hn, fun seat hs => ?_⟩
      obtain ⟨held, hk⟩ := inv.keys seat hs
      exact ⟨held, hk.paired, fun hn => absurd rfl hn⟩
    | due h =>
      rw [if_neg (by rw [h]; decide)]
      have hc := inv.playing (by rw [h]; decide)
      refine ⟨fun _ => hc.capture, fun seat hs => ?_⟩
      obtain ⟨held, hk⟩ := inv.keys seat hs
      have hh := hk.holding (by rw [h]; decide) (Or.inl (by simp [h]))
      exact ⟨held, hk.paired, fun _ => Or.inl (hh.capture hs hc)⟩
    | opened h =>
      rw [if_neg (by rw [h]; decide)]
      exact inv.quiet (by rw [h]; decide) (fun _ _ => rfl) (Or.inl h)
    | tick h =>
      rw [if_pos h]
      refine ⟨fun _ => ?_, fun seat hs => ?_⟩
      · exact ((tickEnd_spec o.game k.cpu).playing (inv.playing (by rw [h]; decide))).pending
      · obtain ⟨held, hk⟩ := inv.keys seat hs
        exact hk.tick hs h o.game (hp h)
    | native h =>
      rw [if_neg (by rw [h]; decide)]
      exact inv.quiet (by rw [h]; decide) (fun a ha =>
        (Frame.ofGame (o.game.native_frame k.cpu)).cell_eq (match_not_game (sync_match ha)))
        (Or.inr (by simp))
    | scan h =>
      rw [if_neg (by rw [h]; decide)]
      exact inv.quiet (by rw [h]; decide) (fun a ha =>
        (Frame.ofGame (o.game.scan_frame k.cpu)).cell_eq (match_not_game (sync_match ha)))
        (Or.inr (by simp))
    | parked h =>
      rw [if_neg (by rw [h]; decide)]
      exact inv

/-- When no console re-baselines with an action key down, and no input is stored into the slot that was
dispatched last, the presses and releases of each key take turns; and as long as nobody has left,
the key that is down is the one in that slot.
SOURCE: vdispatch.asm:379-445, resync.asm:370-419 -/
theorem keys_take_turns {k : Console} {events : List (ℕ × VirtualEvent)}
    (run : KeyRun SparesSlot NoKey k events) (seat : ℕ) (hs : seat < 2) :
    ∃ held, (∀ key, 1 ≤ key ∧ key ≤ 3 → Paired (keyEvents seat key events) (decide (held = key))) ∧
      (k.phase ≠ .parked → k.cpu.cell NET_DROPPED = 0 → lastKey k.cpu seat = held) := by
  have inv : KeyInv k events := by
    induction run with
    | begin h =>
      refine ⟨fun _ => (holding_handover h zero_lt_two).1, fun seat hs => ⟨0, ?_, ?_⟩⟩
      · intro key hk
        rw [decide_eq_false (by omega)]
        exact .start
      · exact fun _ => Or.inl (holding_handover h hs).2
    | step _ o hq hp ih => exact ih.step o hq hp
  obtain ⟨held, hk⟩ := inv.keys seat hs
  refine ⟨held, hk.paired, fun hne hd => ?_⟩
  exact (hk.holding hne (Or.inr hd)).resolve_right fun h => h.1 hd

/-! ### Concrete runs -/

/-- A START of a match between rounds, at a console whose player holds an action key. -/
def heldKey : Cpu := (startHeld.sto EXEC_KP_L 1).sto BX_MATCHOVER 1

theorem opensMatch_heldKey : OpensMatch heldKey :=
  ⟨by decide, by decide, by decide, by decide, by decide⟩

/-- A poll that delivers the other console's request for a resync. -/
def askPoll : Poll := ⟨.ack 1, 4, 1, .ack 1, [3, FT_RESYNC, 0, 0], by simp, by simp⟩

/-- The other console answers tick 1, asks for a resync or not, and answers the tick that follows the
one at which the resync ends. -/
def heldPoll (ask : Bool) (n : ℕ) : Poll :=
  if n = 0 then inputPoll 1
  else if n = 6 ∧ ask = true then askPoll
  else if n = 12 then inputPoll 19 else silentPoll

/-- The match, and its events. -/
def heldAfter (ask : Bool) : ℕ → Console × List (ℕ × VirtualEvent)
  | 0 => (⟨of_start heldKey, .pass⟩, [])
  | n + 1 =>
    let r := heldAfter ask n
    (r.1.step ⟨heldPoll ask n, default⟩,
      if r.1.phase = .run then r.2 ++ tickEvents default r.1.cpu else r.2)

theorem keyRun_held {Q P : Cpu → Prop} (ask : Bool) (n : ℕ)
    (hq : ∀ m < n, ∀ d ∈ dispatched (heldAfter ask m).1 ⟨heldPoll ask m, default⟩,
      InPlay Q d ∧ (Rebases d → P d))
    (hp : ∀ m < n, (heldAfter ask m).1.phase = .run →
      Pushes (tickEnd default (heldAfter ask m).1.cpu) → P (tickEnd default (heldAfter ask m).1.cpu)) :
    KeyRun Q P (heldAfter ask n).1 (heldAfter ask n).2 := by
  induction n with
  | zero => exact .begin (.start _ opensMatch_heldKey)
  | succ n ih =>
    have hprev := ih (fun m hm => hq m (Nat.lt_succ_of_lt hm)) fun m hm => hp m (Nat.lt_succ_of_lt hm)
    exact hprev.step ⟨heldPoll ask n, default⟩ (hq n (Nat.lt_succ_self n)) (hp n (Nat.lt_succ_self n))

instance (d : Cpu) : Decidable (SparesSlot d) :=
  inferInstanceAs (Decidable (∀ seat < 2, _ → (_ → _) ∧ (_ → _ → _)))

instance (c : Cpu) : Decidable (NoKey c) := inferInstanceAs (Decidable (∀ seat < 2, _))

instance (d : Cpu) : Decidable (InPlay SparesSlot d) :=
  inferInstanceAs (Decidable (_ ∧ (_ → SparesSlot d)))

set_option maxRecDepth 20000 in
/-- Without a resync the key is pressed once. -/
theorem held_key_pressed_once : keyEvents 0 1 (heldAfter false 10).2 = [1] ∧
    ∃ held, (∀ key, 1 ≤ key ∧ key ≤ 3 →
        Paired (keyEvents 0 key (heldAfter false 10).2) (decide (held = key))) ∧
      ((heldAfter false 10).1.phase ≠ .parked → (heldAfter false 10).1.cpu.cell NET_DROPPED = 0 →
        lastKey (heldAfter false 10).1.cpu 0 = held) := by
  obtain ⟨hevents, hq, hp⟩ : keyEvents 0 1 (heldAfter false 10).2 = [1] ∧
      (∀ m < 10, ∀ d ∈ dispatched (heldAfter false m).1 ⟨heldPoll false m, default⟩,
        InPlay SparesSlot d ∧ (Rebases d → NoKey d)) ∧
      ∀ m < 10, (heldAfter false m).1.phase = .run →
        Pushes (tickEnd default (heldAfter false m).1.cpu) →
          NoKey (tickEnd default (heldAfter false m).1.cpu) := by decide +kernel
  exact ⟨hevents, keys_take_turns (keyRun_held false 10 hq hp) 0 (by decide)⟩

/-- Two presses in a row are not paired. -/
theorem not_paired_twice {down : Bool} : ¬ Paired [1, 1] down := by
  have hlast : ∀ {l : List ℕ} {v : ℕ} {us : List ℕ}, us ++ [v] = l ++ [1] → us = l ∧ v = 1 := by
    intro l v us h
    have := List.append_inj' h rfl
    exact ⟨this.1, by simpa using this.2⟩
  intro h
  generalize hvs : [1, 1] = vs at h
  cases h with
  | start => cases hvs
  | press h =>
    obtain ⟨rfl, -⟩ := hlast (l := [1]) hvs.symm
    generalize hus : [1] = us at h
    cases h with
    | start => cases hus
    | release h => exact absurd (hlast (l := []) hus.symm).2 (by decide)
  | refire h => exact absurd (hlast (l := [1]) hvs.symm).2 (by decide)
  | release h => exact absurd (hlast (l := [1]) hvs.symm).2 (by decide)

set_option maxRecDepth 20000 in
/-- When the host pushes while its player holds the key, the key is pressed twice and never
released. -/
theorem held_key_pressed_twice : ¬ ∀ (k : Console) (events : List (ℕ × VirtualEvent)),
    KeyRun Continues (fun _ => True) k events → ∀ seat < 2, ∀ key, 1 ≤ key ∧ key ≤ 3 →
      ∃ down, Paired (keyEvents seat key events) down := by
  intro h
  obtain ⟨hevents, hq⟩ : keyEvents 0 1 (heldAfter true 22).2 = [1, 1] ∧
      ∀ m < 22, ∀ d ∈ dispatched (heldAfter true m).1 ⟨heldPoll true m, default⟩,
        InPlay Continues d := by decide +kernel
  have run : KeyRun Continues (fun _ => True) (heldAfter true 22).1 (heldAfter true 22).2 :=
    keyRun_held true 22 (fun m hm d hd => ⟨hq m hm d hd, fun _ => trivial⟩) fun _ _ _ _ => trivial
  obtain ⟨down, hdown⟩ := h _ _ run 0 (by decide) 1 (by decide)
  rw [hevents] at hdown
  exact not_paired_twice hdown

end BoxingNetplay.Analysis.KeyPairs
