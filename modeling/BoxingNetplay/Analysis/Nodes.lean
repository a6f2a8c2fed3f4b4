import BoxingNetplay.Analysis.KeyPairs
import BoxingNetplay.Analysis.Network
import BoxingNetplay.Library.History

/-!
# A console as a node of the delay line

What the counters and rings of a console have to do with the node of `Library.Delay` it
implements (`AtNode`): the tick counter and the peer's watermark are the node's tick and mark modulo
`2 ^ 16`, and the two rings have the last 256 inputs of either seat up to the node's top and mark.  A
capture, an input that is stored, a tick and a re-baseline each move both the same way.  A dispatch
less than a ring behind the mark replays the inputs of its tick and of the tick before it.
-/

set_option autoImplicit false

namespace BoxingNetplay.Analysis

open BoxingNetplay.Library
open BoxingNetplay.Library.Delay (Node)
open BoxingNetplay.Model
open BoxingNetplay.Interface
open BoxingNetplay.Analysis.KeyPairs (TickEnd match_sync tickWord_sync)

/-! ### Inputs -/

/-- The input of a tick for which nobody captured: the disc released, no key. -/
def idleInput : ℕ × ℕ := (0x40, 0)

/-- The input in the slots of a seat for a tick. -/
def slotInput (c : Cpu) (seat tick : ℕ) : ℕ × ℕ :=
  (c.cell (ringSlot seat tick), c.cell (keypadSlot seat tick))

/-- The input that is replayed for a tick, of those captured. -/
def replay (ins : ℕ → Option (ℕ × ℕ)) (n : ℕ) : ℕ × ℕ := (ins n).getD idleInput

/-- The cells a dispatch at tick `n` reads when those are the inputs of its seat. -/
def cellsAt (ins : ℕ → Option (ℕ × ℕ)) (n : ℕ) : Cells where
  cur := (replay ins n).1
  prev := (ago idleInput (replay ins) n 1).1
  kp := (replay ins n).2
  kppre := (ago idleInput (replay ins) n 1).2

/-- They depend on the inputs up to the tick. -/
theorem cellsAt_congr {ins ins' : ℕ → Option (ℕ × ℕ)} {n : ℕ} (h : ∀ k ≤ n, ins' k = ins k) :
    cellsAt ins' n = cellsAt ins n := by
  have hreplay : ∀ k ≤ n, replay ins' k = replay ins k := fun k hk => by
    unfold replay
    rw [h k hk]
  unfold cellsAt
  rw [hreplay n (Nat.le_refl n), ago_congr hreplay]

/-- Where there is no input it is an idle one. -/
theorem replay_none {ins : ℕ → Option (ℕ × ℕ)} {n : ℕ} (h : ins n = none) :
    replay ins n = idleInput := by
  unfold replay
  rw [h]
  rfl

/-- Where there is one it is this. -/
theorem replay_some {ins : ℕ → Option (ℕ × ℕ)} {n : ℕ} {v : ℕ × ℕ} (h : ins n = some v) :
    replay ins n = v := by
  unfold replay
  rw [h]
  rfl

/-- Controller cells are bytes. -/
theorem controller_lt (c : Cpu) : (controller c).1 < 256 ∧ (controller c).2 < 256 :=
  ⟨c.mem.cell_lt EXEC_IN_L 8 rfl, c.mem.cell_lt EXEC_KP_L 8 rfl⟩

/-- A slot is that of any tick a lap away. -/
theorem slotInput_mod (c : Cpu) (seat : ℕ) {i j : ℕ} (h : i % 256 = j % 256) :
    slotInput c seat i = slotInput c seat j := by
  unfold slotInput ringSlot keypadSlot
  rw [h]

/-! ### The relation -/

/-- The machine of a seat whose node is `n`: the inputs of its own seat are `own`, those of the other
seat `peer`. -/
structure AtNode (d seat : ℕ) (n : Node) (own peer : ℕ → Option (ℕ × ℕ)) (c : Cpu) : Prop where
  mine : c.cell NET_SEAT = seat
  count : c.cell NET_COUNT = 2
  active : c.cell NET_ACTIVE ≠ 0
  delay : c.cell NET_DELAY = d
  tick : tickWord c = n.tick % 65536
  mark : seatWm c (1 - seat) = (n.mark + 65535) % 65536
  ownRing : Holds idleInput (slotInput c seat) 256 (replay own) (n.top - 1)
  peerRing : Holds idleInput (slotInput c (1 - seat)) 256 (replay peer) (n.mark - 1)

section Machine

variable {d seat : ℕ} {n : Node} {own peer : ℕ → Option (ℕ × ℕ)} {c c' : Cpu}

/-- A slot is among the cells of the gate and the rings. -/
theorem slotInput_sync {x : ℕ} (hx : x ≤ 3) (heq : ∀ a ∈ SyncCells, c'.cell a = c.cell a) (j : ℕ) :
    slotInput c' x j = slotInput c x j := by
  unfold slotInput
  rw [heq _ (slot_sync hx j).1, heq _ (slot_sync hx j).2]

namespace AtNode

/-- Whatever leaves the cells of the gate and the rings alone leaves the machine at its node. -/
theorem congr (h : AtNode d seat n own peer c) (hs : seat < 2)
    (heq : ∀ a ∈ SyncCells, c'.cell a = c.cell a) : AtNode d seat n own peer c' := by
  refine ⟨?_, ?_, ?_, ?_, ?_, ?_, ?_, ?_⟩
  · rw [heq _ (match_sync (by simp))]
    exact h.mine
  · rw [heq _ (match_sync (by simp))]
    exact h.count
  · rw [heq _ (match_sync (by simp))]
    exact h.active
  · rw [heq _ (match_sync (by simp))]
    exact h.delay
  · rw [tickWord_sync heq]
    exact h.tick
  · rw [seatWm_sync heq (by omega)]
    exact h.mark
  · exact h.ownRing.congr (fun j _ => slotInput_sync (by omega) heq j) fun _ _ => rfl
  · exact h.peerRing.congr (fun j _ => slotInput_sync (by omega) heq j) fun _ _ => rfl

/-- The tick, the top and the mark of the node are all that matters, and the inputs below
them. -/
theorem same (h : AtNode d seat n own peer c) {n' : Node} {own' peer' : ℕ → Option (ℕ × ℕ)}
    (ht : n'.tick = n.tick) (htop : n'.top = n.top) (hm : n'.mark = n.mark)
    (ho : ∀ k ≤ n.top - 1, own' k = own k) (hp : ∀ k ≤ n.mark - 1, peer' k = peer k) :
    AtNode d seat n' own' peer' c := by
  refine ⟨h.mine, h.count, h.active, h.delay, ?_, ?_, ?_, ?_⟩
  · rw [ht]
    exact h.tick
  · rw [hm]
    exact h.mark
  · rw [htop]
    refine h.ownRing.congr (fun _ _ => rfl) fun k hk => ?_
    unfold replay
    rw [ho k hk]
  · rw [hm]
    refine h.peerRing.congr (fun _ _ => rfl) fun k hk => ?_
    unfold replay
    rw [hp k hk]

/-- An input of its own that was left out, with nothing before it in the ring. -/
theorem skip (h : AtNode d seat n own peer c) (h1 : 1 ≤ n.top)
    (hidle : ∀ k ≤ n.top, own k = none) :
    AtNode d seat { n with top := n.top + 1 } own peer c := by
  refine ⟨h.mine, h.count, h.active, h.delay, h.tick, h.mark, ?_, h.peerRing⟩
  have hskip := h.ownRing.skip (by decide) (replay_none (hidle _ (by omega)))
    (ago_idle (fun k hk => replay_none (hidle k (by omega))) _)
  simp only
  rwa [Nat.sub_add_cancel h1] at hskip

/-- Capturing moves the top. -/
theorem capture (h : AtNode d seat n own peer c) (hs : seat < 2) (h1 : 1 ≤ n.top)
    (htop : n.top = n.tick + d) {own' : ℕ → Option (ℕ × ℕ)} (ho : ∀ k < n.top, own' k = own k)
    (hv : own' n.top = some (controller c)) :
    AtNode d seat { n with top := n.tick + d + 1, sent := true } own' peer (captureSend c) := by
  have hcap := captured c (by rw [h.mine]; omega)
  have hring := hcap.ring
  have hkeypad := hcap.keypad
  rw [h.mine, h.tick, h.delay] at hring hkeypad
  have hkeep : ∀ a ∈ SyncCells, a ∉ RingPages → (captureSend c).cell a = c.cell a := fun a ha hr =>
    hcap.match_eq (sync_match ha) hr
  have hmatch : ∀ {a}, a = NET_SEAT ∨ a = NET_COUNT ∨ a = NET_ACTIVE ∨ a = NET_DELAY →
      (captureSend c).cell a = c.cell a := by
    intro a ha
    apply hkeep a (match_sync ha)
    rcases ha with rfl | rfl | rfl | rfl <;> simp [RingPages]
  have htick : tickWord (captureSend c) = tickWord c := by
    unfold tickWord word
    rw [hkeep TICK_LO (Or.inl (Or.inl (by simp))) (by simp [RingPages]),
      hkeep TICK_HI (Or.inl (Or.inl (by simp))) (by simp [RingPages])]
  have hwm : seatWm (captureSend c) (1 - seat) = seatWm c (1 - seat) := by
    refine seatWm_congr (fun a ha => hkeep a (Or.inl (Or.inr ha)) ?_) (by omega)
    intro hr
    have h2 : 0x8400 ≤ a := hr.1
    have h3 : a < 0x81A8 := ha.2
    omega
  have hslot : ∀ x ≤ 1, ∀ j < 256, slotInput (captureSend c) x j =
      if x = seat ∧ j = n.top % 256 then controller c else slotInput c x j := by
    intro x hx j hj
    have hr := hring (256 * x + j) (by omega)
    have hk := hkeypad (256 * x + j) (by omega)
    have hlt := controller_lt c
    unfold slotInput ringSlot keypadSlot
    rw [Nat.mod_eq_of_lt hj, Nat.add_assoc, Nat.add_assoc, hr, hk]
    by_cases hx' : x = seat ∧ j = n.top % 256
    · rw [if_pos (by omega), if_pos (by omega), if_pos hx']
      exact Prod.ext (Nat.mod_eq_of_lt hlt.1) (Nat.mod_eq_of_lt hlt.2)
    · rw [if_neg (by omega), if_neg (by omega), if_neg hx']
  refine ⟨?_, ?_, ?_, ?_, ?_, ?_, ?_, ?_⟩
  · rw [hmatch (by simp)]
    exact h.mine
  · rw [hmatch (by simp)]
    exact h.count
  · rw [hmatch (by simp)]
    exact h.active
  · rw [hmatch (by simp)]
    exact h.delay
  · rw [htick]
    exact h.tick
  · rw [hwm]
    exact h.mark
  · have hold := h.ownRing.congr (g := replay own') (fun _ _ => rfl) fun k hk => by
      unfold replay
      rw [ho k (by omega)]
    have hput : Holds idleInput (slotInput (captureSend c) seat) 256 (replay own')
        (n.top - 1 + 1) := hold.put fun j hj => by
      rw [hslot seat (by omega) j hj, Nat.sub_add_cancel h1, replay_some hv]
      simp only [true_and]
    rw [Nat.sub_add_cancel h1] at hput
    simp only
    rwa [htop] at hput
  · refine h.peerRing.congr (fun j hj => ?_) fun _ _ => rfl
    rw [hslot (1 - seat) (by omega) j hj, if_neg (by omega)]

/-- Storing an input of the other seat moves the mark. -/
theorem store (h : AtNode d seat n own peer c) (hs : seat < 2) {m : ℕ} (h1 : 1 ≤ m)
    (hin : InputStored c c' (1 - seat) (m % 65536))
    (hv : peer m = some (c.cell (FRMBUF + 5), c.cell (FRMBUF + 6)))
    (hold : Holds idleInput (slotInput c (1 - seat)) 256 (replay peer) (m - 1)) :
    AtNode d seat { n with mark := m + 1 } own peer c' := by
  have hoff : ∀ a, a < 0x8400 → a < 0x81A0 ∨ 0x81A8 ≤ a → c'.cell a = c.cell a := by
    intro a h2 h3
    apply hin.frame.cell_eq
    simp only [InputCells, ringSlot, keypadSlot, SEAT_RING, SEAT_KP, SEAT_WM]
    rintro (hx | hx | hx | hx) <;> omega
  have htick : tickWord c' = tickWord c := by
    unfold tickWord word
    rw [hoff TICK_LO (by decide) (by decide), hoff TICK_HI (by decide) (by decide)]
  have hslot : ∀ x ≤ 1, ∀ j < 256, slotInput c' x j =
      if x = 1 - seat ∧ j = m % 256 then (c.cell (FRMBUF + 5), c.cell (FRMBUF + 6))
      else slotInput c x j := by
    intro x hx j hj
    by_cases hx' : x = 1 - seat ∧ j = m % 256
    · rw [if_pos hx', ← hin.ring, ← hin.keypad]
      unfold slotInput ringSlot keypadSlot
      rw [hx'.1, hx'.2, show m % 65536 % 256 = m % 256 % 256 by omega]
    · rw [if_neg hx']
      unfold slotInput
      rw [hin.frame.cell_eq, hin.frame.cell_eq] <;>
        simp only [InputCells, ringSlot, keypadSlot, SEAT_RING, SEAT_KP, SEAT_WM] <;>
        rintro (hy | hy | hy | hy) <;> omega
  refine ⟨?_, ?_, ?_, ?_, ?_, ?_, ?_, ?_⟩
  · rw [hoff _ (by decide) (by decide)]
    exact h.mine
  · rw [hoff _ (by decide) (by decide)]
    exact h.count
  · rw [hoff _ (by decide) (by decide)]
    exact h.active
  · rw [hoff _ (by decide) (by decide)]
    exact h.delay
  · rw [htick]
    exact h.tick
  · rw [hin.watermark]
    simp only
    omega
  · refine h.ownRing.congr (fun j hj => ?_) fun _ _ => rfl
    rw [hslot seat (by omega) j hj, if_neg (by omega)]
  · have hput : Holds idleInput (slotInput c' (1 - seat)) 256 (replay peer) (m - 1 + 1) :=
      hold.put fun j hj => by
      rw [hslot (1 - seat) (by omega) j hj, Nat.sub_add_cancel h1, replay_some hv]
      simp only [true_and]
    rwa [Nat.sub_add_cancel h1] at hput

/-- A tick that has run. -/
theorem tickEnd (h : AtNode d seat n own peer c) (hs : seat < 2) (he : TickEnd c c')
    (sent ended : Bool) :
    AtNode d seat ⟨n.epoch, n.tick + 1, n.top, n.mark, sent, ended⟩ own peer c' := by
  have hkeep : ∀ a ∈ SyncCells, a ≠ TICK_LO → a ≠ TICK_HI → c'.cell a = c.cell a := he.kept
  have hmatch : ∀ {a}, a = NET_SEAT ∨ a = NET_COUNT ∨ a = NET_ACTIVE ∨ a = NET_DELAY →
      c'.cell a = c.cell a := by
    intro a ha
    apply hkeep a (match_sync ha) <;> rcases ha with rfl | rfl | rfl | rfl <;> decide
  have hslot : ∀ x ≤ 1, ∀ j, slotInput c' x j = slotInput c x j := by
    intro x hx j
    unfold slotInput
    rw [hkeep _ (slot_sync (by omega) j).1, hkeep _ (slot_sync (by omega) j).2] <;>
      simp only [ringSlot, keypadSlot, SEAT_RING, SEAT_KP, TICK_LO, TICK_HI] <;> omega
  have hwm : seatWm c' (1 - seat) = seatWm c (1 - seat) := by
    refine seatWm_congr (fun a ha => hkeep a (Or.inl (Or.inr ha)) ?_ ?_) (by omega) <;>
      (rintro rfl; simp [Watermarks] at ha)
  refine ⟨?_, ?_, ?_, ?_, ?_, ?_, ?_, ?_⟩
  · rw [hmatch (by simp)]
    exact h.mine
  · rw [hmatch (by simp)]
    exact h.count
  · rw [hmatch (by simp)]
    exact h.active
  · rw [hmatch (by simp)]
    exact h.delay
  · rw [he.tick, h.tick]
    simp only
    omega
  · rw [hwm]
    exact h.mark
  · exact h.ownRing.congr (fun j _ => hslot seat (by omega) j) fun _ _ => rfl
  · exact h.peerRing.congr (fun j _ => hslot (1 - seat) (by omega) j) fun _ _ => rfl

/-- What a dispatch of the other seat reads, with the mark past the tick, but less than a lap. -/
theorem reads_peer (h : AtNode d seat n own peer c) (h1 : n.tick < n.mark)
    (h2 : n.mark < n.tick + 256) :
    slotInput c (1 - seat) (tickWord c) = replay peer n.tick ∧
      slotInput c (1 - seat) (tickWord c + 255) = ago idleInput (replay peer) n.tick 1 := by
  have ht := h.tick
  constructor
  · rw [slotInput_mod c (1 - seat) (show tickWord c % 256 = n.tick % 256 % 256 by omega)]
    exact h.peerRing.read (by omega) (by omega)
  · rw [slotInput_mod c (1 - seat)
      (show (tickWord c + 255) % 256 = (n.tick + 256 - 1) % 256 % 256 by omega)]
    exact h.peerRing.read_prev (by omega) (by omega)

/-- What a dispatch of its own seat reads. -/
theorem reads_own (h : AtNode d seat n own peer c) (h1 : n.tick < n.top)
    (h2 : n.top < n.tick + 256) :
    slotInput c seat (tickWord c) = replay own n.tick ∧
      slotInput c seat (tickWord c + 255) = ago idleInput (replay own) n.tick 1 := by
  have ht := h.tick
  constructor
  · rw [slotInput_mod c seat (show tickWord c % 256 = n.tick % 256 % 256 by omega)]
    exact h.ownRing.read (by omega) (by omega)
  · rw [slotInput_mod c seat
      (show (tickWord c + 255) % 256 = (n.tick + 256 - 1) % 256 % 256 by omega)]
    exact h.ownRing.read_prev (by omega) (by omega)

/-- The cells of either seat. -/
theorem cells_peer (h : AtNode d seat n own peer c) (h1 : n.tick < n.mark)
    (h2 : n.mark < n.tick + 256) : seatCells c (1 - seat) (tickWord c) = cellsAt peer n.tick := by
  obtain ⟨hcur, hprev⟩ := h.reads_peer h1 h2
  unfold cellsAt
  rw [← hcur, ← hprev]
  rfl

/-- What a dispatch reads of a node's own seat are its own inputs, as long as the tick has been captured. -/
theorem cells_own (h : AtNode d seat n own peer c) (h1 : n.tick < n.top)
    (h2 : n.top < n.tick + 256) : seatCells c seat (tickWord c) = cellsAt own n.tick := by
  obtain ⟨hcur, hprev⟩ := h.reads_own h1 h2
  unfold cellsAt
  rw [← hcur, ← hprev]
  rfl

/-- An open gate is past the tick, and a shut one is not. -/
theorem opened (h : AtNode d seat n own peer c) (hs : seat < 2) (ho : gateOpen c = true)
    (hd : c.cell NET_DROPPED = 0) (h1 : n.tick ≤ n.mark) (h2 : n.mark ≤ n.tick + 256) :
    n.tick < n.mark := by
  have hcount := h.count
  have hmine := h.mine
  have hreach : sub16 (seatWm c (1 - seat)) (tickWord c) < 32768 :=
    gateOpen_reached ho hd (by omega) (by omega)
  rw [h.mark, h.tick] at hreach
  unfold sub16 at hreach
  omega

/-- A gate that is shut waits for an input of the other seat. -/
theorem shut (h : AtNode d seat n own peer c) (hs : seat < 2) (ho : gateOpen c = false)
    (h2 : n.mark ≤ n.tick + 256) : n.mark ≤ n.tick := by
  by_contra hlt
  have hready : seatReady c (1 - seat) = true := by
    have heq : seatReady c (1 - seat) = decide (sub16 (seatWm c (1 - seat)) (tickWord c) < 32768) :=
      rfl
    rw [heq, h.mark, h.tick, decide_eq_true_eq]
    unfold sub16
    omega
  have hall : seatsReady c = true := by
    unfold seatsReady
    rw [h.count, h.mine, List.all_eq_true]
    intro x hx
    have hx' : x < 2 := List.mem_range.mp hx
    by_cases heq : x = seat
    · simp [heq]
    · rw [show x = 1 - seat by omega, hready, Bool.or_true]
  unfold gateOpen at ho
  rw [hall, Bool.or_true] at ho
  cases ho

end AtNode

/-- Idle rings hold idle inputs. -/
theorem slotInput_idle (hr : IdleRings c) {x : ℕ} (hx : x ≤ 3) (j : ℕ) :
    slotInput c x j = idleInput := by
  have h1 := hr.ring (256 * x + j % 256) (by omega)
  have h2 := hr.keypad (256 * x + j % 256) (by omega)
  unfold slotInput ringSlot keypadSlot
  rw [Nat.add_assoc, Nat.add_assoc, h1, h2]
  rfl

/-- A baseline at tick `r` with idle rings, before anything is captured for it. -/
theorem atNode_idle {r : ℕ} (hs : seat < 2) (h1 : c.cell NET_SEAT = seat) (h2 : c.cell NET_COUNT = 2)
    (h3 : c.cell NET_ACTIVE ≠ 0) (h4 : c.cell NET_DELAY = d) (hr : IdleRings c)
    (ht : tickWord c = r % 65536)
    (hw : seatWm c (1 - seat) = (r + d + 65535) % 65536) (e : ℕ) (sent ended : Bool)
    (ho : ∀ k < r + d, own k = none) (hp : ∀ k < r + d, peer k = none) (hd : 1 ≤ r + d) :
    AtNode d seat ⟨e, r, r + d, r + d, sent, ended⟩ own peer c := by
  refine ⟨h1, h2, h3, h4, ht, hw, ?_, ?_⟩
  · exact Holds.ofIdle (fun j _ => slotInput_idle hr (by omega) j) fun k hk =>
      replay_none (ho k (by simp only at hk; omega))
  · exact Holds.ofIdle (fun j _ => slotInput_idle hr (by omega) j) fun k hk =>
      replay_none (hp k (by simp only at hk; omega))

end Machine

end BoxingNetplay.Analysis
