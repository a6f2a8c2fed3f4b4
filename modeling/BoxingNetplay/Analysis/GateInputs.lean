import BoxingNetplay.Analysis.HalfImage
import BoxingNetplay.Analysis.HostPush
import BoxingNetplay.Analysis.LocalInput
import BoxingNetplay.Interface.Inputs
import BoxingNetplay.Interface.Start

/-!
# The gate and the inputs that were stored

The watermark of a seat is the newest tick an input of that seat came for, and the gate looks at nothing
else.  As long as every stored input continues its seat's sequence the newest tick stands for
all of them, and a tick runs on the inputs that were sent for it; an input that skips a tick opens
the gate for the tick it skipped as well.
-/

set_option autoImplicit false

namespace BoxingNetplay.Analysis

open BoxingNetplay.Library
open BoxingNetplay.Model
open BoxingNetplay.Interface

/-! ### What was stored -/

/-- An input that was stored: its seat and tick, and the two bytes that went to the rings. -/
structure Stored where
  seat : ℕ
  tick : ℕ
  value : ℕ
  keypad : ℕ

/-- What an observer of a match notes: the tick of the last baseline, how many ticks have run
since, and the inputs stored since. -/
structure MatchLog where
  base : ℕ
  age : ℕ
  inputs : List Stored

/-- The log of a new baseline. -/
def MatchLog.fresh (base : ℕ) : MatchLog := ⟨base, 0, []⟩

/-- The input in the frame buffer. -/
def heldInput (d : Cpu) : Stored :=
  ⟨d.cell (FRMBUF + 2), inputTick d, d.cell (FRMBUF + 5), d.cell (FRMBUF + 6)⟩

/-- The frame in the buffer is an input that `of_input` stores. -/
def StoresInput (d : Cpu) : Prop := d.cell (FRMBUF + 1) = FT_INPUT ∧ inputAccepted d

instance (d : Cpu) : Decidable (StoresInput d) := by
  unfold StoresInput inputAccepted
  infer_instance

/-- The log after the frame in the buffer is handled. -/
def MatchLog.note (g : MatchLog) (d : Cpu) : MatchLog :=
  if StoresInput d then { g with inputs := heldInput d :: g.inputs }
  else if Rebases d then .fresh (word d RS_R_LO RS_R_HI) else g

instance (c : Cpu) : Decidable (Pushes c) := inferInstanceAs (Decidable (_ ∧ _))

/-- The log after a tick, whose end may push and re-baseline. -/
def MatchLog.ticked (g : MatchLog) (game : Game) (c : Cpu) : MatchLog :=
  let e := countUp (tickBody game c) TICK_LO TICK_HI
  if Pushes e then .fresh (pushTick e) else { g with age := g.age + 1 }

/-! ### Runs -/

/-- A START of a match in the frame buffer.
SOURCE: session.asm:681-725 -/
structure OpensMatch (c : Cpu) : Prop where
  type : c.cell (FRMBUF + 1) = FT_START
  length : 38 ≤ c.cell FRMBUF
  seat : c.cell (FRMBUF + 2) ≤ 3
  count : c.cell (FRMBUF + 3) ≤ 4
  delay : 1 ≤ c.cell (FRMBUF + 6) ∧ c.cell (FRMBUF + 6) ≤ 127

/-- A frame handled during a match, whose stored inputs satisfy `Q`. -/
def InPlay (Q : Cpu → Prop) (d : Cpu) : Prop :=
  d.cell (FRMBUF + 1) ≠ FT_START ∧ (StoresInput d → Q d)

/-- From the START to the first pass: the rest of its pump, the pumps under the roster, and code that
leaves the match alone.
SOURCE: session.asm:285-321, 1040-1062, hook.asm:104-145 -/
inductive Handover (Q : Cpu → Prop) : Cpu → MatchLog → Prop where
  | start (c : Cpu) (h : OpensMatch c) : Handover Q (of_start c) (.fresh 0)
  | pump {c c' : Cpu} {g : MatchLog} {ds : List Cpu} (h : Handover Q c g) (hp : Handles SES_ONFRAME c ds c')
      (hq : ∀ d ∈ ds, InPlay Q d) : Handover Q c' (ds.foldl MatchLog.note g)
  | quiet {c c' : Cpu} {g : MatchLog} (h : Handover Q c g)
      (heq : ∀ a ∈ MatchCells, c'.cell a = c.cell a) : Handover Q c' g

/-- A match of a console, whatever its polls deliver, with the observer's log.
SOURCE: hook.asm:9-41, lockstep.asm:8-380 -/
inductive PlayedMatch (Q : Cpu → Prop) : Console → MatchLog → Prop where
  | begin {c : Cpu} {g : MatchLog} (h : Handover Q c g) : PlayedMatch Q ⟨c, .pass⟩ g
  | step {k : Console} {g : MatchLog} (h : PlayedMatch Q k g) (o : Outside)
      (hq : ∀ d ∈ dispatched k o, InPlay Q d) :
      PlayedMatch Q (k.step o)
        (if k.phase = .run then g.ticked o.game k.cpu else (dispatched k o).foldl MatchLog.note g)

/-- The tick the counter is at is answered: for every remote seat it is one of the first after
the baseline, or an input for it was stored since and is still in its slots. -/
structure Answered (c : Cpu) (g : MatchLog) : Prop where
  tick : tickWord c = (g.base + g.age) % 65536
  seats : ∀ seat < c.cell NET_COUNT, seat ≠ c.cell NET_SEAT → g.age < c.cell NET_DELAY ∨
    ∃ i ∈ g.inputs, i.seat = seat ∧ i.tick = tickWord c ∧
      c.cell (ringSlot seat i.tick) = i.value ∧ c.cell (keypadSlot seat i.tick) = i.keypad

/-- The input in the buffer is for the tick after its seat's watermark, and less than a ring ahead of the
tick counter. -/
def Continues (d : Cpu) : Prop := inputAhead d = 1 ∧ sub16 (inputTick d) (tickWord d) < 256

/-! ### The cells involved -/

/-- The cells the gate and the rings are made of. -/
def SyncCells : Set ℕ :=
  {a | a = NET_SEAT ∨ a = NET_DELAY ∨ a = NET_ACTIVE ∨ a = NET_DROPPED ∨ a = NET_COUNT ∨
    a = TICK_LO ∨ a = TICK_HI} ∪ Watermarks ∪ RingPages

theorem sync_match : SyncCells ⊆ MatchCells := by
  rintro a (((h | h | h | h | h | h | h) | h) | h)
  · exact Or.inl (Or.inl (Or.inl (by simp [h])))
  · exact Or.inl (Or.inl (Or.inl (by simp [h])))
  · exact Or.inl (Or.inl (Or.inl (by simp [h])))
  · exact Or.inl (Or.inl (Or.inl (by simp [h])))
  · exact Or.inl (Or.inl (Or.inl (by simp [h])))
  · exact Or.inl (Or.inl (Or.inl (by simp [h])))
  · exact Or.inl (Or.inl (Or.inl (by simp [h])))
  · exact Or.inl (Or.inl (Or.inr h))
  · exact Or.inl (Or.inr h)

/-- Those cells by address. -/
theorem sync_cases {a : ℕ} (h : a ∈ SyncCells) :
    (0x8160 ≤ a ∧ a ≤ 0x8163) ∨ a = 0x819D ∨ a = 0x8108 ∨ a = 0x8109 ∨
      (0x81A0 ≤ a ∧ a < 0x81A8) ∨ (0x8400 ≤ a ∧ a < 0x8C00) := by
  have hcases : (a = 0x8160 ∨ a = 0x8161 ∨ a = 0x8162 ∨ a = 0x8163 ∨ a = 0x819D ∨ a = 0x8108 ∨
      a = 0x8109) ∨ (0x81A0 ≤ a ∧ a < 0x81A8) ∨ (0x8400 ≤ a ∧ a < 0x8C00) := by
    rcases h with (h | h) | h
    · exact Or.inl h
    · exact Or.inr (Or.inl h)
    · exact Or.inr (Or.inr h)
  omega

/-- The pump around its dispatches stores to none of them. -/
theorem sync_not_pump {a : ℕ} (h : a ∈ SyncCells) : a ∉ PumpArea := by
  have hcases := sync_cases h
  rintro ((hm | hr) | hf)
  · exact match_not_mailbox (sync_match h) hm
  · have : a = 0x8134 ∨ a = 0x8135 ∨ (0x8200 ≤ a ∧ a < 0x8300) := hr
    omega
  · have : a = 0x8180 ∨ (0x8300 ≤ a ∧ a < 0x8380) := hf
    omega

/-- Nor does a CRC or RESYNC frame. -/
theorem sync_not_request {a : ℕ} (h : a ∈ SyncCells) :
    a ∉ {a | a = RS_PEND ∨ a = RS_PTMO} ∪ MailboxArea := by
  have hcases := sync_cases h
  rintro (hr | hm)
  · have : a = 0x8187 ∨ a = 0x8188 := hr
    omega
  · exact match_not_mailbox (sync_match h) hm

/-- Nor does a STATE frame that does not re-baseline. -/
theorem sync_not_state {a : ℕ} (h : a ∈ SyncCells) :
    a ∉ BeginArea ∪ ApplyArea ∪ {a | a = DIAG_REJ} := by
  have hcases := sync_cases h
  rintro (((hb | hc) | ha) | hr)
  · have : a = 0x8090 ∨ a = 0x8093 ∨ a = 0x8094 ∨ a = 0x8091 ∨ a = 0x8092 := hb
    omega
  · have : 0x8C00 ≤ a := hc.1
    omega
  · exact match_not_apply (sync_match h) ha
  · have : a = 0x8181 := hr
    omega

/-! ### The invariant -/

/-- The inputs of a remote seat are stored up to `n` ticks after the baseline, and those still to run
are in their slots. -/
structure Level (c : Cpu) (g : MatchLog) (seat n : ℕ) : Prop where
  first : c.cell NET_DELAY ≤ n
  watermark : seatWm c seat = (g.base + n + 65535) % 65536
  reached : g.age ≤ n
  near : n ≤ g.age + 256
  stored : ∀ m, c.cell NET_DELAY ≤ m → g.age ≤ m → m < n → ∃ i ∈ g.inputs, i.seat = seat ∧
    i.tick = (g.base + m) % 65536 ∧ c.cell (ringSlot seat i.tick) = i.value ∧
      c.cell (keypadSlot seat i.tick) = i.keypad

/-- A console in a match, and as long as nobody left, where its counters are. -/
structure Synced (c : Cpu) (g : MatchLog) : Prop where
  seat : c.cell NET_SEAT ≤ 3
  count : c.cell NET_COUNT ≤ 4
  active : c.cell NET_ACTIVE ≠ 0
  delay : 1 ≤ c.cell NET_DELAY ∧ c.cell NET_DELAY ≤ 127
  tick : c.cell NET_DROPPED = 0 → tickWord c = (g.base + g.age) % 65536
  level : c.cell NET_DROPPED = 0 → ∀ seat < c.cell NET_COUNT, seat ≠ c.cell NET_SEAT →
    ∃ n, Level c g seat n

theorem slot_sync {seat : ℕ} (hs : seat ≤ 3) (tick : ℕ) :
    ringSlot seat tick ∈ SyncCells ∧ keypadSlot seat tick ∈ SyncCells := by
  obtain ⟨h1, h2, h3⟩ := slots_range hs tick
  refine ⟨Or.inr ⟨?_, ?_⟩, Or.inr ⟨?_, ?_⟩⟩ <;> simp only [SEAT_RING] <;> omega

section Frames

variable {c c' : Cpu} {g : MatchLog}

/-- The parts of a match that stay through it. -/
structure SameMatch (c c' : Cpu) : Prop where
  seat : c'.cell NET_SEAT = c.cell NET_SEAT
  count : c'.cell NET_COUNT = c.cell NET_COUNT
  active : c'.cell NET_ACTIVE = c.cell NET_ACTIVE
  delay : c'.cell NET_DELAY = c.cell NET_DELAY

/-- They are four cells. -/
theorem sameMatch_of_cells (h : ∀ a, a = NET_SEAT ∨ a = NET_COUNT ∨ a = NET_ACTIVE ∨ a = NET_DELAY →
    c'.cell a = c.cell a) : SameMatch c c' :=
  ⟨h _ (Or.inl rfl), h _ (Or.inr (Or.inl rfl)), h _ (Or.inr (Or.inr (Or.inl rfl))),
    h _ (Or.inr (Or.inr (Or.inr rfl)))⟩

/-- A seat whose watermark and slots are kept keeps its level. -/
theorem Level.congr {seat n : ℕ} (h : Level c g seat n)
    (hd : c'.cell NET_DELAY = c.cell NET_DELAY) (hw : seatWm c' seat = seatWm c seat)
    (hr : ∀ tick, c'.cell (ringSlot seat tick) = c.cell (ringSlot seat tick) ∧
      c'.cell (keypadSlot seat tick) = c.cell (keypadSlot seat tick)) : Level c' g seat n := by
  refine ⟨?_, ?_, h.reached, h.near, fun m h1 h2 h3 => ?_⟩
  · rw [hd]
    exact h.first
  · rw [hw]
    exact h.watermark
  · rw [hd] at h1
    obtain ⟨i, hi, h4, h5, h6, h7⟩ := h.stored m h1 h2 h3
    exact ⟨i, hi, h4, h5, (hr i.tick).1.trans h6, (hr i.tick).2.trans h7⟩

/-- The watermark of one of the four seats is in the cells of the gate. -/
theorem seatWm_sync (h : ∀ a ∈ SyncCells, c'.cell a = c.cell a) {seat : ℕ} (hs : seat ≤ 3) :
    seatWm c' seat = seatWm c seat :=
  seatWm_congr (fun a ha => h a (Or.inl (Or.inr ha))) (by omega)

/-- Whatever leaves the cells of the gate alone keeps the invariant. -/
theorem Synced.congr (h : Synced c g) (heq : ∀ a ∈ SyncCells, c'.cell a = c.cell a) :
    Synced c' g := by
  have hv : ∀ {a}, a = NET_SEAT ∨ a = NET_DELAY ∨ a = NET_ACTIVE ∨ a = NET_DROPPED ∨ a = NET_COUNT ∨
      a = TICK_LO ∨ a = TICK_HI → c'.cell a = c.cell a := fun ha => heq _ (Or.inl (Or.inl ha))
  have hseat := hv (a := NET_SEAT) (by simp)
  have hcount := hv (a := NET_COUNT) (by simp)
  have hdelay := hv (a := NET_DELAY) (by simp)
  have hdrop := hv (a := NET_DROPPED) (by simp)
  refine ⟨?_, ?_, ?_, ?_, fun hd => ?_, fun hd seat h1 h2 => ?_⟩
  · rw [hseat]
    exact h.seat
  · rw [hcount]
    exact h.count
  · rw [hv (by simp)]
    exact h.active
  · rw [hdelay]
    exact h.delay
  · unfold tickWord word
    rw [hv (a := TICK_LO) (by simp), hv (a := TICK_HI) (by simp)]
    exact h.tick (hdrop ▸ hd)
  · rw [hcount] at h1
    rw [hseat] at h2
    have hcnt := h.count
    have hs : seat ≤ 3 := by omega
    obtain ⟨n, hn⟩ := h.level (hdrop ▸ hd) seat h1 h2
    exact ⟨n, hn.congr hdelay (seatWm_sync heq hs) fun tick =>
      ⟨heq _ (slot_sync hs tick).1, heq _ (slot_sync hs tick).2⟩⟩

/-- A match that is over claims nothing more. -/
theorem Synced.over (h : Synced c g) (hm : SameMatch c c') (hd : c'.cell NET_DROPPED ≠ 0)
    (g' : MatchLog) : Synced c' g' :=
  ⟨hm.seat ▸ h.seat, hm.count ▸ h.count, hm.active ▸ h.active, hm.delay ▸ h.delay,
    fun h0 => absurd h0 hd, fun h0 => absurd h0 hd⟩

/-- A new baseline: the inputs that are not sent for it reach up to the delay. -/
theorem synced_fresh {base : ℕ} (hs : c'.cell NET_SEAT ≤ 3) (hn : c'.cell NET_COUNT ≤ 4)
    (ha : c'.cell NET_ACTIVE ≠ 0) (hd : 1 ≤ c'.cell NET_DELAY ∧ c'.cell NET_DELAY ≤ 127)
    (ht : tickWord c' = base % 65536)
    (hw : ∀ seat < 4, seatWm c' seat = (base + c'.cell NET_DELAY + 65535) % 65536) :
    Synced c' (.fresh base) := by
  refine ⟨hs, hn, ha, hd, fun _ => ht, fun _ seat h1 _ => ⟨c'.cell NET_DELAY, ?_⟩⟩
  exact ⟨le_rfl, hw seat (by omega), Nat.zero_le _, by simp only [MatchLog.fresh]; omega,
    fun m h1 _ h2 => absurd h1 (Nat.not_le.mpr h2)⟩

/-- A re-baseline starts over at the agreed tick. -/
theorem Synced.rebase {d : Cpu} (h : Synced c g) (hm : SameMatch c d) :
    Synced (RS_REBASE d) (.fresh (word d RS_R_LO RS_R_HI)) := by
  have hr := rebased d
  have hkeep : ∀ a, a = NET_SEAT ∨ a = NET_COUNT ∨ a = NET_ACTIVE ∨ a = NET_DELAY →
      (RS_REBASE d).cell a = d.cell a := by
    intro a ha
    refine hr.frame.cell_eq ?_
    rcases ha with rfl | rfl | rfl | rfl <;>
      simp [RebaseArea, DisplayArea, ResyncVars, RingPages, Watermarks, CrcRecords]
  have hm' := sameMatch_of_cells hkeep
  apply synced_fresh
  · rw [hm'.seat, hm.seat]
    exact h.seat
  · rw [hm'.count, hm.count]
    exact h.count
  · rw [hm'.active, hm.active]
    exact h.active
  · rw [hm'.delay, hm.delay]
    exact h.delay
  · rw [hr.tick, Nat.mod_eq_of_lt (word_lt _ _ _)]
  · intro seat hs
    rw [hr.watermark seat hs, hm'.delay]

end Frames

/-- A START begins at tick 0. -/
theorem synced_start {c : Cpu} (h : OpensMatch c) : Synced (of_start c) (.fresh 0) := by
  have hs := started c h.length
  have hd := h.delay
  apply synced_fresh
  · rw [hs.seat]
    exact h.seat
  · rw [hs.count]
    exact h.count
  · rw [hs.active]
    exact one_ne_zero
  · rw [hs.delay]
    exact hd
  · unfold tickWord word
    rw [hs.tick_lo, hs.tick_hi]
  · intro seat hseat
    rw [hs.watermark seat hseat, hs.delay]
    omega

/-! ### Handling a frame -/

/-- An input that continues its seat's sequence raises its level by one. -/
theorem Synced.store {d : Cpu} {g : MatchLog} (h : Synced d g) (hst : StoresInput d)
    (hc : Continues d) : Synced (of_input d) { g with inputs := heldInput d :: g.inputs } := by
  have hcnt := h.count
  obtain ⟨-, hown, hlt, -, -⟩ := hst.2
  have hseat : d.cell (FRMBUF + 2) ≤ 3 := by omega
  have hin := of_input_stored hst.2 hseat
  have hkeep : ∀ a, a ∉ RingPages ∪ Watermarks → (of_input d).cell a = d.cell a := fun a ha =>
    (frame_of_input d fun _ => hseat).cell_eq ha
  have hm : SameMatch d (of_input d) := by
    refine sameMatch_of_cells fun a ha => hkeep a ?_
    rcases ha with rfl | rfl | rfl | rfl <;> simp [RingPages, Watermarks]
  have hdrop : (of_input d).cell NET_DROPPED = d.cell NET_DROPPED :=
    hkeep _ (by simp [RingPages, Watermarks])
  have htick : tickWord (of_input d) = tickWord d := by
    unfold tickWord word
    rw [hkeep TICK_LO (by simp [RingPages, Watermarks]),
      hkeep TICK_HI (by simp [RingPages, Watermarks])]
  refine ⟨hm.seat ▸ h.seat, hm.count ▸ h.count, hm.active ▸ h.active, hm.delay ▸ h.delay,
    fun hd => ?_, fun hd seat h1 h2 => ?_⟩
  · rw [htick]
    exact h.tick (hdrop ▸ hd)
  rw [hdrop] at hd
  rw [hm.count] at h1
  rw [hm.seat] at h2
  obtain ⟨n, hn⟩ := h.level hd seat h1 h2
  have hs : seat ≤ 3 := by omega
  by_cases heq : seat = d.cell (FRMBUF + 2)
  · -- the seat of the input: one tick more
    subst heq
    have hwm := hn.watermark
    have htw := h.tick hd
    obtain ⟨hone, hnear⟩ := hc
    have hvalue : inputTick d = (g.base + n) % 65536 := by
      have hahead : inputAhead d = sub16 (inputTick d) (seatWm d (d.cell (FRMBUF + 2))) := rfl
      have hlt : inputTick d < 65536 := word_lt _ _ _
      rw [hahead, hwm] at hone
      unfold sub16 at hone
      omega
    have hle := hn.reached
    have hnear' := hn.near
    rw [hvalue, htw] at hnear
    have hroom : n < g.age + 256 := by
      unfold sub16 at hnear
      omega
    refine ⟨n + 1, ?_, ?_, by simp only; omega, by simp only; omega, fun m h3 h4 h5 => ?_⟩
    · rw [hm.delay]
      exact Nat.le_succ_of_le hn.first
    · rw [hin.watermark, hvalue]
      simp only
      omega
    · by_cases hlast : m = n
      · refine ⟨heldInput d, List.mem_cons_self, rfl, ?_, hin.ring, hin.keypad⟩
        rw [hlast]
        exact hvalue
      · rw [hm.delay] at h3
        obtain ⟨i, hi, h6, h7, h8, h9⟩ := hn.stored m h3 h4 (by omega)
        have hne : i.tick % 256 ≠ inputTick d % 256 := by
          rw [h7, hvalue]
          simp only at h4
          omega
        have hother : ∀ a, a = ringSlot (d.cell (FRMBUF + 2)) i.tick ∨
            a = keypadSlot (d.cell (FRMBUF + 2)) i.tick → (of_input d).cell a = d.cell a := by
          intro a ha
          refine hin.frame.cell_eq ?_
          simp only [ringSlot, keypadSlot, SEAT_RING, SEAT_KP] at ha
          simp only [InputCells, ringSlot, keypadSlot, SEAT_RING, SEAT_KP, SEAT_WM]
          rintro (hx | hx | hx | hx) <;> omega
        exact ⟨i, List.mem_cons_of_mem _ hi, h6, h7, (hother _ (Or.inl rfl)).trans h8,
          (hother _ (Or.inr rfl)).trans h9⟩
  · -- the other seats have their own watermarks and pages
    have hother : ∀ a, a ∉ InputCells (d.cell (FRMBUF + 2)) (inputTick d) →
        (of_input d).cell a = d.cell a := fun a ha => hin.frame.cell_eq ha
    have hkept : Level (of_input d) g seat n := by
      refine hn.congr hm.delay ?_ fun tick => ⟨hother _ ?_, hother _ ?_⟩
      · unfold seatWm word
        rw [hother, hother] <;>
          simp only [InputCells, ringSlot, keypadSlot, SEAT_RING, SEAT_KP, SEAT_WM] <;>
            rintro (hx | hx | hx | hx) <;> omega
      · simp only [InputCells, ringSlot, keypadSlot, SEAT_RING, SEAT_KP, SEAT_WM]
        rintro (hx | hx | hx | hx) <;> omega
      · simp only [InputCells, ringSlot, keypadSlot, SEAT_RING, SEAT_KP, SEAT_WM]
        rintro (hx | hx | hx | hx) <;> omega
    refine ⟨n, hkept.first, hkept.watermark, hkept.reached, hkept.near, fun m h3 h4 h5 => ?_⟩
    obtain ⟨i, hi, hrest⟩ := hkept.stored m h3 h4 h5
    exact ⟨i, List.mem_cons_of_mem _ hi, hrest⟩

/-- Any other frame leaves the log alone. -/
theorem note_other {d : Cpu} (g : MatchLog) (h1 : ¬ StoresInput d) (h2 : ¬ Rebases d) :
    g.note d = g := by
  unfold MatchLog.note
  rw [if_neg h1, if_neg h2]

/-- A STATE frame re-baselines or leaves the gate alone. -/
theorem Synced.state {d : Cpu} {g : MatchLog} (h : Synced d g)
    (hty : d.cell (FRMBUF + 1) = FT_STATE) : Synced (RS_ON_STATE d) (g.note d) := by
  have hns : ¬ StoresInput d := by
    intro hs
    rw [hs.1] at hty
    cases hty
  by_cases hr : Rebases d
  · have heq : RS_ON_STATE d = RS_REBASE d := by
      obtain ⟨-, h1, h2, h3, h4⟩ := hr
      unfold RS_ON_STATE
      simp only [h2, h3]
      rw [if_neg (by omega), if_pos trivial, if_neg (by decide), if_pos ⟨trivial, h4⟩]
    have hnote : g.note d = .fresh (word d RS_R_LO RS_R_HI) := by
      unfold MatchLog.note
      rw [if_neg hns, if_pos hr]
    rw [heq, hnote]
    exact h.rebase ⟨rfl, rfl, rfl, rfl⟩
  · rw [note_other g hns hr]
    refine h.congr fun a ha => (frame_state_applies d fun hx => hr ?_).cell_eq (sync_not_state ha)
    exact ⟨hty, hx⟩

/-- An input is stored or refused. -/
theorem Synced.input {d : Cpu} {g : MatchLog} (h : Synced d g)
    (hty : d.cell (FRMBUF + 1) = FT_INPUT) (hc : StoresInput d → Continues d) :
    Synced (of_input d) (g.note d) := by
  by_cases hacc : inputAccepted d
  · have hnote : g.note d = { g with inputs := heldInput d :: g.inputs } := if_pos ⟨hty, hacc⟩
    rw [hnote]
    exact h.store ⟨hty, hacc⟩ (hc ⟨hty, hacc⟩)
  · have hnr : ¬ Rebases d := by
      intro hr
      rw [hr.1] at hty
      cases hty
    rw [of_input_refused hacc, note_other g (fun hs => hacc hs.2) hnr]
    exact h

/-- Every frame of a match whose stored inputs continue their sequences keeps the invariant. -/
theorem Synced.handle {d : Cpu} {g : MatchLog} (h : Synced d g) (hp : InPlay Continues d) :
    Synced (SES_ONFRAME d) (g.note d) := by
  obtain ⟨hstart, hcont⟩ := hp
  have hother : d.cell (FRMBUF + 1) ≠ FT_INPUT → d.cell (FRMBUF + 1) ≠ FT_STATE → g.note d = g :=
    fun h1 h2 => note_other g (fun hs => h1 hs.1) fun hr => h2 hr.1
  by_cases hin : d.cell (FRMBUF + 1) = FT_INPUT
  · rw [SES_ONFRAME_input hin]
    exact h.input hin hcont
  by_cases hst : d.cell (FRMBUF + 1) = FT_STATE
  · rw [SES_ONFRAME_state hst]
    exact h.state hst
  rw [hother hin hst]
  refine SES_ONFRAME_rule (P := fun c => Synced c g) d (fun hty => absurd hty hin) (fun _ => ?_)
    (fun hty => absurd hty hstart) (fun _ => ?_) (fun _ => ?_) (fun _ => ?_)
    (fun hty => absurd hty hst) (fun _ => ?_) h
  · -- lobby lists and rooms are for a console outside a match
    unfold of_lobby
    rwa [if_pos h.active]
  · have hf := frame_of_pl d
    refine h.over (sameMatch_of_cells fun a ha => hf.cell_eq ?_) ?_ g
    · rcases ha with rfl | rfl | rfl | rfl <;> simp [LeftArea, RingPages, Watermarks]
    · unfold of_pl
      rw [(frame_LS_IDLE_RMT _).cell_eq (by simp [RingPages, Watermarks])]
      simp [cellWidth]
  · unfold of_room
    rwa [if_pos h.active]
  · exact h.congr fun a ha => (frame_RS_ON_CRC d).cell_eq (sync_not_request ha)
  · exact h.congr fun a ha => (frame_RS_ON_REQ d).cell_eq fun hr => sync_not_request ha (Or.inl hr)

/-- So does a pump. -/
theorem Synced.pump {c c' : Cpu} {ds : List Cpu} {g : MatchLog} (h : Synced c g)
    (hp : Handles SES_ONFRAME c ds c') (hq : ∀ d ∈ ds, InPlay Continues d) :
    Synced c' (ds.foldl MatchLog.note g) := by
  induction hp generalizing g with
  | done hm => exact h.congr fun a ha => hm.frame.cell_eq (sync_not_pump ha)
  | hand hm _ ih =>
    have hd := h.congr fun a ha => hm.frame.cell_eq (sync_not_pump ha)
    exact ih (hd.handle (hq _ List.mem_cons_self)) fun d hd => hq d (List.mem_cons_of_mem _ hd)

/-- And all of a handover. -/
theorem synced_handover {c : Cpu} {g : MatchLog} (h : Handover Continues c g) : Synced c g := by
  induction h with
  | start c h => exact synced_start h
  | pump _ hp hq ih => exact ih.pump hp hq
  | quiet _ heq ih => exact ih.congr fun a ha => heq a (sync_match ha)

/-! ### A pass -/

/-- The wait after a pump keeps the invariant. -/
theorem Synced.wait {c c' : Cpu} {g : MatchLog} (h : Synced c g) (hw : Waited c c') :
    Synced c' g := by
  cases hw with
  | on hf _ => exact h.congr fun a ha => hf.cell_eq (match_not_wait (sync_match ha))
  | gaveUp hg =>
    refine h.over (sameMatch_of_cells fun a ha => hg.frame.cell_eq ?_) hg.dropped g
    rcases ha with rfl | rfl | rfl | rfl <;> simp [WaitArea, RingPages, Watermarks]

/-- A capture stores to our own pages. -/
theorem Synced.capture {c : Cpu} {g : MatchLog} (h : Synced c g) : Synced (captureSend c) g := by
  have hc := captured c h.seat
  have hkeep : ∀ a ∈ MatchCells, a ∉ RingPages → (captureSend c).cell a = c.cell a := fun a ha hr =>
    hc.match_eq ha hr
  have hv : ∀ {a}, a = NET_SEAT ∨ a = NET_DELAY ∨ a = NET_ACTIVE ∨ a = NET_DROPPED ∨ a = NET_COUNT ∨
      a = TICK_LO ∨ a = TICK_HI → (captureSend c).cell a = c.cell a := by
    intro a ha
    refine hkeep a (sync_match (Or.inl (Or.inl ha))) ?_
    rcases ha with rfl | rfl | rfl | rfl | rfl | rfl | rfl <;> simp [RingPages]
  have hseat := hv (a := NET_SEAT) (by simp)
  have hcount := hv (a := NET_COUNT) (by simp)
  have hdelay := hv (a := NET_DELAY) (by simp)
  have hdrop := hv (a := NET_DROPPED) (by simp)
  refine ⟨?_, ?_, ?_, ?_, fun hd => ?_, fun hd seat h1 h2 => ?_⟩
  · rw [hseat]
    exact h.seat
  · rw [hcount]
    exact h.count
  · rw [hv (by simp)]
    exact h.active
  · rw [hdelay]
    exact h.delay
  · unfold tickWord word
    rw [hv (a := TICK_LO) (by simp), hv (a := TICK_HI) (by simp)]
    exact h.tick (hdrop ▸ hd)
  · rw [hcount] at h1
    rw [hseat] at h2
    have hcnt := h.count
    have hown := h.seat
    have hs : seat ≤ 3 := by omega
    obtain ⟨n, hn⟩ := h.level (hdrop ▸ hd) seat h1 h2
    refine ⟨n, hn.congr hdelay (seatWm_congr (fun a ha => hkeep a (sync_match (Or.inl (Or.inr ha)))
      ?_) (by omega)) fun tick => ⟨?_, ?_⟩⟩
    · obtain ⟨-, hb⟩ := ha
      rintro ⟨hr, -⟩
      simp only [SEAT_WM, SEAT_RING] at hb hr
      omega
    · have hring := hc.ring (256 * seat + tick % 256) (by omega)
      rw [if_neg (by omega), ← Nat.add_assoc] at hring
      exact hring
    · have hkp := hc.keypad (256 * seat + tick % 256) (by omega)
      rw [if_neg (by omega), ← Nat.add_assoc] at hkp
      exact hkp

/-- An open gate is past the tick on every remote seat. -/
theorem Synced.past {c : Cpu} {g : MatchLog} (h : Synced c g) (ho : gateOpen c = true)
    (hd : c.cell NET_DROPPED = 0) {seat n : ℕ} (h1 : seat < c.cell NET_COUNT)
    (h2 : seat ≠ c.cell NET_SEAT) (hn : Level c g seat n) : g.age < n := by
  have hreach := gateOpen_reached ho hd h1 h2
  have hle := hn.reached
  have hnear := hn.near
  rw [hn.watermark, h.tick hd] at hreach
  unfold sub16 at hreach
  omega

/-- A tick with an open gate keeps the invariant. -/
theorem Synced.ticked {c : Cpu} {g : MatchLog} (h : Synced c g) (game : Game)
    (ho : gateOpen c = true) : Synced (runTick game c).cpu (g.ticked game c) := by
  have hbody := (tickBody_spec game c).frame
  have hcount := frame_countUp (tickBody game c) TICK_LO TICK_HI
  rw [runTick_cpu]
  unfold MatchLog.ticked
  simp only
  have hkeep : ∀ a ∈ MatchCells, a ≠ TICK_LO → a ≠ TICK_HI →
      (countUp (tickBody game c) TICK_LO TICK_HI).cell a = c.cell a := by
    intro a ha hlo hhi
    rw [hcount.cell_eq fun hm => hm.elim hlo hhi]
    exact hbody.cell_eq (match_not_tick ha (match_not_mailbox ha))
  have htick : tickWord (countUp (tickBody game c) TICK_LO TICK_HI) = (tickWord c + 1) % 65536 := by
    refine (word_countUp _ (cellWidth_cart (by decide) (by decide))
      (cellWidth_cart (by decide) (by decide)) (by decide)).trans ?_
    have htc : ∀ a, a = TICK_LO ∨ a = TICK_HI → (tickBody game c).cell a = c.cell a := by
      intro a ha
      have hm : a ∈ MatchCells := sync_match (Or.inl (Or.inl (by rcases ha with rfl | rfl <;> simp)))
      exact hbody.cell_eq (match_not_tick hm (match_not_mailbox hm))
    unfold tickWord word
    rw [htc _ (Or.inl rfl), htc _ (Or.inr rfl)]
  generalize countUp (tickBody game c) TICK_LO TICK_HI = e at hkeep htick
  have hv : ∀ {a}, a = NET_SEAT ∨ a = NET_DELAY ∨ a = NET_ACTIVE ∨ a = NET_DROPPED ∨ a = NET_COUNT →
      e.cell a = c.cell a := by
    intro a ha
    refine hkeep a (sync_match (Or.inl (Or.inl ?_))) ?_ ?_ <;>
      rcases ha with rfl | rfl | rfl | rfl | rfl <;> simp
  have hm : SameMatch c e := ⟨hv (by simp), hv (by simp), hv (by simp), hv (by simp)⟩
  have hdrop := hv (a := NET_DROPPED) (by simp)
  -- the counter has advanced, and no remote seat was at the tick
  have hnext : Synced e { g with age := g.age + 1 } := by
    refine ⟨hm.seat ▸ h.seat, hm.count ▸ h.count, hm.active ▸ h.active, hm.delay ▸ h.delay,
      fun hd => ?_, fun hd seat h1 h2 => ?_⟩
    · rw [htick, h.tick (hdrop ▸ hd)]
      simp only
      omega
    · rw [hm.count] at h1
      rw [hm.seat] at h2
      have hcnt := h.count
      have hs : seat ≤ 3 := by omega
      obtain ⟨n, hn⟩ := h.level (hdrop ▸ hd) seat h1 h2
      have hpast := h.past ho (hdrop ▸ hd) h1 h2 hn
      have hoff : ∀ a ∈ SyncCells, 0x81A0 ≤ a → e.cell a = c.cell a := fun a ha hlow =>
        hkeep a (sync_match ha) (by simp only [TICK_LO]; omega) (by simp only [TICK_HI]; omega)
      have hn' : Level e g seat n := by
        refine hn.congr hm.delay (seatWm_congr (fun a ha => ?_) (by omega)) fun tick => ⟨?_, ?_⟩
        · exact hoff a (Or.inl (Or.inr ha)) ha.1
        · exact hoff _ (slot_sync hs tick).1 (by simp only [ringSlot, SEAT_RING]; omega)
        · exact hoff _ (slot_sync hs tick).2 (by simp only [keypadSlot, SEAT_KP]; omega)
      have hnear := hn'.near
      exact ⟨n, hn'.first, hn'.watermark, hpast, by simp only; omega,
        fun m h3 h4 h5 => hn'.stored m h3 (by simp only at h4; omega) h5⟩
  by_cases hpush : Pushes e
  · rw [if_pos hpush]
    obtain ⟨d, heq, hsame⟩ := RS_PENDING_pushes hpush
    have hpd := pushed d
    have hbase : word (pushBody d) RS_R_LO RS_R_HI = pushTick e := by
      have ht : pushTick d = pushTick e := by
        unfold pushTick tickWord word
        rw [hsame TICK_LO (by decide) (by decide) (by decide),
          hsame TICK_HI (by decide) (by decide) (by decide)]
      have hlt : pushTick d < 65536 := Nat.mod_lt _ (by decide)
      unfold word
      rw [hpd.tick_lo, hpd.tick_hi, ht]
      omega
    rw [heq, hpd.eq, ← hbase]
    refine hnext.rebase (sameMatch_of_cells fun a ha => ?_)
    rw [hpd.frame.cell_eq, hsame] <;> rcases ha with rfl | rfl | rfl | rfl <;>
      simp [PushArea, MailboxArea, ResyncVars, CrcRecords]
  · rw [if_neg hpush]
    refine hnext.congr fun a ha => (RS_PENDING_waits hpush).cell_eq ?_
    rintro rfl
    exact sync_not_request ha (Or.inl (Or.inr rfl))

/-- Between two steps of a console that is not parked: the invariant, and an open gate when a
tick is due to run. -/
structure PlayInv (k : Console) (g : MatchLog) : Prop where
  synced : k.phase ≠ .parked → Synced k.cpu g
  opened : k.phase = .run → gateOpen k.cpu = true

/-- Every step of a match keeps it. -/
theorem PlayInv.step {k : Console} {g : MatchLog} (inv : PlayInv k g) (o : Outside)
    (hq : ∀ d ∈ dispatched k o, InPlay Continues d) :
    PlayInv (k.step o)
      (if k.phase = .run then g.ticked o.game k.cpu else (dispatched k o).foldl MatchLog.note g) := by
  have hstep := stepped k o
  generalize k.step o = k' at hstep ⊢
  have hquiet : pumping k = none → dispatched k o = [] := by
    intro hp
    unfold dispatched
    rw [hp]
  have hpump : ∀ {c c' : Cpu}, k.phase ≠ .parked → pumping k = some c → Frame WaitArea k.cpu c →
      Waited (SES_PUMP SES_ONFRAME c o.poll).cpu c' →
        Synced c' ((dispatched k o).foldl MatchLog.note g) := by
    intro c c' hph hp hf hw
    have hc : Synced c g := (inv.synced hph).congr fun a ha =>
      hf.cell_eq (match_not_wait (sync_match ha))
    rw [dispatched_eq hp] at hq ⊢
    exact (hc.pump (handles_pump c o.poll) hq).wait hw
  cases hstep with
  | shown h hs =>
    have hp : pumping k = none := by simp only [pumping, h, if_pos hs]
    rw [if_neg (by rw [h]; decide), hquiet hp]
    exact ⟨fun _ => inv.synced (by rw [h]; decide), fun hr => by cases hr⟩
  | left => exact ⟨fun hr => absurd rfl hr, fun hr => by cases hr⟩
  | hold h _ _ hp c' hw =>
    rw [if_neg (by rw [h]; decide)]
    exact ⟨fun _ => hpump (by rw [h]; decide) hp (frame_freeze _) hw, fun hr => by cases hr⟩
  | pass h _ _ hp =>
    rw [if_neg (by rw [h]; decide)]
    exact ⟨fun _ => hpump (by rw [h]; decide) hp (Frame.refl _ _)
      (.on (Frame.refl _ _) (Silent.refl _)), fun hr => by cases hr⟩
  | due h =>
    have hp := pumping_eq_none (k := k) (by rw [h]; decide) (by rw [h]; decide)
    rw [if_neg (by rw [h]; decide), hquiet hp]
    exact ⟨fun _ => (inv.synced (by rw [h]; decide)).capture, fun hr => by cases hr⟩
  | opened h ho =>
    have hp : pumping k = none := by simp only [pumping, h, if_pos ho]
    rw [if_neg (by rw [h]; decide), hquiet hp]
    exact ⟨fun _ => inv.synced (by rw [h]; decide), fun _ => ho⟩
  | stall h _ hp c' hw =>
    rw [if_neg (by rw [h]; decide)]
    exact ⟨fun _ => hpump (by rw [h]; decide) hp (frame_freeze _) hw, fun hr => by cases hr⟩
  | tick h =>
    rw [if_pos h]
    exact ⟨fun _ => (inv.synced (by rw [h]; decide)).ticked o.game (inv.opened h),
      fun hr => by cases hr⟩
  | native h =>
    have hp := pumping_eq_none (k := k) (by rw [h]; decide) (by rw [h]; decide)
    rw [if_neg (by rw [h]; decide), hquiet hp]
    exact ⟨fun _ => (inv.synced (by rw [h]; decide)).congr fun a ha =>
      (Frame.ofGame (o.game.native_frame k.cpu)).cell_eq (match_not_game (sync_match ha)),
      fun hr => by cases hr⟩
  | scan h =>
    have hp := pumping_eq_none (k := k) (by rw [h]; decide) (by rw [h]; decide)
    rw [if_neg (by rw [h]; decide), hquiet hp]
    exact ⟨fun _ => (inv.synced (by rw [h]; decide)).congr fun a ha =>
      (Frame.ofGame (o.game.scan_frame k.cpu)).cell_eq (match_not_game (sync_match ha)),
      fun hr => by cases hr⟩
  | parked h => exact ⟨fun hr => absurd h hr, fun hr => by rw [h] at hr; cases hr⟩

/-- In a match whose stored inputs all continue their seats' sequences, a tick about to run is
answered, as long as nobody left.
SOURCE: lockstep.asm:142-194, session.asm:587-636, resync.asm:392-411 -/
theorem gate_opens_answered {k : Console} {g : MatchLog} (run : PlayedMatch Continues k g)
    (hp : k.phase = .run) (hd : k.cpu.cell NET_DROPPED = 0) : Answered k.cpu g := by
  have inv : PlayInv k g := by
    clear hp hd
    induction run with
    | begin h => exact ⟨fun _ => synced_handover h, fun hr => (nomatch hr)⟩
    | step _ o hq ih => exact ih.step o hq
  have hs := inv.synced (by rw [hp]; decide)
  refine ⟨hs.tick hd, fun seat h1 h2 => ?_⟩
  obtain ⟨n, hn⟩ := hs.level hd seat h1 h2
  have hpast := hs.past (inv.opened hp) hd h1 h2 hn
  by_cases hfirst : g.age < k.cpu.cell NET_DELAY
  · exact Or.inl hfirst
  · obtain ⟨i, hi, h3, h4, h5, h6⟩ := hn.stored g.age (Nat.not_lt.mp hfirst) le_rfl hpast
    exact Or.inr ⟨i, hi, h3, h4.trans (hs.tick hd).symm, h5, h6⟩

/-! ### Concrete matches -/

/-- A console with a START in its frame buffer: seat 0 of two, with a delay of one. -/
def startHeld : Cpu :=
  (((default : Cpu).sto FRMBUF 38).sto (FRMBUF + 1) FT_START).sto (FRMBUF + 3) 2 |>.sto (FRMBUF + 6) 1

theorem opensMatch_startHeld : OpensMatch startHeld :=
  ⟨by decide, by decide, by decide, by decide, by decide⟩

/-- A poll that delivers the other seat's input for a tick. -/
def inputPoll (tick : Fin 256) : Poll where
  status := .ack 1
  avail := 7
  devStatus := 1
  read := .ack 1
  data := [6, FT_INPUT, 1, tick, 0, 3, 0]
  short := by simp
  bytes := by simp

/-- The match it starts, when the first poll delivers the input for a tick and the others nothing. -/
def matchAfter (tick : Fin 256) : ℕ → Console × MatchLog
  | 0 => (⟨of_start startHeld, .pass⟩, .fresh 0)
  | n + 1 =>
    let r := matchAfter tick n
    let o : Outside := ⟨if n = 0 then inputPoll tick else silentPoll, default⟩
    (r.1.step o, if r.1.phase = .run then r.2.ticked o.game r.1.cpu
      else (dispatched r.1 o).foldl MatchLog.note r.2)

/-- It is a match whose one input satisfies what it satisfies. -/
theorem playedMatch_after {Q : Cpu → Prop} (tick : Fin 256) (n : ℕ)
    (hq : ∀ m < n, ∀ d ∈ dispatched (matchAfter tick m).1
      ⟨if m = 0 then inputPoll tick else silentPoll, default⟩, InPlay Q d) :
    PlayedMatch Q (matchAfter tick n).1 (matchAfter tick n).2 := by
  induction n with
  | zero => exact .begin (.start _ opensMatch_startHeld)
  | succ n ih => exact (ih fun m hm => hq m (Nat.lt_succ_of_lt hm)).step _ (hq n (Nat.lt_succ_self n))

instance (d : Cpu) : Decidable (InPlay Continues d) := inferInstanceAs (Decidable (_ ∧ (_ → (_ ∧ _))))

set_option maxRecDepth 20000 in
/-- With the input for tick 1 the gate opens for it. -/
theorem second_tick_answered : (matchAfter 1 9).1.phase = .run ∧
    tickWord (matchAfter 1 9).1.cpu = 1 ∧ Answered (matchAfter 1 9).1.cpu (matchAfter 1 9).2 := by
  obtain ⟨hphase, htick, hdropped, hq⟩ : (matchAfter 1 9).1.phase = .run ∧
      tickWord (matchAfter 1 9).1.cpu = 1 ∧ (matchAfter 1 9).1.cpu.cell NET_DROPPED = 0 ∧
      ∀ m < 9, ∀ d ∈ dispatched (matchAfter 1 m).1
        ⟨if m = 0 then inputPoll 1 else silentPoll, default⟩, InPlay Continues d := by decide +kernel
  exact ⟨hphase, htick, gate_opens_answered (playedMatch_after 1 9 hq) hphase hdropped⟩

set_option maxRecDepth 20000 in
/-- When the input for tick 1 is lost and the next one arrives, the gate opens for tick 1 on idle
slots. -/
theorem lost_input_opens_gate : ¬ ∀ (k : Console) (g : MatchLog), PlayedMatch (fun _ => True) k g →
    k.phase = .run → k.cpu.cell NET_DROPPED = 0 → Answered k.cpu g := by
  intro h
  obtain ⟨hphase, hdropped, hcount, hown, hlate, hnone, hq⟩ : (matchAfter 2 9).1.phase = .run ∧
      (matchAfter 2 9).1.cpu.cell NET_DROPPED = 0 ∧ 1 < (matchAfter 2 9).1.cpu.cell NET_COUNT ∧
      1 ≠ (matchAfter 2 9).1.cpu.cell NET_SEAT ∧
      ¬ (matchAfter 2 9).2.age < (matchAfter 2 9).1.cpu.cell NET_DELAY ∧
      (∀ i ∈ (matchAfter 2 9).2.inputs, i.tick ≠ tickWord (matchAfter 2 9).1.cpu) ∧
      ∀ m < 9, ∀ d ∈ dispatched (matchAfter 2 m).1
        ⟨if m = 0 then inputPoll 2 else silentPoll, default⟩, d.cell (FRMBUF + 1) ≠ FT_START := by
    decide +kernel
  have run : PlayedMatch (fun _ => True) (matchAfter 2 9).1 (matchAfter 2 9).2 :=
    playedMatch_after 2 9 fun m hm d hd => ⟨hq m hm d hd, fun _ => trivial⟩
  have hans := h _ _ run hphase hdropped
  rcases hans.seats 1 hcount hown with hfirst | ⟨i, hi, -, htick, -⟩
  · exact hlate hfirst
  · exact hnone i hi htick

end BoxingNetplay.Analysis
