import BoxingNetplay.Analysis.Checksums
import BoxingNetplay.Interface.Capture

/-!
# The slots of captures

A capture for tick `T + d` stores to the slot of that tick alone, and the captures of the next `d` ticks
have other slots, since `d` is a byte.  So the dispatch of that tick reads what was captured for it.  A
capture past the end of a recording misses the slot of seat 1.
-/

set_option autoImplicit false

namespace BoxingNetplay.Analysis.CaptureSlots

open BoxingNetplay.Library
open BoxingNetplay.Model
open BoxingNetplay.Interface
open BoxingNetplay.Analysis.Checksums (noteRng_frame)

/-! ### Runs -/

/-- Passes of a build without netplay, from a machine on, with what each has left.  Between them the EXEC
and the cartridge run; when the CPU has parked there is no further tick.
SOURCE: hook.asm:142-225 -/
inductive LocalRun (b : LocalBuild) (c₀ : Cpu) : List LocalRan → Cpu → Prop where
  | start : LocalRun b c₀ [] c₀
  | exec {rs : List LocalRan} {c c' : Cpu} (h : LocalRun b c₀ rs c) (hc : GameFrame c c') :
      LocalRun b c₀ rs c'
  | tick {rs : List LocalRan} {c : Cpu} (h : LocalRun b c₀ rs c) (hp : ∀ r ∈ rs, r.parked = false)
      (g : Game) : LocalRun b c₀ (rs ++ [MASTER_TICK b g c]) (MASTER_TICK b g c).cpu

/-- The two dispatches of a tick read inputs as those of the tick. -/
structure Dispatches (r : LocalRan) (i : Inputs) : Prop where
  seat0 : (VD_READ r.atSeat0).cur = i.dec0 ∧ (VD_READ r.atSeat0).kp = i.kp0
  seat1 : (VD_READ r.atSeat1).cur = i.dec1 ∧ (VD_READ r.atSeat1).kp = i.kp1

/-- The two dispatches of a tick read inputs as those of the tick before. -/
structure Follows (r : LocalRan) (i : Inputs) : Prop where
  seat0 : (VD_READ r.atSeat0).prev = i.dec0 ∧ (VD_READ r.atSeat0).kppre = i.kp0
  seat1 : (VD_READ r.atSeat1).prev = i.dec1 ∧ (VD_READ r.atSeat1).kppre = i.kp1

/-! ### One tick -/

/-- The cells that captures and dispatches go by: the rings, the tick and the delay. -/
def CaptureCells : Set ℕ := RingPages ∪ {a | a = TICK_LO ∨ a = TICK_HI ∨ a = DELAY_EN}

/-- The trace has cells of its own. -/
def TraceArea : Set ℕ := {a | (0x8110 ≤ a ∧ a ≤ 0x8113) ∨ (0x9000 ≤ a ∧ a < 0x9200)}

section Tick

variable {c c' d : Cpu}

/-- The game stores to none of these cells. -/
theorem capture_not_game {a : ℕ} (h : a ∈ CaptureCells) : a ∉ GameArea ∪ TickScratch := by
  have hcases : (0x8400 ≤ a ∧ a < 0x8C00) ∨ a = 0x8108 ∨ a = 0x8109 ∨ a = 0x8105 := h
  rintro (hg | hs)
  · have hgame : a < 0x8000 ∨ a = 0x8106 ∨ a = 0x8107 := hg
    omega
  · have hscratch : a = 0x816A ∨ a = 0x816C ∨ a = 0x816D ∨ (0x80C0 ≤ a ∧ a ≤ 0x80C7) ∨ a = 0x81A8 ∨
        (0x8196 ≤ a ∧ a ≤ 0x819B) ∨ a = 0x81AF ∨ a = 0x8168 ∨ a = 0x8169 := hs
    omega

theorem plays_capture (h : Plays c c') : ∀ a ∈ CaptureCells, c'.cell a = c.cell a :=
  fun _ ha => h.frame.cell_eq (capture_not_game ha)

/-- The counter of ticks is among the cells of a capture. -/
theorem tickWord_capture (h : ∀ a ∈ CaptureCells, c'.cell a = c.cell a) : tickWord c' = tickWord c := by
  unfold tickWord word
  rw [h TICK_LO (Or.inr (Or.inl rfl)), h TICK_HI (Or.inr (Or.inr (Or.inl rfl)))]

/-- A capture keeps the tick and the delay. -/
theorem capture_kept {m : CaptureMode} (h : exhausted m c = false) {a : ℕ}
    (ha : a = TICK_LO ∨ a = TICK_HI ∨ a = DELAY_EN) : (VIRT_CAPTURE m c).cell a = c.cell a := by
  obtain ⟨d, hd, heq⟩ := VIRT_CAPTURE_eq c h
  have hcell : d.cell a = c.cell a := by
    apply hd.cell_eq
    rcases ha with rfl | rfl | rfl <;> simp [ScriptArea]
  have hslot : a < SEAT_RING := by rcases ha with rfl | rfl | rfl <;> decide
  rw [heq, ← hcell]
  unfold storeInputs
  rw [sto_other, sto_other, sto_other, sto_other]
  all_goals
    simp only [ringSlot, keypadSlot, SEAT_RING, SEAT_KP] at hslot ⊢
    omega

/-- The trace counts the tick, and stores to its own cells besides. -/
theorem frame_TRACE_TICK (c : Cpu) :
    ∃ d, Frame TraceArea c d ∧ TRACE_TICK c = countUp d TICK_LO TICK_HI := by
  unfold TRACE_TICK
  extract_lets r0 d r4 e
  refine ⟨e, ?_, rfl⟩
  have hd : Frame TraceArea c d := (noteRng_frame c).mono fun _ h => Or.inl h
  have hlo : d.cell TICK_LO < 256 := d.cell_lt_cart (by decide) (by decide)
  have hr4 : r4 = 0x9000 + 2 * d.cell TICK_LO := by
    simp only [r4, TRACE_RING]
    omega
  refine (hd.sto ?_).sto ?_
  · exact Or.inr ⟨by omega, by omega⟩
  · exact Or.inr ⟨by omega, by omega⟩

/-- Counting the tick. -/
theorem counted (c : Cpu) : tickWord (countUp c TICK_LO TICK_HI) = (tickWord c + 1) % 65536 ∧
    ∀ a ∈ CaptureCells, a ≠ TICK_LO → a ≠ TICK_HI → (countUp c TICK_LO TICK_HI).cell a = c.cell a := by
  constructor
  · exact word_countUp c (cellWidth_cart (by decide) (by decide)) (cellWidth_cart (by decide) (by decide))
      (by decide)
  · intro a _ hlo hhi
    exact (frame_countUp c TICK_LO TICK_HI).cell_eq fun hm => hm.elim hlo hhi

/-- What a tick does to the cells of captures once its inputs are captured: both dispatches find them as
they are, and the tick is counted. -/
structure Ticked (r : LocalRan) : Prop where
  side0 : r.atSeat0.cell VD_SIDE = 0
  side1 : r.atSeat1.cell VD_SIDE = 1
  atSeat0 : ∀ a ∈ CaptureCells, r.atSeat0.cell a = r.captured.cell a
  atSeat1 : ∀ a ∈ CaptureCells, r.atSeat1.cell a = r.captured.cell a
  kept : ∀ a ∈ CaptureCells, a ≠ TICK_LO → a ≠ TICK_HI → r.cpu.cell a = r.captured.cell a
  tick : tickWord r.cpu = (tickWord r.captured + 1) % 65536

/-- This is what a tick of any build does. -/
theorem ticked (b : LocalBuild) (g : Game) (c : Cpu) : Ticked (MASTER_TICK b g c) := by
  unfold MASTER_TICK
  extract_lets c1 c2 c3 c4
  have h2 : Plays c1 c2 := (plays_LS_TBL_ADOPT _).trans ((plays_installTable _).trans (plays_selectSeat _ 0))
  have h3 : Plays c1 c3 := h2.trans ((plays_LS_VDISPATCH g _).trans (plays_selectSeat _ 1))
  have h4 : ∀ a ∈ CaptureCells, c4.cell a = c1.cell a := by
    have hplay := h3.trans ((plays_LS_VDISPATCH g _).trans ((plays_BX_GAME_TICK g _).trans
      (plays_LS_TBL_ADOPT _)))
    intro a ha
    refine Eq.trans (sto_other _ ?_) (plays_capture hplay a ha)
    rintro rfl
    exact capture_not_game ha (Or.inl (Or.inl (by decide)))
  have hs0 : c2.cell VD_SIDE = 0 := by simp [c2, selectSeat]
  have hs1 : c3.cell VD_SIDE = 1 := by simp [c3, selectSeat, cellWidth]
  have hend : ∀ d : Cpu, (∀ a ∈ CaptureCells, d.cell a = c4.cell a) →
      (∀ a ∈ CaptureCells, a ≠ TICK_LO → a ≠ TICK_HI →
        (countUp d TICK_LO TICK_HI).cell a = c1.cell a) ∧
      tickWord (countUp d TICK_LO TICK_HI) = (tickWord c1 + 1) % 65536 := by
    intro d hd
    have heq : ∀ a ∈ CaptureCells, d.cell a = c1.cell a := fun a ha => (hd a ha).trans (h4 a ha)
    obtain ⟨htick, hkept⟩ := counted d
    refine ⟨fun a ha hlo hhi => (hkept a ha hlo hhi).trans (heq a ha), ?_⟩
    rw [htick, tickWord_capture heq]
  cases b.stop with
  | none =>
    obtain ⟨hkept, htick⟩ := hend c4 fun _ _ => rfl
    exact ⟨hs0, hs1, plays_capture h2, plays_capture h3, hkept, htick⟩
  | some stop =>
    obtain ⟨d, hd, heq⟩ := frame_TRACE_TICK c4
    obtain ⟨hkept, htick⟩ := hend d fun a ha => hd.cell_eq fun ht => by
      have hcases : (0x8400 ≤ a ∧ a < 0x8C00) ∨ a = 0x8108 ∨ a = 0x8109 ∨ a = 0x8105 := ha
      have htrace : (0x8110 ≤ a ∧ a ≤ 0x8113) ∨ (0x9000 ≤ a ∧ a < 0x9200) := ht
      omega
    simp only [heq]
    exact ⟨hs0, hs1, plays_capture h2, plays_capture h3, hkept, htick⟩

/-- A dispatch reads the slots of the machine after the capture. -/
theorem Ticked.reads {r : LocalRan} (h : Ticked r) :
    VD_READ r.atSeat0 = seatCells r.captured 0 (tickWord r.captured) ∧
    VD_READ r.atSeat1 = seatCells r.captured 1 (tickWord r.captured) := by
  have hcells : ∀ {d : Cpu} {seat : ℕ}, seat ≤ 1 →
      (∀ a ∈ CaptureCells, d.cell a = r.captured.cell a) →
      seatCells d seat (tickWord d) = seatCells r.captured seat (tickWord r.captured) := by
    intro d seat hs heq
    have hpage : ∀ tick, ringSlot seat tick ∈ CaptureCells ∧ keypadSlot seat tick ∈ CaptureCells := by
      intro tick
      simp only [CaptureCells, RingPages, ringSlot, keypadSlot, SEAT_RING, SEAT_KP]
      exact ⟨Or.inl ⟨by omega, by omega⟩, Or.inl ⟨by omega, by omega⟩⟩
    unfold seatCells
    rw [tickWord_capture heq, heq _ (hpage _).1, heq _ (hpage _).1, heq _ (hpage _).2,
      heq _ (hpage _).2]
  constructor
  · rw [VD_READ_eq _ (by omega) h.side0]
    exact hcells (by omega) h.atSeat0
  · rw [VD_READ_eq _ (by omega) h.side1]
    exact hcells (by omega) h.atSeat1

/-- What the slot of the tick holds is dispatched. -/
theorem Ticked.dispatches {r : LocalRan} (h : Ticked r) {i : Inputs}
    (hi : SlotHolds r.captured (tickWord r.captured) i) : Dispatches r i := by
  obtain ⟨h0, h1⟩ := h.reads
  constructor
  · rw [h0]
    exact ⟨hi.dec0, hi.kp0⟩
  · rw [h1]
    exact ⟨hi.dec1, hi.kp1⟩

/-- What the slot before holds goes before it. -/
theorem Ticked.follows {r : LocalRan} (h : Ticked r) {i : Inputs}
    (hi : SlotHolds r.captured (tickWord r.captured + 255) i) : Follows r i := by
  obtain ⟨h0, h1⟩ := h.reads
  constructor
  · rw [h0]
    exact ⟨hi.dec0, hi.kp0⟩
  · rw [h1]
    exact ⟨hi.dec1, hi.kp1⟩

end Tick

/-! ### Whole runs -/

/-- After the passes `rs` from `c₀` on: the slots of the last 256 captures hold what these took, and what
was captured for a tick has been dispatched. -/
structure Recorded (b : LocalBuild) (c₀ : Cpu) (rs : List LocalRan) (c : Cpu) : Prop where
  delay : c.cell DELAY_EN = c₀.cell DELAY_EN
  tick : tickWord c = (tickWord c₀ + rs.length) % 65536
  slots : ∀ n r, rs[n]? = some r → rs.length ≤ n + 256 →
    SlotHolds c (tickWord c₀ + n + c₀.cell DELAY_EN) (capturedInputs b.mode r.start).bytes
  reads : ∀ n r r', rs[n]? = some r → rs[n + c₀.cell DELAY_EN]? = some r' →
    Dispatches r' (capturedInputs b.mode r.start).bytes
  before : c₀.cell DELAY_EN < 255 → ∀ n r r', rs[n]? = some r →
    rs[n + c₀.cell DELAY_EN + 1]? = some r' → Follows r' (capturedInputs b.mode r.start).bytes

section Runs

variable {b : LocalBuild} {c₀ c c' : Cpu} {rs : List LocalRan}

/-- An entry of a list with one more at its end. -/
theorem getElem?_concat {α : Type} {xs : List α} {x y : α} {n : ℕ} (h : (xs ++ [x])[n]? = some y) :
    (n < xs.length ∧ xs[n]? = some y) ∨ (n = xs.length ∧ x = y) := by
  rw [List.getElem?_append] at h
  split at h
  · rename_i hn
    exact Or.inl ⟨hn, h⟩
  · rename_i hn
    obtain ⟨hlen, heq⟩ := List.getElem?_eq_some_iff.mp h
    have hlen1 : n - xs.length < 1 := hlen
    refine Or.inr ⟨by omega, ?_⟩
    simpa [show n - xs.length = 0 by omega] using heq

/-- Code that leaves the cells of captures alone. -/
theorem Recorded.quiet (h : Recorded b c₀ rs c) (heq : ∀ a ∈ CaptureCells, c'.cell a = c.cell a) :
    Recorded b c₀ rs c' :=
  ⟨(heq _ (Or.inr (Or.inr (Or.inr rfl)))).trans h.delay, (tickWord_capture heq).trans h.tick,
    fun n r hr hn => (h.slots n r hr hn).congr fun a ha => heq a (Or.inl (slot_pages _ ha)),
    h.reads, h.before⟩

/-- The slots once the next capture has stored. -/
theorem Recorded.captured (h : Recorded b c₀ rs c) (he : exhausted b.mode c = false) (g : Game)
    {n : ℕ} {r : LocalRan} (hr : (rs ++ [MASTER_TICK b g c])[n]? = some r)
    (hn : rs.length < n + 256) : SlotHolds (VIRT_CAPTURE b.mode c) (tickWord c₀ + n + c₀.cell DELAY_EN)
      (capturedInputs b.mode r.start).bytes := by
  have hslot : captureTick c % 256 = (tickWord c₀ + rs.length + c₀.cell DELAY_EN) % 256 := by
    unfold captureTick
    rw [h.tick, h.delay]
    omega
  rcases getElem?_concat hr with ⟨hlt, hr⟩ | ⟨rfl, rfl⟩
  · -- an older slot is another one, less than a lap away
    apply (h.slots n r hr (by omega)).keep ((writesSlot_iff c b.mode).mpr he)
    rw [hslot]
    omega
  · have hstart : (MASTER_TICK b g c).start = c := by
      unfold MASTER_TICK
      cases b.stop <;> rfl
    rw [hstart]
    exact (slotHolds_capture c he).lap hslot

/-- One more tick. -/
theorem Recorded.pass (h : Recorded b c₀ rs c) (he : exhausted b.mode c = false) (g : Game) :
    Recorded b c₀ (rs ++ [MASTER_TICK b g c]) (MASTER_TICK b g c).cpu := by
  have ht := ticked b g c
  have hcap : (MASTER_TICK b g c).captured = VIRT_CAPTURE b.mode c := by
    unfold MASTER_TICK
    cases b.stop <;> rfl
  have hword : tickWord (MASTER_TICK b g c).captured = tickWord c := by
    rw [hcap]
    unfold tickWord word
    rw [capture_kept he (Or.inl rfl), capture_kept he (Or.inr (Or.inl rfl))]
  have hd : c₀.cell DELAY_EN < 256 := c₀.cell_lt_cart (by decide) (by decide)
  have hslots := fun n r => h.captured (n := n) (r := r) he g
  rw [← hcap] at hslots
  have htick := h.tick
  generalize MASTER_TICK b g c = m at ht hcap hword hslots ⊢
  constructor
  · rw [ht.kept DELAY_EN (Or.inr (Or.inr (Or.inr rfl))) (by decide) (by decide), hcap,
      capture_kept he (Or.inr (Or.inr rfl)), h.delay]
  · rw [ht.tick, hword, htick, List.length_append, List.length_singleton]
    omega
  · intro n r hr hn
    rw [List.length_append, List.length_singleton] at hn
    apply (hslots n r hr (by omega)).congr
    intro a ha
    have hpage : 0x8400 ≤ a := (slot_pages _ ha).1
    exact ht.kept a (Or.inl (slot_pages _ ha)) (by simp only [TICK_LO]; omega)
      (by simp only [TICK_HI]; omega)
  · intro n r r' hr hr'
    rcases getElem?_concat hr' with ⟨hlt, hr'⟩ | ⟨heq, rfl⟩
    · rcases getElem?_concat hr with ⟨-, hr⟩ | ⟨hlast, -⟩
      · exact h.reads n r r' hr hr'
      · omega
    · apply ht.dispatches
      apply (hslots n r hr (by omega)).lap
      rw [hword, htick]
      omega
  · intro hlap n r r' hr hr'
    rcases getElem?_concat hr' with ⟨hlt, hr'⟩ | ⟨heq, rfl⟩
    · rcases getElem?_concat hr with ⟨-, hr⟩ | ⟨hlast, -⟩
      · exact h.before hlap n r r' hr hr'
      · omega
    · apply ht.follows
      apply (hslots n r hr (by omega)).lap
      rw [hword, htick]
      omega

/-- As long as no capture is past the end of a recording. -/
theorem recorded (run : LocalRun b c₀ rs c) (h : ∀ r ∈ rs, exhausted b.mode r.start = false) :
    Recorded b c₀ rs c := by
  induction run with
  | start =>
    have hd : c₀.cell DELAY_EN = c₀.cell DELAY_EN := rfl
    refine ⟨hd, ?_, by simp, by simp, by simp⟩
    unfold tickWord word
    simp
  | exec _ hc ih => exact (ih h).quiet (plays_capture (Plays.game hc))
  | @tick rs c _ _ g ih =>
    have hstart : (MASTER_TICK b g c).start = c := by
      unfold MASTER_TICK
      cases b.stop <;> rfl
    have hlast := h _ (List.mem_append_right rs List.mem_cons_self)
    rw [hstart] at hlast
    exact (ih fun r hr => h r (List.mem_append_left _ hr)).pass hlast g

end Runs

/-- A capture writes its slot and no other ring cell just when it is not past the end of a recording; and in a
run without such captures every tick is dispatched with what was captured for it, and, unless the
delay is a whole lap of the rings less one, after what was captured for the tick before.
SOURCE: vdispatch.asm:27-167, 379-411 -/
theorem capture_keeps_to_its_slot (b : LocalBuild) :
    (∀ c, WritesSlot c (VIRT_CAPTURE b.mode c) (captureTick c) ↔ exhausted b.mode c = false) ∧
    ∀ c₀ rs c, LocalRun b c₀ rs c → (∀ r ∈ rs, exhausted b.mode r.start = false) →
      (∀ n r r', rs[n]? = some r → rs[n + c₀.cell DELAY_EN]? = some r' →
        Dispatches r' (capturedInputs b.mode r.start).bytes) ∧
      (c₀.cell DELAY_EN < 255 → ∀ n r r', rs[n]? = some r →
        rs[n + c₀.cell DELAY_EN + 1]? = some r' → Follows r' (capturedInputs b.mode r.start).bytes) := by
  constructor
  · intro c
    exact writesSlot_iff c b.mode
  · intro c₀ rs c run h
    have hr := recorded run h
    exact ⟨hr.reads, hr.before⟩

/-! ### Concrete runs -/

/-- Two ticks of a build. -/
def twoTicks (b : LocalBuild) (c : Cpu) : List LocalRan :=
  [MASTER_TICK b default c, MASTER_TICK b default (MASTER_TICK b default c).cpu]

theorem localRun_twoTicks (m : CaptureMode) (c : Cpu) : LocalRun ⟨m, none⟩ c (twoTicks ⟨m, none⟩ c)
    (MASTER_TICK ⟨m, none⟩ default (MASTER_TICK ⟨m, none⟩ default c).cpu).cpu := by
  have hone : LocalRun ⟨m, none⟩ c [MASTER_TICK ⟨m, none⟩ default c] (MASTER_TICK ⟨m, none⟩ default c).cpu :=
    .tick .start (fun _ h => absurd h List.not_mem_nil) default
  apply hone.tick
  intro r hr
  rw [List.mem_singleton.mp hr]
  rfl

/-- A delay of one tick, with the left player on a key. -/
def pressed : Cpu := ((default : Cpu).sto DELAY_EN 1).sto EXEC_KP_L 2

/-- The second tick is dispatched with what the first has captured. -/
theorem pads_come_a_tick_later :
    Dispatches (MASTER_TICK ⟨.live, none⟩ default (MASTER_TICK ⟨.live, none⟩ default pressed).cpu)
      ⟨0, 0, 2, 0⟩ :=
  ((capture_keeps_to_its_slot ⟨.live, none⟩).2 pressed (twoTicks ⟨.live, none⟩ pressed) _
    (localRun_twoTicks .live pressed) (fun _ _ => rfl)).1 0 _ _ rfl rfl

/-- A recording of two ticks, of which seat 1 moves in the second, and a delay of one tick. -/
def recording : Cpu := ((default : Cpu).sto DELAY_EN 1).sto 0x7005 5

set_option maxRecDepth 20000 in
/-- The capture past the end of the recording stores nothing to seat 1's slot, and what it stores instead
takes the recording's last tick from seat 1 before it is dispatched. -/
theorem recording_loses_its_last_tick :
    let b : LocalBuild := ⟨.replay 0x7000 2, none⟩
    let c := (MASTER_TICK b default recording).cpu
    ¬ WritesSlot c (VIRT_CAPTURE b.mode c) (captureTick c) ∧
    LocalRun b recording (twoTicks b recording) (MASTER_TICK b default c).cpu ∧
    (capturedInputs b.mode recording).bytes = ⟨0, 5, 0, 0⟩ ∧
    (VD_READ (MASTER_TICK b default c).atSeat1).cur = 0x40 ∧
    ¬ Dispatches (MASTER_TICK b default c) (capturedInputs b.mode recording).bytes := by
  extract_lets b c
  have hread : (VD_READ (MASTER_TICK b default c).atSeat1).cur = 0x40 := by decide +kernel
  have htaken : (capturedInputs b.mode recording).bytes = ⟨0, 5, 0, 0⟩ := by decide +kernel
  refine ⟨fun h => ?_, localRun_twoTicks _ _, htaken, hread, fun h => ?_⟩
  · have hnot := (writesSlot_iff c b.mode).mp h
    revert hnot
    decide +kernel
  · have hseat := h.seat1.1
    rw [hread, htaken] at hseat
    exact absurd hseat (by decide)

end BoxingNetplay.Analysis.CaptureSlots
