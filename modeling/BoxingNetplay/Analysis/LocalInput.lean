import BoxingNetplay.Interface.Pass

/-!
# The controller scan and the null table

`LS_PASS` leaves the null table in `$035D` at the end of a tick, and nothing in the netcode
changes it outside a tick.  The native timer entries run after `LS_PASS` and before the scan:
a table one of them installs is what the scan of that pass dispatches through.
-/

set_option autoImplicit false

namespace BoxingNetplay.Analysis

open BoxingNetplay.Library
open BoxingNetplay.Model
open BoxingNetplay.Interface

/-- The pointer to the handler table is none of the cells frame handlers store to. -/
theorem htbl_not_handled : EXEC_HTBL ∉ RingPages ∪ Watermarks ∧ EXEC_HTBL ∉ StartArea ∧
    EXEC_HTBL ∉ LeftArea ∧ EXEC_HTBL ∉ {a | a = RS_PEND ∨ a = RS_PTMO} ∪ MailboxArea ∧
    EXEC_HTBL ∉ ResyncVars ∪ CrcRecords ∧ EXEC_HTBL ∉ ImageCells ∪ RebaseArea := by
  simp [RingPages, Watermarks, StartArea, LeftArea, Roster, CrcRecords, MailboxArea, ResyncVars,
    ImageCells, RS_TAILTBL, RebaseArea, DisplayArea]

/-- Nor is it stored to by the pump around the handlers, or by a wait. -/
theorem htbl_not_pump : EXEC_HTBL ∉ PumpArea ∧ EXEC_HTBL ∉ WaitArea ∪
    {a | a = PEER_WHY ∨ a = NET_DROPPED ∨ a = RESYNC_HOLD} ∪ (RingPages ∪ Watermarks) := by
  simp [PumpArea, MailboxArea, RingCells, WaitArea, RingPages, Watermarks]

/-- Accepted inputs name one of the four seats a match has rings for. -/
def SeatKnown (c : Cpu) : Prop :=
  c.cell (FRMBUF + 1) = FT_INPUT → inputAccepted c → c.cell (FRMBUF + 2) ≤ 3

/-- A console in a match whose handler table is the one at `t`. -/
structure TableIs (t : ℕ) (c : Cpu) : Prop where
  active : c.cell NET_ACTIVE ≠ 0
  table : c.cell EXEC_HTBL = t

/-- Whatever leaves the two cells alone keeps both. -/
theorem TableIs.frame {A : Set ℕ} {t : ℕ} {c c' : Cpu} (h : TableIs t c) (hf : Frame A c c')
    (ha : NET_ACTIVE ∉ A) (ht : EXEC_HTBL ∉ A) : TableIs t c' :=
  ⟨by rw [hf.cell_eq ha]; exact h.active, by rw [hf.cell_eq ht]; exact h.table⟩

/-- No frame of a match touches the handler table. -/
theorem TableIs.dispatch {t : ℕ} {c : Cpu} (h : TableIs t c) (hs : SeatKnown c) :
    TableIs t (SES_ONFRAME c) := by
  obtain ⟨hr, hst, hl, hp, hv, hi⟩ := htbl_not_handled
  refine SES_ONFRAME_rule c (fun hty => ?_) (fun _ => ?_) (fun _ => ?_) (fun _ => ?_) (fun _ => ?_)
    (fun _ => ?_) (fun _ => ?_) (fun _ => ?_) h
  · exact h.frame (frame_of_input c (hs hty)) (by simp [RingPages, Watermarks]) hr
  · -- a lobby list is for a console outside a match
    unfold of_lobby
    rwa [if_pos h.active]
  · refine ⟨?_, by rw [(frame_of_start c).cell_eq hst]; exact h.table⟩
    unfold of_start
    split
    · exact h.active
    · simp [cellWidth]
  · exact h.frame (frame_of_pl c) (by simp [LeftArea, RingPages, Watermarks]) hl
  · -- and so is a room
    unfold of_room
    rwa [if_pos h.active]
  · exact h.frame (frame_RS_ON_CRC c) (by simp [MailboxArea]) hp
  · refine h.frame (frame_RS_ON_STATE c) ?_ ?_
    · rintro (hm | ⟨-, hm⟩)
      · simp [ResyncVars, CrcRecords] at hm
      · simp [ImageCells, RS_TAILTBL, RebaseArea, DisplayArea, ResyncVars, RingPages, Watermarks,
          CrcRecords] at hm
    · rintro (hm | ⟨-, hm⟩)
      · exact hv hm
      · exact hi hm
  · exact h.frame (frame_RS_ON_REQ c) (by simp) fun hm => hp (Or.inl hm)

/-- A pump whose inputs name known seats does not touch it. -/
theorem TableIs.pump {t : ℕ} {c c' : Cpu} {ds : List Cpu} (h : TableIs t c)
    (hp : Handles SES_ONFRAME c ds c') (hs : ∀ d ∈ ds, SeatKnown d) : TableIs t c' :=
  hp.preserves (fun hm h => h.frame hm.frame (by simp [PumpArea, MailboxArea, RingCells])
    htbl_not_pump.1) (fun d hd h => h.dispatch (hs d hd)) h

/-- Nor does the wait after it. -/
theorem TableIs.wait {t : ℕ} {c c' : Cpu} (h : TableIs t c) (hw : Waited c c') : TableIs t c' := by
  have hnot : EXEC_HTBL ∉ WaitArea := fun hm => htbl_not_pump.2 (Or.inl (Or.inl hm))
  cases hw with
  | on hf _ => exact h.frame hf (by simp [WaitArea]) hnot
  | gaveUp hg => exact h.frame hg.frame (by simp [WaitArea, RingPages, Watermarks]) htbl_not_pump.2

/-- Nor does the deferred push. -/
theorem TableIs.pending {t : ℕ} {c : Cpu} (h : TableIs t c) : TableIs t (RS_PENDING c) := by
  refine h.frame (frame_RS_PENDING c) ?_ ?_ <;>
    simp [PendingArea, PushArea, MailboxArea, ResyncVars, CrcRecords, RebaseArea, DisplayArea,
      RingPages, Watermarks]

/-- A tick ends with the null table. -/
theorem tableIs_runTick (g : Game) (c : Cpu) (h : c.cell NET_ACTIVE ≠ 0) :
    TableIs NULL_TBL (runTick g c).cpu := by
  have hbody := tickBody_spec g c
  rw [runTick_cpu]
  refine TableIs.pending ?_
  have hkeep := frame_countUp (tickBody g c) TICK_LO TICK_HI
  refine ⟨?_, ?_⟩
  · rw [hkeep.cell_eq (by simp), hbody.frame.cell_eq]
    · exact h
    · simp [TickArea, GameArea, TickScratch, CrcRecords, MailboxArea]
  · rw [hkeep.cell_eq (by simp), hbody.table]

/-! ### Runs -/

/-- A run of a console in a match: the console, whether it has completed a tick, and the steps
so far, each with that flag.
SOURCE: hook.asm:9-41, lockstep.asm:8-380 -/
inductive MatchRun : Console → Bool → List (Bool × Console × Outside) → Prop where
  | start (k : Console) (h : k.cpu.cell NET_ACTIVE ≠ 0) : MatchRun k false []
  | step {k : Console} {t : Bool} {tr : List (Bool × Console × Outside)} (h : MatchRun k t tr)
      (o : Outside) : MatchRun (k.step o) (t || k.phase == .run) ((t, k, o) :: tr)

/-- On a step of the native entries they leave the handler table alone; and the seats the console
indexes its rings with, its own and those of accepted inputs, are known seats. -/
structure Calm (k : Console) (o : Outside) : Prop where
  native : k.phase = .native → (o.game.native k.cpu).cell EXEC_HTBL = k.cpu.cell EXEC_HTBL
  own : k.phase = .due → k.cpu.cell NET_SEAT ≤ 3
  seats : ∀ d ∈ dispatched k o, SeatKnown d

/-- Between two steps: a console that is not parked is in its match, and once it has completed
a tick its handler table is the null table. -/
def TableInv (ticked : Bool) (k : Console) : Prop :=
  k.phase ≠ .parked → ∃ t, TableIs t k.cpu ∧ (ticked = true → t = NULL_TBL)

/-- A calm step keeps it. -/
theorem TableInv.step {ticked : Bool} {k : Console} {o : Outside} (inv : TableInv ticked k)
    (hc : Calm k o) : TableInv (ticked || k.phase == .run) (k.step o) := by
  have hstep := stepped k o
  have hsame : k.phase ≠ .run → (ticked || k.phase == .run) = ticked := by
    intro h
    rw [beq_eq_false_iff_ne.mpr h, Bool.or_false]
  generalize k.step o = k' at hstep ⊢
  intro hnot
  cases hstep with
  | shown h =>
    rw [hsame (by rw [h]; decide)]
    exact inv (by rw [h]; decide)
  | left => exact absurd rfl hnot
  | hold h _ _ hp c' hw =>
    rw [hsame (by rw [h]; decide)]
    obtain ⟨t, ht, hn⟩ := inv (by rw [h]; decide)
    have hfroze : TableIs t (freeze k.cpu) := ht.frame (frame_freeze k.cpu) (by simp [WaitArea])
      (fun hm => htbl_not_pump.2 (Or.inl (Or.inl hm)))
    exact ⟨t, (hfroze.pump (handles_pump _ _) (dispatched_eq hp o ▸ hc.seats)).wait hw, hn⟩
  | pass h _ _ hp =>
    rw [hsame (by rw [h]; decide)]
    obtain ⟨t, ht, hn⟩ := inv (by rw [h]; decide)
    exact ⟨t, ht.pump (handles_pump _ _) (dispatched_eq hp o ▸ hc.seats), hn⟩
  | due h =>
    rw [hsame (by rw [h]; decide)]
    obtain ⟨t, ht, hn⟩ := inv (by rw [h]; decide)
    refine ⟨t, ht.frame (captured k.cpu (hc.own h)).frame ?_ ?_, hn⟩ <;>
      simp [RingPages, MailboxArea]
  | opened h =>
    rw [hsame (by rw [h]; decide)]
    exact inv (by rw [h]; decide)
  | stall h _ hp c' hw =>
    rw [hsame (by rw [h]; decide)]
    obtain ⟨t, ht, hn⟩ := inv (by rw [h]; decide)
    have hfroze : TableIs t (freeze k.cpu) := ht.frame (frame_freeze k.cpu) (by simp [WaitArea])
      (fun hm => htbl_not_pump.2 (Or.inl (Or.inl hm)))
    exact ⟨t, (hfroze.pump (handles_pump _ _) (dispatched_eq hp o ▸ hc.seats)).wait hw, hn⟩
  | tick h =>
    obtain ⟨t, ht, -⟩ := inv (by rw [h]; decide)
    exact ⟨NULL_TBL, tableIs_runTick _ _ ht.active, fun _ => rfl⟩
  | native h =>
    rw [hsame (by rw [h]; decide)]
    obtain ⟨t, ht, hn⟩ := inv (by rw [h]; decide)
    refine ⟨t, ⟨?_, by rw [hc.native h]; exact ht.table⟩, hn⟩
    rw [(Frame.ofGame (o.game.native_frame k.cpu)).cell_eq (by simp [GameArea])]
    exact ht.active
  | scan h =>
    rw [hsame (by rw [h]; decide)]
    obtain ⟨t, ht, hn⟩ := inv (by rw [h]; decide)
    have hact : (o.game.scan k.cpu).cell NET_ACTIVE ≠ 0 := by
      rw [(Frame.ofGame (o.game.scan_frame k.cpu)).cell_eq (by simp [GameArea])]
      exact ht.active
    refine ⟨(o.game.scan k.cpu).cell EXEC_HTBL, ⟨hact, rfl⟩, fun htk => ?_⟩
    exact o.game.scan_null _ (by rw [ht.table, hn htk])
  | parked h => exact absurd h hnot

/-- In a run whose steps are all calm, from the first completed tick on every scan sees the null
table, passes spent in a resync hold included.
SOURCE: lockstep.asm:259-294, vdispatch.asm:484-494, hook.asm:28-79 -/
theorem scans_see_null_table {k : Console} {ticked : Bool}
    {tr : List (Bool × Console × Outside)} (run : MatchRun k ticked tr)
    (hc : ∀ s ∈ tr, Calm s.2.1 s.2.2) :
    (ticked = true → k.phase = .scan → k.cpu.cell EXEC_HTBL = NULL_TBL) ∧
    ∀ s ∈ tr, s.1 = true → s.2.1.phase = .scan → s.2.1.cpu.cell EXEC_HTBL = NULL_TBL := by
  suffices key : TableInv ticked k ∧ ∀ s ∈ tr, TableInv s.1 s.2.1 by
    have hscan : ∀ {t : Bool} {k : Console}, TableInv t k → t = true → k.phase = .scan →
        k.cpu.cell EXEC_HTBL = NULL_TBL := by
      intro t k inv ht hp
      obtain ⟨t', h, hn⟩ := inv (by rw [hp]; decide)
      rw [h.table, hn ht]
    exact ⟨hscan key.1, fun s hs => hscan (key.2 s hs)⟩
  induction run with
  | start k h => exact ⟨fun _ => ⟨_, ⟨h, rfl⟩, fun h => by cases h⟩, by simp⟩
  | step _ o ih =>
    obtain ⟨inv, hall⟩ := ih fun s hs => hc s (List.mem_cons_of_mem _ hs)
    refine ⟨inv.step (hc _ List.mem_cons_self), ?_⟩
    intro s hs
    rcases List.mem_cons.mp hs with rfl | hs
    · exact inv
    · exact hall s hs

/-! ### Concrete runs -/

/-- A poll that finds nothing. -/
def silentPoll : Poll where
  status := .ack 1
  avail := 0
  devStatus := 1
  read := .ack 1
  data := []
  short := by decide
  bytes := by simp

/-- A console in a match, about to run a tick. -/
def readyConsole : Console := ⟨(default : Cpu).sto NET_ACTIVE 1, .run⟩

/-- A cartridge that does nothing. -/
def calmOutside : Outside := ⟨silentPoll, default⟩

/-- After a tick and the native entries, the scan sees the null table. -/
theorem calm_scan_sees_null_table :
    ((readyConsole.step calmOutside).step calmOutside).cpu.cell EXEC_HTBL = NULL_TBL := by
  have run := ((MatchRun.start readyConsole (by decide)).step calmOutside).step calmOutside
  refine (scans_see_null_table run ?_).1 rfl rfl
  intro s hs
  rcases List.mem_cons.mp hs with rfl | hs
  · exact ⟨fun _ => rfl, fun h => (by cases h),
      by simp [dispatched, pumping, Console.step, readyConsole]⟩
  rcases List.mem_cons.mp hs with rfl | hs
  · exact ⟨fun h => (by cases h), fun h => (by cases h), by simp [dispatched, pumping, readyConsole]⟩
  · cases hs

/-- A cartridge one of whose native entries installs the live table `$593C`.
SOURCE: exec_equ.asm:155-168 -/
def installingOutside : Outside :=
  ⟨silentPoll, { (default : Game) with
    native := fun c => c.sto EXEC_HTBL 0x593C
    native_frame := fun _ => ⟨(WritesIn.refl _ _).store _ (Or.inl (by decide)), rfl, rfl, rfl⟩ }⟩

/-- The scan of the pass in which a native entry installs a table dispatches through it. -/
theorem native_table_reaches_scan : ∃ (k : Console) (tr : List (Bool × Console × Outside)),
    MatchRun k true tr ∧ k.phase = .scan ∧ k.cpu.cell EXEC_HTBL ≠ NULL_TBL :=
  ⟨_, _, ((MatchRun.start readyConsole (by decide)).step installingOutside).step
    installingOutside, rfl, by decide +kernel⟩

end BoxingNetplay.Analysis
