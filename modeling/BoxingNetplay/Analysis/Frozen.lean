import BoxingNetplay.Analysis.HalfImage
import BoxingNetplay.Analysis.HostPush
import BoxingNetplay.Analysis.LocalInput

/-!
# Interrupts during a resync

The interrupt of the EXEC moves objects unless its phase counter is 0.  A resync must not be
overtaken by it: on the host while a push reads the image, on the guest from the first image byte it
applies to the re-baseline.  Freezing is the business of the hold path, the stalled gate and the
terminal screen; a push runs behind the gate, which has just let the phases run again.
-/

set_option autoImplicit false

namespace BoxingNetplay.Analysis

open BoxingNetplay.Library
open BoxingNetplay.Model
open BoxingNetplay.Interface

/-! ### Interrupts -/

/-- An interrupt returns at once when the phase counter is 0, and otherwise runs the cartridge's phases.
SOURCE: lockstep.asm:351-357 -/
inductive Interrupt (c : Cpu) : Cpu → Prop where
  | skips (h : c.cell ISR_PHASE = 0) : Interrupt c c
  | moves (h : c.cell ISR_PHASE ≠ 0) (c' : Cpu) (hf : GameFrame c c') : Interrupt c c'

/-- A machine that the program passes through from `c` to `c'`, between two of its stores. -/
def OnTheWay (c c' e : Cpu) : Prop := WritesIn Set.univ c.mem e.mem ∧ WritesIn Set.univ e.mem c'.mem

/-- On a way that does not store to it, the phase counter is what it was. -/
theorem OnTheWay.phase {c c' e : Cpu} {A : Set ℕ} (h : OnTheWay c c' e) (hf : Frame A c c')
    (hA : ISR_PHASE ∉ A) : e.cell ISR_PHASE = c.cell ISR_PHASE :=
  hf.writes.cell_between h.1 h.2 hA

/-- The way stores to the phase counter at most once. -/
def StoresOnce (c c' : Cpu) : Prop :=
  ∃ l : List ℕ, c'.mem.stores = l ++ c.mem.stores ∧ l.count ISR_PHASE ≤ 1

/-- When it is 0 before and after, it is 0 on the way. -/
theorem OnTheWay.zero {c c' e : Cpu} (h : OnTheWay c c' e) (hs : StoresOnce c c')
    (h0 : c.cell ISR_PHASE = 0) (h1 : c'.cell ISR_PHASE = 0) : e.cell ISR_PHASE = 0 := by
  obtain ⟨⟨l₁, hl₁, -, hc₁⟩, ⟨l₂, hl₂, -, hc₂⟩⟩ := h
  obtain ⟨l, hl, hcount⟩ := hs
  rw [hl₂, hl₁, ← List.append_assoc] at hl
  have heq : l₂ ++ l₁ = l := List.append_cancel_right hl
  rw [← heq, List.count_append] at hcount
  by_cases hmem : ISR_PHASE ∈ l₂
  · -- the one store is still to come
    apply (hc₁ ISR_PHASE _).trans h0
    intro hin
    have := List.count_pos_iff.mpr hin
    have := List.count_pos_iff.mpr hmem
    omega
  · exact (hc₂ ISR_PHASE hmem).symm.trans h1

/-- Freezing stores to it once, and stores 0. -/
theorem storesOnce_freeze (c : Cpu) : StoresOnce c (freeze c) := by
  unfold freeze
  split
  · exact ⟨[], rfl, by simp⟩
  · exact ⟨[ISR_PHASE, LS_SAVE102, LS_FROZE], rfl, by decide⟩

/-- A counter that is 0 stays 0 when it is frozen. -/
theorem phase_freeze {c : Cpu} (h0 : c.cell ISR_PHASE = 0) : (freeze c).cell ISR_PHASE = 0 := by
  unfold freeze
  split
  · exact h0
  · simp

/-! ### Runs -/

/-- A pump with interrupts.  The flag says whether an image is half applied; until it is, interrupts may do
what they do.  The list is the machines on which interrupts were entered during the resync; there
the run goes on as after an interrupt that found 0.
SOURCE: session.asm:452-553, resync.asm:286-349 -/
inductive WatchedPump (careful : Bool) : Bool → Cpu → List Cpu → Bool → Cpu → Prop where
  | moves {b : Bool} {c c' : Cpu} (hm : Moves c c') (es : List Cpu)
      (he : ∀ e ∈ es, b = true ∧ OnTheWay c c' e) : WatchedPump careful b c es b c'
  | interrupt {b' : Bool} {c d d' c' : Cpu} {es : List Cpu} (hm : Moves c d) (hi : Interrupt d d')
      (h : WatchedPump careful false d' es b' c') : WatchedPump careful false c es b' c'
  | hand {b b' : Bool} {c d c' : Cpu} (es₁ es₂ : List Cpu) {es : List Cpu} (hm : Moves c d)
      (hty : d.cell (FRMBUF + 1) ≠ FT_START) (he₁ : ∀ e ∈ es₁, b = true ∧ OnTheWay c d e)
      (he₂ : ∀ e ∈ es₂, (b = true ∨ AppliesImage d) ∧ ¬ Rebases d ∧ OnTheWay d (SES_ONFRAME d) e)
      (hc : careful = true → b = false → AppliesImage d → d.cell ISR_PHASE = 0)
      (h : WatchedPump careful (halfAfter b d) (SES_ONFRAME d) es b' c') :
      WatchedPump careful b c (es₁ ++ es₂ ++ es) b' c'

/-- A round of the hold after its pump.
SOURCE: lockstep.asm:45-61 -/
def holdTail (c : Cpu) : Cpu :=
  let lo := c.cell RS_TO_LO + 1
  let c := c.sto RS_TO_LO lo
  if lo ≠ 0x100 then c
  else
    let hi := c.cell RS_TO_HI + 1
    let c := c.sto RS_TO_HI hi
    if hi < RS_HOLD_TMO / 256 then c
    else LS_IDLE_RMT ((giveUp c).sto RESYNC_HOLD 0)

/-- A round of the shut gate after its pump.
SOURCE: lockstep.asm:231-246 -/
def stallTail (c : Cpu) : Cpu :=
  let lo := c.cell LS_WAITC_LO + 1
  let c := c.sto LS_WAITC_LO lo
  if lo ≠ 0x100 then c
  else
    let hi := c.cell LS_WAITC_HI + 1
    let c := c.sto LS_WAITC_HI hi
    if hi < LS_TIMEOUT / 256 then c else LS_IDLE_RMT (giveUp c)

/-- What a step does after its pump.
SOURCE: lockstep.asm:45-61, 231-246 -/
def afterPump (k : Console) (d : Cpu) : Console :=
  match k.phase with
  | .pass => if k.cpu.cell RESYNC_HOLD ≠ 0 then ⟨holdTail d, .native⟩ else ⟨d, .due⟩
  | _ => ⟨stallTail d, .gate⟩

/-- The machine on which `RS_PENDING` calls `RS_PUSH`.
SOURCE: resync.asm:438-470 -/
def pushStart (c : Cpu) : Cpu :=
  let c := c.sto RS_PTMO (c.cell RS_PTMO + 1)
  let c := c.sto RS_GATE (if c.cell SC_PHASE % 2 ≠ 0 then 1 else 2)
  c.sto RS_WAITED (c.cell RS_PTMO)

/-- The push up to its first image byte.
SOURCE: resync.asm:163-206 -/
def pushBegin (c : Cpu) : Cpu :=
  let c := RS_ENTER_HOLD c
  let r := (word c TICK_LO TICK_HI + 16) % 65536
  let c := (c.sto RS_R_LO r).sto RS_R_HI (swap r)
  let c := sendFrame c [5, FT_STATE, 0, 0xFF, c.cell RS_R_LO, c.cell RS_R_HI]
  (c.sto RS_POS_LO 0).sto RS_POS_HI 0

/-- A match of a console with interrupts, whether an image is half applied, and the machines on which
interrupts were entered during a resync.  It starts outside a hold, with seats as the relay gives
them.  In a careful run an image is applied and a push begins only while the phase counter is 0, no tick runs
on half an image, and on half an image the cartridge leaves the counter alone.
SOURCE: lockstep.asm:8-380, resync.asm:163-256, hook.asm:9-41 -/
inductive WatchedRun (careful : Bool) : Console → Bool → List Cpu → Prop where
  | start (c : Cpu) (ha : c.cell NET_ACTIVE ≠ 0) (hs : c.cell NET_SEAT ≤ 3) (hn : c.cell NET_COUNT ≤ 4)
      (hh : c.cell RESYNC_HOLD = 0) : WatchedRun careful ⟨c, .pass⟩ false []
  | interrupt {k : Console} {es : List Cpu} {c' : Cpu} (h : WatchedRun careful k false es)
      (hi : Interrupt k.cpu c') : WatchedRun careful ⟨c', k.phase⟩ false es
  | pump {k : Console} {b b' : Bool} {c d : Cpu} {es : List Cpu} (es₁ : List Cpu) {es₂ : List Cpu}
      (es₃ : List Cpu) (h : WatchedRun careful k b es) (hp : pumping k = some c)
      (he₁ : ∀ e ∈ es₁, b = true ∧ OnTheWay k.cpu c e) (hpump : WatchedPump careful b c es₂ b' d)
      (he₃ : ∀ e ∈ es₃, b' = true ∧ OnTheWay d (afterPump k d).cpu e) :
      WatchedRun careful (afterPump k d) b' (es ++ es₁ ++ es₂ ++ es₃)
  | tick {k : Console} {b : Bool} {c : Cpu} {es : List Cpu} (es₁ es₂ : List Cpu)
      (h : WatchedRun careful k b es) (hp : k.phase = .run) (o : Outside) (hc : careful = true → b = false)
      (hi : c = countUp (tickBody o.game k.cpu) TICK_LO TICK_HI ∨
        b = false ∧ Interrupt (countUp (tickBody o.game k.cpu) TICK_LO TICK_HI) c)
      (he₁ : ∀ e ∈ es₁, b = true ∧ OnTheWay k.cpu c e)
      (hpush : careful = true → Pushes c → c.cell ISR_PHASE = 0)
      (he₂ : ∀ e ∈ es₂, Pushes c ∧ OnTheWay (pushBegin (pushStart c)) (pushBody (pushStart c)) e) :
      WatchedRun careful ⟨RS_PENDING c, .native⟩ b (es ++ es₁ ++ es₂)
  | cartridge {k : Console} {b : Bool} {es : List Cpu} (es₁ : List Cpu)
      (h : WatchedRun careful k b es) (hp : k.phase = .native ∨ k.phase = .scan) (o : Outside)
      (hc : careful = true → b = true → Frame {a | a ≠ ISR_PHASE} k.cpu (k.step o).cpu)
      (he₁ : ∀ e ∈ es₁, b = true ∧ OnTheWay k.cpu (k.step o).cpu e) :
      WatchedRun careful (k.step o) b (es ++ es₁)
  | quiet {k : Console} {b : Bool} {es : List Cpu} (es₁ : List Cpu)
      (h : WatchedRun careful k b es) (hp : pumping k = none)
      (hph : k.phase ∉ [Phase.run, .native, .scan]) (o : Outside)
      (he₁ : ∀ e ∈ es₁, b = true ∧ OnTheWay k.cpu (k.step o).cpu e) :
      WatchedRun careful (k.step o) b (es ++ es₁)

/-- A step that pumps is its pump and what comes after. -/
theorem step_afterPump {k : Console} {c : Cpu} (hp : pumping k = some c) (o : Outside) :
    k.step o = afterPump k (SES_PUMP SES_ONFRAME c o.poll).cpu := by
  unfold pumping at hp
  unfold Console.step afterPump
  cases hph : k.phase with
  | pass =>
    simp only [hph] at hp ⊢
    unfold Console.stepPass
    split at hp
    · cases hp
    split at hp
    · cases hp
    rename_i hs hd
    rw [if_neg hs, if_neg hd]
    split at hp
    · rename_i hh
      injection hp with hp
      rw [if_pos hh, if_pos hh, ← hp]
      rfl
    · rename_i hh
      injection hp with hp
      rw [if_neg hh, if_neg hh, ← hp]
  | gate =>
    simp only [hph] at hp ⊢
    split at hp
    · cases hp
    rename_i ho
    injection hp with hp
    rw [if_neg ho, ← hp]
    rfl
  | due => simp [hph] at hp
  | run => simp [hph] at hp
  | native => simp [hph] at hp
  | scan => simp [hph] at hp
  | parked => simp [hph] at hp

/-- A console on which no interrupt is entered makes such a run. -/
theorem WatchedPump.uninterrupted {b : Bool} {c c' : Cpu} {ds : List Cpu} (h : Handles SES_ONFRAME c ds c')
    (hds : ∀ d ∈ ds, d.cell (FRMBUF + 1) ≠ FT_START) :
    WatchedPump false b c [] (ds.foldl halfAfter b) c' := by
  induction h generalizing b with
  | done hm => exact .moves hm [] nofun
  | @hand c d c' ds hm _ ih =>
    have hrest := ih (b := halfAfter b d) fun d hd => hds d (List.mem_cons_of_mem _ hd)
    exact .hand [] [] hm (hds _ List.mem_cons_self) nofun nofun nofun hrest

/-- `RS_PENDING` pushes there. -/
theorem RS_PENDING_pushStart {c : Cpu} (h : Pushes c) : RS_PENDING c = RS_PUSH (pushStart c) := by
  obtain ⟨hpend, hseat, hhold, hgate⟩ := h
  unfold RS_PENDING pushStart
  extract_lets c1 push c2
  rw [if_neg hpend, if_neg (by simpa using hseat), if_neg (by simpa using hhold)]
  by_cases hq : c1.cell SC_PHASE % 2 ≠ 0
  · have h2 : c2 = c1.sto RS_GATE 1 := congrArg (c1.sto RS_GATE) (if_pos hq)
    rw [if_pos hq, h2]
  · have h2 : c2 = c1.sto RS_GATE 2 := congrArg (c1.sto RS_GATE) (if_neg hq)
    have hphase : c1.cell SC_PHASE = c.cell SC_PHASE := by simp [c1]
    have hwait : c1.cell RS_PTMO = (c.cell RS_PTMO + 1) % 256 := by simp [c1, cellWidth]
    have hmax : ¬ c1.cell RS_PTMO < RS_PEND_MAX := by
      rw [hphase] at hq
      rw [hwait]
      exact Nat.not_lt.mpr (hgate.resolve_left hq)
    rw [if_neg hq, if_neg hmax, h2]

/-! ### What leaves the counter alone -/

/-- Everything but the phase counter and the cells that say who plays. -/
def Beside : Set ℕ :=
  {a | a ≠ ISR_PHASE ∧ a ≠ NET_ACTIVE ∧ a ≠ NET_SEAT ∧ a ≠ NET_COUNT}

/-- The phase counter is not beside itself. -/
theorem phase_not_beside : ISR_PHASE ∉ Beside := fun h => h.1 rfl

/-- A match of at most four seats. -/
structure SeatsKept (c : Cpu) : Prop where
  active : c.cell NET_ACTIVE ≠ 0
  seat : c.cell NET_SEAT ≤ 3
  count : c.cell NET_COUNT ≤ 4

/-- It depends on three cells. -/
theorem SeatsKept.congr {c c' : Cpu} (h : SeatsKept c)
    (heq : ∀ a, a = NET_ACTIVE ∨ a = NET_SEAT ∨ a = NET_COUNT → c'.cell a = c.cell a) : SeatsKept c' where
  active := by
    rw [heq _ (Or.inl rfl)]
    exact h.active
  seat := (heq _ (Or.inr (Or.inl rfl))).le.trans h.seat
  count := (heq _ (Or.inr (Or.inr rfl))).le.trans h.count

/-- What is stored beside them changes nothing about it. -/
theorem SeatsKept.beside {c c' : Cpu} (h : SeatsKept c) (hf : Frame Beside c c') : SeatsKept c' := by
  apply h.congr
  rintro a (rfl | rfl | rfl) <;> apply hf.cell_eq <;> simp [Beside]

/-- All cells from the ring pages on are. -/
theorem beside_high {a : ℕ} (h : 0x8400 ≤ a) : a ∈ Beside := by
  simp only [Beside, Set.mem_ofPred_eq, ISR_PHASE, NET_ACTIVE, NET_SEAT, NET_COUNT]
  omega

theorem rings_beside : RingPages ⊆ Beside := fun _ h => beside_high h.1

theorem records_beside : CrcRecords ⊆ Beside := by
  rintro a ⟨h, -⟩
  simp only [OWN_CRC] at h
  exact beside_high (by omega)

theorem watermarks_beside : Watermarks ⊆ Beside := by
  rintro a ⟨h1, h2⟩
  simp only [SEAT_WM] at h1 h2
  simp only [Beside, Set.mem_ofPred_eq, ISR_PHASE, NET_ACTIVE, NET_SEAT, NET_COUNT]
  omega

theorem mailbox_beside : MailboxArea ⊆ Beside := by
  intro a h
  simp only [MailboxArea, Set.mem_ofPred_eq, MB_DEV, NAVAIL_HI, NREQ_LO, NGOT_HI, DIAG_TMO, DIAG_ERR,
    FN_SEQ] at h
  simp only [Beside, Set.mem_ofPred_eq, ISR_PHASE, NET_ACTIVE, NET_SEAT, NET_COUNT]
  omega

theorem resync_beside : ResyncVars ⊆ Beside := by
  intro a h
  simp only [ResyncVars, Set.mem_ofPred_eq, RESYNC_HOLD, RS_TMP2, DIAG_REJ, RS_PEND, RS_PTMO, TICK_LO,
    TICK_HI, LS_WAITC_LO, LS_WAITC_HI] at h
  simp only [Beside, Set.mem_ofPred_eq, ISR_PHASE, NET_ACTIVE, NET_SEAT, NET_COUNT]
  omega

theorem display_beside : DisplayArea ⊆ Beside := by
  intro a h
  simp only [DisplayArea, Set.mem_ofPred_eq, STIC_CS, STIC_EXT, ISR_VEC_LO, ISR_VEC_HI, SC_ISR_SAVE,
    BX_CNT2_LO, BX_CNT4_HI] at h
  simp only [Beside, Set.mem_ofPred_eq, ISR_PHASE, NET_ACTIVE, NET_SEAT, NET_COUNT]
  omega

theorem rebase_beside : RebaseArea ⊆ Beside := by
  rintro a ((((h | h) | h) | h) | h)
  · exact display_beside h
  · exact resync_beside h
  · exact rings_beside h
  · exact watermarks_beside h
  · exact records_beside h

theorem image_beside : ImageCells ⊆ Beside := by
  intro a h
  have := image_cases h
  simp only [Beside, Set.mem_ofPred_eq, ISR_PHASE, NET_ACTIVE, NET_SEAT, NET_COUNT]
  omega

theorem pump_beside : PumpArea ⊆ Beside := by
  rintro a ((h | h) | h)
  · exact mailbox_beside h
  all_goals
    simp only [Beside, Set.mem_ofPred_eq, ISR_PHASE, NET_ACTIVE, NET_SEAT, NET_COUNT]
  · rcases h with h | h | ⟨h1, h2⟩
    · simp only [RX_WR] at h
      omega
    · simp only [RX_RD] at h
      omega
    · simp only [RXACC] at h1 h2
      omega
  · rcases h with h | ⟨h1, h2⟩
    · simp only [DIAG_SLIP] at h
      omega
    · simp only [FRMBUF] at h1 h2
      omega

/-- During a match a frame leaves the counter alone. -/
theorem frame_in_match {d : Cpu} (h : SeatsKept d) (hty : d.cell (FRMBUF + 1) ≠ FT_START) :
    Frame Beside d (SES_ONFRAME d) := by
  have hinputs : RingPages ∪ Watermarks ⊆ Beside := Set.union_subset rings_beside watermarks_beside
  apply SES_ONFRAME_rule (P := Frame Beside d) d
  · intro _
    apply (frame_of_input d _).mono hinputs
    intro hacc
    have := hacc.2.2.1
    have := h.count
    omega
  · intro _
    rw [show of_lobby d = d from if_pos h.active]
    exact Frame.refl _ d
  · intro hs
    exact absurd hs hty
  · intro _
    apply (frame_of_pl d).mono
    rintro a ((ha | ha) | ha)
    · simp only [Beside, Set.mem_ofPred_eq, ISR_PHASE, NET_ACTIVE, NET_SEAT, NET_COUNT]
      simp only [PEER_WHY, NET_DROPPED, LEFT_SEAT, LEFT_NAME, Set.mem_ofPred_eq] at ha
      omega
    · exact rings_beside ha
    · exact watermarks_beside ha
  · intro _
    rw [show of_room d = d from if_pos h.active]
    exact Frame.refl _ d
  · intro _
    apply (frame_RS_ON_CRC d).mono
    rintro a ((rfl | rfl) | ha)
    · exact resync_beside (by simp [ResyncVars])
    · exact resync_beside (by simp [ResyncVars])
    · exact mailbox_beside ha
  · intro _
    apply (frame_RS_ON_STATE d).mono
    rintro a ((ha | ha) | ⟨-, ha | ha⟩)
    · exact resync_beside ha
    · exact records_beside ha
    · exact image_beside ha
    · exact rebase_beside ha
  · intro _
    apply (frame_RS_ON_REQ d).mono
    rintro a (rfl | rfl) <;> exact resync_beside (by simp [ResyncVars])
  · exact Frame.refl _ d

/-- Giving up leaves the counter alone. -/
theorem beside_idle {c c' : Cpu} (h : Frame Beside c c') : Frame Beside c (LS_IDLE_RMT c') := by
  apply h.trans
  apply (frame_LS_IDLE_RMT c').mono
  exact Set.union_subset rings_beside watermarks_beside

/-- So does what a step does after its pump. -/
theorem beside_afterPump (k : Console) (d : Cpu) : Frame Beside d (afterPump k d).cpu := by
  have hgive : ∀ {c : Cpu}, Frame Beside d c → Frame Beside d (giveUp c) := fun h =>
    (h.sto (by simp [Beside])).sto (by simp [Beside])
  have hhold : Frame Beside d (holdTail d) := by
    unfold holdTail
    extract_lets lo c1 hi c2
    have h1 : Frame Beside d c1 := (Frame.refl _ d).sto (by simp [Beside])
    have h2 : Frame Beside d c2 := h1.sto (by simp [Beside])
    apply Frame.ite (fun _ => h1)
    intro _
    exact Frame.ite (fun _ => h2) fun _ => beside_idle ((hgive h2).sto (by simp [Beside]))
  have hstall : Frame Beside d (stallTail d) := by
    unfold stallTail
    extract_lets lo c1 hi c2
    have h1 : Frame Beside d c1 := (Frame.refl _ d).sto (by simp [Beside])
    have h2 : Frame Beside d c2 := h1.sto (by simp [Beside])
    apply Frame.ite (fun _ => h1)
    intro _
    exact Frame.ite (fun _ => h2) fun _ => beside_idle (hgive h2)
  unfold afterPump
  split
  · split
    · exact hhold
    · exact Frame.refl _ d
  · exact hstall

/-- And the sending of an image. -/
theorem beside_pushStart (c : Cpu) : Frame Beside c (pushStart c) :=
  (((Frame.refl _ c).sto (by simp [Beside])).sto (by simp [Beside])).sto (by simp [Beside])

/-- A push up to its re-baseline stores beside them. -/
theorem beside_pushBody (c : Cpu) : Frame Beside c (pushBody c) := by
  apply (pushed c).frame.mono
  rintro a (((h | h) | h) | h)
  · exact mailbox_beside h
  · exact resync_beside h
  · exact records_beside h
  · obtain rfl : a = LS_TMPB := h
    simp [Beside]

/-- The image is read on the way of the push. -/
theorem pushBegin_way (c : Cpu) : WritesIn Set.univ c.mem (pushBegin c).mem := by
  unfold pushBegin
  extract_lets c1 r c2 c3
  have h1 : Frame Set.univ c c1 := (frame_RS_ENTER_HOLD c).mono (Set.subset_univ _)
  have h2 : Frame Set.univ c c2 := (h1.sto trivial).sto trivial
  have h3 : Frame Set.univ c c3 :=
    h2.trans ((frame_sendFrame c2 _ (by simp)).mono (Set.subset_univ _))
  exact ((h3.sto trivial).sto trivial).writes

/-- An interrupt during a push finds what the push began with. -/
theorem phase_during_push {c e : Cpu} (h : OnTheWay (pushBegin (pushStart c)) (pushBody (pushStart c)) e) :
    e.cell ISR_PHASE = c.cell ISR_PHASE := by
  have hway : OnTheWay (pushStart c) (pushBody (pushStart c)) e :=
    ⟨(pushBegin_way _).trans h.1, h.2⟩
  rw [hway.phase (beside_pushBody _) phase_not_beside,
    (beside_pushStart c).cell_eq phase_not_beside]

/-! ### Frozen throughout -/

/-- The invariant: the seats are a match's, and on half an image the counter is 0. -/
structure FrozenInv (b : Bool) (c : Cpu) : Prop where
  seats : SeatsKept c
  frozen : b = true → c.cell ISR_PHASE = 0

/-- The invariant stays through stores beside them. -/
theorem FrozenInv.beside {b : Bool} {c c' : Cpu} (h : FrozenInv b c) (hf : Frame Beside c c') :
    FrozenInv b c' := by
  apply FrozenInv.mk (h.seats.beside hf)
  intro hb
  rw [hf.cell_eq phase_not_beside]
  exact h.frozen hb

/-- Code of the cartridge and interrupts keep the seats. -/
theorem SeatsKept.game {c c' : Cpu} (h : SeatsKept c) (hf : GameFrame c c') : SeatsKept c' := by
  apply h.congr
  rintro a (rfl | rfl | rfl) <;> apply (Frame.ofGame hf).cell_eq <;> simp [GameArea]

/-- An interrupt keeps the seats as well. -/
theorem SeatsKept.interrupt {c c' : Cpu} (h : SeatsKept c) (hi : Interrupt c c') : SeatsKept c' := by
  cases hi with
  | skips => exact h
  | moves _ _ hf => exact h.game hf

/-- In a careful run a pump keeps it, and no interrupt of the resync finds anything but 0. -/
theorem FrozenInv.pump {b b' : Bool} {c c' : Cpu} {es : List Cpu} (hp : WatchedPump true b c es b' c')
    (inv : FrozenInv b c) : FrozenInv b' c' ∧ ∀ e ∈ es, e.cell ISR_PHASE = 0 := by
  induction hp with
  | moves hm es he =>
    have hf := hm.frame.mono pump_beside
    apply And.intro (inv.beside hf)
    intro e hin
    obtain ⟨hb, hway⟩ := he e hin
    rw [hway.phase hf phase_not_beside]
    exact inv.frozen hb
  | interrupt hm hi _ ih =>
    have hd := inv.beside (hm.frame.mono pump_beside)
    exact ih ⟨hd.seats.interrupt hi, nofun⟩
  | @hand b b' c d c' es₁ es₂ es hm hty he₁ he₂ hc _ ih =>
    have hf := hm.frame.mono pump_beside
    have hd := inv.beside hf
    have hframe := frame_in_match hd.seats hty
    have hzero : b = true ∨ AppliesImage d → d.cell ISR_PHASE = 0 := by
      intro hor
      cases hb : b with
      | true => exact hd.frozen hb
      | false => exact hc rfl hb (hor.resolve_left (by simp [hb]))
    have hafter : FrozenInv (halfAfter b d) (SES_ONFRAME d) := by
      apply FrozenInv.mk (hd.seats.beside hframe)
      intro hhalf
      rw [hframe.cell_eq phase_not_beside]
      apply hzero
      unfold halfAfter at hhalf
      split at hhalf
      · cases hhalf
      split at hhalf
      · exact Or.inr ‹_›
      · exact Or.inl hhalf
    obtain ⟨hend, hes⟩ := ih hafter
    apply And.intro hend
    intro e hin
    rw [List.mem_append, List.mem_append] at hin
    rcases hin with (hin | hin) | hin
    · obtain ⟨hb, hway⟩ := he₁ e hin
      rw [hway.phase hf phase_not_beside]
      exact inv.frozen hb
    · obtain ⟨hor, -, hway⟩ := he₂ e hin
      rw [hway.phase hframe phase_not_beside]
      exact hzero hor
    · exact hes e hin

/-- The machine a step pumps on: the console's own, or frozen. -/
theorem pumping_cases {k : Console} {c : Cpu} (hp : pumping k = some c) : c = k.cpu ∨ c = freeze k.cpu := by
  unfold pumping at hp
  split at hp
  · split at hp
    · cases hp
    split at hp
    · cases hp
    split at hp
    · exact Or.inr (Option.some.inj hp).symm
    · exact Or.inl (Option.some.inj hp).symm
  · split at hp
    · cases hp
    · exact Or.inr (Option.some.inj hp).symm
  · cases hp

/-- Freezing the game, as the gate and the hold do, keeps the invariant. -/
theorem FrozenInv.wait {b : Bool} {c : Cpu} (inv : FrozenInv b c) : FrozenInv b (freeze c) := by
  constructor
  · apply inv.seats.congr
    intro a ha
    apply (frame_freeze c).cell_eq
    rcases ha with rfl | rfl | rfl <;> simp [WaitArea]
  · intro hb
    exact phase_freeze (inv.frozen hb)

/-- The terminal screen leaves the counter alone. -/
theorem beside_LS_PEER_LEFT (c : Cpu) : Frame Beside c (LS_PEER_LEFT c) := by
  have hlow : ∀ {a}, a < 0x8000 → a ≠ ISR_PHASE → a ∈ Beside := by
    intro a h1 h2
    simp only [Beside, Set.mem_ofPred_eq, NET_ACTIVE, NET_SEAT, NET_COUNT]
    exact ⟨h2, by omega, by omega, by omega⟩
  have hscreen : ScreenArea ⊆ Beside := by
    rintro a ⟨h1, h2⟩
    simp only [BACKTAB] at h1 h2
    exact hlow (by omega) (by simp only [ISR_PHASE]; omega)
  have hprint : ∀ {d : Cpu} (off : ℕ) (s : List ℕ), Frame Beside c d → off + s.length ≤ 240 →
      Frame Beside c (UI_PRINT d off s) := fun off s hd hs =>
    hd.trans ((frame_UI_PRINT _ off s hs).mono hscreen)
  have hhex : ∀ {d : Cpu} (v off : ℕ), Frame Beside c d → off + 2 ≤ 240 →
      Frame Beside c (UI_HEX2 d v off) := by
    intro d v off hd hs
    apply hd.blit
    intro x hx1 hx2
    simp only [BACKTAB, List.length_cons, List.length_nil] at hx1 hx2
    exact hscreen (mem_screen (by simp only [BACKTAB]; omega) (by simp only [BACKTAB]; omega))
  have hdance : Frame Beside c (DANCE_SETTLE c) := by
    apply Frame.ite (fun _ => Frame.refl _ c)
    intro _
    exact ((Frame.refl _ c).sto (by simp [Beside])).sto (by simp [Beside])
  have hnormal : Frame Beside c (UI_DISPLAY_NORMALIZE (DANCE_SETTLE c)) := by
    apply Frame.fill (Frame.fill _ _) _
    · exact ((hdance.sto (by simp [Beside])).sto (by simp [Beside])).sto (by simp [Beside])
    · intro x h1 h2
      simp only [STIC_CS] at h1 h2
      exact hlow (by omega) (by simp only [ISR_PHASE]; omega)
    · intro x h1 h2
      exact hlow (by omega) (by simp only [ISR_PHASE]; omega)
  unfold LS_PEER_LEFT
  extract_lets c1 c2 c3 c4 c5
  have h1 : Frame Beside c c1 := hnormal.trans ((frame_UI_CLS _).mono fun a ha => by
    rcases ha with rfl | rfl | ha
    · simp [Beside]
    · simp [Beside]
    · exact hscreen ha)
  have h2 : Frame Beside c c2 := Frame.ite (fun _ => hprint _ _ h1 (by decide))
    fun _ => hprint _ _ h1 (by decide)
  have h3 : Frame Beside c c3 := by
    apply hprint _ _ h2
    have := length_ramString_le 9 c2 LEFT_NAME
    omega
  have h4 : Frame Beside c c4 := hprint _ _ (hprint _ _ h3 (by decide)) (by decide)
  exact hhex _ _ (hhex _ _ (hhex _ _ (hhex _ _ h4 (by omega)) (by omega)) (by omega)) (by omega)

/-- Code of the cartridge that leaves the counter alone keeps all of it. -/
theorem FrozenInv.game {b : Bool} {c c' : Cpu} (inv : FrozenInv b c) (hf : GameFrame c c')
    (hc : b = true → Frame {a | a ≠ ISR_PHASE} c c') : FrozenInv b c' := by
  apply FrozenInv.mk (inv.seats.game hf)
  intro hb
  rw [(hc hb).cell_eq (by simp)]
  exact inv.frozen hb

/-- A tick keeps the seats, its push included. -/
theorem SeatsKept.tick {c : Cpu} (h : SeatsKept c) (g : Game) :
    SeatsKept (countUp (tickBody g c) TICK_LO TICK_HI) := by
  apply h.congr
  intro a ha
  have hm : a ∈ MatchCells := Or.inl (Or.inl (Or.inl (by rcases ha with rfl | rfl | rfl <;> simp)))
  rw [(frame_countUp _ _ _).cell_eq (by rcases ha with rfl | rfl | rfl <;> simp)]
  exact (tickBody_spec g c).frame.cell_eq (match_not_tick hm (match_not_mailbox hm))

/-- What a push that is put off stores to is beside them. -/
theorem pending_beside : PendingArea ⊆ Beside := by
  rintro a ((((( h | h) | h) | h) | h) | h)
  · exact mailbox_beside h
  · exact resync_beside h
  · exact records_beside h
  · obtain rfl : a = LS_TMPB := h
    simp [Beside]
  · exact rebase_beside h
  · rcases h with rfl | rfl | rfl <;> simp [Beside]

theorem SeatsKept.pending {c : Cpu} (h : SeatsKept c) : SeatsKept (RS_PENDING c) :=
  h.beside ((frame_RS_PENDING c).mono pending_beside)

/-- A capture leaves the counter alone. -/
theorem beside_captureSend {c : Cpu} (h : SeatsKept c) : Frame Beside c (captureSend c) := by
  apply (captured c h.seat).frame.mono
  rintro a ((ha | rfl | rfl) | ha)
  · exact rings_beside ha
  · simp [Beside]
  · simp [Beside]
  · exact mailbox_beside ha

/-- A quiet step keeps the invariant, and what an interrupt finds on half an image is 0. -/
theorem FrozenInv.quiet {k : Console} {b : Bool} (inv : FrozenInv b k.cpu) (hp : pumping k = none)
    (hph : k.phase ∉ [Phase.run, .native, .scan]) (o : Outside) :
    FrozenInv b (k.step o).cpu ∧
      ∀ e, b = true → OnTheWay k.cpu (k.step o).cpu e → e.cell ISR_PHASE = 0 := by
  have hbeside : Frame Beside k.cpu (k.step o).cpu → FrozenInv b (k.step o).cpu ∧
      ∀ e, b = true → OnTheWay k.cpu (k.step o).cpu e → e.cell ISR_PHASE = 0 := by
    intro hf
    apply And.intro (inv.beside hf)
    intro e hb hway
    rw [hway.phase hf phase_not_beside]
    exact inv.frozen hb
  cases hphase : k.phase with
  | pass =>
    by_cases hs : k.cpu.cell PEER_SCR ≠ 0
    · apply hbeside
      rw [show k.step o = ⟨k.cpu, .native⟩ by
        unfold Console.step Console.stepPass
        rw [hphase]
        exact if_pos hs]
      exact Frame.refl _ _
    by_cases hd : k.cpu.cell NET_DROPPED ≠ 0
    · rw [show k.step o = ⟨(LS_PEER_LEFT (freeze k.cpu)).sto PEER_SCR 1, .parked⟩ by
        unfold Console.step Console.stepPass
        rw [hphase]
        exact (if_neg hs).trans (if_pos hd)]
      have hscreen : Frame Beside (freeze k.cpu) ((LS_PEER_LEFT (freeze k.cpu)).sto PEER_SCR 1) :=
        (beside_LS_PEER_LEFT _).sto (by simp [Beside])
      apply And.intro (inv.wait.beside hscreen)
      intro e hb hway
      -- the freeze is the one store to the counter; the screen has none
      have hfrozen := phase_freeze (inv.frozen hb)
      apply hway.zero _ (inv.frozen hb)
      · rw [hscreen.cell_eq phase_not_beside]
        exact hfrozen
      · obtain ⟨l, hl, hcount⟩ := storesOnce_freeze k.cpu
        obtain ⟨l', hl', hin, -⟩ := hscreen.writes
        refine ⟨l' ++ l, by rw [hl', hl, List.append_assoc], ?_⟩
        rw [List.count_append, List.count_eq_zero_of_not_mem fun h => phase_not_beside (hin _ h)]
        omega
    · exfalso
      unfold pumping at hp
      rw [hphase] at hp
      simp only [if_neg hs, if_neg hd] at hp
      split at hp <;> cases hp
  | due =>
    apply hbeside
    rw [show k.step o = ⟨captureSend k.cpu, .gate⟩ by unfold Console.step; rw [hphase]]
    exact beside_captureSend inv.seats
  | gate =>
    apply hbeside
    have ho : gateOpen k.cpu = true := by
      by_contra ho
      unfold pumping at hp
      rw [hphase] at hp
      simp only [if_neg ho] at hp
      cases hp
    rw [show k.step o = ⟨k.cpu, .run⟩ by
      unfold Console.step
      rw [hphase]
      exact if_pos ho]
    exact Frame.refl _ _
  | parked =>
    apply hbeside
    rw [show k.step o = k by unfold Console.step; rw [hphase]]
    exact Frame.refl _ _
  | run => exact absurd hphase (by rintro h; simp [h] at hph)
  | native => exact absurd hphase (by rintro h; simp [h] at hph)
  | scan => exact absurd hphase (by rintro h; simp [h] at hph)

/-- Every step of a careful run keeps the invariant, and no interrupt finds anything but 0. -/
theorem FrozenInv.run {k : Console} {b : Bool} {es : List Cpu} (h : WatchedRun true k b es) :
    FrozenInv b k.cpu ∧ ∀ e ∈ es, e.cell ISR_PHASE = 0 := by
  induction h with
  | start c ha hs hn _ => exact ⟨⟨⟨ha, hs, hn⟩, nofun⟩, nofun⟩
  | interrupt _ hi ih =>
    obtain ⟨inv, hes⟩ := ih
    exact ⟨⟨inv.seats.interrupt hi, nofun⟩, hes⟩
  | @pump k b b' c d es es₁ es₂ es₃ _ hp he₁ hpump he₃ ih =>
    obtain ⟨inv, hes⟩ := ih
    have hstart : FrozenInv b c := by
      rcases pumping_cases hp with rfl | rfl
      · exact inv
      · exact inv.wait
    obtain ⟨hd, hes₂⟩ := hstart.pump hpump
    have hafter := beside_afterPump k d
    apply And.intro (hd.beside hafter)
    intro e hin
    simp only [List.mem_append] at hin
    rcases hin with ((hin | hin) | hin) | hin
    · exact hes e hin
    · obtain ⟨hb, hway⟩ := he₁ e hin
      apply hway.zero _ (inv.frozen hb) (hstart.frozen hb)
      rcases pumping_cases hp with rfl | rfl
      · exact ⟨[], rfl, by simp⟩
      · exact storesOnce_freeze _
    · exact hes₂ e hin
    · obtain ⟨hb, hway⟩ := he₃ e hin
      rw [hway.phase hafter phase_not_beside]
      exact hd.frozen hb
  | @tick k b c es es₁ es₂ _ hp o hc hi he₁ hpush he₂ ih =>
    obtain ⟨inv, hes⟩ := ih
    have hb : b = false := hc rfl
    have hseats : SeatsKept c := by
      rcases hi with rfl | ⟨-, hi⟩
      · exact inv.seats.tick o.game
      · exact (inv.seats.tick o.game).interrupt hi
    refine ⟨⟨hseats.pending, fun h => absurd h (by simp [hb])⟩, ?_⟩
    intro e hin
    simp only [List.mem_append] at hin
    rcases hin with (hin | hin) | hin
    · exact hes e hin
    · exact absurd (he₁ e hin).1 (by simp [hb])
    · obtain ⟨hp, hway⟩ := he₂ e hin
      rw [phase_during_push hway]
      exact hpush rfl hp
  | @cartridge k b es es₁ _ hp o hc he₁ ih =>
    obtain ⟨inv, hes⟩ := ih
    have hgame : GameFrame k.cpu (k.step o).cpu := by
      unfold Console.step
      rcases hp with hp | hp <;> rw [hp]
      · exact o.game.native_frame _
      · exact o.game.scan_frame _
    apply And.intro (inv.game hgame (hc rfl))
    intro e hin
    rcases List.mem_append.mp hin with hin | hin
    · exact hes e hin
    · obtain ⟨hb, hway⟩ := he₁ e hin
      rw [hway.phase (hc rfl hb) (by simp)]
      exact inv.frozen hb
  | @quiet k b es es₁ _ hp hph o he₁ ih =>
    obtain ⟨inv, hes⟩ := ih
    obtain ⟨hstep, hzero⟩ := inv.quiet hp hph o
    apply And.intro hstep
    intro e hin
    rcases List.mem_append.mp hin with hin | hin
    · exact hes e hin
    · exact hzero e (he₁ e hin).1 (he₁ e hin).2

/-- In a run whose images are applied and whose pushes begin only while the counter is 0, in which no
tick runs on half an image and the cartridge leaves the counter alone there, every interrupt during a
resync finds 0.
SOURCE: lockstep.asm:14-61, 215-258, resync.asm:163-256 -/
theorem frozen_during_resync {k : Console} {b : Bool} {es : List Cpu} (h : WatchedRun true k b es) :
    ∀ e ∈ es, e.cell ISR_PHASE = 0 :=
  (FrozenInv.run h).2

/-! ### Concrete runs -/

/-- The rest of a push after its first image byte. -/
theorem pushBody_way (c : Cpu) : WritesIn Set.univ (pushBegin c).mem (pushBody c).mem := by
  have himage := pushStep_sendImage 9 (pushBegin c) (pushBegin c) 0 (by decide)
    (by simp [pushBegin, word]) fun _ _ => rfl
  have hend := frame_sendFrame (sendImage (pushBegin c) 9) [3, FT_STATE, 1, 0xFF] (by simp)
  exact ((himage.frame.mono (Set.subset_univ _)).trans (hend.mono (Set.subset_univ _))).writes

/-- The host of a match of two that owes a push, between two rounds, with this phase counter; after
so many steps with nothing arriving. -/
def owingHost (phase : ℕ) : ℕ → Console
  | 0 => ⟨(((((default : Cpu).sto NET_ACTIVE 1).sto NET_COUNT 2).sto RS_PEND 1).sto BX_MATCHOVER 1).sto
      ISR_PHASE phase, .pass⟩
  | n + 1 => (owingHost phase n).step calmOutside

/-- That host at the end of its tick. -/
def owingTicked (phase : ℕ) : Cpu :=
  countUp (tickBody calmOutside.game (owingHost phase 3).cpu) TICK_LO TICK_HI

set_option maxRecDepth 20000 in
/-- It captures, waits and runs, with nothing to hand on, and at the end of the tick it pushes. -/
theorem owingHost_ready : ∀ phase ≤ 1, (owingHost phase 1).phase = .due ∧ (owingHost phase 2).phase = .gate ∧
    (owingHost phase 3).phase = .run ∧ pumpHanded SES_ONFRAME (owingHost phase 0).cpu silentPoll = [] ∧
    pumping (owingHost phase 2) = none ∧ Pushes (owingTicked phase) ∧
    (owingTicked phase).cell ISR_PHASE = phase := by
  unfold Pushes
  decide +kernel

/-- It pushes on its first tick, and an interrupt is entered when the image has gone out. -/
theorem owing_run {careful : Bool} {phase : ℕ} (h : phase ≤ 1) (hc : careful = true → phase = 0) :
    WatchedRun careful (owingHost phase 4) false [pushBody (pushStart (owingTicked phase))] := by
  obtain ⟨h1, h2, h3, hquiet, hopen, hpushes, hphase⟩ := owingHost_ready phase h
  have hdef : ∀ a, (default : Cpu).cell a = 0 := fun _ => rfl
  have hpump : pumping (owingHost phase 0) = some (owingHost phase 0).cpu := by
    simp [pumping, owingHost, hdef]
  have hpumped : WatchedPump careful false (owingHost phase 0).cpu [] false
      (SES_PUMP SES_ONFRAME (owingHost phase 0).cpu silentPoll).cpu := by
    have hmoves := handles_pump (f := SES_ONFRAME) (owingHost phase 0).cpu silentPoll
    rw [hquiet] at hmoves
    cases hmoves with
    | done hm => exact .moves hm [] (List.forall_mem_nil _)
  have run0 : WatchedRun careful (owingHost phase 0) false [] :=
    .start _ (by simp [cellWidth]) (by simp [hdef]) (by simp [cellWidth]) (by simp [hdef])
  have run1 : WatchedRun careful (owingHost phase 1) false [] := by
    rw [show owingHost phase 1 = (owingHost phase 0).step calmOutside from rfl,
      step_afterPump hpump]
    exact .pump [] [] run0 hpump (List.forall_mem_nil _) hpumped (List.forall_mem_nil _)
  have run2 : WatchedRun careful (owingHost phase 2) false [] :=
    WatchedRun.quiet [] run1 (by simp [pumping, h1]) (by simp [h1]) calmOutside (List.forall_mem_nil _)
  have run3 : WatchedRun careful (owingHost phase 3) false [] :=
    WatchedRun.quiet [] run2 hopen (by simp [h2]) calmOutside (List.forall_mem_nil _)
  have hstep : owingHost phase 4 = ⟨RS_PENDING (owingTicked phase), .native⟩ := by
    rw [show owingHost phase 4 = (owingHost phase 3).step calmOutside from rfl]
    unfold Console.step
    simp only [h3, runTick_cpu]
    exact congrArg (fun c => Console.mk (RS_PENDING c) .native) rfl
  rw [hstep]
  generalize hd : owingTicked phase = d at hpushes hphase ⊢
  apply WatchedRun.tick (c := d) [] _ run3 h3 calmOutside (fun _ => rfl) (Or.inl hd.symm)
    (List.forall_mem_nil _)
  · intro hcar _
    exact hphase.trans (hc hcar)
  · intro e he
    have hin : e = pushBody (pushStart d) := List.mem_singleton.mp he
    rw [hin]
    exact ⟨hpushes, pushBody_way _, WritesIn.refl _ _⟩

/-- With the phase counter at 0 the interrupt finds 0. -/
theorem skipped_during_push : (pushBody (pushStart (owingTicked 0))).cell ISR_PHASE = 0 :=
  frozen_during_resync (owing_run (by decide) fun _ => rfl) _ List.mem_cons_self

/-- With the phases running it moves the objects of the image that is going out. -/
theorem moved_during_push :
    ¬ ∀ (k : Console) (b : Bool) (es : List Cpu), WatchedRun false k b es →
      ∀ e ∈ es, e.cell ISR_PHASE = 0 := by
  intro h
  have hzero := h _ _ _ (owing_run le_rfl nofun) _ List.mem_cons_self
  have hway : OnTheWay (pushBegin (pushStart (owingTicked 1))) (pushBody (pushStart (owingTicked 1)))
      (pushBody (pushStart (owingTicked 1))) := ⟨pushBody_way _, WritesIn.refl _ _⟩
  have hone : (owingTicked 1).cell ISR_PHASE = 1 := (owingHost_ready 1 le_rfl).2.2.2.2.2.2
  rw [phase_during_push hway, hone] at hzero
  cases hzero

end BoxingNetplay.Analysis
