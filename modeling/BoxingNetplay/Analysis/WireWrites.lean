import BoxingNetplay.Interface.Pump

/-!
# What the wire can make a console write

A run of a session is any sequence of receptions, extractions and dispatches, with other code
of the console in between.  Handlers store to the protocol's own memory, and inside a hold that
a BEGIN opened also to image, display and countdown cells, as long as two counts the
handlers do not check stay small: the seat of an accepted INPUT, which `NET_COUNT` bounds and START
sets to anything, and the count of a ROOM, which bounds the roster's rows.
-/

set_option autoImplicit false

namespace BoxingNetplay.Analysis

open BoxingNetplay.Library
open BoxingNetplay.Model
open BoxingNetplay.Interface

/-! ### Areas -/

/-- The protocol's own memory: netcode RAM, the receive and frame buffers with the lobby
cache, the ring pages, the CRC records, the screen, and the mailbox.
SOURCE: ram.asm:10-40, 181-200, mailbox.asm:6-22 -/
def WireArea : Set ℕ :=
  {a | (0x8080 ≤ a ∧ a ≤ 0x81FF) ∨ (0x8200 ≤ a ∧ a ≤ 0x83FF) ∨ (0x8400 ≤ a ∧ a ≤ 0x8BFF) ∨
    (0x8C00 ≤ a ∧ a ≤ 0x8C1F) ∨ (0x0200 ≤ a ∧ a ≤ 0x02EF) ∨ (0x9C00 ≤ a ∧ a ≤ 0x9FFF)}

/-- What a frame may store to when it is dispatched on `c`: the protocol's memory and, inside
a hold that a BEGIN opened, the image cells and what a re-baseline restores. -/
def AllowedArea (opened : Bool) (c : Cpu) : Set ℕ :=
  WireArea ∪ {a | (opened = true ∧ c.cell RESYNC_HOLD ≠ 0) ∧ a ∈ ImageCells ∪ DisplayArea}

/-- A cell of cartridge RAM up to the CRC records is the protocol's. -/
theorem mem_wire_cart {a : ℕ} (h1 : 0x8080 ≤ a) (h2 : a ≤ 0x8C1F) : a ∈ WireArea := by
  by_cases h3 : a ≤ 0x81FF
  · exact Or.inl ⟨h1, h3⟩
  by_cases h4 : a ≤ 0x83FF
  · exact Or.inr (Or.inl ⟨by omega, h4⟩)
  by_cases h5 : a ≤ 0x8BFF
  · exact Or.inr (Or.inr (Or.inl ⟨by omega, h5⟩))
  · exact Or.inr (Or.inr (Or.inr (Or.inl ⟨by omega, h2⟩)))

/-- The ring pages are the protocol's. -/
theorem rings_wire : RingPages ⊆ WireArea := by
  rintro a ⟨h1, h2⟩
  simp only [SEAT_RING] at h1 h2
  exact mem_wire_cart (by omega) (by omega)

theorem watermarks_wire : Watermarks ⊆ WireArea := by
  rintro a ⟨h1, h2⟩
  simp only [SEAT_WM] at h1 h2
  exact mem_wire_cart (by omega) (by omega)

theorem records_wire : CrcRecords ⊆ WireArea := by
  rintro a ⟨h1, h2⟩
  simp only [OWN_CRC] at h1 h2
  exact mem_wire_cart (by omega) (by omega)

theorem roster_wire : Roster ⊆ WireArea := by
  rintro a ⟨h1, h2⟩
  simp only [NAME_TBL] at h1 h2
  exact mem_wire_cart (by omega) (by omega)

theorem screen_wire : ScreenArea ⊆ WireArea := by
  rintro a ⟨h1, h2⟩
  simp only [BACKTAB] at h1 h2
  exact Or.inr (Or.inr (Or.inr (Or.inr (Or.inl ⟨by omega, by omega⟩))))

theorem draw_wire : DrawArea ⊆ WireArea := by
  rintro a (rfl | rfl | ha)
  · exact mem_wire_cart (by decide) (by decide)
  · exact mem_wire_cart (by decide) (by decide)
  · exact screen_wire ha

theorem lobby_wire : LobbyData ⊆ WireArea := by
  rintro a (rfl | rfl | rfl | rfl | ⟨h1, h2⟩)
  · exact mem_wire_cart (by decide) (by decide)
  · exact mem_wire_cart (by decide) (by decide)
  · exact mem_wire_cart (by decide) (by decide)
  · exact mem_wire_cart (by decide) (by decide)
  · simp only [LOBBY_CACHE] at h1 h2
    exact mem_wire_cart (by omega) (by omega)

theorem session_wire : SessionArea ⊆ WireArea := by
  rintro a ((ha | ha) | ha)
  · exact draw_wire ha
  · exact lobby_wire ha
  · exact roster_wire ha

theorem mailbox_wire : MailboxArea ⊆ WireArea := by
  rintro a (⟨h1, h2⟩ | ⟨h1, h2⟩ | rfl | rfl | ⟨h1, h2⟩)
  · simp only [MB_DEV, NAVAIL_HI] at h1 h2
    exact mem_wire_cart (by omega) (by omega)
  · simp only [NREQ_LO, NGOT_HI] at h1 h2
    exact mem_wire_cart (by omega) (by omega)
  · exact mem_wire_cart (by decide) (by decide)
  · exact mem_wire_cart (by decide) (by decide)
  · simp only [FN_SEQ] at h1
    exact Or.inr (Or.inr (Or.inr (Or.inr (Or.inr ⟨by omega, h2⟩))))

theorem resync_wire : ResyncVars ⊆ WireArea := by
  rintro a (⟨h1, h2⟩ | rfl | rfl | rfl | rfl | rfl | rfl | rfl)
  · simp only [RESYNC_HOLD, RS_TMP2] at h1 h2
    exact mem_wire_cart (by omega) (by omega)
  all_goals exact mem_wire_cart (by decide) (by decide)

theorem start_wire : StartArea ⊆ WireArea := by
  rintro a ((((h | h) | h) | h) | h)
  · rcases h with rfl | rfl | rfl | rfl | rfl | rfl | rfl | rfl <;>
      exact mem_wire_cart (by decide) (by decide)
  · exact roster_wire h
  · exact rings_wire h
  · exact watermarks_wire h
  · exact records_wire h

theorem left_wire : LeftArea ⊆ WireArea := by
  rintro a (((rfl | rfl | rfl | ⟨h1, h2⟩) | h) | h)
  · exact mem_wire_cart (by decide) (by decide)
  · exact mem_wire_cart (by decide) (by decide)
  · exact mem_wire_cart (by decide) (by decide)
  · simp only [LEFT_NAME] at h1 h2
    exact mem_wire_cart (by omega) (by omega)
  · exact rings_wire h
  · exact watermarks_wire h

/-! ### One dispatch -/

/-- The frame in the buffer does not reach the two unchecked counts: an INPUT that is accepted
names one of the four seats, and a ROOM read before a match has at most nine members. -/
structure Benign (c : Cpu) : Prop where
  seat : c.cell (FRMBUF + 1) = FT_INPUT → inputAccepted c → c.cell (FRMBUF + 2) ≤ 3
  room : c.cell (FRMBUF + 1) = FT_ROOM → c.cell NET_ACTIVE = 0 → c.cell (FRMBUF + 2) ≤ 9

/-- The frame in the buffer is the BEGIN of a state image.
SOURCE: resync.asm:267-290 -/
def isBegin (c : Cpu) : Bool :=
  decide (c.cell (FRMBUF + 1) = FT_STATE ∧ c.cell (FRMBUF + 3) = 0xFF ∧ c.cell (FRMBUF + 2) = 0 ∧
    5 ≤ c.cell FRMBUF)

/-- The frame in the buffer is the END of a state image.
SOURCE: resync.asm:267-285, 340-349 -/
def isEnd (c : Cpu) : Bool :=
  decide (c.cell (FRMBUF + 1) = FT_STATE ∧ c.cell (FRMBUF + 3) = 0xFF ∧ c.cell (FRMBUF + 2) = 1 ∧
    3 ≤ c.cell FRMBUF)

/-- Whether the last BEGIN or END dispatched was a BEGIN. -/
def openedAfter (c : Cpu) (opened : Bool) : Bool := isBegin c || (opened && !isEnd c)

/-- What holds of a console between any two steps of a session: at most eight lobby entries
are cached, and a hold was opened by a BEGIN. -/
structure SessionInv (opened : Bool) (c : Cpu) : Prop where
  lobby : c.cell LOBBY_CNT ≤ 8
  hold : c.cell RESYNC_HOLD ≠ 0 → opened = true

/-- A STATE frame leaves a hold only where there was one, or where it is a BEGIN; an END ends it. -/
theorem hold_of_RS_ON_STATE (c : Cpu) (hty : c.cell (FRMBUF + 1) = FT_STATE)
    (h : (RS_ON_STATE c).cell RESYNC_HOLD ≠ 0) :
    isBegin c = true ∨ (c.cell RESYNC_HOLD ≠ 0 ∧ isEnd c = false) := by
  have hbad : ∀ d, (RS_BAD d).cell RESYNC_HOLD = d.cell RESYNC_HOLD := fun d =>
    (frame_DIAG_BUMP (A := {DIAG_REJ}) d rfl).cell_eq (by simp)
  have hrebase : ∀ d, (RS_REBASE d).cell RESYNC_HOLD = 0 := by
    intro d
    simp [RS_REBASE]
  unfold RS_ON_STATE at h
  simp only at h
  by_cases hlen : c.cell FRMBUF < 3
  · rw [if_pos hlen, hbad] at h
    exact Or.inr ⟨h, decide_eq_false fun hend => by omega⟩
  rw [if_neg hlen] at h
  by_cases hctl : c.cell (FRMBUF + 3) = 0xFF
  · rw [if_pos hctl] at h
    by_cases hb : c.cell (FRMBUF + 2) = 0
    · rw [if_pos hb] at h
      by_cases h5 : c.cell FRMBUF < 5
      · rw [if_pos h5, hbad] at h
        exact Or.inr ⟨h, decide_eq_false fun hend => by omega⟩
      · exact Or.inl (decide_eq_true ⟨hty, hctl, hb, by omega⟩)
    · rw [if_neg hb] at h
      by_cases he : c.cell (FRMBUF + 2) = 1 ∧ c.cell RESYNC_HOLD ≠ 0
      · rw [if_pos he, hrebase] at h
        exact absurd rfl h
      · rw [if_neg he] at h
        exact Or.inr ⟨h, decide_eq_false fun hend => he ⟨hend.2.2.1, h⟩⟩
  · rw [if_neg hctl] at h
    by_cases hhold : c.cell RESYNC_HOLD = 0
    · rw [if_pos hhold, hbad] at h
      exact absurd hhold h
    · exact Or.inr ⟨hhold, decide_eq_false fun hend => hctl hend.2.1⟩

/-- One cell outside all the areas of a match handler. -/
theorem not_mem_match {a : ℕ} (ha : a = LOBBY_CNT ∨ a = RESYNC_HOLD) :
    a ∉ RingPages ∪ Watermarks ∧ a ∉ StartArea ∧ a ∉ LeftArea ∧
      a ∉ {a | a = RS_PEND ∨ a = RS_PTMO} ∪ MailboxArea ∧ a ∉ Roster := by
  have hr : a ∉ RingPages := by
    rintro ⟨h1, h2⟩
    rcases ha with rfl | rfl <;> simp at h1
  have hw : a ∉ Watermarks := by
    rintro ⟨h1, h2⟩
    rcases ha with rfl | rfl <;> simp at h1
  have ho : a ∉ Roster := by
    rintro ⟨h1, h2⟩
    rcases ha with rfl | rfl <;> simp at h1
  have hc : a ∉ CrcRecords := by
    rintro ⟨h1, h2⟩
    rcases ha with rfl | rfl <;> simp at h1
  refine ⟨?_, ?_, ?_, ?_, ho⟩
  · rintro (h | h)
    · exact hr h
    · exact hw h
  · rintro ((((h | h) | h) | h) | h)
    · rcases ha with rfl | rfl <;> simp at h
    · exact ho h
    · exact hr h
    · exact hw h
    · exact hc h
  · rintro ((h | h) | h)
    · rcases ha with rfl | rfl <;> simp at h
    · exact hr h
    · exact hw h
  · rintro (h | h)
    · rcases ha with rfl | rfl <;> simp at h
    · rcases ha with rfl | rfl <;> simp [MailboxArea] at h

/-- Nor is it stored to by a STATE frame, when it is the lobby count. -/
theorem lobby_not_mem_state {p : Prop} :
    LOBBY_CNT ∉ (ResyncVars ∪ CrcRecords) ∪ {a | p ∧ a ∈ ImageCells ∪ RebaseArea} := by
  have hmatch := not_mem_match (a := LOBBY_CNT) (Or.inl rfl)
  have hv : LOBBY_CNT ∉ ResyncVars := by simp [ResyncVars]
  have hc : LOBBY_CNT ∉ CrcRecords := fun h => hmatch.2.1 (Or.inr h)
  rintro ((h | h) | ⟨-, h | h⟩)
  · exact hv h
  · exact hc h
  · simp [ImageCells, RS_TAILTBL] at h
  · rcases h with (((h | h) | h) | h) | h
    · simp [DisplayArea] at h
    · exact hv h
    · exact hmatch.1 (Or.inl h)
    · exact hmatch.1 (Or.inr h)
    · exact hc h

/-- A benign frame is handled inside the allowed area, and keeps the session's invariant. -/
theorem SES_ONFRAME_confined {opened : Bool} {c : Cpu} (inv : SessionInv opened c)
    (hb : Benign c) :
    Frame (AllowedArea opened c) c (SES_ONFRAME c) ∧
      SessionInv (openedAfter c opened) (SES_ONFRAME c) := by
  have hwire : WireArea ⊆ AllowedArea opened c := fun _ h => Or.inl h
  have hmatchL := not_mem_match (a := LOBBY_CNT) (Or.inl rfl)
  have hmatchH := not_mem_match (a := RESYNC_HOLD) (Or.inr rfl)
  have hdraw : RESYNC_HOLD ∉ SessionArea := by
    rintro ((h | h) | h)
    · exact not_mem_draw (by decide) (by decide) (by decide) h
    · rcases h with h | h | h | h | ⟨h, -⟩ <;> simp at h
    · exact hmatchH.2.2.2.2 h
  -- a frame of any type but STATE leaves the flag and the ghost as they are
  have hother : c.cell (FRMBUF + 1) ≠ FT_STATE → ∀ d : Cpu,
      d.cell LOBBY_CNT ≤ 8 → d.cell RESYNC_HOLD = c.cell RESYNC_HOLD →
      SessionInv (openedAfter c opened) d := by
    intro hty d hl hh
    refine ⟨hl, fun hd => ?_⟩
    have hend : isEnd c = false := decide_eq_false fun he => hty he.1
    rw [openedAfter, hend, inv.hold (hh ▸ hd)]
    simp
  have hlobby : ∀ {A : Set ℕ} {d : Cpu}, Frame A c d → LOBBY_CNT ∉ A → d.cell LOBBY_CNT ≤ 8 :=
    fun hf hA => (hf.cell_eq hA).le.trans inv.lobby
  unfold SES_ONFRAME
  simp only
  by_cases h1 : c.cell (FRMBUF + 1) = FT_INPUT
  · rw [if_pos h1]
    have hf := frame_of_input c (hb.seat h1)
    exact ⟨hf.mono fun _ h => hwire (h.elim (fun h => rings_wire h) (fun h => watermarks_wire h)),
      hother (by rw [h1]; decide) _ (hlobby hf hmatchL.1) (hf.cell_eq hmatchH.1)⟩
  rw [if_neg h1]
  by_cases h2 : c.cell (FRMBUF + 1) = FT_LOBBY
  · rw [if_pos h2]
    obtain ⟨hf, hl⟩ := frame_of_lobby c inv.lobby
    have hf' : Frame SessionArea c (of_lobby c) := hf.mono fun _ h => Or.inl h
    exact ⟨hf'.mono fun _ h => hwire (session_wire h),
      hother (by rw [h2]; decide) _ hl (hf'.cell_eq hdraw)⟩
  rw [if_neg h2]
  by_cases h3 : c.cell (FRMBUF + 1) = FT_START
  · rw [if_pos h3]
    have hf := frame_of_start c
    exact ⟨hf.mono fun _ h => hwire (start_wire h),
      hother (by rw [h3]; decide) _ (hlobby hf hmatchL.2.1) (hf.cell_eq hmatchH.2.1)⟩
  rw [if_neg h3]
  by_cases h4 : c.cell (FRMBUF + 1) = FT_PEER_LEFT
  · rw [if_pos h4]
    have hf := frame_of_pl c
    exact ⟨hf.mono fun _ h => hwire (left_wire h),
      hother (by rw [h4]; decide) _ (hlobby hf hmatchL.2.2.1) (hf.cell_eq hmatchH.2.2.1)⟩
  rw [if_neg h4]
  by_cases h5 : c.cell (FRMBUF + 1) = FT_ROOM
  · rw [if_pos h5]
    obtain ⟨hf, hl⟩ := frame_of_room c inv.lobby (hb.room h5)
    exact ⟨hf.mono fun _ h => hwire (session_wire h),
      hother (by rw [h5]; decide) _ (hl.le.trans inv.lobby) (hf.cell_eq hdraw)⟩
  rw [if_neg h5]
  have hpend : {a | a = RS_PEND ∨ a = RS_PTMO} ∪ MailboxArea ⊆ WireArea := by
    rintro a ((rfl | rfl) | ha)
    · exact mem_wire_cart (by decide) (by decide)
    · exact mem_wire_cart (by decide) (by decide)
    · exact mailbox_wire ha
  by_cases h6 : c.cell (FRMBUF + 1) = FT_CRC
  · rw [if_pos h6]
    have hf := frame_RS_ON_CRC c
    exact ⟨hf.mono fun _ h => hwire (hpend h),
      hother (by rw [h6]; decide) _ (hlobby hf hmatchL.2.2.2.1) (hf.cell_eq hmatchH.2.2.2.1)⟩
  rw [if_neg h6]
  by_cases h7 : c.cell (FRMBUF + 1) = FT_STATE
  · rw [if_pos h7]
    have hf := frame_RS_ON_STATE c
    refine ⟨hf.mono ?_, hlobby hf lobby_not_mem_state, fun hh => ?_⟩
    · rintro a ((h | h) | ⟨hhold, h⟩)
      · exact hwire (resync_wire h)
      · exact hwire (records_wire h)
      · have hin : opened = true ∧ c.cell RESYNC_HOLD ≠ 0 := ⟨inv.hold hhold, hhold⟩
        rcases h with h | ((((h | h) | h) | h) | h)
        · exact Or.inr ⟨hin, Or.inl h⟩
        · exact Or.inr ⟨hin, Or.inr h⟩
        · exact hwire (resync_wire h)
        · exact hwire (rings_wire h)
        · exact hwire (watermarks_wire h)
        · exact hwire (records_wire h)
    · rcases hold_of_RS_ON_STATE c h7 hh with hbegin | ⟨hhold, hend⟩
      · rw [openedAfter, hbegin, Bool.true_or]
      · rw [openedAfter, hend, inv.hold hhold]
        simp
  rw [if_neg h7]
  by_cases h8 : c.cell (FRMBUF + 1) = FT_RESYNC
  · rw [if_pos h8]
    have hf := (frame_RS_ON_REQ c).mono (B := {a | a = RS_PEND ∨ a = RS_PTMO} ∪ MailboxArea)
      fun _ h => Or.inl h
    exact ⟨hf.mono fun _ h => hwire (hpend h),
      hother h7 _ (hlobby hf hmatchL.2.2.2.1) (hf.cell_eq hmatchH.2.2.2.1)⟩
  rw [if_neg h8]
  exact ⟨Frame.refl _ c, hother h7 _ inv.lobby rfl⟩

/-! ### Runs -/

/-- What the console does between two steps of its pump: the rest of its program, which
neither changes the number of cached lobby entries nor opens a hold that stays open.
SOURCE: session.asm:95-284, lockstep.asm:8-349 -/
structure Between where
  run : Cpu → Cpu
  lobby : ∀ c, (run c).cell LOBBY_CNT = c.cell LOBBY_CNT
  hold : ∀ c, (run c).cell RESYNC_HOLD ≠ 0 → c.cell RESYNC_HOLD ≠ 0

/-- A run of a session: the machine, whether the last BEGIN or END was a BEGIN, and the
machines frames were dispatched on so far, each with that flag.  It starts in the lobby or in
a match, outside a hold.
SOURCE: session.asm:452-586 -/
inductive SessionRun : Cpu → Bool → List (Bool × Cpu) → Prop where
  | start (c : Cpu) (hl : c.cell LOBBY_CNT ≤ 8) (hh : c.cell RESYNC_HOLD = 0) :
      SessionRun c false []
  | receive {c : Cpu} {o : Bool} {ds : List (Bool × Cpu)} (h : SessionRun c o ds) (p : Poll) :
      SessionRun (receive c p) o ds
  | slip {c c' : Cpu} {o : Bool} {ds : List (Bool × Cpu)} (h : SessionRun c o ds) (b : ℕ)
      (hn : parseNext c = some (c', .slip b)) : SessionRun c' o ds
  | dispatch {c c' : Cpu} {o : Bool} {ds : List (Bool × Cpu)} (h : SessionRun c o ds)
      (f : List ℕ) (hn : parseNext c = some (c', .frame f)) :
      SessionRun (SES_ONFRAME c') (openedAfter c' o) ((o, c') :: ds)
  | between {c : Cpu} {o : Bool} {ds : List (Bool × Cpu)} (h : SessionRun c o ds)
      (b : Between) : SessionRun (b.run c) o ds

/-- Neither touches the lobby count or the hold flag. -/
theorem not_mem_pump {a : ℕ} (ha : a = LOBBY_CNT ∨ a = RESYNC_HOLD) : a ∉ PumpArea := by
  rintro ((h | h) | h)
  · rcases ha with rfl | rfl <;> simp [MailboxArea] at h
  · rcases ha with rfl | rfl <;> simp [RingCells] at h
  · rcases ha with rfl | rfl <;> simp at h

/-- The pump keeps the session's invariant. -/
theorem SessionInv.pump {opened : Bool} {c c' : Cpu} (inv : SessionInv opened c)
    (h : Frame PumpArea c c') : SessionInv opened c' := by
  refine ⟨?_, ?_⟩
  · rw [h.cell_eq (not_mem_pump (Or.inl rfl))]
    exact inv.lobby
  · rw [h.cell_eq (not_mem_pump (Or.inr rfl))]
    exact inv.hold

/-- In a run whose frames are all benign, every dispatch stores inside the allowed area: the
protocol's own memory and, inside a hold a BEGIN opened, the image and display cells.
SOURCE: session.asm:558-792, resync.asm:267-355 -/
theorem dispatches_confined {c : Cpu} {o : Bool} {ds : List (Bool × Cpu)}
    (run : SessionRun c o ds) (hb : ∀ d ∈ ds, Benign d.2) :
    ∀ d ∈ ds, Frame (AllowedArea d.1 d.2) d.2 (SES_ONFRAME d.2) := by
  suffices key : SessionInv o c ∧ ∀ d ∈ ds, Frame (AllowedArea d.1 d.2) d.2 (SES_ONFRAME d.2) from
    key.2
  induction run with
  | start c hl hh => exact ⟨⟨hl, fun h => absurd hh h⟩, by simp⟩
  | receive _ p ih =>
    obtain ⟨inv, hall⟩ := ih hb
    exact ⟨inv.pump (frame_receive _ p), hall⟩
  | slip _ b hn ih =>
    obtain ⟨inv, hall⟩ := ih hb
    exact ⟨inv.pump (frame_parseNext hn), hall⟩
  | dispatch _ f hn ih =>
    obtain ⟨inv, hall⟩ := ih fun d hd => hb d (List.mem_cons_of_mem _ hd)
    obtain ⟨hconf, hinv⟩ := SES_ONFRAME_confined (inv.pump (frame_parseNext hn))
      (hb _ List.mem_cons_self)
    refine ⟨hinv, ?_⟩
    intro d hd
    rcases List.mem_cons.mp hd with rfl | hd
    · exact hconf
    · exact hall d hd
  | between _ b ih =>
    obtain ⟨inv, hall⟩ := ih hb
    refine ⟨⟨?_, fun h => inv.hold (b.hold _ h)⟩, hall⟩
    rw [b.lobby]
    exact inv.lobby

/-! ### Concrete runs -/

/-- Taking a complete frame off the ring. -/
theorem parseNext_frame (c : Cpu) (n : ℕ) (h2 : 2 ≤ buffered c)
    (hok : flenOk (c.cell ((c.cell RX_RD + 1) % 256 + RXACC)) (c.cell (c.cell RX_RD + RXACC)) = true)
    (hn : c.cell (c.cell RX_RD + RXACC) + 1 = n) (hle : n ≤ buffered c) :
    parseNext c = some (extract c FRMBUF n, .frame (frameBuf (extract c FRMBUF n) n)) := by
  unfold parseNext
  rw [if_neg (by omega)]
  simp only [hok, hn]
  rw [if_neg (by decide), if_neg (by omega)]

/-- A START for seat 0 of a match of `count` seats, then an INPUT of seat `seat` for tick
`tick`, delivered to one pump. -/
def startInputPoll (count seat tick : ℕ) (h : count < 256 ∧ seat < 256 ∧ tick < 256) : Poll where
  status := .ack 1
  avail := 46
  devStatus := 1
  read := .ack 1
  data := [38, FT_START, 0, count, 1, 2, 1] ++ List.replicate 32 65 ++
    [6, FT_INPUT, seat, tick, 0, 0x41, 1]
  short := by simp
  bytes := by
    intro b hb
    simp at hb
    omega

section Concrete

variable (count seat tick : ℕ) (h : count < 256 ∧ seat < 256 ∧ tick < 256)

/-- The machine the START is dispatched on. -/
def startHanded : Cpu := extract (receive default (startInputPoll count seat tick h)) FRMBUF 39

/-- The machine the INPUT is dispatched on. -/
def inputHanded : Cpu := extract (SES_ONFRAME (startHanded count seat tick h)) FRMBUF 7

end Concrete

set_option maxRecDepth 20000 in
/-- With `NET_COUNT` at 2, a START and an INPUT of the peer's seat are handled inside the area. -/
theorem peer_input_confined :
    Frame (AllowedArea false (inputHanded 2 1 1 (by decide))) (inputHanded 2 1 1 (by decide))
      (SES_ONFRAME (inputHanded 2 1 1 (by decide))) := by
  have hflag : openedAfter (startHanded 2 1 1 (by decide)) false = false := by decide +kernel
  have hrecv := SessionRun.receive (.start default (by decide) rfl) (startInputPoll 2 1 1 (by decide))
  have hstart := hrecv.dispatch _ (parseNext_frame _ 39 (by decide +kernel) (by decide +kernel)
    (by decide +kernel) (by decide +kernel))
  have hinput := hstart.dispatch _ (parseNext_frame _ 7 (by decide +kernel) (by decide +kernel)
    (by decide +kernel) (by decide +kernel))
  refine hflag ▸ dispatches_confined hinput ?_ _ List.mem_cons_self
  intro d hd
  rcases List.mem_cons.mp hd with rfl | hd
  · exact ⟨fun _ _ => by decide +kernel, fun hty => absurd hty (by decide +kernel)⟩
  rcases List.mem_cons.mp hd with rfl | hd
  · exact ⟨fun hty => absurd hty (by decide +kernel), fun hty => absurd hty (by decide +kernel)⟩
  · cases hd

set_option maxRecDepth 20000 in
/-- A START with a count of 5 lets an INPUT of seat 4 for tick 32 store to `$8C20`, one past
the CRC records. -/
theorem seat_four_input_escapes :
    ∃ (c : Cpu) (o : Bool) (ds : List (Bool × Cpu)), SessionRun c o ds ∧
      ∃ d ∈ ds, ¬ Frame (AllowedArea d.1 d.2) d.2 (SES_ONFRAME d.2) := by
  have hrecv := SessionRun.receive (.start default (by decide) rfl) (startInputPoll 5 4 32 (by decide))
  have hstart := hrecv.dispatch _ (parseNext_frame _ 39 (by decide +kernel) (by decide +kernel)
    (by decide +kernel) (by decide +kernel))
  have hinput := hstart.dispatch _ (parseNext_frame _ 7 (by decide +kernel) (by decide +kernel)
    (by decide +kernel) (by decide +kernel))
  refine ⟨_, _, _, hinput, _, List.mem_cons_self, fun hf => ?_⟩
  have hmem : 0x8C20 ∈ (SES_ONFRAME (inputHanded 5 4 32 (by decide))).mem.stores := by
    decide +kernel
  have hnot : 0x8C20 ∉ (inputHanded 5 4 32 (by decide)).mem.stores := by decide +kernel
  rcases hf.mem_of_stored hmem hnot with hwire | ⟨_, himg | hdisp⟩
  · revert hwire
    simp [WireArea]
  · revert himg
    simp [ImageCells, RS_TAILTBL]
  · revert hdisp
    simp [DisplayArea]

end BoxingNetplay.Analysis
