import BoxingNetplay.Interface.Push
import BoxingNetplay.Interface.Pump

/-!
# What the parts of a pass store to

The pieces of `LS_PASS` around the pump: capture and send, the freeze of the interrupt, the
tick with its dispatches and the code of the cartridge behind them.  A tick stores
to memory of the cartridge and to scratch cells of the netcode; the rings, the watermarks and
the match state are not among them.
-/

set_option autoImplicit false

namespace BoxingNetplay.Interface

open BoxingNetplay.Library
open BoxingNetplay.Model

/-! ### Areas -/

/-- What freezing the interrupt and counting a wait store to.
SOURCE: lockstep.asm:20-61, 215-246 -/
def WaitArea : Set ℕ :=
  {a | a = LS_FROZE ∨ a = LS_SAVE102 ∨ a = ISR_PHASE ∨ a = LS_WAITC_LO ∨ a = LS_WAITC_HI ∨
    a = RS_TO_LO ∨ a = RS_TO_HI}

/-- The netcode's scratch cells of a tick: the freeze flag and the wait counter it clears, the
parked table, the dispatch cells, the countdown mirrors, the quiescence flag and two temporaries.
SOURCE: lockstep.asm:247-349, vdispatch.asm:379-541, hook.asm:233-262 -/
def TickScratch : Set ℕ :=
  {a | a = LS_FROZE ∨ a = LS_WAITC_LO ∨ a = LS_WAITC_HI ∨ (GAME_TBL_LO ≤ a ∧ a ≤ VD_KPPRE) ∨
    a = VD_CTRL ∨ (SC_CNT2 ≤ a ∧ a ≤ SC_CNT7) ∨ a = BX_QUIESCENT ∨ a = LS_TMPB ∨ a = LS_TMPB2}

/-- What a tick stores to before it counts itself. -/
def TickArea : Set ℕ := GameArea ∪ TickScratch ∪ CrcRecords ∪ MailboxArea

theorem game_tick : GameArea ⊆ TickArea := fun _ h => Or.inl (Or.inl (Or.inl h))
theorem scratch_tick : TickScratch ⊆ TickArea := fun _ h => Or.inl (Or.inl (Or.inr h))

/-- The cells of a match that only the handlers, the captures and a re-baseline change: seat,
delay, count, tick, watermarks, rings, hold, agreed tick, pending request, the end of the
match, and the receive ring. -/
def MatchCells : Set ℕ :=
  {a | a = NET_SEAT ∨ a = NET_DELAY ∨ a = NET_ACTIVE ∨ a = NET_DROPPED ∨ a = NET_COUNT ∨
    a = TICK_LO ∨ a = TICK_HI ∨ a = RESYNC_HOLD ∨ a = RS_R_LO ∨ a = RS_R_HI ∨ a = RS_PEND ∨
    a = PEER_SCR} ∪ Watermarks ∪ RingPages ∪ RingCells

/-- The match cells by address. -/
theorem match_cases {a : ℕ} (h : a ∈ MatchCells) :
    (a = 0x8160 ∨ a = 0x8161 ∨ a = 0x8162 ∨ a = 0x8163 ∨ a = 0x819D ∨ a = 0x8108 ∨
      a = 0x8109 ∨ a = 0x8090 ∨ a = 0x8091 ∨ a = 0x8092 ∨ a = 0x8187 ∨ a = 0x8185) ∨
      (0x81A0 ≤ a ∧ a < 0x81A8) ∨ (0x8400 ≤ a ∧ a < 0x8C00) ∨
      (a = 0x8134 ∨ a = 0x8135 ∨ (0x8200 ≤ a ∧ a < 0x8300)) := by
  rcases h with ((h | h) | h) | h
  · exact Or.inl h
  · exact Or.inr (Or.inl h)
  · exact Or.inr (Or.inr (Or.inl h))
  · exact Or.inr (Or.inr (Or.inr h))

/-- Match cells are netcode cells, apart from the scratch cells. -/
theorem match_bounds {a : ℕ} (h : a ∈ MatchCells) :
    0x8090 ≤ a ∧ a < 0x8C00 ∧ a ≠ RNG_LO ∧ a ≠ RNG_HI ∧ a ∉ TickScratch := by
  have hcases := match_cases h
  have hscratch : a ∈ TickScratch → (a = 0x816A ∨ a = 0x816C ∨ a = 0x816D ∨
      (0x80C0 ≤ a ∧ a ≤ 0x80C7) ∨ a = 0x81A8 ∨ (0x8196 ≤ a ∧ a ≤ 0x819B) ∨ a = 0x81AF ∨
      a = 0x8168 ∨ a = 0x8169) := fun h => h
  refine ⟨by omega, by omega, by simp only [RNG_LO]; omega, by simp only [RNG_HI]; omega, fun h => ?_⟩
  have := hscratch h
  omega

/-- A match cell is not a cell of the cartridge's memory. -/
theorem match_not_game {a : ℕ} (h : a ∈ MatchCells) : a ∉ GameArea := by
  obtain ⟨h1, -, h3, h4, -⟩ := match_bounds h
  rintro (hg | hg | hg)
  · omega
  · exact h3 hg
  · exact h4 hg

/-- A match cell is not stored to by a tick before the tick counts itself. -/
theorem match_not_tick {a : ℕ} (h : a ∈ MatchCells) (hr : a ∉ MailboxArea) : a ∉ TickArea := by
  obtain ⟨-, h2, -, -, h5⟩ := match_bounds h
  rintro (((hg | hs) | hc) | hm)
  · exact match_not_game h hg
  · exact h5 hs
  · have : 0x8C00 ≤ a := hc.1
    omega
  · exact hr hm

/-- A match cell is not stored to by a wait. -/
theorem match_not_wait {a : ℕ} (h : a ∈ MatchCells) : a ∉ WaitArea := by
  have hcases := match_cases h
  intro hw
  have hwait : a = 0x816A ∨ a = 0x816B ∨ a = 0x0102 ∨ a = 0x816C ∨ a = 0x816D ∨ a = 0x8093 ∨
      a = 0x8094 := hw
  omega

/-- A match cell is not stored to by the applier. -/
theorem match_not_apply {a : ℕ} (h : a ∈ MatchCells) : a ∉ ApplyArea := by
  have hcases := match_cases h
  rintro (hv | himg)
  · have hvars : a = 0x8095 ∨ a = 0x8098 ∨ a = 0x8096 ∨ a = 0x8097 := hv
    omega
  · have := image_cases himg
    omega

/-- Match cells are apart from the mailbox. -/
theorem match_not_mailbox {a : ℕ} (h : a ∈ MatchCells) : a ∉ MailboxArea := by
  have hcases := match_cases h
  intro hm
  have hbox : (0x8114 ≤ a ∧ a ≤ 0x811E) ∨ (0x8130 ≤ a ∧ a ≤ 0x8133) ∨ a = 0x8182 ∨ a = 0x8183 ∨
      (0x9C03 ≤ a ∧ a ≤ 0x9FFF) := hm
  omega

/-! ### Waiting -/

/-- Freezing the interrupt is a wait. -/
theorem frame_freeze (c : Cpu) : Frame WaitArea c (freeze c) := by
  refine Frame.ite (fun _ => Frame.refl _ c) (fun _ => Frame.sto (Frame.sto (Frame.sto
    (Frame.refl _ c) ?_) ?_) ?_) <;> simp [WaitArea]

/-- So is letting it run again. -/
theorem frame_unfreeze (c : Cpu) : Frame WaitArea c (unfreeze c) := by
  refine Frame.ite (fun _ => Frame.refl _ c) (fun _ => Frame.sto (Frame.sto (Frame.sto (Frame.sto
    (Frame.refl _ c) ?_) ?_) ?_) ?_) <;> simp [WaitArea]

/-- Freezing the game sends nothing. -/
theorem silent_freeze (c : Cpu) : Silent c (freeze c) :=
  Silent.ite (Silent.refl c) (Silent.refl c).sto.sto.sto

/-- Letting it run sends nothing. -/
theorem silent_unfreeze (c : Cpu) : Silent c (unfreeze c) :=
  Silent.ite (Silent.refl c) (Silent.refl c).sto.sto.sto.sto

/-! ### The code of the cartridge -/

/-- A call of the cartridge stores to its memory and sends nothing. -/
structure Plays (c c' : Cpu) : Prop where
  frame : Frame (GameArea ∪ TickScratch) c c'
  silent : Silent c c'

namespace Plays

variable {c c' c'' : Cpu}

theorem refl (c : Cpu) : Plays c c := ⟨Frame.refl _ c, Silent.refl c⟩

theorem trans (h : Plays c c') (h' : Plays c' c'') : Plays c c'' :=
  ⟨h.frame.trans h'.frame, h.silent.trans h'.silent⟩

/-- A store to a scratch cell of the tick. -/
theorem sto (h : Plays c c') {a v : ℕ} (ha : a ∈ TickScratch) : Plays c (c'.sto a v) :=
  ⟨h.frame.sto (Or.inr ha), h.silent.sto⟩

/-- Either branch of a test. -/
theorem ite {p : Prop} [Decidable p] (h : Plays c c') (h' : Plays c c'') :
    Plays c (if p then c' else c'') :=
  ⟨Frame.ite (fun _ => h.frame) (fun _ => h'.frame), Silent.ite h.silent h'.silent⟩

/-- What the cartridge does on one occasion. -/
theorem game (h : GameFrame c c') : Plays c c' :=
  ⟨(Frame.ofGame h).mono fun _ h => Or.inl h, ⟨h.out, h.replies⟩⟩

/-- Match cells are not played with. -/
theorem match_eq (h : Plays c c') {a : ℕ} (ha : a ∈ MatchCells) : c'.cell a = c.cell a := by
  refine h.frame.cell_eq ?_
  rintro (hg | hs)
  · exact match_not_game ha hg
  · exact (match_bounds ha).2.2.2.2 hs

end Plays

section Tick

variable (g : Game) (c : Cpu)

/-- Letting the game run is such a call. -/
theorem plays_unfreeze : Plays c (unfreeze c) := by
  refine ⟨Frame.ite (fun _ => Frame.refl _ c) (fun _ => Frame.sto (Frame.sto (Frame.sto (Frame.sto
    (Frame.refl _ c) ?_) ?_) ?_) ?_), silent_unfreeze c⟩
  · exact Or.inr (Or.inl rfl)
  · exact Or.inr (Or.inr (Or.inl rfl))
  · exact Or.inr (Or.inr (Or.inr (Or.inl rfl)))
  · exact Or.inl (Or.inl (by decide))

theorem plays_LS_TBL_ADOPT : Plays c (LS_TBL_ADOPT c) := by
  refine Plays.ite (Plays.refl c) (((Plays.refl c).sto ?_).sto ?_) <;> simp [TickScratch]

theorem plays_installTable : Plays c (installTable c) := by
  refine ⟨Frame.ite (fun _ => Frame.refl _ c) (fun _ => ?_),
    Silent.ite (Silent.refl c) (Silent.refl c).sto⟩
  exact (Frame.refl _ c).sto (Or.inl (Or.inl (by decide)))

theorem plays_selectSeat (seat : ℕ) : Plays c (selectSeat c seat) := by
  refine ((Plays.refl c).sto ?_).sto ?_ <;> simp [TickScratch]

theorem plays_LS_VCALL (r0 : ℕ) : Plays c (LS_VCALL g c r0) := by
  unfold LS_VCALL
  extract_lets tbl r4 entry
  exact Plays.ite (Plays.refl c) (Plays.ite (Plays.refl c) (Plays.game (g.handler_frame _ _ _ c)))

/-- One virtual dispatch plays. -/
theorem plays_LS_VDISPATCH : Plays c (LS_VDISPATCH g c) := by
  unfold LS_VDISPATCH
  extract_lets rd c1 c2 pre c3 kp c4 c5 cur
  have h2 : Plays c c2 := by
    repeat' apply Plays.sto
    · exact Plays.refl c
    all_goals simp [TickScratch]
  have hcall : ∀ (d : Cpu) (v r0 : ℕ), Plays c d → Plays c (LS_VCALL g (d.sto VD_TMP v) r0) := by
    intro d v r0 hd
    exact (hd.sto (by simp [TickScratch])).trans (plays_LS_VCALL g _ r0)
  have h3 : Plays c c3 := Plays.ite h2 (hcall c2 _ _ h2)
  have h5 : Plays c c5 := Plays.ite h3 (hcall c3 _ _ h3)
  exact Plays.ite h5 (Plays.ite (hcall c5 _ _ h5) (Plays.ite h5 (hcall c5 _ _ h5)))

/-- The game tick plays. -/
theorem plays_BX_GAME_TICK : Plays c (BX_GAME_TICK g c) := by
  unfold BX_GAME_TICK
  repeat' apply Plays.sto
  · exact Plays.game (g.tick1_frame c)
  all_goals simp [TickScratch]

end Tick

/-! ### The tick -/

/-- A tick up to the increment of the counter, as `runTick` computes it.
SOURCE: lockstep.asm:247-330 -/
def tickBody (g : Game) (c : Cpu) : Cpu :=
  let c := BX_GAME_TICK g (LS_VDISPATCH g (runTick g c).atSeat1)
  crcReport ((LS_TBL_ADOPT c).sto EXEC_HTBL NULL_TBL)

/-- A tick is its body, the increment and the deferred push. -/
theorem runTick_cpu (g : Game) (c : Cpu) :
    (runTick g c).cpu = RS_PENDING (countUp (tickBody g c) TICK_LO TICK_HI) := rfl

/-- The machine at the first dispatch. -/
theorem plays_atSeat0 (g : Game) (c : Cpu) : Plays c (runTick g c).atSeat0 :=
  (plays_unfreeze c).trans ((plays_LS_TBL_ADOPT _).trans
    ((plays_installTable _).trans (plays_selectSeat _ 0)))

/-- The machine at the second. -/
theorem plays_atSeat1 (g : Game) (c : Cpu) : Plays c (runTick g c).atSeat1 :=
  (plays_atSeat0 g c).trans ((plays_LS_VDISPATCH g _).trans (plays_selectSeat _ 1))

/-- The machine the CRC report starts from. -/
theorem plays_tick (g : Game) (c : Cpu) :
    Plays c ((LS_TBL_ADOPT (BX_GAME_TICK g (LS_VDISPATCH g (runTick g c).atSeat1))).sto
      EXEC_HTBL NULL_TBL) := by
  have h := (plays_atSeat1 g c).trans ((plays_LS_VDISPATCH g _).trans
    ((plays_BX_GAME_TICK g _).trans (plays_LS_TBL_ADOPT _)))
  exact ⟨h.frame.sto (Or.inl (Or.inl (by decide))), h.silent.sto⟩

/-- The record of a tick is one of the eight. -/
theorem frame_RS_RECORD_CRC (c : Cpu) : Frame CrcRecords c (RS_RECORD_CRC c) := by
  refine (Frame.refl _ c).blit ?_
  intro x h1 h2
  simp only [crcSlot, List.length_cons, List.length_nil] at h1 h2
  exact ⟨by omega, by omega⟩

theorem display_game : DisplayArea ⊆ GameArea := by
  intro a h
  simp only [DisplayArea, STIC_CS, STIC_EXT, ISR_VEC_LO, ISR_VEC_HI, SC_ISR_SAVE, BX_CNT2_LO,
    BX_CNT4_HI] at h
  refine Or.inl ?_
  rcases h with h | h | h | h | h | h | h <;> omega

/-- What the CRC report stores to. -/
def ReportArea : Set ℕ := DisplayArea ∪ CrcRecords ∪ MailboxArea ∪ {a | a = LS_TMPB ∨ a = LS_TMPB2}

theorem report_tick : ReportArea ⊆ TickArea := by
  rintro a (((h | h) | h) | h)
  · exact game_tick (display_game h)
  · exact Or.inl (Or.inr h)
  · exact Or.inr h
  · refine scratch_tick ?_
    rcases h with rfl | rfl <;> simp [TickScratch]

/-- What the CRC report sends: nothing, or one CRC frame of this seat and tick. -/
inductive Report (c : Cpu) : List (List ℕ) → Prop where
  | none : Report c []
  | crc (lo hi : ℕ) (h : lo < 256 ∧ hi < 256) : Report c
      [[6, FT_CRC, c.cell NET_SEAT, c.cell TICK_LO, c.cell TICK_HI, lo, hi]]

/-- The CRC report stores to its area and sends its frame. -/
theorem crcReport_spec (c : Cpu) :
    Frame ReportArea c (crcReport c) ∧ ∃ fs, Report c fs ∧ Sends fs.flatten c (crcReport c) := by
  unfold crcReport
  extract_lets c1 sum c2
  have h2 : Frame (DisplayArea ∪ CrcRecords ∪ {a | a = LS_TMPB ∨ a = LS_TMPB2}) c c2 := by
    refine (((frame_RS_DISPLAY_RESET c).mono ?_).sto ?_).sto ?_ |>.trans
      ((frame_RS_RECORD_CRC _).mono fun _ h => Or.inl (Or.inr h))
    · exact fun _ h => Or.inl (Or.inl h)
    · exact Or.inr (Or.inl rfl)
    · exact Or.inr (Or.inr rfl)
  have hkeep : ∀ a, a = NET_SEAT ∨ a = TICK_LO ∨ a = TICK_HI → c2.cell a = c.cell a := by
    intro a ha
    refine h2.cell_eq ?_
    rintro ((h | h) | h)
    · rcases ha with rfl | rfl | rfl <;> simp [DisplayArea] at h
    · rcases ha with rfl | rfl | rfl <;> simp [CrcRecords] at h
    · rcases ha with rfl | rfl | rfl <;> simp at h
  by_cases h : c.cell TICK_LO % 64 ≠ 0
  · rw [if_pos h]
    exact ⟨Frame.refl _ c, [], .none, Sends.silent rfl rfl⟩
  · rw [if_neg h, hkeep NET_SEAT (by simp), hkeep TICK_LO (by simp), hkeep TICK_HI (by simp)]
    have hbyte : ∀ d : Cpu, ∀ a, 0x8000 ≤ a → a ≤ 0x9FFF → d.cell a < 256 :=
      fun d a h1 h2 => d.cell_lt_cart h1 h2
    refine ⟨(h2.mono ?_).trans ((frame_sendFrame _ _ (by simp)).mono fun _ h => Or.inl (Or.inr h)),
      _, .crc (c2.cell LS_TMPB) (c2.cell LS_TMPB2) ⟨?_, ?_⟩, ?_⟩
    · rintro a ((h | h) | h)
      · exact Or.inl (Or.inl (Or.inl h))
      · exact Or.inl (Or.inl (Or.inr h))
      · exact Or.inr h
    · exact hbyte c2 _ (by decide) (by decide)
    · exact hbyte c2 _ (by decide) (by decide)
    · rw [List.flatten_cons, List.flatten_nil, List.append_nil]
      refine (sends_frame c2 _ (by simp) ?_).after_silent (c := c) rfl rfl
      intro b hb
      simp only [List.mem_cons, List.not_mem_nil, or_false] at hb
      rcases hb with rfl | rfl | rfl | rfl | rfl | rfl | rfl
      · decide
      · decide
      all_goals exact hbyte _ _ (by decide) (by decide)

/-- The body of a tick keeps the match, nulls the handler table and sends what its CRC
report sends. -/
structure TickBody (c c' : Cpu) : Prop where
  frame : Frame TickArea c c'
  table : c'.cell EXEC_HTBL = NULL_TBL
  sends : ∃ fs, Report c fs ∧ Sends fs.flatten c c'

/-- The body of a tick. -/
theorem tickBody_spec (g : Game) (c : Cpu) : TickBody c (tickBody g c) := by
  have hplay := plays_tick g c
  unfold tickBody
  simp only
  generalize hd : (LS_TBL_ADOPT (BX_GAME_TICK g (LS_VDISPATCH g (runTick g c).atSeat1))).sto
    EXEC_HTBL NULL_TBL = d at hplay ⊢
  obtain ⟨hf, fs, hr, hs⟩ := crcReport_spec d
  have hm : ∀ a, a = NET_SEAT ∨ a = TICK_LO ∨ a = TICK_HI → d.cell a = c.cell a := by
    intro a ha
    refine hplay.match_eq (Or.inl (Or.inl (Or.inl ?_)))
    rcases ha with rfl | rfl | rfl <;> simp
  refine ⟨(hplay.frame.mono fun _ h => Or.inl (Or.inl h)).trans (hf.mono report_tick), ?_, fs, ?_, ?_⟩
  · rw [hf.cell_eq, ← hd]
    · simp [cellWidth]
    · rintro (((h | h) | h) | h)
      · simp [DisplayArea] at h
      · simp [CrcRecords] at h
      · simp [MailboxArea] at h
      · simp at h
  · cases hr with
    | none => exact .none
    | crc lo hi h =>
      rw [hm NET_SEAT (by simp), hm TICK_LO (by simp), hm TICK_HI (by simp)]
      exact .crc lo hi h
  · exact hs.after_silent hplay.silent.out hplay.silent.replies

/-! ### The tick counter -/

/-- Incrementing a byte pair increments its word. -/
theorem word_countUp (c : Cpu) {lo hi : ℕ} (hlo : cellWidth lo = 8) (hhi : cellWidth hi = 8)
    (hne : lo ≠ hi) : word (countUp c lo hi) lo hi = (word c lo hi + 1) % 65536 := by
  have h1 : c.cell lo < 256 := c.mem.cell_lt lo 8 hlo
  have h2 : c.cell hi < 256 := c.mem.cell_lt hi 8 hhi
  unfold countUp
  simp only
  by_cases h : c.cell lo + 1 = 0x100
  · rw [if_pos h]
    unfold word
    simp only [Cpu.sto_cell, if_true, if_neg hne, if_neg hne.symm, hlo, hhi]
    omega
  · rw [if_neg h]
    unfold word
    simp only [Cpu.sto_cell, if_true, if_neg hne.symm, hlo]
    omega

/-- Incrementing a byte pair stores to it. -/
theorem frame_countUp (c : Cpu) (lo hi : ℕ) : Frame {a | a = lo ∨ a = hi} c (countUp c lo hi) := by
  have h : Frame {a | a = lo ∨ a = hi} c (c.sto lo (c.cell lo + 1)) :=
    (Frame.refl _ c).sto (Or.inl rfl)
  exact Frame.ite (fun _ => h.sto (Or.inr rfl)) (fun _ => h)

/-- Counting sends nothing. -/
theorem silent_countUp (c : Cpu) (lo hi : ℕ) : Silent c (countUp c lo hi) :=
  Silent.ite (Silent.refl c).sto.sto (Silent.refl c).sto

/-! ### Capture and send -/

/-- What a capture leaves: the input in our ring pages at the slot of tick `T + d`, and its frame
sent. -/
structure Captured (c c' : Cpu) : Prop where
  ring : ∀ i < 1024, c'.cell (SEAT_RING + i) =
    if i = c.cell NET_SEAT * 256 + (tickWord c + c.cell NET_DELAY) % 256 then
      c.cell EXEC_IN_L % 256 else c.cell (SEAT_RING + i)
  keypad : ∀ i < 1024, c'.cell (SEAT_KP + i) =
    if i = c.cell NET_SEAT * 256 + (tickWord c + c.cell NET_DELAY) % 256 then
      c.cell EXEC_KP_L % 256 else c.cell (SEAT_KP + i)
  frame : Frame (RingPages ∪ {a | a = LS_TMPB ∨ a = LS_TMPB2} ∪ MailboxArea) c c'
  sends : Sends [6, FT_INPUT, c.cell NET_SEAT, (tickWord c + c.cell NET_DELAY) % 65536 % 256,
    (tickWord c + c.cell NET_DELAY) % 65536 / 256, c.cell EXEC_IN_L % 256,
    c.cell EXEC_KP_L % 256] c c'

/-- One of the four seats captures into its own pages. -/
theorem captured (c : Cpu) (h : c.cell NET_SEAT ≤ 3) : Captured c (captureSend c) := by
  have hw : ∀ i < 1024, cellWidth (SEAT_RING + i) = 8 ∧ cellWidth (SEAT_KP + i) = 8 := by
    intro i hi
    refine ⟨cellWidth_cart ?_ ?_, cellWidth_cart ?_ ?_⟩ <;> simp only [SEAT_RING, SEAT_KP] <;> omega
  unfold captureSend
  extract_lets r2 c1 ring c2 c3
  have hb1 : c1.cell LS_TMPB = c.cell EXEC_IN_L % 256 := by simp [c1, cellWidth]
  have hb2 : c1.cell LS_TMPB2 = c.cell EXEC_KP_L % 256 := by simp [c1, cellWidth]
  have hseat : c1.cell NET_SEAT = c.cell NET_SEAT := by simp [c1]
  have hr2 : r2 < 65536 := Nat.mod_lt _ (by decide)
  generalize hslot : c.cell NET_SEAT * 256 + (tickWord c + c.cell NET_DELAY) % 256 = slot
  have hslot' : slot < 1024 := by omega
  have hring : ring = SEAT_RING + slot := by
    simp only [ring, r2, hseat, swap_byte (show c.cell NET_SEAT < 256 by omega), SEAT_RING]
    omega
  have hkpad : (ring + (SEAT_KP - SEAT_RING)) % 65536 = SEAT_KP + slot := by
    rw [hring]
    simp only [SEAT_RING, SEAT_KP]
    omega
  have hf1 : Frame {a | a = LS_TMPB ∨ a = LS_TMPB2} c c1 :=
    ((Frame.refl _ c).sto (Or.inl rfl)).sto (Or.inr rfl)
  have hq1 : Silent c c1 := ⟨rfl, rfl⟩
  have h1 : ∀ a, a ∉ ({a | a = LS_TMPB ∨ a = LS_TMPB2} : Set ℕ) → c1.cell a = c.cell a :=
    fun a ha => hf1.cell_eq ha
  clear_value c1
  have h3 : c3 = (c1.sto (SEAT_RING + slot) (c1.cell LS_TMPB)).sto (SEAT_KP + slot)
      (c1.cell LS_TMPB2) := by
    have hne : LS_TMPB2 ≠ SEAT_RING + slot := by
      simp only [LS_TMPB2, SEAT_RING]
      omega
    simp only [c3, c2, hkpad]
    rw [hring, Cpu.sto_cell, if_neg hne]
  have hcell3 : ∀ a, c3.cell a = if a = SEAT_KP + slot then c.cell EXEC_KP_L % 256
      else if a = SEAT_RING + slot then c.cell EXEC_IN_L % 256 else c1.cell a := by
    intro a
    rw [h3, Cpu.sto_cell, Cpu.sto_cell, (hw slot hslot').1, (hw slot hslot').2, hb1, hb2,
      show (2 : ℕ) ^ 8 = 256 from rfl, Nat.mod_mod, Nat.mod_mod]
  have hout : ∀ i < 1024, SEAT_RING + i ∉ MailboxArea ∧ SEAT_KP + i ∉ MailboxArea ∧
      SEAT_RING + i ∉ ({a | a = LS_TMPB ∨ a = LS_TMPB2} : Set ℕ) ∧
      SEAT_KP + i ∉ ({a | a = LS_TMPB ∨ a = LS_TMPB2} : Set ℕ) := by
    intro i hi
    simp [MailboxArea]
    omega
  have hsend := frame_sendFrame c3 [6, FT_INPUT, c3.cell NET_SEAT, r2, swap r2, c3.cell LS_TMPB,
    c3.cell LS_TMPB2] (by simp)
  refine ⟨?_, ?_, ?_, ?_⟩
  · intro i hi
    obtain ⟨hm, -, ht, -⟩ := hout i hi
    rw [hslot, hsend.cell_eq hm, hcell3, if_neg (by simp only [SEAT_RING, SEAT_KP]; omega), h1 _ ht]
    by_cases his : i = slot
    · rw [if_pos (by rw [his]), if_pos his]
    · rw [if_neg (by omega), if_neg his]
  · intro i hi
    obtain ⟨-, hm, -, ht⟩ := hout i hi
    rw [hslot, hsend.cell_eq hm, hcell3]
    by_cases his : i = slot
    · rw [if_pos (by rw [his]), if_pos his]
    · rw [if_neg (by omega), if_neg his, if_neg (by simp only [SEAT_RING, SEAT_KP]; omega), h1 _ ht]
  · refine Frame.trans ?_ (hsend.mono fun _ h => Or.inr h)
    rw [h3]
    refine ((hf1.mono fun _ h => Or.inl (Or.inr h)).sto ?_).sto ?_
    · exact Or.inl (Or.inl ⟨by omega, by omega⟩)
    · exact Or.inl (Or.inl ⟨by simp only [SEAT_RING, SEAT_KP]; omega,
        by simp only [SEAT_RING, SEAT_KP]; omega⟩)
  · have hkeep : ∀ a, a = NET_SEAT ∨ a = LS_TMPB ∨ a = LS_TMPB2 → c3.cell a = c1.cell a := by
      intro a ha
      rw [hcell3]
      rcases ha with rfl | rfl | rfl <;>
        rw [if_neg (by simp only [SEAT_KP, NET_SEAT, LS_TMPB, LS_TMPB2]; omega),
          if_neg (by simp only [SEAT_RING, NET_SEAT, LS_TMPB, LS_TMPB2]; omega)]
    have hbytes := sends_sendFrame c3 [6, FT_INPUT, c3.cell NET_SEAT, r2, swap r2, c3.cell LS_TMPB,
      c3.cell LS_TMPB2] (by simp)
    rw [hkeep NET_SEAT (by simp), hkeep LS_TMPB (by simp), hkeep LS_TMPB2 (by simp), hseat, hb1, hb2]
      at hbytes ⊢
    have hlist : [6, FT_INPUT, c.cell NET_SEAT, r2, swap r2, c.cell EXEC_IN_L % 256,
        c.cell EXEC_KP_L % 256].map (· % 256) = [6, FT_INPUT, c.cell NET_SEAT, r2 % 256, r2 / 256,
        c.cell EXEC_IN_L % 256, c.cell EXEC_KP_L % 256] := by
      simp only [List.map_cons, List.map_nil, swap, Nat.mod_mod]
      rw [Nat.mod_eq_of_lt (show c.cell NET_SEAT < 256 by omega),
        show (r2 % 256 * 256 + r2 / 256 % 256) % 256 = r2 / 256 by omega]
      rfl
    rw [hlist] at hbytes
    exact hbytes.after_silent hq1.out hq1.replies

/-- A capture changes no match cell but the rings. -/
theorem Captured.match_eq {c c' : Cpu} (h : Captured c c') {a : ℕ} (ha : a ∈ MatchCells)
    (hr : a ∉ RingPages) : c'.cell a = c.cell a := by
  refine h.frame.cell_eq ?_
  rintro ((hm | hm) | hm)
  · exact hr hm
  · exact (match_bounds ha).2.2.2.2 (by rcases hm with rfl | rfl <;> simp [TickScratch])
  · exact match_not_mailbox ha hm

/-! ### The deferred push -/

/-- What the deferred push stores to. -/
def PendingArea : Set ℕ :=
  PushArea ∪ RebaseArea ∪ {a | a = RS_PTMO ∨ a = RS_GATE ∨ a = RS_WAITED}

/-- The deferred push stores there. -/
theorem frame_RS_PENDING (c : Cpu) : Frame PendingArea c (RS_PENDING c) := by
  have hpush : ∀ d, Frame PendingArea d (RS_PUSH d) := by
    intro d
    rw [(pushed d).eq]
    exact ((pushed d).frame.mono fun _ h => Or.inl (Or.inl h)).trans
      ((frame_RS_REBASE _).mono fun _ h => Or.inl (Or.inr h))
  have hgate : ∀ {d e : Cpu} (g w : ℕ), Frame PendingArea d e →
      Frame PendingArea d (RS_PUSH ((e.sto RS_GATE g).sto RS_WAITED w)) := by
    intro d e g w hd
    refine ((hd.sto ?_).sto ?_).trans (hpush _)
    · exact Or.inr (Or.inr (Or.inl rfl))
    · exact Or.inr (Or.inr (Or.inr rfl))
  unfold RS_PENDING
  extract_lets c1 push
  have h1 : Frame PendingArea c c1 := (Frame.refl _ c).sto (Or.inr (Or.inl rfl))
  refine Frame.ite (fun _ => Frame.refl _ c) (fun _ => ?_)
  refine Frame.ite (fun _ => Frame.refl _ c) (fun _ => ?_)
  refine Frame.ite (fun _ => Frame.refl _ c) (fun _ => ?_)
  refine Frame.ite (fun _ => hgate _ _ h1) (fun _ => ?_)
  exact Frame.ite (fun _ => h1) (fun _ => hgate _ _ h1)

/-- A guest never pushes. -/
theorem RS_PENDING_guest (c : Cpu) (h : c.cell NET_SEAT ≠ 0) : RS_PENDING c = c := by
  unfold RS_PENDING
  by_cases hp : c.cell RS_PEND = 0
  · rw [if_pos hp]
  · rw [if_neg hp, if_pos h]

/-- A tick of a guest changes no match cell but the tick counter. -/
theorem runTick_guest (g : Game) (c : Cpu) (h : c.cell NET_SEAT ≠ 0) {a : ℕ} (ha : a ∈ MatchCells)
    (hlo : a ≠ TICK_LO) (hhi : a ≠ TICK_HI) : (runTick g c).cpu.cell a = c.cell a := by
  have hkeep : ∀ x ∈ MatchCells, x ≠ TICK_LO → x ≠ TICK_HI →
      (countUp (tickBody g c) TICK_LO TICK_HI).cell x = c.cell x := by
    intro x hx h1 h2
    rw [(frame_countUp _ _ _).cell_eq fun hm => hm.elim h1 h2]
    exact (tickBody_spec g c).frame.cell_eq (match_not_tick hx (match_not_mailbox hx))
  rw [runTick_cpu, RS_PENDING_guest]
  · exact hkeep a ha hlo hhi
  · rw [hkeep NET_SEAT (Or.inl (Or.inl (Or.inl (by simp)))) (by decide) (by decide)]
    exact h

/-! ### The gate -/

/-- What the gate of a match of at most four seats looks at.
SOURCE: lockstep.asm:166-194 -/
def GateCells : Set ℕ :=
  {a | a = NET_DROPPED ∨ a = NET_COUNT ∨ a = NET_SEAT ∨ a = TICK_LO ∨ a = TICK_HI} ∪ Watermarks

theorem gate_match : GateCells ⊆ MatchCells := by
  rintro a ((rfl | rfl | rfl | rfl | rfl) | h)
  · exact Or.inl (Or.inl (Or.inl (by simp)))
  · exact Or.inl (Or.inl (Or.inl (by simp)))
  · exact Or.inl (Or.inl (Or.inl (by simp)))
  · exact Or.inl (Or.inl (Or.inl (by simp)))
  · exact Or.inl (Or.inl (Or.inl (by simp)))
  · exact Or.inl (Or.inl (Or.inr h))

/-- The pump around its dispatches stores to none of them. -/
theorem gate_not_pump {a : ℕ} (h : a ∈ GateCells) : a ∉ PumpArea := by
  have hcases : (a = 0x8163 ∨ a = 0x819D ∨ a = 0x8160 ∨ a = 0x8108 ∨ a = 0x8109) ∨
      (0x81A0 ≤ a ∧ a < 0x81A8) := h
  rintro ((hm | hr) | hf)
  · exact match_not_mailbox (gate_match h) hm
  · have : a = 0x8134 ∨ a = 0x8135 ∨ (0x8200 ≤ a ∧ a < 0x8300) := hr
    omega
  · have : a = 0x8180 ∨ (0x8300 ≤ a ∧ a < 0x8380) := hf
    omega

/-- The gate is what those cells make it. -/
theorem gateOpen_congr {c c' : Cpu} (hn : c.cell NET_COUNT ≤ 4)
    (h : ∀ a ∈ GateCells, c'.cell a = c.cell a) : gateOpen c' = gateOpen c := by
  have hcell : ∀ {a}, a ∈ {a | a = NET_DROPPED ∨ a = NET_COUNT ∨ a = NET_SEAT ∨ a = TICK_LO ∨
      a = TICK_HI} → c'.cell a = c.cell a := fun ha => h _ (Or.inl ha)
  have htick : tickWord c' = tickWord c := by
    unfold tickWord word
    rw [hcell (by simp), hcell (by simp)]
  have hready : ∀ seat < 4, seatReady c' seat = seatReady c seat := by
    intro seat hs
    unfold seatReady word
    rw [htick, h _ (Or.inr ⟨by omega, by omega⟩), h _ (Or.inr ⟨by omega, by omega⟩)]
  unfold gateOpen seatsReady
  rw [hcell (a := NET_DROPPED) (by simp), hcell (a := NET_COUNT) (by simp),
    hcell (a := NET_SEAT) (by simp)]
  have hall : ∀ l : List ℕ, (∀ seat ∈ l, seat < 4) →
      (l.all fun seat => decide (seat = c.cell NET_SEAT) || seatReady c' seat) =
        l.all fun seat => decide (seat = c.cell NET_SEAT) || seatReady c seat := by
    intro l hl
    induction l with
    | nil => rw [List.all_nil, List.all_nil]
    | cons s l ih =>
      rw [List.all_cons, List.all_cons, hready s (hl s List.mem_cons_self),
        ih fun x hx => hl x (List.mem_cons_of_mem _ hx)]
  refine congrArg _ (hall _ fun seat hs => ?_)
  have hlt := List.mem_range.mp hs
  omega

/-! ### Rounds that wait -/

/-- What giving up leaves: the match over, and idle rings. -/
structure GaveUp (c c' : Cpu) : Prop where
  dropped : c'.cell NET_DROPPED ≠ 0
  frame : Frame (WaitArea ∪ {a | a = PEER_WHY ∨ a = NET_DROPPED ∨ a = RESYNC_HOLD} ∪
    (RingPages ∪ Watermarks)) c c'
  silent : Silent c c'

/-- What a round does after its pump: it counts the wait, or gives up. -/
inductive Waited (c c' : Cpu) : Prop where
  | on (h : Frame WaitArea c c') (hs : Silent c c')
  | gaveUp (h : GaveUp c c')

/-- Giving up idles the rings. -/
theorem gaveUp_LS_IDLE_RMT {c d : Cpu} (hf : Frame (WaitArea ∪
    {a | a = PEER_WHY ∨ a = NET_DROPPED ∨ a = RESYNC_HOLD}) c d) (hs : Silent c d)
    (hd : d.cell NET_DROPPED ≠ 0) : GaveUp c (LS_IDLE_RMT d) := by
  have hidle := frame_LS_IDLE_RMT d
  have hquiet : Silent d (LS_IDLE_RMT d) := by
    constructor <;> simp [LS_IDLE_RMT, LS_RING_INIT, setWatermarks]
  refine ⟨?_, (hf.mono fun _ h => Or.inl h).trans (hidle.mono fun _ h => Or.inr h),
    hs.trans hquiet⟩
  rw [hidle.cell_eq]
  · exact hd
  · rintro (h | h) <;> simp [RingPages, Watermarks] at h

section Rounds

variable (c : Cpu) (p : Poll)

/-- A round of the hold pumps and waits. -/
theorem waited_holdRound :
    Waited (SES_PUMP SES_ONFRAME (freeze c) p).cpu (holdRound c p) := by
  unfold holdRound
  generalize (SES_PUMP SES_ONFRAME (freeze c) p).cpu = d
  extract_lets e lo d1 hi d2
  have hq1 : Silent d d1 := (Silent.refl d).sto
  have h1 : Frame WaitArea d d1 := (Frame.refl _ d).sto (by simp [WaitArea])
  have h2 : Frame WaitArea d d2 := h1.sto (by simp [WaitArea])
  by_cases hlo : lo ≠ 0x100
  · rw [if_pos hlo]
    exact .on h1 hq1
  · rw [if_neg hlo]
    by_cases hhi : hi < RS_HOLD_TMO / 256
    · rw [if_pos hhi]
      exact .on h2 hq1.sto
    · rw [if_neg hhi]
      have h2' : Frame (WaitArea ∪ {a | a = PEER_WHY ∨ a = NET_DROPPED ∨ a = RESYNC_HOLD}) d d2 :=
        h2.mono fun _ h => Or.inl h
      refine .gaveUp (gaveUp_LS_IDLE_RMT (((h2'.sto ?_).sto ?_).sto ?_)
        hq1.sto.sto.sto.sto ?_)
      · exact Or.inr (Or.inl rfl)
      · exact Or.inr (Or.inr (Or.inl rfl))
      · exact Or.inr (Or.inr (Or.inr rfl))
      · simp [giveUp, cellWidth]

/-- A round of the shut gate pumps and waits. -/
theorem waited_stallRound :
    Waited (SES_PUMP SES_ONFRAME (freeze c) p).cpu (stallRound c p) := by
  unfold stallRound
  generalize (SES_PUMP SES_ONFRAME (freeze c) p).cpu = d
  extract_lets e lo d1 hi d2
  have hq1 : Silent d d1 := (Silent.refl d).sto
  have h1 : Frame WaitArea d d1 := (Frame.refl _ d).sto (by simp [WaitArea])
  have h2 : Frame WaitArea d d2 := h1.sto (by simp [WaitArea])
  by_cases hlo : lo ≠ 0x100
  · rw [if_pos hlo]
    exact .on h1 hq1
  · rw [if_neg hlo]
    by_cases hhi : hi < LS_TIMEOUT / 256
    · rw [if_pos hhi]
      exact .on h2 hq1.sto
    · rw [if_neg hhi]
      have h2' : Frame (WaitArea ∪ {a | a = PEER_WHY ∨ a = NET_DROPPED ∨ a = RESYNC_HOLD}) d d2 :=
        h2.mono fun _ h => Or.inl h
      refine .gaveUp (gaveUp_LS_IDLE_RMT ((h2'.sto ?_).sto ?_)
        hq1.sto.sto.sto ?_)
      · exact Or.inr (Or.inl rfl)
      · exact Or.inr (Or.inr (Or.inl rfl))
      · simp [giveUp, cellWidth]

end Rounds

/-! ### Steps of a console -/

/-- The machine a step of a console pumps on, when it pumps.
SOURCE: lockstep.asm:8-71, 215-230 -/
def pumping (k : Console) : Option Cpu :=
  match k.phase with
  | .pass =>
    if k.cpu.cell PEER_SCR ≠ 0 then none
    else if k.cpu.cell NET_DROPPED ≠ 0 then none
    else if k.cpu.cell RESYNC_HOLD ≠ 0 then some (freeze k.cpu)
    else some k.cpu
  | .gate => if gateOpen k.cpu then none else some (freeze k.cpu)
  | _ => none

/-- The machines on which a step dispatches a frame. -/
def dispatched (k : Console) (o : Outside) : List Cpu :=
  match pumping k with
  | none => []
  | some c => pumpHanded SES_ONFRAME c o.poll

/-- Those of the pump it makes. -/
theorem dispatched_eq {k : Console} {c : Cpu} (h : pumping k = some c) (o : Outside) :
    dispatched k o = pumpHanded SES_ONFRAME c o.poll := by
  unfold dispatched
  rw [h]

/-- Outside the start of a pass and the gate a console does not pump. -/
theorem pumping_eq_none {k : Console} (hp : k.phase ≠ .pass) (hg : k.phase ≠ .gate) :
    pumping k = none := by
  unfold pumping
  cases h : k.phase with
  | pass => exact absurd h hp
  | gate => exact absurd h hg
  | _ => rfl

/-- What a step of a console can do. -/
inductive Stepped (k : Console) (o : Outside) : Console → Prop where
  | shown (h : k.phase = .pass) (hs : k.cpu.cell PEER_SCR ≠ 0) : Stepped k o ⟨k.cpu, .native⟩
  | left (h : k.phase = .pass) (hd : k.cpu.cell NET_DROPPED ≠ 0) (c' : Cpu) :
      Stepped k o ⟨c', .parked⟩
  | hold (h : k.phase = .pass) (hd : k.cpu.cell NET_DROPPED = 0)
      (hh : k.cpu.cell RESYNC_HOLD ≠ 0) (hp : pumping k = some (freeze k.cpu)) (c' : Cpu)
      (hw : Waited (SES_PUMP SES_ONFRAME (freeze k.cpu) o.poll).cpu c') :
      Stepped k o ⟨c', .native⟩
  | pass (h : k.phase = .pass) (hd : k.cpu.cell NET_DROPPED = 0)
      (hh : k.cpu.cell RESYNC_HOLD = 0) (hp : pumping k = some k.cpu) :
      Stepped k o ⟨(SES_PUMP SES_ONFRAME k.cpu o.poll).cpu, .due⟩
  | due (h : k.phase = .due) : Stepped k o ⟨captureSend k.cpu, .gate⟩
  | opened (h : k.phase = .gate) (ho : gateOpen k.cpu = true) : Stepped k o ⟨k.cpu, .run⟩
  | stall (h : k.phase = .gate) (ho : gateOpen k.cpu = false)
      (hp : pumping k = some (freeze k.cpu)) (c' : Cpu)
      (hw : Waited (SES_PUMP SES_ONFRAME (freeze k.cpu) o.poll).cpu c') : Stepped k o ⟨c', .gate⟩
  | tick (h : k.phase = .run) : Stepped k o ⟨(runTick o.game k.cpu).cpu, .native⟩
  | native (h : k.phase = .native) : Stepped k o ⟨o.game.native k.cpu, .scan⟩
  | scan (h : k.phase = .scan) : Stepped k o ⟨o.game.scan k.cpu, .pass⟩
  | parked (h : k.phase = .parked) : Stepped k o k

/-- Every step of a console is one of these. -/
theorem stepped (k : Console) (o : Outside) : Stepped k o (k.step o) := by
  unfold Console.step
  cases hp : k.phase with
  | pass =>
    simp only
    unfold Console.stepPass
    by_cases hs : k.cpu.cell PEER_SCR ≠ 0
    · rw [if_pos hs]
      exact .shown hp hs
    rw [if_neg hs]
    by_cases hd : k.cpu.cell NET_DROPPED ≠ 0
    · rw [if_pos hd]
      exact .left hp hd _
    rw [if_neg hd]
    by_cases hh : k.cpu.cell RESYNC_HOLD ≠ 0
    · rw [if_pos hh]
      refine .hold hp (by omega) hh ?_ _ (waited_holdRound k.cpu o.poll)
      simp only [pumping, hp, if_neg hs, if_neg hd, if_pos hh]
    · rw [if_neg hh]
      refine .pass hp (by omega) (by omega) ?_
      simp only [pumping, hp, if_neg hs, if_neg hd, if_neg hh]
  | due => exact .due hp
  | gate =>
    simp only
    by_cases ho : gateOpen k.cpu = true
    · rw [if_pos ho]
      exact .opened hp ho
    · rw [if_neg ho]
      refine .stall hp (by simpa using ho) ?_ _ (waited_stallRound k.cpu o.poll)
      simp only [pumping, hp, if_neg ho]
  | run => exact .tick hp
  | native => exact .native hp
  | scan => exact .scan hp
  | parked => exact .parked hp

end BoxingNetplay.Interface
