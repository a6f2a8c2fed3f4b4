import BoxingNetplay.Interface.Stream

/-!
# Where the frame handlers store

For each handler of `SES_ONFRAME`, the cells it may store to.  The values that come off the
wire and end up in an address are the seat and the tick of INPUT, the count of ROOM and
LOBBY, and the position and length of STATE; the first two are what the hypotheses
below are about.
-/

set_option autoImplicit false

namespace BoxingNetplay.Interface

open BoxingNetplay.Library
open BoxingNetplay.Model

/-- Signed and unsigned comparison agree on addresses and positions below half the range. -/
theorem slt16_of_lt {a b : ℕ} (ha : a < 32768) (hb : b < 32768) :
    slt16 a b = decide (a < b) := by
  unfold slt16
  by_cases h : a < b
  · rw [decide_eq_true h, decide_eq_true_iff]
    omega
  · rw [decide_eq_false h, decide_eq_false_iff_not]
    omega

/-- A word of two byte cells is below 65536. -/
theorem word_lt (c : Cpu) (lo hi : ℕ) : word c lo hi < 65536 := Nat.mod_lt _ (by omega)

/-- `SWAP` of a byte moves it up. -/
theorem swap_byte {v : ℕ} (h : v < 256) : swap v = v * 256 := by
  unfold swap
  omega

/-! ### Areas -/

/-- The 240 cards of the screen. -/
def ScreenArea : Set ℕ := {a | BACKTAB ≤ a ∧ a < BACKTAB + 240}

/-- The eight ring pages. -/
def RingPages : Set ℕ := {a | SEAT_RING ≤ a ∧ a < SEAT_RING + 2048}

/-- The four watermark pairs. -/
def Watermarks : Set ℕ := {a | SEAT_WM ≤ a ∧ a < SEAT_WM + 8}

/-- The CRC records. -/
def CrcRecords : Set ℕ := {a | OWN_CRC ≤ a ∧ a < OWN_CRC + 32}

/-- The roster. -/
def Roster : Set ℕ := {a | NAME_TBL ≤ a ∧ a < NAME_TBL + 36}

/-- What drawing a session screen stores to. -/
def DrawArea : Set ℕ := {a | a = UI_COLOR ∨ a = PP_TMP ∨ a ∈ ScreenArea}

/-- The screen is part of it. -/
theorem screen_draw : ScreenArea ⊆ DrawArea := fun _ h => Or.inr (Or.inr h)

theorem color_draw : UI_COLOR ∈ DrawArea := Or.inl rfl

theorem offset_draw : PP_TMP ∈ DrawArea := Or.inr (Or.inl rfl)

/-- A cell of netcode RAM other than the two scratch cells is not drawn on. -/
theorem not_mem_draw {a : ℕ} (h : BACKTAB + 240 ≤ a) (hc : a ≠ UI_COLOR) (hp : a ≠ PP_TMP) :
    a ∉ DrawArea := by
  rintro (ha | ha | ⟨-, ha⟩)
  · exact hc ha
  · exact hp ha
  · omega

/-- The lobby and room data the handlers keep before a match. -/
def LobbyData : Set ℕ :=
  {a | a = MENU_SEL ∨ a = LOBBY_CNT ∨ a = ROOM_CNT ∨ a = ROOM_HOST ∨
    (LOBBY_CACHE ≤ a ∧ a < LOBBY_CACHE + 128)}

/-- Where the session screens and their data are kept. -/
def SessionArea : Set ℕ := DrawArea ∪ LobbyData ∪ Roster

/-- What is drawn belongs to a session. -/
theorem draw_session : DrawArea ⊆ SessionArea := fun _ h => Or.inl (Or.inl h)

theorem lobby_session : LobbyData ⊆ SessionArea := fun _ h => Or.inl (Or.inr h)

theorem roster_session : Roster ⊆ SessionArea := fun _ h => Or.inr h

/-! ### Text -/

/-- A card on the screen. -/
theorem mem_screen {a : ℕ} (h1 : BACKTAB ≤ a) (h2 : a < BACKTAB + 240) : a ∈ ScreenArea := ⟨h1, h2⟩

/-- A string that fits the screen is printed on the screen. -/
theorem frame_UI_PRINT_loop (s : List ℕ) (c : Cpu) (r4 color : ℕ) (h1 : BACKTAB ≤ r4)
    (h2 : r4 + s.length ≤ BACKTAB + 240) : Frame ScreenArea c (UI_PRINT_loop c r4 color s) := by
  induction s generalizing c r4 with
  | nil => exact Frame.refl _ c
  | cons ch s ih =>
    rw [List.length_cons] at h2
    simp only [BACKTAB] at h1 h2
    have hmod : (r4 + 1) % 65536 = r4 + 1 := by omega
    rw [UI_PRINT_loop, hmod]
    refine Frame.trans ((Frame.refl _ c).sto (mem_screen ?_ ?_)) (ih _ _ ?_ ?_) <;>
      simp only [BACKTAB] <;> omega

/-- A string printed at an offset where it fits. -/
theorem frame_UI_PRINT (c : Cpu) (off : ℕ) (s : List ℕ) (h : off + s.length ≤ 240) :
    Frame ScreenArea c (UI_PRINT c off s) := by
  have hmod : (off + BACKTAB) % 65536 = off + BACKTAB := by
    simp only [BACKTAB]
    omega
  unfold UI_PRINT
  rw [hmod]
  exact frame_UI_PRINT_loop s c _ _ (by omega) (by omega)

/-- A bounded RAM string that fits the screen is printed on the screen. -/
theorem frame_UI_PRINTN_loop (n : ℕ) (c : Cpu) (r4 r5 color : ℕ) (h1 : BACKTAB ≤ r4)
    (h2 : r4 + n ≤ BACKTAB + 240) : Frame ScreenArea c (UI_PRINTN_loop c r4 r5 color n) := by
  induction n generalizing c r4 r5 with
  | zero => exact Frame.refl _ c
  | succ n ih =>
    simp only [BACKTAB] at h1 h2
    have hmod : (r4 + 1) % 65536 = r4 + 1 := by omega
    rw [UI_PRINTN_loop, hmod]
    refine Frame.ite (fun _ => Frame.refl _ c) (fun _ => ?_)
    refine Frame.trans ((Frame.refl _ c).sto (mem_screen ?_ ?_)) (ih _ _ _ ?_ ?_) <;>
      simp only [BACKTAB] <;> omega

/-- A bounded RAM string printed at an offset where it fits. -/
theorem frame_UI_PRINTN (c : Cpu) (off src n : ℕ) (h : off + n ≤ 240) :
    Frame ScreenArea c (UI_PRINTN c off src n) := by
  have hmod : (off + BACKTAB) % 65536 = off + BACKTAB := by
    simp only [BACKTAB]
    omega
  unfold UI_PRINTN
  rw [hmod]
  exact frame_UI_PRINTN_loop n c _ _ _ (by omega) (by omega)

/-- Blanking the screen. -/
theorem frame_UI_CLS (c : Cpu) : Frame DrawArea c (UI_CLS c) := by
  refine ((Frame.refl _ c).sto color_draw).fill ?_
  intro x h1 h2
  exact screen_draw (mem_screen h1 h2)

/-! ### Session screens -/

/-- A roster row of one of the first nine seats is drawn on the screen. -/
theorem frame_rosterRow (c : Cpu) (seat : ℕ) (h : seat ≤ 8) :
    Frame DrawArea c (rosterRow c seat) := by
  unfold rosterRow
  extract_lets c1 off c2 c3 c4
  have hoff : off ≤ 224 ∧ 64 ≤ off := by
    simp only [off]
    omega
  have hcard : ∀ k ≤ BACKTAB, (off + (BACKTAB - k)) % 65536 = off + (BACKTAB - k) := by
    intro k hk
    simp only [BACKTAB] at hk ⊢
    omega
  have h2 : Frame DrawArea c c2 :=
    ((Frame.refl _ c).sto color_draw).sto offset_draw
  have hPP2 : c2.cell PP_TMP = off := by
    simp only [c2, Cpu.sto_cell, if_true]
    rw [cellWidth_cart (by decide) (by decide)]
    omega
  have h3 : Frame ScreenArea c2 c3 := by
    simp only [c3]
    rw [hcard 2 (by decide)]
    refine (Frame.refl _ c2).sto (mem_screen ?_ ?_) <;> simp only [BACKTAB] <;> omega
  have hPP : ∀ d, Frame ScreenArea c2 d → d.cell PP_TMP = off := by
    intro d hd
    rw [hd.cell_eq, hPP2]
    rintro ⟨hl, hr⟩
    simp at hl hr
  have h4 : Frame ScreenArea c2 c4 := by
    simp only [c4]
    rw [hPP c3 h3]
    exact h3.trans (frame_UI_PRINTN c3 _ _ 8 (by omega))
  refine h2.trans (Frame.mono screen_draw (Frame.ite (fun _ => ?_) (fun _ => h4)))
  rw [hPP c4 h4, hcard 4 (by decide)]
  refine h4.sto (mem_screen ?_ ?_) <;> simp only [BACKTAB] <;> omega

/-- Roster rows of the first nine seats. -/
theorem frame_rosterRows (n : ℕ) (c : Cpu) (seat : ℕ) (h : seat + n ≤ 9) :
    Frame DrawArea c (rosterRows c seat n) := by
  induction n generalizing c seat with
  | zero => exact Frame.refl _ c
  | succ n ih => exact (frame_rosterRow c seat (by omega)).trans (ih _ _ (by omega))

/-- The waiting room is drawn on the screen when it has at most nine members. -/
theorem frame_SES_ROOMSCR (c : Cpu) (hact : c.cell NET_ACTIVE = 0) (hcnt : c.cell ROOM_CNT ≤ 9) :
    Frame DrawArea c (SES_ROOMSCR c) := by
  unfold SES_ROOMSCR
  extract_lets c1 c2 c3 c4
  have hprint : ∀ d off s, off + s.length ≤ 240 → Frame DrawArea d (UI_PRINT d off s) :=
    fun d off s hs => (frame_UI_PRINT d off s hs).mono screen_draw
  have h3 : Frame DrawArea c c3 := by
    refine (((frame_UI_CLS c).trans (hprint _ _ _ (by decide))).trans
      (hprint _ _ _ (by decide))).sto (screen_draw ?_)
    exact mem_screen (by decide) (by decide)
  have hkeep : ∀ a, a = NET_ACTIVE ∨ a = ROOM_CNT → c3.cell a = c.cell a := by
    intro a ha
    refine h3.cell_eq ?_
    rcases ha with rfl | rfl <;> exact not_mem_draw (by decide) (by decide) (by decide)
  have h4 : Frame DrawArea c c4 := by
    refine h3.trans ?_
    simp only [c4, SES_ROSTER]
    rw [hkeep _ (Or.inl rfl), hkeep _ (Or.inr rfl), if_pos hact]
    exact (frame_rosterRows _ c3 0 (by omega)).sto color_draw
  exact Frame.ite (fun _ => h4.trans (hprint _ _ _ (by decide)))
    (fun _ => h4.trans (hprint _ _ _ (by decide)))

/-- A lobby row of one of the first eight entries is drawn on the screen. -/
theorem frame_renderRow (c : Cpu) (i : ℕ) (h : i ≤ 7) : Frame DrawArea c (renderRow c i) := by
  unfold renderRow
  extract_lets c1 entry status c2 c3 c4
  have h2 : Frame DrawArea c c2 :=
    ((Frame.refl _ c).sto offset_draw).sto color_draw
  have hPP2 : c2.cell PP_TMP = (i + ROW_LIST) * 20 + 2 := by
    simp only [c2, c1, Cpu.sto_cell, if_true]
    rw [if_neg (by decide), cellWidth_cart (by decide) (by decide)]
    simp only [ROW_LIST]
    omega
  have hPP : ∀ d, Frame ScreenArea c2 d → d.cell PP_TMP = (i + ROW_LIST) * 20 + 2 := by
    intro d hd
    rw [hd.cell_eq, hPP2]
    rintro ⟨hl, hr⟩
    simp at hl hr
  have h3 : Frame ScreenArea c2 c3 := by
    simp only [c3]
    rw [hPP2]
    exact frame_UI_PRINTN c2 _ _ 8 (by simp only [ROW_LIST]; omega)
  have h4 : Frame ScreenArea c2 c4 := by
    refine Frame.ite (fun _ => h3) (fun _ => ?_)
    rw [hPP c3 h3]
    refine h3.sto (mem_screen ?_ ?_) <;> simp only [BACKTAB, ROW_LIST] <;> omega
  refine h2.trans (Frame.mono screen_draw (Frame.ite (fun _ => ?_) (fun _ => h4)))
  rw [hPP c4 h4]
  refine h4.sto (mem_screen ?_ ?_) <;> simp only [BACKTAB, ROW_LIST] <;> omega

/-- Lobby rows of the first eight entries. -/
theorem frame_renderRows (n : ℕ) (c : Cpu) (i : ℕ) (h : i + n ≤ 8) :
    Frame DrawArea c (renderRows c i n) := by
  induction n generalizing c i with
  | zero => exact Frame.refl _ c
  | succ n ih => exact (frame_renderRow c i (by omega)).trans (ih _ _ (by omega))

/-- The lobby list is drawn on the screen when it has at most eight entries. -/
theorem frame_SES_RENDER (c : Cpu) (h : c.cell LOBBY_CNT ≤ 8) :
    Frame DrawArea c (SES_RENDER c) := by
  unfold SES_RENDER
  extract_lets c1 c2
  have h2 : Frame DrawArea c c2 := by
    refine Frame.fill (Frame.trans ((Frame.refl _ c).sto color_draw)
      ((frame_UI_PRINT _ _ _ (by decide)).mono screen_draw)) ?_
    intro x h1 h2
    refine screen_draw (mem_screen ?_ ?_) <;> simp only [BACKTAB, ROW_LIST] at h1 h2 ⊢ <;> omega
  have hcnt : c2.cell LOBBY_CNT = c.cell LOBBY_CNT :=
    h2.cell_eq (not_mem_draw (by decide) (by decide) (by decide))
  refine (h2.trans (frame_renderRows _ c2 0 ?_)).sto color_draw
  rw [hcnt]
  omega

/-! ### The match state -/

/-- Idle-filling stores to the ring pages. -/
theorem frame_LS_RING_INIT (c : Cpu) : Frame RingPages c (LS_RING_INIT c) := by
  refine ((Frame.refl _ c).fill ?_).fill ?_ <;> intro x h1 h2 <;>
    simp only [SEAT_RING, SEAT_KP] at h1 h2 <;> constructor <;> simp only [SEAT_RING] <;> omega

/-- Setting the watermarks stores to the watermarks. -/
theorem frame_setWatermarks (c : Cpu) (lo hi : ℕ) : Frame Watermarks c (setWatermarks c lo hi) :=
  (Frame.refl _ c).blit fun _ h1 h2 => ⟨h1, by simpa using h2⟩

/-- Invalidating the CRC records stores to the records. -/
theorem frame_RS_CLR_CRC (c : Cpu) : Frame CrcRecords c (RS_CLR_CRC c) :=
  (Frame.refl _ c).fill fun _ h1 h2 => ⟨h1, h2⟩

/-- Idling the remote seats stores to the rings and the watermarks. -/
theorem frame_LS_IDLE_RMT (c : Cpu) : Frame (RingPages ∪ Watermarks) c (LS_IDLE_RMT c) :=
  ((frame_LS_RING_INIT c).mono Set.subset_union_left).trans
    ((frame_setWatermarks _ _ _).mono Set.subset_union_right)

/-- Copying `n` names stores to the roster slots they go to. -/
theorem frame_SES_CPR_GO (n : ℕ) (c : Cpu) (r4 r5 : ℕ) (h1 : NAME_TBL ≤ r5)
    (h2 : r5 + 9 * n ≤ NAME_TBL + 36) : Frame Roster c (SES_CPR_GO c r4 r5 n) := by
  induction n generalizing c r4 r5 with
  | zero => exact Frame.refl _ c
  | succ n ih =>
    refine Frame.trans (((Frame.refl _ c).copy ?_).sto ?_) (ih _ _ _ (by omega) (by omega))
    · intro x hx1 hx2
      exact ⟨by omega, by omega⟩
    · exact ⟨by omega, by omega⟩

/-- The display cells, interrupt vector and countdowns a re-baseline restores.
SOURCE: resync.asm:370-419, 481-521, hook.asm:385-398 -/
def DisplayArea : Set ℕ :=
  {a | (STIC_CS ≤ a ∧ a < STIC_CS + 5) ∨ a = STIC_EXT ∨ a = ISR_VEC_LO ∨ a = ISR_VEC_HI ∨
    a = SC_ISR_SAVE ∨ a = SC_ISR_SAVE + 1 ∨ (BX_CNT2_LO ≤ a ∧ a ≤ BX_CNT4_HI)}

/-- The resync state in netcode RAM. -/
def ResyncVars : Set ℕ :=
  {a | (RESYNC_HOLD ≤ a ∧ a ≤ RS_TMP2) ∨ a = DIAG_REJ ∨ a = RS_PEND ∨ a = RS_PTMO ∨
    a = TICK_LO ∨ a = TICK_HI ∨ a = LS_WAITC_LO ∨ a = LS_WAITC_HI}

/-- What a re-baseline stores to. -/
def RebaseArea : Set ℕ := DisplayArea ∪ ResyncVars ∪ RingPages ∪ Watermarks ∪ CrcRecords

theorem display_rebase : DisplayArea ⊆ RebaseArea := fun _ h => Or.inl (Or.inl (Or.inl (Or.inl h)))
theorem resync_rebase : ResyncVars ⊆ RebaseArea := fun _ h => Or.inl (Or.inl (Or.inl (Or.inr h)))
theorem rings_rebase : RingPages ⊆ RebaseArea := fun _ h => Or.inl (Or.inl (Or.inr h))
theorem watermarks_rebase : Watermarks ⊆ RebaseArea := fun _ h => Or.inl (Or.inr h)
theorem records_rebase : CrcRecords ⊆ RebaseArea := fun _ h => Or.inr h

/-- Reasserting the display stores to the STIC. -/
theorem frame_RS_DISPLAY_RESET (c : Cpu) : Frame DisplayArea c (RS_DISPLAY_RESET c) :=
  ((Frame.refl _ c).sto (Or.inr (Or.inl rfl))).copy fun _ h1 h2 => Or.inl ⟨h1, h2⟩

/-- Clamping the interrupt vector stores to both its copies. -/
theorem frame_RS_CLAMP_ISR (c : Cpu) : Frame DisplayArea c (RS_CLAMP_ISR c) := by
  unfold RS_CLAMP_ISR
  repeat' apply Frame.sto
  · exact Frame.refl _ c
  all_goals simp [DisplayArea]

/-- Restoring the countdowns stores to the countdowns. -/
theorem frame_BX_REBASE_HOOK (c : Cpu) : Frame DisplayArea c (BX_REBASE_HOOK c) := by
  unfold BX_REBASE_HOOK
  repeat' apply Frame.sto
  · exact Frame.refl _ c
  all_goals simp [DisplayArea]

/-- A re-baseline stores to its area. -/
theorem frame_RS_REBASE (c : Cpu) : Frame RebaseArea c (RS_REBASE c) := by
  have hv : ∀ {a}, a ∈ ResyncVars → a ∈ RebaseArea := fun h => resync_rebase h
  unfold RS_REBASE
  extract_lets c1 c2 c3 c4 wm c5 c6
  have h1 : Frame RebaseArea c c1 := by
    refine ((Frame.refl _ c).sto (hv ?_)).sto (hv ?_) <;> simp [ResyncVars]
  have h2 : Frame RebaseArea c c2 := h1.trans (((frame_RS_DISPLAY_RESET c1).trans
    ((frame_RS_CLAMP_ISR _).trans (frame_BX_REBASE_HOOK _))).mono display_rebase)
  have h3 : Frame RebaseArea c c3 := by
    refine (h2.sto (hv ?_)).sto (hv ?_) <;> simp [ResyncVars]
  have h4 : Frame RebaseArea c c4 := h3.trans ((frame_LS_RING_INIT c3).mono rings_rebase)
  have h5 : Frame RebaseArea c c5 := h4.trans
    (((frame_setWatermarks _ _ _).mono watermarks_rebase).trans
      ((frame_RS_CLR_CRC _).mono records_rebase))
  have h6 : Frame RebaseArea c c6 := by
    refine ((h5.sto (hv ?_)).sto (hv ?_)).sto (hv ?_) <;> simp [ResyncVars]
  refine (h6.sto (hv ?_)).sto (hv ?_) <;> simp [ResyncVars]

/-- Entering a hold stores to the resync state and the records. -/
theorem frame_RS_ENTER_HOLD (c : Cpu) :
    Frame (ResyncVars ∪ CrcRecords) c (RS_ENTER_HOLD c) := by
  refine Frame.trans ((((Frame.refl _ c).sto (Or.inl ?_)).sto (Or.inl ?_)).sto (Or.inl ?_))
    ((frame_RS_CLR_CRC _).mono Set.subset_union_right) <;> simp [ResyncVars]

/-! ### The image -/

/-- The cells of the state image.
SOURCE: resync.asm:550-647 -/
def ImageCells : Set ℕ :=
  {a | (0x015D ≤ a ∧ a ≤ 0x01EF) ∨ (0x0200 ≤ a ∧ a ≤ 0x02EF) ∨ (0x031D ≤ a ∧ a ≤ 0x035C) ∨
    a ∈ RS_TAILTBL}

/-- An image cell is in the console's RAM or one of the cells of the tail. -/
theorem image_cases {a : ℕ} (h : a ∈ ImageCells) :
    (0x0103 ≤ a ∧ a ≤ 0x035C ∧ (a < 0x015D → a = 0x0103)) ∨ (0x80C0 ≤ a ∧ a ≤ 0x80C1) ∨
      a = 0x8102 ∨ a = 0x8106 ∨ a = 0x8107 ∨ a = 0x810F ∨ (0x8196 ≤ a ∧ a ≤ 0x819B) ∨
      a = 0x819F := by
  rcases h with h | h | h | h
  · omega
  · omega
  · omega
  · have htail : ∀ b ∈ RS_TAILTBL, (0x0103 ≤ b ∧ b ≤ 0x035C ∧ (b < 0x015D → b = 0x0103)) ∨
        (0x80C0 ≤ b ∧ b ≤ 0x80C1) ∨ b = 0x8102 ∨ b = 0x8106 ∨ b = 0x8107 ∨ b = 0x810F ∨
        (0x8196 ≤ b ∧ b ≤ 0x819B) ∨ b = 0x819F := by decide
    exact htail a h

/-- The address of an image position.
SOURCE: resync.asm:558-595 -/
def imgAddr (pos : ℕ) : ℕ :=
  if pos < IMG_S1 then 0x015D + pos
  else if pos < IMG_S2 then (pos - IMG_S1) / 2 + BACKTAB
  else if pos < IMG_S3 then (pos - IMG_S2) / 2 + OBJ_TBL
  else RS_TAILTBL.getD (pos - IMG_S3) 0

/-- A position of the tail addresses a cell of the tail table. -/
theorem tail_mem {pos : ℕ} (h1 : IMG_S3 ≤ pos) (h2 : pos < IMG_TOTAL) :
    RS_TAILTBL.getD (pos - IMG_S3) 0 ∈ RS_TAILTBL := by
  have hlen : pos - IMG_S3 < RS_TAILTBL.length := by
    simp only [IMG_S3, IMG_TOTAL] at h1 h2 ⊢
    change pos - 755 < 14
    omega
  rw [List.getD_eq_getElem?_getD, List.getElem?_eq_getElem hlen]
  exact List.getElem_mem hlen

/-- Every position of the image addresses an image cell. -/
theorem imgAddr_mem {pos : ℕ} (h : pos < IMG_TOTAL) : imgAddr pos ∈ ImageCells := by
  unfold imgAddr
  split
  · rename_i h1
    simp only [IMG_S1] at h1
    exact Or.inl ⟨by omega, by omega⟩
  split
  · rename_i h1 h2
    simp only [IMG_S1, IMG_S2, BACKTAB] at h1 h2 ⊢
    exact Or.inr (Or.inl ⟨by omega, by omega⟩)
  split
  · rename_i h1 h2 h3
    simp only [IMG_S2, IMG_S3, OBJ_TBL] at h2 h3 ⊢
    exact Or.inr (Or.inr (Or.inl ⟨by omega, by omega⟩))
  · rename_i h3
    exact Or.inr (Or.inr (Or.inr (tail_mem (by omega) h)))

/-- Writing an image position stores to its cell and to `RS_TMP`. -/
theorem frame_IMG_PUT (c : Cpu) (pos v : ℕ) (h : pos < IMG_TOTAL) :
    Frame {a | a = RS_TMP ∨ a = imgAddr pos} c (IMG_PUT c pos v) := by
  have h1 : slt16 pos IMG_S1 = decide (pos < IMG_S1) :=
    slt16_of_lt (by simp only [IMG_TOTAL] at h; omega) (by decide)
  have h2 : slt16 pos IMG_S2 = decide (pos < IMG_S2) :=
    slt16_of_lt (by simp only [IMG_TOTAL] at h; omega) (by decide)
  have h3 : slt16 pos IMG_S3 = decide (pos < IMG_S3) :=
    slt16_of_lt (by simp only [IMG_TOTAL] at h; omega) (by decide)
  have hput : Frame {a | a = RS_TMP ∨ a = imgAddr pos} c (c.sto RS_TMP v) :=
    (Frame.refl _ c).sto (Or.inl rfl)
  unfold IMG_PUT
  simp only [h1, h2, h3, decide_eq_true_eq]
  by_cases hs1 : pos < IMG_S1
  · rw [if_pos hs1]
    refine hput.sto (Or.inr ?_)
    rw [imgAddr, if_pos hs1]
  rw [if_neg hs1]
  by_cases hs2 : pos < IMG_S2
  · rw [if_pos hs2]
    refine hput.sto (Or.inr ?_)
    rw [imgAddr, if_neg hs1, if_pos hs2]
  rw [if_neg hs2]
  by_cases hs3 : pos < IMG_S3
  · rw [if_pos hs3]
    refine hput.sto (Or.inr ?_)
    rw [imgAddr, if_neg hs1, if_neg hs2, if_pos hs3]
  · rw [if_neg hs3]
    refine hput.sto (Or.inr ?_)
    rw [imgAddr, if_neg hs1, if_neg hs2, if_neg hs3]

/-- Two words below a bound that agree modulo 65536. -/
theorem word_pos (c : Cpu) {pos : ℕ} (hlo : c.cell RS_POS_LO = pos % 256)
    (hhi : c.cell RS_POS_HI = pos / 256) (h : pos < 65536) :
    word c RS_POS_LO RS_POS_HI = pos := by
  unfold word
  rw [hlo, hhi]
  omega

/-- The position register of the applier, outside the image. -/
theorem pos_not_image {a : ℕ} (ha : a = RS_POS_LO ∨ a = RS_POS_HI) : a ∉ ImageCells := by
  intro h
  have := image_cases h
  simp only [RS_POS_LO, RS_POS_HI] at ha
  omega

/-- One round of the applier: a byte is written to the current position, which advances. -/
theorem applyImage_succ (c : Cpu) (r3 n : ℕ) {pos : ℕ} (hlo : c.cell RS_POS_LO = pos % 256)
    (hhi : c.cell RS_POS_HI = pos / 256) (h : pos < IMG_TOTAL) :
    ∃ d, applyImage c r3 (n + 1) = applyImage d (r3 + 1) n ∧
      d.cell RS_POS_LO = (pos + 1) % 256 ∧ d.cell RS_POS_HI = (pos + 1) / 256 ∧
      Frame {a | a = RS_POS_LO ∨ a = RS_POS_HI ∨ a = RS_TMP2} (IMG_PUT c pos (c.cell r3)) d := by
  simp only [IMG_TOTAL] at h
  have hput := frame_IMG_PUT c pos (c.cell r3) h
  have hkeep : ∀ a, a = RS_POS_LO ∨ a = RS_POS_HI →
      (IMG_PUT c pos (c.cell r3)).cell a = c.cell a := by
    intro a ha
    refine hput.cell_eq ?_
    rintro (rfl | himg)
    · rcases ha with ha | ha <;> simp at ha
    · exact pos_not_image ha (himg ▸ imgAddr_mem h)
  have hlo8 : cellWidth RS_POS_LO = 8 := cellWidth_cart (by decide) (by decide)
  have hhi8 : cellWidth RS_POS_HI = 8 := cellWidth_cart (by decide) (by decide)
  refine ⟨_, rfl, ?_, ?_, ?_⟩
  · rw [word_pos c hlo hhi (by omega), hkeep _ (Or.inl rfl), hlo]
    simp only [Cpu.sto_cell]
    rw [if_neg (by decide)]
    split
    · rw [Cpu.sto_cell, if_neg (by decide), Cpu.sto_cell, if_pos rfl, hlo8]
      omega
    · rw [Cpu.sto_cell, if_pos rfl, hlo8]
      omega
  · rw [word_pos c hlo hhi (by omega), hkeep _ (Or.inl rfl), hlo]
    simp only [Cpu.sto_cell]
    rw [if_neg (by decide)]
    split
    · rw [Cpu.sto_cell, if_pos rfl, if_neg (by decide), hkeep _ (Or.inr rfl), hhi, hhi8]
      omega
    · rw [Cpu.sto_cell, if_neg (by decide), hkeep _ (Or.inr rfl), hhi]
      omega
  · rw [word_pos c hlo hhi (by omega)]
    refine Frame.sto (Frame.ite (fun _ => Frame.sto ?_ ?_) (fun _ => ?_)) ?_
    · exact (Frame.refl _ _).sto (Or.inl rfl)
    · exact Or.inr (Or.inl rfl)
    · exact (Frame.refl _ _).sto (Or.inl rfl)
    · exact Or.inr (Or.inr rfl)

/-- What the applier stores to: image cells, its position, and two scratch cells. -/
def ApplyArea : Set ℕ :=
  {a | a = RS_TMP ∨ a = RS_TMP2 ∨ a = RS_POS_LO ∨ a = RS_POS_HI} ∪ ImageCells

/-- One round of the applier stores there. -/
theorem frame_apply_round {c d : Cpu} {pos v : ℕ} (h : pos < IMG_TOTAL)
    (hd : Frame {a | a = RS_POS_LO ∨ a = RS_POS_HI ∨ a = RS_TMP2} (IMG_PUT c pos v) d) :
    Frame ApplyArea c d := by
  refine Frame.trans ((frame_IMG_PUT c pos v h).mono ?_) (hd.mono ?_)
  · rintro a (rfl | rfl)
    · exact Or.inl (Or.inl rfl)
    · exact Or.inr (imgAddr_mem h)
  · rintro a (rfl | rfl | rfl)
    · exact Or.inl (Or.inr (Or.inr (Or.inl rfl)))
    · exact Or.inl (Or.inr (Or.inr (Or.inr rfl)))
    · exact Or.inl (Or.inr (Or.inl rfl))

/-- Applying a chunk that fits the image stores there. -/
theorem frame_applyImage (n : ℕ) (c : Cpu) (r3 pos : ℕ) (hlo : c.cell RS_POS_LO = pos % 256)
    (hhi : c.cell RS_POS_HI = pos / 256) (h : pos + n ≤ IMG_TOTAL) :
    Frame ApplyArea c (applyImage c r3 n) := by
  induction n generalizing c r3 pos with
  | zero => exact Frame.refl _ c
  | succ n ih =>
    obtain ⟨d, heq, hdlo, hdhi, hd⟩ := applyImage_succ c r3 n hlo hhi (by omega)
    rw [heq]
    exact (frame_apply_round (by omega) hd).trans (ih d _ _ hdlo hdhi (by omega))

/-! ### The handlers -/

/-- How far the input in the frame buffer is ahead of its seat's watermark, in 16 bits.
SOURCE: session.asm:602-618 -/
def inputAhead (c : Cpu) : ℕ :=
  sub16 (word c (FRMBUF + 3) (FRMBUF + 4))
    (word c (SEAT_WM + 2 * c.cell (FRMBUF + 2)) (SEAT_WM + 2 * c.cell (FRMBUF + 2) + 1))

/-- The checks an input passes before it is stored.
SOURCE: session.asm:587-618 -/
def inputAccepted (c : Cpu) : Prop :=
  6 ≤ c.cell FRMBUF ∧ c.cell (FRMBUF + 2) ≠ c.cell NET_SEAT ∧
    c.cell (FRMBUF + 2) < c.cell NET_COUNT ∧ 0 < inputAhead c ∧ inputAhead c < 32768

/-- A remote input of one of the four seats stores to that seat's pages and watermark. -/
theorem frame_of_input (c : Cpu) (h : inputAccepted c → c.cell (FRMBUF + 2) ≤ 3) :
    Frame (RingPages ∪ Watermarks) c (of_input c) := by
  unfold of_input
  extract_lets seat tick wmAt ahead slot ring c1 c2
  refine Frame.ite (fun _ => Frame.refl _ c) (fun hlen => ?_)
  refine Frame.ite (fun _ => Frame.refl _ c) (fun hown => ?_)
  refine Frame.ite (fun _ => Frame.refl _ c) (fun hcnt => ?_)
  refine Frame.ite (fun _ => Frame.refl _ c) (fun hback => ?_)
  refine Frame.ite (fun _ => Frame.refl _ c) (fun hzero => ?_)
  have hahead : inputAhead c = ahead := rfl
  have hseat : seat ≤ 3 := h ⟨by omega, hown, by omega, by omega, by omega⟩
  have htick : c.cell (FRMBUF + 3) < 256 := c.cell_lt_cart (by decide) (by decide)
  have hring : SEAT_RING ≤ ring ∧ ring < SEAT_RING + 1024 := by
    simp only [ring, slot, swap_byte (show seat < 256 by omega), SEAT_RING]
    omega
  refine (((((Frame.refl _ c).sto (Or.inl ?_)).sto (Or.inl ?_)).sto (Or.inr ?_)).sto (Or.inr ?_))
  · exact ⟨hring.1, by omega⟩
  · simp only [SEAT_RING, SEAT_KP] at hring ⊢
    constructor <;> simp only [SEAT_RING] <;> omega
  · exact ⟨by omega, by omega⟩
  · exact ⟨by omega, by omega⟩

/-- The lobby list stores to the session area, and leaves at most eight entries. -/
theorem frame_of_lobby (c : Cpu) (h : c.cell LOBBY_CNT ≤ 8) :
    Frame (DrawArea ∪ LobbyData) c (of_lobby c) ∧ (of_lobby c).cell LOBBY_CNT ≤ 8 := by
  unfold of_lobby
  extract_lets count c1 c2 c3
  have hcount : count ≤ 8 := by
    simp only [count]
    split <;> omega
  have h1 : Frame LobbyData c c1 := (Frame.refl _ c).sto (Or.inr (Or.inl rfl))
  have h2 : Frame LobbyData c c2 := Frame.ite (fun _ => h1) (fun _ => h1.sto (Or.inl rfl))
  have h3 : Frame (DrawArea ∪ LobbyData) c c3 := by
    refine (h2.copy ?_).mono Set.subset_union_right
    intro x hx1 hx2
    exact Or.inr (Or.inr (Or.inr (Or.inr ⟨hx1, by omega⟩)))
  have hcnt : c3.cell LOBBY_CNT ≤ 8 := by
    have hcopy : c3.cell LOBBY_CNT = c2.cell LOBBY_CNT := by
      simp only [c3]
      rw [Cpu.copy_cell _ _ _ _ _ (by simp only [FRMBUF, LOBBY_CACHE]; omega),
        if_neg (by simp only [LOBBY_CNT, LOBBY_CACHE]; omega)]
    have hmenu : c2.cell LOBBY_CNT = c1.cell LOBBY_CNT := by
      simp only [c2]
      split
      · rfl
      · rw [Cpu.sto_cell, if_neg (by decide)]
    rw [hcopy, hmenu]
    simp only [c1, Cpu.sto_cell, if_true]
    rw [cellWidth_cart (by decide) (by decide)]
    omega
  split
  · exact ⟨Frame.refl _ c, h⟩
  split
  · exact ⟨Frame.refl _ c, h⟩
  split
  · exact ⟨Frame.refl _ c, h⟩
  split
  · exact ⟨h3, hcnt⟩
  · have hrender := frame_SES_RENDER c3 hcnt
    refine ⟨h3.trans (hrender.mono Set.subset_union_left), ?_⟩
    rw [hrender.cell_eq (not_mem_draw (by decide) (by decide) (by decide))]
    exact hcnt

/-- What START sets up.
SOURCE: session.asm:681-725 -/
def StartArea : Set ℕ :=
  {a | a = NET_SEAT ∨ a = NET_COUNT ∨ a = RNG_LO ∨ a = RNG_HI ∨ a = NET_DELAY ∨ a = TICK_LO ∨
    a = TICK_HI ∨ a = NET_ACTIVE} ∪ Roster ∪ RingPages ∪ Watermarks ∪ CrcRecords

/-- START stores to the match state. -/
theorem frame_of_start (c : Cpu) : Frame StartArea c (of_start c) := by
  have hv : ∀ {a}, a ∈ {a | a = NET_SEAT ∨ a = NET_COUNT ∨ a = RNG_LO ∨ a = RNG_HI ∨
      a = NET_DELAY ∨ a = TICK_LO ∨ a = TICK_HI ∨ a = NET_ACTIVE} → a ∈ StartArea :=
    fun h => Or.inl (Or.inl (Or.inl (Or.inl h)))
  unfold of_start
  extract_lets c1 c2 c3 c4 c5 c6
  refine Frame.ite (fun _ => Frame.refl _ c) (fun _ => ?_)
  have h3 : Frame StartArea c c3 := by
    repeat' apply Frame.sto
    · exact Frame.refl _ c
    all_goals exact hv (by simp)
  have h4 : Frame StartArea c c4 := h3.trans
    ((frame_SES_CPR_GO 4 c3 _ _ le_rfl (by omega)).mono fun _ h => Or.inl (Or.inl (Or.inl (Or.inr h))))
  have h5 : Frame StartArea c c5 := h4.trans
    (((frame_LS_RING_INIT c4).mono fun _ h => Or.inl (Or.inl (Or.inr h))).trans
      ((frame_RS_CLR_CRC _).mono fun _ h => Or.inr h))
  have h6 : Frame StartArea c c6 := h5.trans
    ((frame_setWatermarks _ _ _).mono fun _ h => Or.inl (Or.inr h))
  refine ((h6.sto (hv ?_)).sto (hv ?_)).sto (hv ?_) <;> simp

/-- A room of at most nine members stores to the session area. -/
theorem frame_of_room (c : Cpu) (hl : c.cell LOBBY_CNT ≤ 8)
    (hr : c.cell NET_ACTIVE = 0 → c.cell (FRMBUF + 2) ≤ 9) :
    Frame SessionArea c (of_room c) ∧ (of_room c).cell LOBBY_CNT = c.cell LOBBY_CNT := by
  have hw : cellWidth ROOM_CNT = 8 := cellWidth_cart (by decide) (by decide)
  unfold of_room
  extract_lets c1 c2 c3
  have hdraw : LOBBY_CNT ∉ DrawArea := not_mem_draw (by decide) (by decide) (by decide)
  have h1 : Frame SessionArea c c1 :=
    (Frame.refl _ c).sto (lobby_session (Or.inr (Or.inr (Or.inl rfl))))
  have hhost : ROOM_HOST ∈ SessionArea := lobby_session (Or.inr (Or.inr (Or.inr (Or.inl rfl))))
  by_cases hact : c.cell NET_ACTIVE ≠ 0
  · rw [if_pos hact]
    exact ⟨Frame.refl _ c, rfl⟩
  rw [if_neg hact]
  by_cases hlen : c.cell FRMBUF < 34
  · rw [if_pos hlen]
    exact ⟨Frame.refl _ c, rfl⟩
  rw [if_neg hlen]
  have hc1 : c1.cell (FRMBUF + 2) = c.cell (FRMBUF + 2) := by simp [c1]
  rw [hc1]
  by_cases htwo : c.cell (FRMBUF + 2) < 2
  · rw [if_pos htwo]
    have h2 : Frame SessionArea c c2 :=
      (h1.sto (lobby_session (Or.inr (Or.inr (Or.inl rfl))))).sto hhost
    have hscr : Frame DrawArea c2 (UI_PRINT (UI_CLS c2) 0 STR_TITLE) :=
      (frame_UI_CLS c2).trans ((frame_UI_PRINT _ _ _ (by decide)).mono screen_draw)
    have hcnt : (UI_PRINT (UI_CLS c2) 0 STR_TITLE).cell LOBBY_CNT = c.cell LOBBY_CNT := by
      rw [hscr.cell_eq hdraw]
      simp [c2, c1]
    have hrender := frame_SES_RENDER (UI_PRINT (UI_CLS c2) 0 STR_TITLE) (by rw [hcnt]; exact hl)
    refine ⟨h2.trans ((hscr.trans hrender).mono draw_session), ?_⟩
    rw [hrender.cell_eq hdraw, hcnt]
  · rw [if_neg htwo]
    have hcpr := frame_SES_CPR_GO 4 c1 (FRMBUF + 3) NAME_TBL le_rfl (by omega)
    have hkeep : ∀ a, a = NET_ACTIVE ∨ a = ROOM_CNT ∨ a = LOBBY_CNT → c3.cell a = c1.cell a := by
      intro a ha
      refine hcpr.cell_eq ?_
      rintro ⟨h1, h2⟩
      rcases ha with rfl | rfl | rfl <;> simp at h1 h2
    have h3 : Frame SessionArea c (c3.sto ROOM_HOST (if sameName c3 NAME_TBL NAME_BUF 9 then 1
        else 0)) := (h1.trans (hcpr.mono roster_session)).sto hhost
    have hroom := frame_SES_ROOMSCR (c3.sto ROOM_HOST (if sameName c3 NAME_TBL NAME_BUF 9 then 1
        else 0)) ?_ ?_
    · refine ⟨h3.trans (hroom.mono draw_session), ?_⟩
      rw [hroom.cell_eq hdraw, Cpu.sto_cell, if_neg (by decide), hkeep _ (Or.inr (Or.inr rfl))]
      simp [c1]
    · rw [Cpu.sto_cell, if_neg (by decide), hkeep _ (Or.inl rfl)]
      simpa [c1] using hact
    · rw [Cpu.sto_cell, if_neg (by decide), hkeep _ (Or.inr (Or.inl rfl))]
      have hle := hr (by simpa using hact)
      simp only [c1, Cpu.sto_cell, if_true, hw]
      omega

/-- What a peer's departure stores to. -/
def LeftArea : Set ℕ :=
  {a | a = PEER_WHY ∨ a = NET_DROPPED ∨ a = LEFT_SEAT ∨ (LEFT_NAME ≤ a ∧ a < LEFT_NAME + 9)} ∪
    RingPages ∪ Watermarks

/-- PEER_LEFT stores to the match state. -/
theorem frame_of_pl (c : Cpu) : Frame LeftArea c (of_pl c) := by
  unfold of_pl
  extract_lets c1
  have h1 : Frame LeftArea c c1 := by
    refine Frame.ite (fun _ => Frame.refl _ c) (fun _ => Frame.sto (Frame.copy (Frame.sto
      (Frame.refl _ c) ?_) ?_) ?_)
    · exact Or.inl (Or.inl (Or.inr (Or.inr (Or.inl rfl))))
    · intro x h1 h2
      exact Or.inl (Or.inl (Or.inr (Or.inr (Or.inr ⟨h1, by omega⟩))))
    · exact Or.inl (Or.inl (Or.inr (Or.inr (Or.inr ⟨by omega, by omega⟩))))
  refine Frame.trans ((h1.sto ?_).sto ?_) ((frame_LS_IDLE_RMT _).mono ?_)
  · exact Or.inl (Or.inl (Or.inl rfl))
  · exact Or.inl (Or.inl (Or.inr (Or.inl rfl)))
  · rintro a (ha | ha)
    · exact Or.inl (Or.inr ha)
    · exact Or.inr ha

/-- A peer's checksum stores to the pending flag and, for the request, to the mailbox. -/
theorem frame_RS_ON_CRC (c : Cpu) :
    Frame ({a | a = RS_PEND ∨ a = RS_PTMO} ∪ MailboxArea) c (RS_ON_CRC c) := by
  unfold RS_ON_CRC
  extract_lets r4 c1
  have h1 : Frame ({a | a = RS_PEND ∨ a = RS_PTMO} ∪ MailboxArea) c c1 :=
    ((Frame.refl _ c).sto (Or.inl (Or.inl rfl))).sto (Or.inl (Or.inr rfl))
  refine Frame.ite (fun _ => Frame.refl _ c) (fun _ => ?_)
  refine Frame.ite (fun _ => Frame.refl _ c) (fun _ => ?_)
  refine Frame.ite (fun _ => Frame.refl _ c) (fun _ => ?_)
  refine Frame.ite (fun _ => Frame.refl _ c) (fun _ => ?_)
  refine Frame.ite (fun _ => Frame.refl _ c) (fun _ => ?_)
  refine Frame.ite (fun _ => Frame.refl _ c) (fun _ => ?_)
  refine Frame.ite (fun _ => h1) (fun _ => h1.trans ?_)
  exact (frame_sendFrame _ _ (by simp)).mono Set.subset_union_right

/-- A request stores to the pending flag. -/
theorem frame_RS_ON_REQ (c : Cpu) : Frame {a | a = RS_PEND ∨ a = RS_PTMO} c (RS_ON_REQ c) := by
  unfold RS_ON_REQ
  refine Frame.ite (fun _ => Frame.refl _ c) (fun _ => ?_)
  refine Frame.ite (fun _ => Frame.refl _ c) (fun _ => ?_)
  refine Frame.ite (fun _ => Frame.refl _ c) (fun _ => ?_)
  exact ((Frame.refl _ c).sto (Or.inl rfl)).sto (Or.inr rfl)

/-- A STATE frame stores to the resync state and the records; inside a hold also to
image cells or, at the END, to what a re-baseline stores to. -/
theorem frame_RS_ON_STATE (c : Cpu) :
    Frame ((ResyncVars ∪ CrcRecords) ∪ {a | c.cell RESYNC_HOLD ≠ 0 ∧ a ∈ ImageCells ∪ RebaseArea}) c
      (RS_ON_STATE c) := by
  have hbad : ∀ d, Frame ResyncVars d (RS_BAD d) := fun d =>
    frame_DIAG_BUMP d (Or.inr (Or.inl rfl))
  have hvars : ResyncVars ⊆ (ResyncVars ∪ CrcRecords) ∪
      {a | c.cell RESYNC_HOLD ≠ 0 ∧ a ∈ ImageCells ∪ RebaseArea} := fun _ h => Or.inl (Or.inl h)
  unfold RS_ON_STATE
  extract_lets len c1 count c2 posHi c3
  refine Frame.ite (fun _ => (hbad c).mono hvars) (fun _ => ?_)
  refine Frame.ite (fun _ => ?_) (fun _ => ?_)
  · refine Frame.ite (fun _ => ?_) (fun _ => ?_)
    · refine Frame.ite (fun _ => (hbad c).mono hvars) (fun _ => ?_)
      refine (((frame_RS_ENTER_HOLD c).mono fun _ h => Or.inl h).sto ?_).sto ?_ <;>
        exact hvars (by simp [ResyncVars])
    · refine Frame.ite (fun h => ?_) (fun _ => Frame.refl _ c)
      exact (frame_RS_REBASE c).mono fun _ ha => Or.inr ⟨h.2, Or.inr ha⟩
  · refine Frame.ite (fun _ => (hbad c).mono hvars) (fun hhold => ?_)
    refine Frame.ite (fun _ => (hbad c).mono hvars) (fun _ => ?_)
    have h2 : Frame ResyncVars c c2 := (Frame.refl _ c).sto (by simp [ResyncVars])
    refine Frame.ite (fun _ => (h2.trans (hbad c2)).mono hvars) (fun _ => ?_)
    refine Frame.ite (fun _ => (h2.trans (hbad c2)).mono hvars) (fun hfit => ?_)
    have h3 : Frame ResyncVars c c3 := by
      refine (h2.sto ?_).sto ?_ <;> simp [ResyncVars]
    have hw : ∀ a, a = FRMBUF + 2 ∨ a = FRMBUF + 3 → c2.cell a = c.cell a := by
      intro a ha
      simp only [c2, Cpu.sto_cell]
      rcases ha with rfl | rfl <;> rw [if_neg (by decide)]
    have hb2 : c.cell (FRMBUF + 2) < 256 := c.cell_lt_cart (by decide) (by decide)
    have hb3 : c.cell (FRMBUF + 3) < 256 := c.cell_lt_cart (by decide) (by decide)
    have hlo8 : cellWidth RS_POS_LO = 8 := cellWidth_cart (by decide) (by decide)
    have hhi8 : cellWidth RS_POS_HI = 8 := cellWidth_cart (by decide) (by decide)
    have hlo : c3.cell RS_POS_LO = c.cell (FRMBUF + 2) := by
      simp only [c3, Cpu.sto_cell, if_true]
      rw [if_neg (by decide), hw _ (Or.inl rfl), hlo8]
      omega
    have hhi : c3.cell RS_POS_HI = c.cell (FRMBUF + 3) := by
      simp only [c3, Cpu.sto_cell, if_true]
      rw [hw _ (Or.inr rfl), hhi8]
      omega
    have hposHi : posHi = c.cell (FRMBUF + 3) := hw _ (Or.inr rfl)
    rw [hposHi, hw _ (Or.inl rfl)] at hfit
    refine (h3.mono hvars).trans ((frame_applyImage count c3 (FRMBUF + 4)
      (c.cell (FRMBUF + 3) * 256 + c.cell (FRMBUF + 2)) ?_ ?_ ?_).mono ?_)
    · rw [hlo]
      omega
    · rw [hhi]
      omega
    · omega
    · rintro a (ha | ha)
      · rcases ha with rfl | rfl | rfl | rfl <;> exact hvars (by simp [ResyncVars])
      · exact Or.inr ⟨hhold, Or.inl ha⟩

end BoxingNetplay.Interface
