import BoxingNetplay.Interface.Lobby
import BoxingNetplay.Interface.Pump
import BoxingNetplay.Interface.Push

/-!
# The lobby's menu

What a LOBBY, a ROOM and a key do to the cursor, the cached list, the room and the name, and
where the list is drawn with its cursor.  What a redraw puts on the rows of the list depends on the cursor and the
cached list alone (`SES_RENDER_alike`), so the rows stay what a redraw would put there (`Drawn`) until
one of these changes or something else is stored on the screen.
-/

set_option autoImplicit false

namespace BoxingNetplay.Interface

open BoxingNetplay.Library
open BoxingNetplay.Model

/-- The cursor, the cached list, the room, and the player's own name. -/
def MenuCells : Set ℕ := LobbyData ∪ {a | NAME_BUF ≤ a ∧ a ≤ NAME_BUF + 8}

theorem menu_cases {a : ℕ} (h : a ∈ MenuCells) : a = 0x815A ∨ a = 0x815C ∨ a = 0x81AA ∨
    a = 0x81AB ∨ (0x8380 ≤ a ∧ a < 0x8400) ∨ (0x8150 ≤ a ∧ a ≤ 0x8158) := by
  rcases h with (h | h | h | h | ⟨h1, h2⟩) | ⟨h1, h2⟩
  · exact Or.inl h
  · exact Or.inr (Or.inl h)
  · exact Or.inr (Or.inr (Or.inl h))
  · exact Or.inr (Or.inr (Or.inr (Or.inl h)))
  · exact Or.inr (Or.inr (Or.inr (Or.inr (Or.inl ⟨h1, by simp only [LOBBY_CACHE] at h2; omega⟩))))
  · exact Or.inr (Or.inr (Or.inr (Or.inr (Or.inr ⟨h1, by simp only [NAME_BUF] at h2; omega⟩))))

theorem menu_not_paint {a : ℕ} (h : a ∈ MenuCells) : a ∉ PaintArea := by
  have hc := menu_cases h
  simp only [PaintArea, Set.mem_ofPred_eq, UI_COLOR, PP_TMP]
  omega

theorem menu_not_draw {a : ℕ} (h : a ∈ MenuCells) : a ∉ DrawArea :=
  fun hd => menu_not_paint h (draw_paint hd)

/-- The cards of the rows the list is on.
SOURCE: session.asm:949-957 -/
def ListCards : Set ℕ := {a | BACKTAB + 20 * ROW_LIST ≤ a ∧ a < BACKTAB + 20 * ROW_LIST + 160}

/-- What the list is drawn from: the cursor, the count and the entries.
SOURCE: session.asm:942-1027 -/
def ListData : Set ℕ :=
  {a | a = MENU_SEL ∨ a = LOBBY_CNT ∨ (LOBBY_CACHE ≤ a ∧ a < LOBBY_CACHE + 73)}

/-- The cells of the menu and the cards of its list. -/
def ShownCells : Set ℕ := MenuCells ∪ ListCards

/-- What the list is drawn from belongs to the menu. -/
theorem data_menu : ListData ⊆ MenuCells := by
  rintro a (rfl | rfl | ⟨h1, h2⟩)
  · simp [MenuCells, LobbyData]
  · simp [MenuCells, LobbyData]
  · exact Or.inl (Or.inr (Or.inr (Or.inr (Or.inr ⟨h1, by omega⟩))))

theorem menu_shown : MenuCells ⊆ ShownCells := fun _ h => Or.inl h

theorem cards_shown : ListCards ⊆ ShownCells := fun _ h => Or.inr h

/-- These cells by address. -/
theorem shown_cases {a : ℕ} (h : a ∈ ShownCells) : (0x250 ≤ a ∧ a < 0x2F0) ∨ a = 0x815A ∨
    a = 0x815C ∨ a = 0x81AA ∨ a = 0x81AB ∨ (0x8380 ≤ a ∧ a < 0x8400) ∨ (0x8150 ≤ a ∧ a ≤ 0x8158) := by
  rcases h with h | ⟨h1, h2⟩
  · exact Or.inr (menu_cases h)
  · simp only [BACKTAB, ROW_LIST] at h1 h2
    exact Or.inl ⟨by omega, by omega⟩

/-- The peripheral is not shown. -/
theorem shown_not_mailbox {a : ℕ} (h : a ∈ ShownCells) : a ∉ MailboxArea := by
  have hc := shown_cases h
  simp only [MailboxArea, Set.mem_ofPred_eq, MB_DEV, NAVAIL_HI, NREQ_LO, NGOT_HI, DIAG_TMO, DIAG_ERR,
    FN_SEQ]
  omega

theorem shown_not_pump {a : ℕ} (h : a ∈ ShownCells) : a ∉ PumpArea := by
  have hc := shown_cases h
  have hm := shown_not_mailbox h
  simp only [PumpArea, RingCells, Set.mem_union, Set.mem_ofPred_eq, hm, false_or, RX_WR, RX_RD,
    RXACC, DIAG_SLIP, FRMBUF]
  omega

/-- Frames for a match store to neither, but for an image in an open resync. -/
theorem shown_not_match {a : ℕ} (h : a ∈ ShownCells) :
    a ∉ RingPages ∪ Watermarks ∧ a ∉ LeftArea ∧ a ∉ ResyncVars ∪ CrcRecords := by
  have hc := shown_cases h
  have hresync : a ∉ ResyncVars := by
    simp only [ResyncVars, Set.mem_ofPred_eq, RESYNC_HOLD, RS_TMP2, DIAG_REJ, RS_PEND, RS_PTMO, TICK_LO,
      TICK_HI, LS_WAITC_LO, LS_WAITC_HI]
    omega
  have hrest : a ∉ RingPages ∧ a ∉ Watermarks ∧ a ∉ CrcRecords := by
    simp only [RingPages, Watermarks, CrcRecords, Set.mem_ofPred_eq, SEAT_RING, SEAT_WM, OWN_CRC]
    omega
  obtain ⟨h2, h3, h4⟩ := hrest
  have hleft : a ∉ LeftArea := by
    simp only [LeftArea, Set.mem_union, Set.mem_ofPred_eq, h2, h3, or_false, PEER_WHY, NET_DROPPED,
      LEFT_SEAT, LEFT_NAME]
    omega
  simp [h2, h3, h4, hresync, hleft]

/-- An image leaves the menu's own cells alone. -/
theorem menu_not_image {a : ℕ} (h : a ∈ MenuCells) : a ∉ ImageCells ∪ RebaseArea := by
  have hc := menu_cases h
  obtain ⟨hrings, -, hresync⟩ := shown_not_match (menu_shown h)
  have himage : a ∉ ImageCells := by
    intro hi
    have hcases := image_cases hi
    omega
  have hdisplay : a ∉ DisplayArea := by
    simp only [DisplayArea, Set.mem_ofPred_eq, STIC_CS, STIC_EXT, ISR_VEC_LO, ISR_VEC_HI, SC_ISR_SAVE,
      BX_CNT2_LO, BX_CNT4_HI]
    omega
  simp only [Set.mem_union, not_or] at hrings hresync
  simp [RebaseArea, hdisplay, hrings.1, hrings.2, hresync.1, hresync.2, himage]

/-! ### The list on the screen -/

/-- A redraw stores to the screen. -/
theorem SES_RENDER_menu (c : Cpu) (h : c.cell LOBBY_CNT ≤ 8) {a : ℕ} (ha : a ∈ MenuCells) :
    (SES_RENDER c).cell a = c.cell a := (frame_SES_RENDER c h).cell_eq (menu_not_draw ha)

/-- The first card of an entry's row. -/
def cursorCard (i : ℕ) : ℕ := BACKTAB + 20 * (ROW_LIST + i)

/-- Characters are printed from one card on. -/
theorem frame_PRINTN (n : ℕ) (c : Cpu) (r4 r5 color : ℕ) (h : r4 + n < 65536) :
    Frame {a | r4 ≤ a ∧ a < r4 + n} c (UI_PRINTN_loop c r4 r5 color n) := by
  induction n generalizing c r4 r5 with
  | zero => exact Frame.refl _ c
  | succ n ih =>
    rw [UI_PRINTN_loop, Nat.mod_eq_of_lt (by omega : r4 + 1 < 65536)]
    apply Frame.ite (fun _ => Frame.refl _ c)
    intro _
    have hone : Frame {a | r4 ≤ a ∧ a < r4 + (n + 1)} c (c.sto r4 (card (c.cell r5) color)) :=
      (Frame.refl _ c).sto ⟨le_rfl, by omega⟩
    apply hone.trans
    apply (ih _ _ _ (by omega)).mono
    rintro a ⟨h1, h2⟩
    exact ⟨by omega, by omega⟩

/-- A row puts the cursor on its first card when it is the row of the cursor, and stores to no
first card but its own. -/
theorem renderRow_cursor (c : Cpu) {i j : ℕ} (hi : i < 8) (hj : j < 8) :
    (renderRow c i).cell (cursorCard j) =
      if j = i ∧ c.cell MENU_SEL = i then CURSOR else c.cell (cursorCard j) := by
  have hcard : BACKTAB + 80 ≤ cursorCard j ∧ cursorCard j < BACKTAB + 240 := by
    simp only [cursorCard, ROW_LIST]
    omega
  have hsel : ∀ d, Frame DrawArea c d → d.cell MENU_SEL = c.cell MENU_SEL := fun d hd =>
    hd.cell_eq (not_mem_draw (by decide) (by decide) (by decide))
  unfold renderRow
  extract_lets c1 entry status c2 c3 c4
  -- the row is drawn from the third card on
  have hoff : ∀ d, Frame ScreenArea c2 d → d.cell PP_TMP = (i + ROW_LIST) * 20 + 2 := by
    intro d hd
    rw [hd.cell_eq (by rintro ⟨hl, hr⟩; simp at hl hr)]
    simp only [c2, c1, Cpu.sto_cell, if_true]
    rw [if_neg (by decide), cellWidth_cart (by decide) (by decide)]
    simp only [ROW_LIST]
    omega
  have h2 : Frame DrawArea c c2 := ((Frame.refl _ c).sto offset_draw).sto color_draw
  have hself := hoff c2 (Frame.refl _ c2)
  have h3 : Frame {a | a < cursorCard j ∨ cursorCard j < a} c c3 := by
    have hcells : cursorCard j < PP_TMP ∧ cursorCard j < UI_COLOR := by
      simp only [PP_TMP, UI_COLOR, BACKTAB] at hcard ⊢
      omega
    have hmod : ((i + ROW_LIST) * 20 + 2 + BACKTAB) % 65536 = (i + ROW_LIST) * 20 + 2 + BACKTAB := by
      apply Nat.mod_eq_of_lt
      simp only [ROW_LIST, BACKTAB]
      omega
    have hsto : Frame {a | a < cursorCard j ∨ cursorCard j < a} c c2 :=
      ((Frame.refl _ c).sto (Or.inr hcells.1)).sto (Or.inr hcells.2)
    apply hsto.trans
    simp only [c3, UI_PRINTN, hself]
    rw [hmod]
    apply (frame_PRINTN 8 c2 _ _ _ (by simp only [ROW_LIST, BACKTAB]; omega)).mono
    rintro a ⟨ha1, ha2⟩
    simp only [ROW_LIST, BACKTAB] at ha1 ha2
    simp only [cursorCard, ROW_LIST, BACKTAB, Set.mem_ofPred_eq]
    omega
  have hscreen : Frame ScreenArea c2 c3 := by
    simp only [c3]
    rw [hself]
    exact frame_UI_PRINTN c2 _ _ 8 (by simp only [ROW_LIST]; omega)
  have h4 : Frame {a | a < cursorCard j ∨ cursorCard j < a} c c4 := by
    apply Frame.ite (fun _ => h3)
    intro _
    apply h3.sto
    rw [hoff c3 hscreen]
    simp only [cursorCard, ROW_LIST, BACKTAB, Set.mem_ofPred_eq]
    omega
  have hscreen4 : Frame ScreenArea c2 c4 := by
    apply Frame.ite (fun _ => hscreen)
    intro _
    rw [hoff c3 hscreen]
    apply hscreen.sto
    apply mem_screen <;> simp only [BACKTAB, ROW_LIST] <;> omega
  have hkeep : c4.cell (cursorCard j) = c.cell (cursorCard j) :=
    h4.cell_eq (by simp only [Set.mem_ofPred_eq]; omega)
  have hsel4 : c4.cell MENU_SEL = c.cell MENU_SEL :=
    hsel c4 (h2.trans (hscreen4.mono screen_draw))
  rw [hsel4]
  have hpos : c4.cell PP_TMP - 2 + BACKTAB = cursorCard i := by
    rw [hoff c4 hscreen4]
    simp only [cursorCard, ROW_LIST, BACKTAB]
    omega
  have hinj : cursorCard j = cursorCard i ↔ j = i := by
    simp only [cursorCard]
    omega
  by_cases hcur : c.cell MENU_SEL = i
  · rw [if_pos hcur, Cpu.sto_cell, hpos]
    by_cases hji : j = i
    · rw [if_pos (hinj.mpr hji), if_pos ⟨hji, hcur⟩, cellWidth_system]
      · rfl
      · simp only [cursorCard, BACKTAB]
        omega
      · simp only [cursorCard, BACKTAB, ROW_LIST]
        omega
    · rw [if_neg (fun h => hji (hinj.mp h)), if_neg (fun h => hji h.1), hkeep]
  · rw [if_neg hcur, if_neg (fun h => hcur h.2), hkeep]

/-- Of some rows that are drawn the cursor is put before the selected one alone. -/
theorem renderRows_cursor (n : ℕ) (c : Cpu) {i j : ℕ} (hi : i + n ≤ 8) (hj : j < 8) :
    (renderRows c i n).cell (cursorCard j) =
      if i ≤ j ∧ j < i + n ∧ c.cell MENU_SEL = j then CURSOR else c.cell (cursorCard j) := by
  induction n generalizing c i with
  | zero =>
    rw [if_neg (by omega)]
    rfl
  | succ n ih =>
    have hsel : (renderRow c i).cell MENU_SEL = c.cell MENU_SEL :=
      (frame_renderRow c i (by omega)).cell_eq (not_mem_draw (by decide) (by decide) (by decide))
    rw [renderRows, ih _ (by omega), hsel, renderRow_cursor c (by omega) hj]
    by_cases hji : j = i
    · subst hji
      rw [if_neg (by omega)]
      by_cases hcur : c.cell MENU_SEL = j
      · rw [if_pos ⟨rfl, hcur⟩, if_pos ⟨le_rfl, by omega, hcur⟩]
      · rw [if_neg (fun h => hcur h.2), if_neg (fun h => hcur h.2.2)]
    · rw [if_neg (show ¬ (j = i ∧ c.cell MENU_SEL = i) from fun h => hji h.1)]
      apply if_congr _ rfl rfl
      omega

/-- Drawing the list puts the cursor in front of the entry it is on, and nowhere else. -/
theorem SES_RENDER_cursor (c : Cpu) (h : c.cell LOBBY_CNT ≤ 8) {j : ℕ} (hj : j < 8) :
    (SES_RENDER c).cell (cursorCard j) = CURSOR ↔
      c.cell MENU_SEL = j ∧ j < c.cell LOBBY_CNT := by
  unfold SES_RENDER
  extract_lets c1 c2
  have h1 : Frame DrawArea c c1 := Frame.trans ((Frame.refl _ c).sto color_draw)
    ((frame_UI_PRINT _ _ _ (by decide)).mono screen_draw)
  have hkeep : ∀ a ∈ MenuCells, c2.cell a = c.cell a := by
    intro a ha
    have hc := menu_cases ha
    simp only [c2, Cpu.fill_cell]
    rw [if_neg (by simp only [BACKTAB, ROW_LIST]; omega)]
    exact h1.cell_eq (menu_not_draw ha)
  have hblank : c2.cell (cursorCard j) = 0 := by
    simp only [c2, Cpu.fill_cell]
    rw [if_pos (by simp only [cursorCard, BACKTAB, ROW_LIST]; omega), Nat.zero_mod]
  have hcnt : c2.cell LOBBY_CNT = c.cell LOBBY_CNT := hkeep _ (by simp [MenuCells, LobbyData])
  have hsel : c2.cell MENU_SEL = c.cell MENU_SEL := hkeep _ (by simp [MenuCells, LobbyData])
  rw [Cpu.sto_cell, if_neg (by simp only [cursorCard, BACKTAB, ROW_LIST, UI_COLOR]; omega),
    renderRows_cursor _ _ (by omega) hj, hcnt, hsel, hblank]
  by_cases hcur : c.cell MENU_SEL = j ∧ j < c.cell LOBBY_CNT
  · rw [if_pos ⟨Nat.zero_le j, by omega, hcur.1⟩]
    simp [hcur]
  · rw [if_neg (fun h => hcur ⟨h.2.2, by omega⟩)]
    simp [hcur]

/-! ### What a redraw depends on -/

/-- Characters printed from cells in which two machines are alike. -/
theorem alike_UI_PRINTN_loop {S : Set ℕ} (n : ℕ) {c c' : Cpu} (h : Alike S c c') (r4 color : ℕ) {r5 : ℕ}
    (hs : ∀ k < n, r5 + k ∈ S) (hr : r5 + n < 65536) :
    Alike S (UI_PRINTN_loop c r4 r5 color n) (UI_PRINTN_loop c' r4 r5 color n) := by
  induction n generalizing c c' r4 r5 with
  | zero => exact h
  | succ n ih =>
    have hcell : c'.cell r5 = c.cell r5 := h r5 (hs 0 (Nat.succ_pos n))
    rw [UI_PRINTN_loop, UI_PRINTN_loop, hcell, Nat.mod_eq_of_lt (by omega : r5 + 1 < 65536)]
    split
    · exact h
    · apply ih (h.sto _ _) _ _ (by omega)
      intro k hk
      rw [Nat.add_assoc, Nat.add_comm 1 k]
      exact hs (k + 1) (Nat.succ_lt_succ hk)

/-- A row is drawn from its entry and the cursor. -/
theorem alike_renderRow {S : Set ℕ} (hS : ListData ⊆ S) {c c' : Cpu} (h : Alike S c c') {i : ℕ}
    (hi : i < 8) : Alike S (renderRow c i) (renderRow c' i) := by
  have hentry : ∀ k < 9, LOBBY_CACHE + 1 + 9 * i + k ∈ ListData := fun k hk =>
    Or.inr (Or.inr ⟨by omega, by omega⟩)
  unfold renderRow
  extract_lets c1 entry status c2 c3 c4 c1' status' c2' c3' c4'
  have h1 : Alike (insert PP_TMP S) c1 c1' := h.insert _ _
  have hstatus : status' = status := h1 _ (Or.inr (hS (hentry 8 (by decide))))
  have h2 : Alike (insert UI_COLOR (insert PP_TMP S)) c2 c2' := by
    simp only [c2', hstatus]
    exact h1.insert _ _
  have h3 : Alike (insert UI_COLOR (insert PP_TMP S)) c3 c3' := by
    simp only [c3, c3', UI_PRINTN, h2 PP_TMP (Or.inr (Or.inl rfl)), h2 UI_COLOR (Or.inl rfl)]
    apply alike_UI_PRINTN_loop 8 h2
    · exact fun k hk => Or.inr (Or.inr (hS (hentry k (by omega))))
    · simp only [entry, LOBBY_CACHE]
      omega
  have h4 : Alike (insert UI_COLOR (insert PP_TMP S)) c4 c4' := by
    simp only [c4, c4', hstatus, h3 PP_TMP (Or.inr (Or.inl rfl)), h3 UI_COLOR (Or.inl rfl)]
    split
    · exact h3
    · exact h3.sto _ _
  have h5 : Alike S c4 c4' := h4.mono fun _ ha => Or.inr (Or.inr ha)
  rw [h5 MENU_SEL (hS (Or.inl rfl)), h4 PP_TMP (Or.inr (Or.inl rfl))]
  split
  · exact h5.sto _ _
  · exact h5

/-- And so are the rows from one on. -/
theorem alike_renderRows {S : Set ℕ} (hS : ListData ⊆ S) (n : ℕ) {c c' : Cpu} (h : Alike S c c') {i : ℕ}
    (hi : i + n ≤ 8) : Alike S (renderRows c i n) (renderRows c' i n) := by
  induction n generalizing c c' i with
  | zero => exact h
  | succ n ih => exact ih (alike_renderRow hS h (by omega)) (by omega)

/-- On machines with the same cursor and the same list a redraw puts the same on the rows of the list. -/
theorem SES_RENDER_alike {c c' : Cpu} (hcount : c.cell LOBBY_CNT ≤ 8) (h : Alike ListData c c') :
    Alike ListCards (SES_RENDER c) (SES_RENDER c') := by
  have hprompt : ∀ d : Cpu, Alike ListData d (UI_PRINT (d.sto UI_COLOR C_WHITE) ROW_PROMPT STR_PICK) := by
    intro d a ha
    have hf : Frame DrawArea d (UI_PRINT (d.sto UI_COLOR C_WHITE) ROW_PROMPT STR_PICK) :=
      ((Frame.refl _ d).sto color_draw).trans ((frame_UI_PRINT _ _ _ (by decide)).mono screen_draw)
    exact hf.cell_eq (menu_not_draw (data_menu ha))
  have h1 := ((hprompt c).symm.trans h).trans (hprompt c')
  have h2 : Alike (ListData ∪ ListCards) _ _ := h1.fill (BACKTAB + 20 * ROW_LIST) 160 0
  have hle : ((UI_PRINT (c.sto UI_COLOR C_WHITE) ROW_PROMPT STR_PICK).fill (BACKTAB + 20 * ROW_LIST)
      160 0).cell LOBBY_CNT ≤ 8 := by
    rw [Cpu.fill_cell, if_neg (by decide), hprompt c LOBBY_CNT (Or.inr (Or.inl rfl))]
    exact hcount
  unfold SES_RENDER
  simp only
  generalize (UI_PRINT (c.sto UI_COLOR C_WHITE) ROW_PROMPT STR_PICK).fill (BACKTAB + 20 * ROW_LIST)
    160 0 = x at h2 hle ⊢
  generalize (UI_PRINT (c'.sto UI_COLOR C_WHITE) ROW_PROMPT STR_PICK).fill (BACKTAB + 20 * ROW_LIST)
    160 0 = x' at h2 ⊢
  rw [h2 LOBBY_CNT (Or.inl (Or.inr (Or.inl rfl)))]
  have hrows : Alike (ListData ∪ ListCards) (renderRows x 0 (x.cell LOBBY_CNT))
      (renderRows x' 0 (x.cell LOBBY_CNT)) :=
    alike_renderRows (fun _ ha => Or.inl ha) _ h2 (by omega)
  exact (hrows.sto _ _).mono fun _ ha => Or.inr ha

/-- The rows of the list hold what drawing it now would put there. -/
def Drawn (c : Cpu) : Prop := ∀ a ∈ ListCards, c.cell a = (SES_RENDER c).cell a

/-- After a redraw they do. -/
theorem drawn_SES_RENDER {c : Cpu} (h : c.cell LOBBY_CNT ≤ 8) : Drawn (SES_RENDER c) := by
  have hdata : Alike ListData c (SES_RENDER c) := fun _ ha => SES_RENDER_menu c h (data_menu ha)
  intro a ha
  exact (SES_RENDER_alike h hdata a ha).symm

/-- They do as long as neither the menu nor the rows change. -/
theorem Drawn.congr {c c' : Cpu} (hd : Drawn c) (h : c.cell LOBBY_CNT ≤ 8) (heq : Alike ShownCells c c') :
    Drawn c' := by
  have hdata : Alike ListData c c' := heq.mono fun _ ha => menu_shown (data_menu ha)
  intro a ha
  exact ((heq a (cards_shown ha)).trans (hd a ha)).trans (SES_RENDER_alike h hdata a ha).symm

/-- A list as it is drawn has its cursor in front of the selected entry, and nowhere else. -/
theorem Drawn.cursor {c : Cpu} (hd : Drawn c) (h : c.cell LOBBY_CNT ≤ 8) {j : ℕ} (hj : j < 8) :
    c.cell (cursorCard j) = CURSOR ↔ c.cell MENU_SEL = j ∧ j < c.cell LOBBY_CNT := by
  have hcard : cursorCard j ∈ ListCards := by
    constructor <;> simp only [cursorCard, BACKTAB, ROW_LIST] <;> omega
  rw [hd _ hcard]
  exact SES_RENDER_cursor c h hj

/-! ### The list in memory -/

/-- The entries a LOBBY stands for, at most eight of them.
SOURCE: session.asm:644-649 -/
def lobbyCount (c : Cpu) : ℕ := if c.cell (FRMBUF + 2) < 8 then c.cell (FRMBUF + 2) else 8

/-- A LOBBY that carries its entries, before a match.
SOURCE: session.asm:637-660 -/
def lobbyTaken (c : Cpu) : Prop :=
  c.cell NET_ACTIVE = 0 ∧ 2 ≤ c.cell FRMBUF ∧ 9 * lobbyCount c + 2 ≤ c.cell FRMBUF

instance (c : Cpu) : Decidable (lobbyTaken c) := inferInstanceAs (Decidable (_ ∧ _ ∧ _))

/-- Its entries are cached, and a cursor that is behind them goes to the first.
SOURCE: session.asm:661-674 -/
def lobbyStored (c : Cpu) : Cpu :=
  let count := lobbyCount c
  let c := c.sto LOBBY_CNT count
  let c := if c.cell MENU_SEL < count then c else c.sto MENU_SEL 0
  c.copy (FRMBUF + 2) LOBBY_CACHE (9 * count + 1)

/-- A LOBBY that is taken is cached and drawn, and another does nothing. -/
theorem of_lobby_eq (c : Cpu) :
    of_lobby c = if lobbyTaken c then menuRedraw (lobbyStored c) else c := by
  unfold of_lobby
  extract_lets count c1 c2 c3
  have hcount : count = lobbyCount c := rfl
  have hno : ¬ lobbyTaken c → c = if lobbyTaken c then menuRedraw (lobbyStored c) else c :=
    fun h => (if_neg h).symm
  split
  · rename_i h1
    exact hno fun h => h1 h.1
  rename_i h1
  split
  · rename_i h2
    exact hno fun h => absurd h2 (Nat.not_lt.mpr h.2.1)
  rename_i h2
  split
  · rename_i h3
    rw [hcount] at h3
    exact hno fun h => absurd h3 (Nat.not_lt.mpr h.2.2)
  · rename_i h3
    have htaken : lobbyTaken c := ⟨not_not.mp h1, Nat.not_lt.mp h2, Nat.not_lt.mp h3⟩
    exact (if_pos htaken).symm

/-- The machine after a LOBBY that was taken, before it is drawn. -/
structure Listed (d c : Cpu) : Prop where
  count : c.cell LOBBY_CNT = lobbyCount d
  sel : c.cell MENU_SEL = if d.cell MENU_SEL < lobbyCount d then d.cell MENU_SEL else 0
  cache : ∀ i ≤ 9 * lobbyCount d, c.cell (LOBBY_CACHE + i) = d.cell (FRMBUF + 2 + i)
  rest : ∀ a ∈ MenuCells, a ≠ LOBBY_CNT → a ≠ MENU_SEL → a < LOBBY_CACHE → c.cell a = d.cell a

/-- A LOBBY never stands for more than eight entries. -/
theorem lobbyCount_le (c : Cpu) : lobbyCount c ≤ 8 := by
  unfold lobbyCount
  split <;> omega

/-- It is what caching a LOBBY leaves. -/
theorem listed (d : Cpu) : Listed d (lobbyStored d) := by
  have hle := lobbyCount_le d
  unfold lobbyStored
  extract_lets count c1 c2
  have hcopy : ∀ a, (c2.copy (FRMBUF + 2) LOBBY_CACHE (9 * count + 1)).cell a =
      if LOBBY_CACHE ≤ a ∧ a < LOBBY_CACHE + (9 * count + 1) then
        c2.cell (FRMBUF + 2 + (a - LOBBY_CACHE)) % 2 ^ cellWidth a else c2.cell a := fun a =>
    Cpu.copy_cell _ _ _ _ _ (by simp only [FRMBUF, LOBBY_CACHE]; omega)
  have h1 : ∀ a, a ≠ LOBBY_CNT → c1.cell a = d.cell a := by
    intro a ha
    simp only [c1, Cpu.sto_cell]
    rw [if_neg ha]
  have h2 : ∀ a, a ≠ LOBBY_CNT → a ≠ MENU_SEL → c2.cell a = d.cell a := by
    intro a ha hb
    simp only [c2]
    split
    · exact h1 a ha
    · rw [Cpu.sto_cell, if_neg hb, h1 a ha]
  have hcnt1 : c1.cell LOBBY_CNT = count := by
    simp only [c1, Cpu.sto_cell, if_true]
    rw [cellWidth_cart (by decide) (by decide)]
    omega
  refine ⟨?_, ?_, fun i hi => ?_, fun a ha h3 h4 h5 => ?_⟩
  · rw [hcopy, if_neg (by simp only [LOBBY_CACHE, LOBBY_CNT]; omega)]
    simp only [c2]
    split
    · exact hcnt1
    · rw [Cpu.sto_cell, if_neg (by decide), hcnt1]
  · rw [hcopy, if_neg (by simp only [LOBBY_CACHE, MENU_SEL]; omega)]
    simp only [c2]
    rw [h1 MENU_SEL (by decide)]
    split
    · exact h1 _ (by decide)
    · simp
  · have hbyte : d.cell (FRMBUF + 2 + i) < 256 :=
      d.cell_lt_cart (by simp only [FRMBUF]; omega) (by simp only [FRMBUF]; omega)
    rw [hcopy, if_pos ⟨by omega, by omega⟩, cellWidth_cart (by simp only [LOBBY_CACHE]; omega)
      (by simp only [LOBBY_CACHE]; omega), Nat.add_sub_cancel_left,
      h2 _ (by simp only [FRMBUF, LOBBY_CNT]; omega) (by simp only [FRMBUF, MENU_SEL]; omega)]
    omega
  · rw [hcopy, if_neg (by omega), h2 a h3 h4]

/-! ### The room -/

/-- A ROOM before a match.
SOURCE: session.asm:726-736 -/
def roomTaken (c : Cpu) : Prop := c.cell NET_ACTIVE = 0 ∧ 34 ≤ c.cell FRMBUF

instance (c : Cpu) : Decidable (roomTaken c) := inferInstanceAs (Decidable (_ ∧ _))

/-- The room is gone, and the list is about to be drawn.
SOURCE: session.asm:737-748 -/
def roomLeft (c : Cpu) : Cpu :=
  let c := c.sto ROOM_CNT (c.cell (FRMBUF + 2))
  UI_PRINT (UI_CLS ((c.sto ROOM_CNT 0).sto ROOM_HOST 0)) 0 STR_TITLE

/-- A ROOM that is not taken does nothing. -/
theorem of_room_refused {c : Cpu} (h : ¬ roomTaken c) : of_room c = c := by
  unfold of_room
  split
  · rfl
  rename_i h1
  split
  · rfl
  rename_i h2
  exact absurd ⟨not_not.mp h1, Nat.not_lt.mp h2⟩ h

/-- One of fewer than two members takes the room down and draws the list. -/
theorem of_room_left {c : Cpu} (h : roomTaken c) (h2 : c.cell (FRMBUF + 2) < 2) :
    of_room c = SES_RENDER (roomLeft c) := by
  unfold of_room
  rw [if_neg (not_not.mpr h.1), if_neg (Nat.not_lt.mpr h.2)]
  simp only
  rw [if_pos (by simpa using h2)]
  rfl

/-- Taking the room down clears its two cells and leaves the rest of the menu. -/
theorem roomLeft_menu (c : Cpu) {a : ℕ} (ha : a ∈ MenuCells) :
    (roomLeft c).cell a = if a = ROOM_CNT ∨ a = ROOM_HOST then 0 else c.cell a := by
  unfold roomLeft
  extract_lets c1
  have hf : Frame DrawArea ((c1.sto ROOM_CNT 0).sto ROOM_HOST 0)
      (UI_PRINT (UI_CLS ((c1.sto ROOM_CNT 0).sto ROOM_HOST 0)) 0 STR_TITLE) :=
    (frame_UI_CLS _).trans ((frame_UI_PRINT _ _ _ (by decide)).mono screen_draw)
  rw [hf.cell_eq (menu_not_draw ha)]
  by_cases h1 : a = ROOM_HOST
  · rw [if_pos (Or.inr h1), h1]
    simp
  · rw [Cpu.sto_cell, if_neg h1]
    by_cases h2 : a = ROOM_CNT
    · rw [if_pos (Or.inl h2), h2]
      simp
    · rw [if_neg (by tauto), Cpu.sto_cell, if_neg h2]
      simp only [c1, Cpu.sto_cell]
      rw [if_neg h2]

/-- Names are copied upwards. -/
theorem SES_CPR_GO_below (n : ℕ) (c : Cpu) (r4 r5 : ℕ) {a : ℕ} (hsep : r5 + 9 * n ≤ r4)
    (ha : a < r5) : (SES_CPR_GO c r4 r5 n).cell a = c.cell a := by
  induction n generalizing c r4 r5 with
  | zero => rfl
  | succ n ih =>
    rw [SES_CPR_GO, ih _ _ _ (by omega) (by omega), Cpu.sto_cell, if_neg (by omega),
      Cpu.copy_cell _ _ _ _ _ (by omega), if_neg (by omega)]

/-- A string in RAM depends on its cells. -/
theorem ramString_congr {c c' : Cpu} (n : ℕ) {a b : ℕ}
    (h : ∀ i < n, c'.cell (a + i) = c.cell (b + i)) : ramString c' a n = ramString c b n := by
  induction n generalizing a b with
  | zero => rfl
  | succ n ih =>
    have h0 : c'.cell a = c.cell b := h 0 (Nat.succ_pos n)
    rw [ramString, ramString, h0, ih]
    intro i hi
    rw [Nat.add_assoc a, Nat.add_assoc b, Nat.add_comm 1 i]
    exact h (i + 1) (Nat.succ_lt_succ hi)

/-- A NUL ends a string. -/
theorem ramString_nul (n : ℕ) (c : Cpu) (a : ℕ) (h : c.cell (a + n) = 0) :
    ramString c a (n + 1) = ramString c a n := by
  induction n generalizing a with
  | zero =>
    rw [Nat.add_zero] at h
    simp [ramString, h]
  | succ n ih =>
    rw [ramString, ih (a + 1) (by rwa [Nat.add_right_comm]), ramString]

/-- The comparison of names compares strings, where the first of them ends. -/
theorem sameName_iff (n : ℕ) (c : Cpu) (r4 r5 : ℕ) (h : ∃ i < n, c.cell (r4 + i) = 0) :
    sameName c r4 r5 n = true ↔ ramString c r4 n = ramString c r5 n := by
  induction n generalizing r4 r5 with
  | zero =>
    obtain ⟨i, hi, -⟩ := h
    omega
  | succ n ih =>
    rw [sameName, ramString, ramString]
    by_cases heq : c.cell r4 = c.cell r5
    · rw [if_neg (not_not.mpr heq), ← heq]
      by_cases hz : c.cell r4 = 0
      · simp [hz]
      · have hnext : ∃ i < n, c.cell (r4 + 1 + i) = 0 := by
          obtain ⟨i, hi, hc⟩ := h
          cases i with
          | zero => exact absurd hc hz
          | succ i => exact ⟨i, by omega, by rwa [Nat.add_right_comm, Nat.add_assoc]⟩
        rw [if_neg hz, if_neg hz, if_neg hz, ih _ _ hnext]
        simp
    · rw [if_pos heq]
      by_cases hz : c.cell r4 = 0
      · have hz' : c.cell r5 ≠ 0 := fun h' => heq (hz.trans h'.symm)
        simp [hz, hz']
      · by_cases hz' : c.cell r5 = 0
        · simp [hz, hz']
        · simp [hz, hz', heq]

/-- The host's name, in the first slot of the roster that a ROOM carries. -/
def hostName (c : Cpu) : List ℕ := ramString c (FRMBUF + 3) 8

/-- The player's own name. -/
def ownName (c : Cpu) : List ℕ := ramString c NAME_BUF 9

/-- A room is waiting: its count is kept, and whether this player is the host. -/
theorem of_room_formed {c : Cpu} (h : roomTaken c) (h2 : 2 ≤ c.cell (FRMBUF + 2)) {a : ℕ}
    (ha : a ∈ MenuCells) : (of_room c).cell a = if a = ROOM_CNT then c.cell (FRMBUF + 2)
      else if a = ROOM_HOST then (if hostName c = ownName c then 1 else 0) else c.cell a := by
  unfold of_room
  extract_lets c1 c2 c3
  have hc := menu_cases ha
  have hcount : c.cell (FRMBUF + 2) < 256 := c.cell_lt_cart (by decide) (by decide)
  have h1 : ∀ x, x ≠ ROOM_CNT → c1.cell x = c.cell x := by
    intro x hx
    simp only [c1, Cpu.sto_cell]
    rw [if_neg hx]
  have h3 : ∀ x, x < NAME_TBL → c3.cell x = c1.cell x := fun x hx =>
    SES_CPR_GO_below 4 c1 _ _ (by decide) hx
  have hcache : ∀ x ∈ MenuCells, c3.cell x = c1.cell x := by
    intro x hx
    have hxc := menu_cases hx
    apply (frame_SES_CPR_GO 4 c1 _ _ le_rfl (by omega)).cell_eq
    simp only [Roster, Set.mem_ofPred_eq, NAME_TBL]
    omega
  have hown : ramString c3 NAME_BUF 9 = ownName c := by
    apply ramString_congr
    intro i hi
    rw [h3 _ (by simp only [NAME_BUF, NAME_TBL]; omega),
      h1 _ (by simp only [NAME_BUF, ROOM_CNT]; omega)]
  have hslot : ∀ i < 9, c3.cell (NAME_TBL + i) =
      if i = 8 then 0 else c.cell (FRMBUF + 3 + i) := by
    intro i hi
    have hbyte : c1.cell (FRMBUF + 3 + i) < 2 ^ 8 :=
      c1.cell_lt_cart (by simp only [FRMBUF]; omega) (by simp only [FRMBUF]; omega)
    simp only [c3]
    rw [SES_CPR_GO, SES_CPR_GO_below 3 _ _ _ (by simp only [FRMBUF, NAME_TBL]; omega)
      (by simp only [NAME_TBL]; omega), Cpu.sto_cell]
    by_cases h8 : i = 8
    · rw [if_pos (by omega), if_pos h8, Nat.zero_mod]
    · rw [if_neg (by omega), if_neg h8, Cpu.copy_cell _ _ _ _ _
        (by simp only [FRMBUF, NAME_TBL]; omega), if_pos ⟨by omega, by omega⟩,
        Nat.add_sub_cancel_left, cellWidth_cart (by simp only [NAME_TBL]; omega)
        (by simp only [NAME_TBL]; omega), Nat.mod_eq_of_lt hbyte,
        h1 _ (by simp only [FRMBUF, ROOM_CNT]; omega)]
  have hhost : ramString c3 NAME_TBL 9 = hostName c := by
    rw [ramString_nul 8 c3 NAME_TBL (hslot 8 (by omega))]
    apply ramString_congr
    intro i hi
    rw [hslot i (by omega), if_neg (by omega)]
  have hsame : sameName c3 NAME_TBL NAME_BUF 9 = true ↔ hostName c = ownName c := by
    rw [sameName_iff 9 c3 _ _ ⟨8, by omega, hslot 8 (by omega)⟩, hhost, hown]
  rw [if_neg (not_not.mpr h.1), if_neg (Nat.not_lt.mpr h.2), if_neg (by
    rw [h1 _ (by decide)]
    omega), (paint_SES_ROOMSCR _).cell_eq (menu_not_paint ha), Cpu.sto_cell]
  by_cases hhostcell : a = ROOM_HOST
  · subst hhostcell
    rw [if_pos rfl, if_neg (show ¬ ROOM_HOST = ROOM_CNT by decide), if_pos rfl,
      cellWidth_cart (by decide) (by decide)]
    by_cases hs : hostName c = ownName c
    · rw [if_pos (hsame.mpr hs), if_pos hs, Nat.mod_eq_of_lt (by decide)]
    · rw [if_neg (fun hn => hs (hsame.mp hn)), if_neg hs, Nat.zero_mod]
  · rw [if_neg hhostcell, hcache a ha, if_neg hhostcell]
    by_cases hcnt : a = ROOM_CNT
    · subst hcnt
      rw [if_pos rfl]
      simp only [c1, Cpu.sto_cell, if_true]
      rw [cellWidth_cart (by decide) (by decide)]
      exact Nat.mod_eq_of_lt hcount
    · rw [if_neg hcnt, h1 a hcnt]

/-! ### Other frames, and what the menu sends -/

/-- A frame of another type that begins no match leaves a cell of the menu and of its list alone, unless an
image is stored there in an open resync. -/
theorem SES_ONFRAME_shown {c : Cpu} (hcount : c.cell NET_COUNT = 2)
    (h1 : c.cell (FRMBUF + 1) ≠ FT_LOBBY) (h2 : c.cell (FRMBUF + 1) ≠ FT_ROOM)
    (h3 : ¬ (c.cell (FRMBUF + 1) = FT_START ∧ 38 ≤ c.cell FRMBUF)) {a : ℕ} (ha : a ∈ ShownCells)
    (himage : c.cell (FRMBUF + 1) = FT_STATE → c.cell RESYNC_HOLD ≠ 0 → a ∉ ImageCells ∪ RebaseArea) :
    (SES_ONFRAME c).cell a = c.cell a := by
  obtain ⟨hinput, hleft, hresync⟩ := shown_not_match ha
  have hmail := shown_not_mailbox ha
  have hpend : a ∉ ({a | a = RS_PEND ∨ a = RS_PTMO} : Set ℕ) := by
    have hc := shown_cases ha
    simp only [Set.mem_ofPred_eq, RS_PEND, RS_PTMO]
    omega
  apply SES_ONFRAME_rule (P := fun c' => c'.cell a = c.cell a) c
  · intro _
    apply (frame_of_input c _).cell_eq hinput
    intro hacc
    have hlt := hacc.2.2.1
    rw [hcount] at hlt
    omega
  · exact fun h => absurd h h1
  · intro h
    have hshort : of_start c = c := if_pos (Nat.not_le.mp fun hlen => h3 ⟨h, hlen⟩)
    rw [hshort]
  · exact fun _ => (frame_of_pl c).cell_eq hleft
  · exact fun h => absurd h h2
  · intro _
    apply (frame_RS_ON_CRC c).cell_eq
    rintro (h | h)
    · exact hpend h
    · exact hmail h
  · intro hstate
    apply (frame_RS_ON_STATE c).cell_eq
    rintro (h | ⟨hhold, h⟩)
    · exact hresync h
    · exact himage hstate hhold h
  · exact fun _ => (frame_RS_ON_REQ c).cell_eq hpend
  · exact rfl

/-- It leaves the menu alone. -/
theorem SES_ONFRAME_menu {c : Cpu} (hcount : c.cell NET_COUNT = 2)
    (h1 : c.cell (FRMBUF + 1) ≠ FT_LOBBY) (h2 : c.cell (FRMBUF + 1) ≠ FT_ROOM)
    (h3 : ¬ (c.cell (FRMBUF + 1) = FT_START ∧ 38 ≤ c.cell FRMBUF)) {a : ℕ} (ha : a ∈ MenuCells) :
    (SES_ONFRAME c).cell a = c.cell a :=
  SES_ONFRAME_shown hcount h1 h2 h3 (menu_shown ha) fun _ _ => menu_not_image ha

/-- Printing a string sends nothing. -/
theorem silent_UI_PRINT (c : Cpu) (off : ℕ) (s : List ℕ) : Silent c (UI_PRINT c off s) := by
  have hloop : ∀ (s : List ℕ) (c : Cpu) (r4 color : ℕ),
      Silent c (UI_PRINT_loop c r4 color s) := by
    intro s
    induction s with
    | nil => exact fun c _ _ => Silent.refl c
    | cons ch s ih => exact fun c r4 color => ((Silent.refl c).sto).trans (ih _ _ _)
  exact hloop s c _ _

/-- Printing a name sends nothing. -/
theorem silent_UI_PRINTN (c : Cpu) (off src n : ℕ) : Silent c (UI_PRINTN c off src n) := by
  have hloop : ∀ (n : ℕ) (c : Cpu) (r4 r5 color : ℕ),
      Silent c (UI_PRINTN_loop c r4 r5 color n) := by
    intro n
    induction n with
    | zero => exact fun c _ _ _ => Silent.refl c
    | succ n ih =>
      intro c r4 r5 color
      exact Silent.ite (Silent.refl c) (((Silent.refl c).sto).trans (ih _ _ _ _))
  exact hloop n c _ _ _

/-- Drawing the list sends nothing. -/
theorem silent_SES_RENDER (c : Cpu) : Silent c (SES_RENDER c) := by
  have hrow : ∀ (c : Cpu) (i : ℕ), Silent c (renderRow c i) := by
    intro c i
    unfold renderRow
    extract_lets c1 entry status c2 c3 c4
    have h3 : Silent c c3 := ((Silent.refl c).sto.sto).trans (silent_UI_PRINTN c2 _ _ 8)
    have h4 : Silent c c4 := Silent.ite h3 h3.sto
    exact Silent.ite h4.sto h4
  have hrows : ∀ (n : ℕ) (c : Cpu) (i : ℕ), Silent c (renderRows c i n) := by
    intro n
    induction n with
    | zero => exact fun c _ => Silent.refl c
    | succ n ih => exact fun c i => (hrow c i).trans (ih _ _)
  unfold SES_RENDER
  extract_lets c1 c2
  have h1 : Silent c c1 := (Silent.refl c).sto.trans (silent_UI_PRINT _ _ _)
  have h2 : Silent c c2 := ⟨h1.out, h1.replies⟩
  exact (h2.trans (hrows _ _ _)).sto

/-- Drawing the list sends nothing. -/
theorem silent_menuRedraw (c : Cpu) : Silent c (menuRedraw c) :=
  Silent.ite (Silent.refl c) (silent_SES_RENDER c)

/-- Neither does moving the cursor up or down. -/
theorem silent_menuUp (c : Cpu) : Silent c (menuUp c) :=
  (Silent.ite (Silent.refl c) (Silent.refl c).sto).trans (silent_menuRedraw _)

theorem silent_menuDown (c : Cpu) : Silent c (menuDown c) :=
  (Silent.ite (Silent.refl c) (Silent.refl c).sto).trans (silent_menuRedraw _)

/-- Staging and sending leave the menu and its list alone. -/
theorem shown_sendFrame (c : Cpu) (frame : List ℕ) (h : frame.length ≤ 0x3C0) :
    Alike ShownCells c (sendFrame c frame) := fun _ ha =>
  (frame_sendFrame c frame h).cell_eq (shown_not_mailbox ha)

/-- A string is printed from one card on. -/
theorem frame_PRINT (s : List ℕ) (c : Cpu) (r4 color : ℕ) (h : r4 + s.length < 65536) :
    Frame {a | r4 ≤ a ∧ a < r4 + s.length} c (UI_PRINT_loop c r4 color s) := by
  induction s generalizing c r4 with
  | nil => exact Frame.refl _ c
  | cons ch s ih =>
    rw [List.length_cons] at h ⊢
    rw [UI_PRINT_loop, Nat.mod_eq_of_lt (by omega : r4 + 1 < 65536)]
    have hone : Frame {a | r4 ≤ a ∧ a < r4 + (s.length + 1)} c (c.sto r4 (card ch color)) :=
      (Frame.refl _ c).sto ⟨le_rfl, by omega⟩
    apply hone.trans
    apply (ih _ _ (by omega)).mono
    rintro a ⟨h1, h2⟩
    exact ⟨by omega, by omega⟩

/-- So does a prompt, whose row is above the list. -/
theorem shown_prompt (c : Cpu) (s : List ℕ) (h : s.length ≤ 20) :
    Alike ShownCells c (UI_PRINT c ROW_PROMPT s) := by
  intro a ha
  have hc := shown_cases ha
  have hrow : (ROW_PROMPT + BACKTAB) % 65536 = ROW_PROMPT + BACKTAB := by decide
  unfold UI_PRINT
  rw [hrow]
  apply (frame_PRINT s c _ _ (by simp only [ROW_PROMPT, BACKTAB]; omega)).cell_eq
  simp only [Set.mem_ofPred_eq, ROW_PROMPT, BACKTAB]
  omega

/-- Pacing stores to the timer, and asks for the list. -/
theorem shown_sesPace (c : Cpu) : Alike ShownCells c (sesPace c) := by
  have htimer : ∀ v, Alike ShownCells c (c.sto SES_TMR_LO v) := by
    intro v a ha
    have hc := shown_cases ha
    rw [Cpu.sto_cell, if_neg (by simp only [SES_TMR_LO]; omega)]
  unfold sesPace
  simp only
  split
  · exact (htimer _).trans (shown_sendFrame _ [1, FT_LIST] (by decide))
  · exact htimer _

end BoxingNetplay.Interface
