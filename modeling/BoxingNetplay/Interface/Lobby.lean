import BoxingNetplay.Interface.Start
import BoxingNetplay.Model.Lobby

/-!
# Where a console stores before the match

Logging in, the menu and the session screens store to the screen and what lies above it, to a few
scratch cells and to the peripheral (`Aside`), however many rows a roster has.  What a console
keeps for the match is none of these.
-/

set_option autoImplicit false

namespace BoxingNetplay.Interface

open BoxingNetplay.Library
open BoxingNetplay.Model

/-- The console's own memory below the cartridge RAM, the scratch cells of the session, the name and
the peripheral.
SOURCE: ram.asm:85-111, mailbox.asm:6-22 -/
def Aside : Set ℕ :=
  {a | a < 0x8000 ∨ a = UI_COLOR ∨ a = PP_TMP ∨ a = MENU_SEL ∨ a = MENU_PREV ∨ a = SES_TMR_LO ∨
    a = SES_SAVE102 ∨ (NAME_BUF ≤ a ∧ a ≤ NAME_LEN) ∨ FN_SEQ ≤ a} ∪ MailboxArea

theorem low_aside {a : ℕ} (h : a < 0x8000) : a ∈ Aside := Or.inl (Or.inl h)

theorem mailbox_aside : MailboxArea ⊆ Aside := fun _ h => Or.inr h

theorem screen_aside : ScreenArea ⊆ Aside := by
  rintro a ⟨-, h⟩
  simp only [BACKTAB] at h
  exact low_aside (by omega)

theorem draw_aside : DrawArea ⊆ Aside := by
  rintro a (rfl | rfl | h)
  · simp [Aside]
  · simp [Aside]
  · exact screen_aside h

/-- Staging bytes for the peripheral. -/
theorem aside_tx {c c' : Cpu} (h : Frame Aside c c') (vs : List ℕ) : Frame Aside c (c'.blit FN_TX vs) := by
  apply h.blit
  intro x hx _
  refine Or.inl (Or.inr (Or.inr (Or.inr (Or.inr (Or.inr (Or.inr (Or.inr (Or.inr ?_))))))))
  simp only [FN_TX, FN_SEQ] at hx ⊢
  omega

/-! ### Drawing -/

/-- What lies below the cartridge RAM, and the two cells that drawing uses. -/
def PaintArea : Set ℕ := {a | a < 0x8000 ∨ a = UI_COLOR ∨ a = PP_TMP}

theorem low_paint {a : ℕ} (h : a < 0x8000) : a ∈ PaintArea := Or.inl h

/-- What drawing a card stores to is painted. -/
theorem draw_paint : DrawArea ⊆ PaintArea := by
  rintro a (h | h | ⟨-, h⟩)
  · exact Or.inr (Or.inl h)
  · exact Or.inr (Or.inr h)
  · simp only [BACKTAB] at h
    exact low_paint (by omega)

/-- All that is painted is aside. -/
theorem paint_aside : PaintArea ⊆ Aside := by
  rintro a (h | rfl | rfl)
  · exact low_aside h
  · exact draw_aside color_draw
  · exact draw_aside offset_draw

/-- A string whose last card is below the cartridge RAM. -/
theorem paint_UI_PRINT_loop (s : List ℕ) (c : Cpu) (r4 color : ℕ) (h : r4 + s.length < 0x8000) :
    Frame PaintArea c (UI_PRINT_loop c r4 color s) := by
  induction s generalizing c r4 with
  | nil => exact Frame.refl _ c
  | cons ch s ih =>
    rw [List.length_cons] at h
    rw [UI_PRINT_loop, Nat.mod_eq_of_lt (by omega : r4 + 1 < 65536)]
    have hone : Frame PaintArea c (c.sto r4 (card ch color)) :=
      (Frame.refl _ c).sto (low_paint (by omega))
    exact hone.trans (ih _ _ (by omega))

/-- A string that ends below the cartridge RAM is painted. -/
theorem paint_UI_PRINT (c : Cpu) (off : ℕ) (s : List ℕ) (h : off + s.length < 0x7E00) :
    Frame PaintArea c (UI_PRINT c off s) := by
  unfold UI_PRINT
  apply paint_UI_PRINT_loop
  simp only [BACKTAB]
  omega

theorem paint_UI_PRINTN_loop (n : ℕ) (c : Cpu) (r4 r5 color : ℕ) (h : r4 + n < 0x8000) :
    Frame PaintArea c (UI_PRINTN_loop c r4 r5 color n) := by
  induction n generalizing c r4 r5 with
  | zero => exact Frame.refl _ c
  | succ n ih =>
    rw [UI_PRINTN_loop, Nat.mod_eq_of_lt (by omega : r4 + 1 < 65536)]
    apply Frame.ite (fun _ => Frame.refl _ c)
    intro _
    have hone : Frame PaintArea c (c.sto r4 (card (c.cell r5) color)) :=
      (Frame.refl _ c).sto (low_paint (by omega))
    exact hone.trans (ih _ _ _ (by omega))

theorem paint_UI_PRINTN (c : Cpu) (off src n : ℕ) (h : off + n < 0x7E00) :
    Frame PaintArea c (UI_PRINTN c off src n) := by
  unfold UI_PRINTN
  apply paint_UI_PRINTN_loop
  simp only [BACKTAB]
  omega

/-- A roster row of any seat a byte can count. -/
theorem paint_rosterRow (c : Cpu) (seat : ℕ) (h : seat < 256) :
    Frame PaintArea c (rosterRow c seat) := by
  unfold rosterRow
  extract_lets c1 off c2 c3 c4
  have hoff : off < 5200 := by
    simp only [off]
    omega
  have hPP : ∀ d : Cpu, d.cell PP_TMP < 256 := fun d => d.cell_lt_cart (by decide) (by decide)
  have h2 : Frame PaintArea c c2 :=
    ((Frame.refl _ c).sto (draw_paint color_draw)).sto (draw_paint offset_draw)
  have h3 : Frame PaintArea c c3 := by
    apply h2.sto
    apply low_paint
    rw [Nat.mod_eq_of_lt] <;> simp only [BACKTAB] <;> omega
  have h4 : Frame PaintArea c c4 := by
    have := hPP c3
    exact h3.trans (paint_UI_PRINTN c3 _ _ 8 (by omega))
  apply Frame.ite _ (fun _ => h4)
  intro _
  apply h4.sto
  have := hPP c4
  apply low_paint
  rw [Nat.mod_eq_of_lt] <;> simp only [BACKTAB] <;> omega

/-- Rows of a roster of any seats that a byte can count. -/
theorem paint_rosterRows (n : ℕ) (c : Cpu) (seat : ℕ) (h : seat + n ≤ 256) :
    Frame PaintArea c (rosterRows c seat n) := by
  induction n generalizing c seat with
  | zero => exact Frame.refl _ c
  | succ n ih =>
    apply (paint_rosterRow c seat (by omega)).trans
    exact ih _ _ (by omega)

/-- The roster, whatever its count. -/
theorem paint_SES_ROSTER (c : Cpu) : Frame PaintArea c (SES_ROSTER c) := by
  unfold SES_ROSTER
  apply Frame.sto (paint_rosterRows _ c 0 _) (draw_paint color_draw)
  have hroom : c.cell ROOM_CNT < 256 := c.cell_lt_cart (by decide) (by decide)
  have hcount : c.cell NET_COUNT < 256 := c.cell_lt_cart (by decide) (by decide)
  split <;> omega

/-- Clearing the screen is painting it. -/
theorem paint_UI_CLS (c : Cpu) : Frame PaintArea c (UI_CLS c) := (frame_UI_CLS c).mono draw_paint

/-- The waiting room, whatever its count. -/
theorem paint_SES_ROOMSCR (c : Cpu) : Frame PaintArea c (SES_ROOMSCR c) := by
  unfold SES_ROOMSCR
  extract_lets c1 c2 c3 c4
  have hlen : ∀ s ∈ [STR_TITLE, STR_ROOM, STR_WAITHOST, STR_GOHINT], s.length ≤ 20 := by decide
  have h2 : Frame PaintArea c c2 := by
    apply Frame.trans _ (paint_UI_PRINT _ _ _ (by have := hlen STR_ROOM; simp at this; omega))
    exact (paint_UI_CLS c).trans (paint_UI_PRINT _ _ _ (by have := hlen STR_TITLE; simp at this; omega))
  have h4 : Frame PaintArea c c4 := (h2.sto (low_paint (by decide))).trans (paint_SES_ROSTER _)
  apply Frame.ite
  · intro _
    exact h4.trans (paint_UI_PRINT _ _ _ (by have := hlen STR_WAITHOST; simp at this; omega))
  · intro _
    exact h4.trans (paint_UI_PRINT _ _ _ (by have := hlen STR_GOHINT; simp at this; omega))

/-- A room of any count stores to the lobby's data, the roster and aside; the cached list stays. -/
theorem frame_of_room_any (c : Cpu) (hl : c.cell LOBBY_CNT ≤ 8) :
    Frame (Aside ∪ {a | a = ROOM_CNT ∨ a = ROOM_HOST} ∪ Roster) c (of_room c) := by
  unfold of_room
  extract_lets c1 c2 c3
  have hdata : ∀ a, a = ROOM_CNT ∨ a = ROOM_HOST →
      a ∈ Aside ∪ {a | a = ROOM_CNT ∨ a = ROOM_HOST} ∪ Roster := fun a ha => Or.inl (Or.inr ha)
  have haside : Aside ⊆ Aside ∪ {a | a = ROOM_CNT ∨ a = ROOM_HOST} ∪ Roster :=
    fun _ h => Or.inl (Or.inl h)
  have h1 := (Frame.refl _ c).sto (v := c.cell (FRMBUF + 2)) (hdata _ (Or.inl rfl))
  apply Frame.ite (fun _ => Frame.refl _ c)
  intro _
  apply Frame.ite (fun _ => Frame.refl _ c)
  intro _
  apply Frame.ite
  · intro _
    have h2 : Frame (Aside ∪ {a | a = ROOM_CNT ∨ a = ROOM_HOST} ∪ Roster) c c2 :=
      (h1.sto (hdata _ (Or.inl rfl))).sto (hdata _ (Or.inr rfl))
    have hscr : Frame DrawArea c2 (UI_PRINT (UI_CLS c2) 0 STR_TITLE) :=
      (frame_UI_CLS c2).trans ((frame_UI_PRINT _ _ _ (by decide)).mono screen_draw)
    have hcnt : (UI_PRINT (UI_CLS c2) 0 STR_TITLE).cell LOBBY_CNT ≤ 8 := by
      rw [hscr.cell_eq (not_mem_draw (by decide) (by decide) (by decide))]
      simpa [c2, c1] using hl
    exact h2.trans ((hscr.trans (frame_SES_RENDER _ hcnt)).mono fun _ h => haside (draw_aside h))
  · intro _
    have h3 : Frame (Aside ∪ {a | a = ROOM_CNT ∨ a = ROOM_HOST} ∪ Roster) c c3 :=
      h1.trans ((frame_SES_CPR_GO 4 c1 _ _ le_rfl (by omega)).mono fun _ h => Or.inr h)
    exact (h3.sto (hdata _ (Or.inr rfl))).trans
      ((paint_SES_ROOMSCR _).mono (paint_aside.trans haside))

/-! ### The lobby loop -/

/-- A write to the network stores aside. -/
theorem aside_NET_WRITE {c c' : Cpu} (h : Frame Aside c c') (n : ℕ) :
    Frame Aside c (NET_WRITE ((c'.sto NREQ_LO n).sto NREQ_HI 0)) := by
  apply Frame.trans _ ((frame_NET_WRITE _).mono mailbox_aside)
  apply Frame.sto (h.sto _) <;> exact mailbox_aside (by simp [MailboxArea])

theorem aside_sendBare (c : Cpu) (ty : ℕ) : Frame Aside c (sendBare c ty) :=
  aside_NET_WRITE (aside_tx (Frame.refl _ c) _) 2

theorem aside_sendJoin (c : Cpu) : Frame Aside c (sendJoin c) := by
  apply (aside_NET_WRITE (aside_tx (Frame.refl _ c) _) 10).trans
  exact (frame_UI_PRINT _ _ _ (by decide)).mono screen_aside

/-- The list, of which at most eight entries are cached. -/
theorem aside_SES_RENDER {c c' : Cpu} (h : Frame Aside c c') (hl : c.cell LOBBY_CNT ≤ 8) :
    Frame Aside c (SES_RENDER c') := by
  apply h.trans
  apply Frame.mono draw_aside
  apply frame_SES_RENDER
  rwa [h.cell_eq]
  simp [Aside, MailboxArea]

theorem aside_menuRedraw {c c' : Cpu} (h : Frame Aside c c') (hl : c.cell LOBBY_CNT ≤ 8) :
    Frame Aside c (menuRedraw c') := Frame.ite (fun _ => h) fun _ => aside_SES_RENDER h hl

theorem aside_menuEnter (c : Cpu) (hl : c.cell LOBBY_CNT ≤ 8) : Frame Aside c (menuEnter c) := by
  apply Frame.ite
  · intro _
    exact Frame.ite (fun _ => Frame.refl _ c) fun _ => aside_sendBare c FT_GO
  · intro _
    apply Frame.ite (fun _ => Frame.refl _ c)
    intro _
    apply Frame.ite _ (fun _ => aside_sendJoin c)
    intro _
    exact aside_SES_RENDER ((frame_UI_PRINT c _ _ (by decide)).mono screen_aside) hl

theorem aside_menuKey (c : Cpu) (key : ℕ) (hl : c.cell LOBBY_CNT ≤ 8) :
    Frame Aside c (menuKey c key) := by
  have hsel : MENU_SEL ∈ Aside := by simp [Aside]
  have hup : Frame Aside c (menuUp c) :=
    aside_menuRedraw (Frame.ite (fun _ => Frame.refl _ c) fun _ => (Frame.refl _ c).sto hsel) hl
  have hdown : Frame Aside c (menuDown c) :=
    aside_menuRedraw (Frame.ite (fun _ => Frame.refl _ c) fun _ => (Frame.refl _ c).sto hsel) hl
  apply Frame.ite
  · intro _
    apply Frame.ite (fun _ => hup)
    intro _
    exact Frame.ite (fun _ => hdown) fun _ => Frame.refl _ c
  · intro _
    apply Frame.ite (fun _ => hup)
    intro _
    apply Frame.ite (fun _ => hdown)
    intro _
    exact Frame.ite (fun _ => aside_menuEnter c hl) fun _ => Frame.refl _ c

theorem aside_menu (c : Cpu) (pad : ℕ) (hl : c.cell LOBBY_CNT ≤ 8) : Frame Aside c (menu c pad) := by
  have hprev : ∀ v, Frame Aside c (c.sto MENU_PREV v) := fun v =>
    (Frame.refl _ c).sto (by simp [Aside])
  apply Frame.ite (fun _ => Frame.refl _ c)
  intro _
  apply Frame.ite (fun _ => hprev _)
  intro _
  apply (hprev _).trans
  apply aside_menuKey
  simpa using hl

theorem aside_sesPace (c : Cpu) : Frame Aside c (sesPace c) := by
  have htimer : Frame Aside c (c.sto SES_TMR_LO (c.cell SES_TMR_LO + 1)) :=
    (Frame.refl _ c).sto (by simp [Aside])
  exact Frame.ite (fun _ => htimer.trans (aside_sendBare _ FT_LIST)) fun _ => htimer

/-- The console's own part of a round. -/
theorem aside_turn (c : Cpu) (pad : ℕ) (hl : c.cell LOBBY_CNT ≤ 8) :
    Frame Aside c (sesPace (menu c pad)) := (aside_menu c pad hl).trans (aside_sesPace _)

theorem aside_ses_go (c : Cpu) : Frame Aside c (ses_go c) := by
  unfold ses_go
  extract_lets c1 c2 c3
  have h1 : Frame Aside c c1 := by
    apply Frame.trans _ ((paint_SES_ROSTER _).mono paint_aside)
    exact ((paint_UI_CLS c).mono paint_aside).trans ((frame_UI_PRINT _ _ _ (by decide)).mono screen_aside)
  have h2 : Frame Aside c c2 := by
    apply h1.trans
    apply Frame.trans ((Frame.refl _ c1).sto (draw_aside color_draw))
    exact (frame_UI_PRINT _ _ _ (by decide)).mono screen_aside
  have h3 : Frame Aside c c3 := h2.sto (low_aside (by decide))
  exact (h3.trans ((frame_UI_PRINT _ _ _ (by decide)).mono screen_aside)).sto (by simp [Aside])

theorem aside_SES_EXIT (c : Cpu) : Frame Aside c (SES_EXIT c) :=
  ((Frame.refl _ c).sto (low_aside (by decide))).sto (low_aside (by decide))

/-! ### Logging in -/

/-- What logging in stores to: as above, without the menu and its timer. -/
def LoginArea : Set ℕ :=
  {a | a < 0x8000 ∨ a = UI_COLOR ∨ a = PP_TMP ∨ a = SES_SAVE102 ∨
    (NAME_BUF ≤ a ∧ a ≤ NAME_LEN) ∨ FN_SEQ ≤ a} ∪ MailboxArea

theorem login_aside : LoginArea ⊆ Aside := by
  rintro a ((h | h | h | h | h | h) | h)
  · exact low_aside h
  · exact paint_aside (Or.inr (Or.inl h))
  · exact paint_aside (Or.inr (Or.inr h))
  · subst h
    simp [Aside]
  · exact Or.inl (Or.inr (Or.inr (Or.inr (Or.inr (Or.inr (Or.inr (Or.inr (Or.inl h))))))))
  · exact Or.inl (Or.inr (Or.inr (Or.inr (Or.inr (Or.inr (Or.inr (Or.inr (Or.inr h))))))))
  · exact Or.inr h

theorem low_login {a : ℕ} (h : a < 0x8000) : a ∈ LoginArea := Or.inl (Or.inl h)

theorem mailbox_login : MailboxArea ⊆ LoginArea := fun _ h => Or.inr h

theorem draw_login : DrawArea ⊆ LoginArea := by
  rintro a (h | h | ⟨-, h⟩)
  · exact Or.inl (Or.inr (Or.inl h))
  · exact Or.inl (Or.inr (Or.inr (Or.inl h)))
  · simp only [BACKTAB] at h
    exact low_login (by omega)

theorem screen_login : ScreenArea ⊆ LoginArea := screen_draw.trans draw_login

/-- The data of a transaction may be staged. -/
theorem login_tx {c c' : Cpu} (h : Frame LoginArea c c') (vs : List ℕ) :
    Frame LoginArea c (c'.blit FN_TX vs) := by
  apply h.blit
  intro x hx _
  refine Or.inl (Or.inr (Or.inr (Or.inr (Or.inr (Or.inr ?_)))))
  simp only [FN_TX, FN_SEQ] at hx ⊢
  omega

/-- A write to the network stores to these cells. -/
theorem login_NET_WRITE {c c' : Cpu} (h : Frame LoginArea c c') (n : ℕ) :
    Frame LoginArea c (NET_WRITE ((c'.sto NREQ_LO n).sto NREQ_HI 0)) := by
  apply Frame.trans _ ((frame_NET_WRITE _).mono mailbox_login)
  apply Frame.sto (h.sto _) <;> exact mailbox_login (by simp [MailboxArea])

theorem login_SES_EXIT (c : Cpu) : Frame LoginArea c (SES_EXIT c) :=
  ((Frame.refl _ c).sto (low_login (by decide))).sto (low_login (by decide))

theorem login_MB_TRANSACT {c c' : Cpu} (h : Frame LoginArea c c') (reply : MbReply) :
    Frame LoginArea c (MB_TRANSACT c' reply) := h.trans ((frame_MB_TRANSACT c' reply).mono mailbox_login)

theorem login_SES_AK_CLOSE {c c' : Cpu} (h : Frame LoginArea c c') (reply : MbReply) :
    Frame LoginArea c (SES_AK_CLOSE c' reply) := by
  apply login_MB_TRANSACT
  repeat' apply Frame.sto
  · exact h
  all_goals exact mailbox_login (by simp [MailboxArea])

/-- The cells of the name. -/
theorem name_login {a : ℕ} (h1 : NAME_BUF ≤ a) (h2 : a ≤ NAME_LEN) : a ∈ LoginArea :=
  Or.inl (Or.inr (Or.inr (Or.inr (Or.inr (Or.inl ⟨h1, h2⟩)))))

theorem login_copyName (n : ℕ) {c c' : Cpu} (h : Frame LoginArea c c') (rx : ℕ → ℕ) (i r5 : ℕ)
    (h1 : NAME_BUF ≤ r5) (h2 : r5 + n ≤ NAME_LEN + 1) : Frame LoginArea c (copyName c' rx i r5 n).1 := by
  induction n generalizing c' i r5 with
  | zero => exact h
  | succ n ih =>
    unfold copyName
    split
    · exact ih (h.sto (name_login h1 (by omega))) _ _ (by omega) (by omega)
    · exact h

theorem login_tryName {c c' : Cpu} (h : Frame LoginArea c c') (t : KeyTry) :
    Frame LoginArea c (tryName c' t).1 := by
  unfold tryName
  extract_lets c1 c2 c3 c4 c5 n r
  have h4 : Frame LoginArea c c4 := by
    apply login_MB_TRANSACT
    repeat' apply Frame.sto
    · exact login_tx h _
    all_goals exact mailbox_login (by simp [MailboxArea])
  have h5 : Frame LoginArea c c5 := by
    apply login_MB_TRANSACT
    repeat' apply Frame.sto
    · exact h4
    all_goals exact mailbox_login (by simp [MailboxArea])
  have hn : n ≤ 8 := by
    simp only [n]
    split <;> omega
  have hr : Frame LoginArea c r.1 :=
    login_copyName n (h5.sto (name_login (by decide) le_rfl)) _ _ _ le_rfl
      (by simp only [NAME_BUF, NAME_LEN]; omega)
  split
  · exact login_SES_AK_CLOSE h4 _
  split
  · exact login_SES_AK_CLOSE h5 _
  split
  · exact login_SES_AK_CLOSE h5 _
  split
  · apply login_SES_AK_CLOSE
    apply hr.sto
    exact name_login (by omega) (by simp only [NAME_BUF, NAME_LEN]; omega)
  · exact login_SES_AK_CLOSE hr _

theorem login_guestName {c c' : Cpu} (h : Frame LoginArea c c') : Frame LoginArea c (guestName c') := by
  unfold guestName
  extract_lets c1 c2 c3
  have h1 : Frame LoginArea c c1 := by
    apply h.blit
    intro x hx1 hx2
    have hlen : STR_GUEST.length = 5 := rfl
    exact name_login hx1 (by simp only [NAME_BUF, NAME_LEN] at hx1 hx2 ⊢; omega)
  have hcell : ∀ k ≤ 9, NAME_BUF + k ∈ LoginArea := by
    intro k hk
    exact name_login (by omega) (by simp only [NAME_BUF, NAME_LEN]; omega)
  apply Frame.sto _ (hcell 9 le_rfl)
  apply Frame.sto _ (hcell 7 (by omega))
  apply Frame.sto _ (hcell 6 (by omega))
  exact h1.sto (hcell 5 (by omega))

/-- Whichever way a name is found, finding it stores to these cells. -/
theorem login_SES_GETNAME {c c' : Cpu} (h : Frame LoginArea c c') (first second : KeyTry) :
    Frame LoginArea c (SES_GETNAME c' first second) := by
  have htries : ∀ (ts : List KeyTry) (d : Cpu), Frame LoginArea c d → Frame LoginArea c (tryNames d ts) := by
    intro ts
    induction ts with
    | nil => exact fun d hd => login_guestName hd
    | cons t ts ih =>
      intro d hd
      have hr := login_tryName hd t
      unfold tryNames
      simp only
      split
      · exact hr
      · exact login_guestName hr
      · have hc := hr.sto (v := (tryName d t).1.cell PP_TMP - 1) (draw_login offset_draw)
        exact Frame.ite (fun _ => login_guestName hc) fun _ => ih _ hc
  exact htries _ _ (h.sto (draw_login offset_draw))

theorem login_NET_OPEN {c c' : Cpu} (h : Frame LoginArea c c') (reply : MbReply) :
    Frame LoginArea c (NET_OPEN c' reply) := by
  apply login_MB_TRANSACT
  repeat' apply Frame.sto
  · exact h
  all_goals exact mailbox_login (by simp [MailboxArea])

theorem login_sendHello {c c' : Cpu} (h : Frame LoginArea c c') : Frame LoginArea c (sendHello c') :=
  login_NET_WRITE (login_tx h _) _

/-- Opening the session. -/
theorem login_SES_MAIN (c : Cpu) (w : Login) : Frame LoginArea c (SES_MAIN c w).cpu := by
  unfold SES_MAIN
  extract_lets c1 c2 c3 c4 c5 c6 c7 c8 c9
  have hprint : ∀ {d : Cpu} (off : ℕ) (s : List ℕ), Frame LoginArea c d → off + s.length ≤ 240 →
      Frame LoginArea c (UI_PRINT d off s) := fun off s hd hs =>
    hd.trans ((frame_UI_PRINT _ off s hs).mono screen_login)
  have h1 : Frame LoginArea c c1 :=
    ((Frame.refl _ c).sto (by simp [LoginArea])).sto (low_login (by decide))
  have h2 : Frame LoginArea c c2 :=
    hprint 0 STR_TITLE ((h1.sto (low_login (by decide))).trans ((frame_UI_CLS _).mono draw_login)) (by decide)
  have h3 : Frame LoginArea c c3 := h2.sto (mailbox_login (by simp [MailboxArea]))
  have h5 : Frame LoginArea c c5 := hprint _ _ (login_SES_GETNAME h3 _ _) (by decide)
  have h6 : Frame LoginArea c c6 := by
    apply hprint _ _ h5
    have := length_ramString_le 9 c5 NAME_BUF
    omega
  have h7 : Frame LoginArea c c7 := by
    apply Frame.sto _ (mailbox_login (by simp [MailboxArea]))
    exact (login_tx h6 _).sto (mailbox_login (by simp [MailboxArea]))
  have h8 : Frame LoginArea c c8 := login_NET_OPEN h7 _
  split
  · exact (hprint 40 STR_NOFN h3 (by decide)).trans (login_SES_EXIT _)
  split
  · have h9 : Frame LoginArea c c9 := hprint 60 STR_NOSRV h8 (by decide)
    apply Frame.trans _ (login_SES_EXIT _)
    apply h9.blit
    intro x hx1 hx2
    simp only [BACKTAB, List.length_cons, List.length_nil] at hx1 hx2
    exact low_login (by omega)
  · exact hprint _ _ (login_sendHello h8) (by decide)

/-- The whole login stores aside. -/
theorem aside_SES_MAIN (c : Cpu) (w : Login) : Frame Aside c (SES_MAIN c w).cpu :=
  (login_SES_MAIN c w).mono login_aside

end BoxingNetplay.Interface
