import BoxingNetplay.Interface.Menu
import BoxingNetplay.Interface.Reports
import BoxingNetplay.Interface.Sending

/-!
# What a console sends from power-up on

Logging in, going round the lobby loop, showing the roster and playing a match, a console sends frames
that it builds and nothing else, when its writes are acknowledged.  Whatever a relay has read of them is
then the beginning of such a stream.
-/

set_option autoImplicit false

namespace BoxingNetplay.Interface

open BoxingNetplay.Library
open BoxingNetplay.Model

/-- A routine that sends frames a console builds, when its writes are acknowledged. -/
def SendsBuilt (c c' : Cpu) : Prop :=
  ∃ fs : List (List ℕ), (∀ f ∈ fs, Built f) ∧ Sends fs.flatten c c'

namespace SendsBuilt

variable {c c' c'' : Cpu}

/-- One routine after another. -/
theorem trans (h : SendsBuilt c c') (h' : SendsBuilt c' c'') : SendsBuilt c c'' := by
  obtain ⟨fs, hfs, hs⟩ := h
  obtain ⟨gs, hgs, hs'⟩ := h'
  refine ⟨fs ++ gs, fun f hf => ?_, ?_⟩
  · exact (List.mem_append.mp hf).elim (hfs f) (hgs f)
  · rw [List.flatten_append]
    exact hs.trans hs'

/-- Sending nothing. -/
theorem silent (h : Silent c c') : SendsBuilt c c' := ⟨[], nofun, Sends.silent h.out h.replies⟩

/-- Either branch of a test. -/
theorem ite {p : Prop} [Decidable p] (h : SendsBuilt c c') (h' : SendsBuilt c c'') :
    SendsBuilt c (if p then c' else c'') := by
  split
  · exact h
  · exact h'

/-- Staging a frame and sending it. -/
theorem frame (h : Silent c c') (fr : List ℕ) (hlen : fr.length < 256)
    (hb : Built (fr.map (· % 256))) : SendsBuilt c (sendFrame c' fr) := by
  refine ⟨[fr.map (· % 256)], fun f hf => List.mem_singleton.mp hf ▸ hb, ?_⟩
  rw [List.flatten_singleton]
  exact (sends_sendFrame c' fr hlen).after_silent h.out h.replies

end SendsBuilt

/-! ### In a match -/

section Match

variable (c : Cpu)

/-- A capture sends an INPUT. -/
theorem sendsBuilt_captureSend : SendsBuilt c (captureSend c) := by
  unfold captureSend
  extract_lets r2 c1 ring c2 c3
  refine SendsBuilt.frame (show Silent c c3 from ⟨rfl, rfl⟩) _ (by simp) ?_
  exact .input ..

/-- A report sends a CRC, in the ticks that have one. -/
theorem sendsBuilt_crcReport : SendsBuilt c (crcReport c) := by
  unfold crcReport
  extract_lets c1 sum c2
  split
  · exact .silent (.refl c)
  · refine SendsBuilt.frame (show Silent c c2 from ⟨rfl, rfl⟩) _ (by simp) ?_
    exact .crc ..

/-- A checksum from the peer that differs is answered with a RESYNC at most. -/
theorem sendsBuilt_RS_ON_CRC : SendsBuilt c (RS_ON_CRC c) := by
  have hnone : SendsBuilt c c := .silent (.refl c)
  unfold RS_ON_CRC
  extract_lets r4 c1
  refine hnone.ite (hnone.ite (hnone.ite (hnone.ite (hnone.ite (hnone.ite (SendsBuilt.ite ?_ ?_))))))
  · exact .silent (show Silent c c1 from ⟨rfl, rfl⟩)
  · refine SendsBuilt.frame (show Silent c c1 from ⟨rfl, rfl⟩) _ (by simp) ?_
    exact .resync ..

/-- A push sends BEGIN, the chunks and END. -/
theorem sendsBuilt_RS_PUSH : SendsBuilt c (RS_PUSH c) := by
  have h := pushed c
  have hr := rebased (pushBody c)
  refine ⟨pushFrames c, fun f hf => .push c f hf, ?_⟩
  rw [h.eq]
  exact h.sends.then_silent hr.out hr.replies

/-- A push that is put off sends nothing, and one that is made its frames. -/
theorem sendsBuilt_RS_PENDING : SendsBuilt c (RS_PENDING c) := by
  have hnone : SendsBuilt c c := .silent (.refl c)
  unfold RS_PENDING
  extract_lets c1 push
  have h1 : Silent c c1 := (Silent.refl c).sto
  have hpush : ∀ gate, SendsBuilt c (push c1 gate) := fun gate =>
    (SendsBuilt.silent h1.sto.sto).trans (sendsBuilt_RS_PUSH _)
  have hwait : SendsBuilt c c1 := .silent h1
  exact hnone.ite (hnone.ite (hnone.ite ((hpush 1).ite (hwait.ite (hpush 2)))))

/-- A tick sends its report, and then perhaps a push. -/
theorem sendsBuilt_runTick (g : Game) : SendsBuilt c (runTick g c).cpu := by
  have hplay := (plays_tick g c).silent
  have hbody : SendsBuilt c (tickBody g c) := .trans (.silent hplay) (sendsBuilt_crcReport _)
  rw [runTick_cpu]
  exact (hbody.trans (.silent (silent_countUp _ _ _))).trans (sendsBuilt_RS_PENDING _)

/-- Idle inputs for the remote seats are stored, not sent. -/
theorem silent_LS_IDLE_RMT : Silent c (LS_IDLE_RMT c) :=
  (silent_LS_RING_INIT c).trans (silent_setWatermarks _ _ _)

/-- A PEER_LEFT is answered with nothing. -/
theorem silent_of_pl : Silent c (of_pl c) := by
  unfold of_pl
  extract_lets c1
  have h1 : Silent c c1 := Silent.ite (.refl c) ⟨rfl, rfl⟩
  exact h1.sto.sto.trans (silent_LS_IDLE_RMT _)

end Match

/-! ### On the screen -/

section Screen

variable (c : Cpu)

/-- Clearing the screen sends nothing. -/
theorem silent_UI_CLS : Silent c (UI_CLS c) := ⟨rfl, rfl⟩

/-- Nor do two hexadecimal digits. -/
theorem silent_UI_HEX2 (v off : ℕ) : Silent c (UI_HEX2 c v off) := ⟨rfl, rfl⟩

theorem silent_SES_ROSTER : Silent c (SES_ROSTER c) := by
  have hrow : ∀ (d : Cpu) (seat : ℕ), Silent d (rosterRow d seat) := by
    intro d seat
    unfold rosterRow
    extract_lets d1 off d2 d3 d4
    have h4 : Silent d d4 := ((Silent.refl d).sto.sto.sto).trans (silent_UI_PRINTN d3 _ _ 8)
    exact Silent.ite h4.sto h4
  have hrows : ∀ (n : ℕ) (d : Cpu) (seat : ℕ), Silent d (rosterRows d seat n) := by
    intro n
    induction n with
    | zero => exact fun d _ => .refl d
    | succ n ih => exact fun d seat => (hrow d seat).trans (ih _ _)
  exact (hrows _ c 0).sto

theorem silent_SES_ROOMSCR : Silent c (SES_ROOMSCR c) := by
  unfold SES_ROOMSCR
  extract_lets c1 c2 c3 c4
  have h2 : Silent c c2 :=
    ((silent_UI_CLS c).trans (silent_UI_PRINT _ 0 STR_TITLE)).trans (silent_UI_PRINT _ 20 STR_ROOM)
  have h4 : Silent c c4 := h2.sto.trans (silent_SES_ROSTER _)
  exact Silent.ite (h4.trans (silent_UI_PRINT _ _ _)) (h4.trans (silent_UI_PRINT _ _ _))

/-- A LOBBY is answered with nothing. -/
theorem silent_of_lobby : Silent c (of_lobby c) := by
  unfold of_lobby
  extract_lets count c1 c2 c3
  have h2 : Silent c c2 := Silent.ite (Silent.refl c).sto (Silent.refl c).sto.sto
  have h3 : Silent c c3 := ⟨h2.out, h2.replies⟩
  exact Silent.ite (.refl c) (Silent.ite (.refl c) (Silent.ite (.refl c)
    (Silent.ite h3 (h3.trans (silent_SES_RENDER c3)))))

/-- A ROOM is answered with nothing. -/
theorem silent_of_room : Silent c (of_room c) := by
  unfold of_room
  extract_lets c1 c2 c3
  have h1 : Silent c c1 := (Silent.refl c).sto
  have h3 : Silent c c3 := h1.trans (silent_SES_CPR_GO 4 _ _ _)
  refine Silent.ite (.refl c) (Silent.ite (.refl c) (Silent.ite ?_ ?_))
  · exact ((h1.sto.sto.trans (silent_UI_CLS _)).trans (silent_UI_PRINT _ _ _)).trans
      (silent_SES_RENDER _)
  · exact h3.sto.trans (silent_SES_ROOMSCR _)

/-- The screen behind the last pass. -/
theorem silent_LS_PEER_LEFT : Silent c (LS_PEER_LEFT c) := by
  have hnormal : ∀ d : Cpu, Silent d (UI_DISPLAY_NORMALIZE d) := fun _ => ⟨rfl, rfl⟩
  have hsettle : ∀ d : Cpu, Silent d (DANCE_SETTLE d) := fun d =>
    Silent.ite (.refl d) (Silent.refl d).sto.sto
  unfold LS_PEER_LEFT
  extract_lets c1 c2 c3 c4 c5
  have h1 : Silent c c1 := ((hsettle c).trans (hnormal _)).trans (silent_UI_CLS _)
  have h2 : Silent c c2 := Silent.ite (h1.trans (silent_UI_PRINT _ _ _)) (h1.trans (silent_UI_PRINT _ _ _))
  have h4 : Silent c c4 := ((h2.trans (silent_UI_PRINT c2 _ _)).trans (silent_UI_PRINT c3 _ _)).trans
    (silent_UI_PRINT _ _ _)
  have h5 : Silent c c5 := (h4.trans (silent_UI_HEX2 _ _ _)).trans (silent_UI_HEX2 _ _ _)
  exact (h5.trans (silent_UI_HEX2 _ _ _)).trans (silent_UI_HEX2 _ _ _)

end Screen

/-! ### A step of a pass -/

/-- Of the handlers only that of a CRC sends. -/
theorem sendsBuilt_SES_ONFRAME (c : Cpu) : SendsBuilt c (SES_ONFRAME c) :=
  SES_ONFRAME_rule (P := SendsBuilt c) c (fun _ => .silent (silent_of_input c))
    (fun _ => .silent (silent_of_lobby c)) (fun _ => .silent (silent_of_start c))
    (fun _ => .silent (silent_of_pl c)) (fun _ => .silent (silent_of_room c))
    (fun _ => sendsBuilt_RS_ON_CRC c) (fun _ => .silent (silent_RS_ON_STATE c))
    (fun _ => .silent (silent_RS_ON_REQ c)) (.silent (.refl c))

/-- A pump sends what its handlers send. -/
theorem sendsBuilt_pump (c : Cpu) (p : Poll) : SendsBuilt c (SES_PUMP SES_ONFRAME c p).cpu :=
  (handles_pump c p).preserves (P := SendsBuilt c) (fun hm hs => hs.trans (.silent hm.silent))
    (fun d _ hs => hs.trans (sendsBuilt_SES_ONFRAME d)) (.silent (.refl c))

/-- A round of the hold or of the gate: a pump, and then perhaps the end of the match. -/
theorem sendsBuilt_rounds (c : Cpu) (p : Poll) :
    SendsBuilt c (holdRound c p) ∧ SendsBuilt c (stallRound c p) := by
  have hpump : SendsBuilt c (SES_PUMP SES_ONFRAME (freeze c) p).cpu :=
    .trans (.silent (silent_freeze c)) (sendsBuilt_pump _ p)
  generalize hd : (SES_PUMP SES_ONFRAME (freeze c) p).cpu = d at hpump
  constructor
  · unfold holdRound
    rw [hd]
    extract_lets d0 lo d1 hi d2
    have h1 : Silent d d1 := (Silent.refl d).sto
    have h2 : Silent d d2 := h1.sto
    refine hpump.trans (.silent (Silent.ite h1 (Silent.ite h2 ?_)))
    exact h2.sto.sto.sto.trans (silent_LS_IDLE_RMT _)
  · unfold stallRound
    rw [hd]
    extract_lets d0 lo d1 hi d2
    have h1 : Silent d d1 := (Silent.refl d).sto
    have h2 : Silent d d2 := h1.sto
    refine hpump.trans (.silent (Silent.ite h1 (Silent.ite h2 ?_)))
    exact h2.sto.sto.trans (silent_LS_IDLE_RMT _)

/-- Each step of a console in a match. -/
theorem sendsBuilt_console (k : Console) (o : Outside) : SendsBuilt k.cpu (k.step o).cpu := by
  obtain ⟨c, phase⟩ := k
  cases phase with
  | pass =>
    simp only [Console.step, Console.stepPass]
    split
    · exact .silent (.refl c)
    split
    · exact .silent ((silent_freeze c).trans (silent_LS_PEER_LEFT _)).sto
    split
    · exact (sendsBuilt_rounds c o.poll).1
    · exact sendsBuilt_pump c o.poll
  | due => exact sendsBuilt_captureSend c
  | gate =>
    simp only [Console.step]
    split
    · exact .silent (.refl c)
    · exact (sendsBuilt_rounds c o.poll).2
  | run => exact sendsBuilt_runTick c o.game
  | native => exact .silent (Plays.game (o.game.native_frame c)).silent
  | scan => exact .silent (Plays.game (o.game.scan_frame c)).silent
  | parked => exact .silent (.refl c)

/-! ### In the lobby -/

/-- LIST and GO. -/
theorem sendsBuilt_sendBare (c : Cpu) {ty : ℕ} (h : ty = FT_LIST ∨ ty = FT_GO) :
    SendsBuilt c (sendBare c ty) := by
  refine SendsBuilt.frame (Silent.refl c) [1, ty] (by simp) ?_
  rcases h with rfl | rfl
  · exact .list
  · exact .go

/-- JOIN, with the eight characters of the entry under the cursor. -/
theorem sendsBuilt_sendJoin (c : Cpu) : SendsBuilt c (sendJoin c) := by
  refine .trans (SendsBuilt.frame (Silent.refl c)
    (9 :: FT_JOIN :: (List.range 8).map fun i => c.cell (selected c + i)) (by simp) ?_)
    (.silent (silent_UI_PRINT _ _ _))
  exact .join _ (by simp)

/-- ENTER sends a GO or a JOIN, or nothing. -/
theorem sendsBuilt_menuEnter (c : Cpu) : SendsBuilt c (menuEnter c) := by
  have hnone : SendsBuilt c c := .silent (.refl c)
  unfold menuEnter
  refine SendsBuilt.ite (hnone.ite (sendsBuilt_sendBare c (Or.inr rfl)))
    (hnone.ite (SendsBuilt.ite ?_ (sendsBuilt_sendJoin c)))
  exact .silent ((silent_UI_PRINT c _ _).trans (silent_SES_RENDER _))

/-- What the menu does with the controller: only ENTER sends. -/
theorem sendsBuilt_menu (c : Cpu) (pad : ℕ) : SendsBuilt c (menu c pad) := by
  have hup : ∀ d, SendsBuilt d (menuUp d) := fun d => .silent (silent_menuUp d)
  have hdown : ∀ d, SendsBuilt d (menuDown d) := fun d => .silent (silent_menuDown d)
  have hkey : ∀ d key, SendsBuilt d (menuKey d key) := by
    intro d key
    have hnone : SendsBuilt d d := .silent (.refl d)
    exact SendsBuilt.ite ((hup d).ite ((hdown d).ite hnone))
      ((hup d).ite ((hdown d).ite ((sendsBuilt_menuEnter d).ite hnone)))
  have hprev : ∀ v, SendsBuilt c (c.sto MENU_PREV v) := fun v => .silent (Silent.refl c).sto
  unfold menu
  extract_lets key
  exact SendsBuilt.ite (.silent (.refl c)) ((hprev _).ite ((hprev _).trans (hkey _ _)))

/-- The end of a round sends a LIST when the counter comes round. -/
theorem sendsBuilt_sesPace (c : Cpu) : SendsBuilt c (sesPace c) := by
  unfold sesPace
  extract_lets t c1
  have h1 : SendsBuilt c c1 := .silent (Silent.refl c).sto
  exact SendsBuilt.ite (h1.trans (sendsBuilt_sendBare c1 (Or.inl rfl))) h1

/-- Leaving the lobby for the match sends nothing. -/
theorem silent_ses_go (c : Cpu) : Silent c (ses_go c) := by
  unfold ses_go
  extract_lets c1 c2 c3
  have h1 : Silent c c1 :=
    ((silent_UI_CLS c).trans (silent_UI_PRINT _ _ _)).trans (silent_SES_ROSTER _)
  have h3 : Silent c c3 := (h1.sto.trans (silent_UI_PRINT _ _ _)).sto
  exact (h3.trans (silent_UI_PRINT _ _ _)).sto

/-- Each step of a console, wherever it is. -/
theorem sendsBuilt_player (k : Player) (t : PlayerTurn) : SendsBuilt k.cpu (k.step t).cpu := by
  obtain ⟨c, place⟩ := k
  have hpump := sendsBuilt_pump c t.poll
  cases place with
  | lobby =>
    simp only [Player.step, lobbyRound]
    split
    · exact hpump.trans (.silent (silent_ses_go _))
    · exact (hpump.trans (sendsBuilt_menu _ t.pad)).trans (sendsBuilt_sesPace _)
  | roster =>
    simp only [Player.step, rosterRound]
    split
    · exact hpump.trans (.silent ((Silent.refl _).sto.sto.sto.trans
        (Plays.game (t.boot_frame _)).silent))
    · exact hpump.trans (.silent (Silent.refl _).sto)
  | playing phase => exact sendsBuilt_console ⟨c, phase⟩ t.toOutside
  | stock => exact .silent (.refl c)

/-! ### Logging in -/

/-- The length of the name, when it is one. -/
def Named (c : Cpu) : Prop := 2 ≤ c.cell NAME_LEN ∧ c.cell NAME_LEN ≤ 8

/-- Where the name's length stays, there still is a name. -/
theorem Named.congr {c c' : Cpu} (h : Named c) (heq : c'.cell NAME_LEN = c.cell NAME_LEN) :
    Named c' := by
  rw [Named, heq]
  exact h

/-- A guest's name is a name. -/
theorem named_guestName (c : Cpu) : Named (guestName c) := by
  simp [guestName, Named, cellWidth]

/-- Closing the key keeps the length of the name. -/
theorem close_name (c : Cpu) (reply : MbReply) :
    (SES_AK_CLOSE c reply).cell NAME_LEN = c.cell NAME_LEN := by
  unfold SES_AK_CLOSE
  rw [(frame_MB_TRANSACT _ _).cell_eq (by simp [MailboxArea])]
  simp

/-- Copying a name of at most eight characters stores below its length. -/
theorem copyName_name (n : ℕ) (c : Cpu) (rx : ℕ → ℕ) (i r5 : ℕ) (h : r5 + n ≤ NAME_LEN) :
    (copyName c rx i r5 n).1.cell NAME_LEN = c.cell NAME_LEN := by
  induction n generalizing c i r5 with
  | zero => rfl
  | succ n ih =>
    unfold copyName
    split
    · rw [ih _ _ _ (by omega), Cpu.sto_cell, if_neg (by omega)]
    · rfl

/-- An attempt that ends with a name leaves its length. -/
theorem named_tryName (c : Cpu) (t : KeyTry) (h : (tryName c t).2 = .named) :
    Named (tryName c t).1 := by
  revert h
  unfold tryName
  extract_lets c1 c2 c3 c4 c5 n r
  intro h
  have hn : n ≤ 8 := by
    simp only [n]
    split <;> omega
  split at h
  · cases h
  rename_i h4
  split at h
  · cases h
  rename_i h5
  split at h
  · cases h
  rename_i hlen
  split at h
  · rename_i hname
    rw [if_neg h4, if_neg h5, if_neg hlen, if_pos hname]
    have hcell : (SES_AK_CLOSE (r.1.sto (NAME_BUF + n) 0) t.closed).cell NAME_LEN = n := by
      rw [close_name, Cpu.sto_cell, if_neg (by simp only [NAME_BUF, NAME_LEN]; omega),
        copyName_name n _ _ _ _ (by simp only [NAME_BUF, NAME_LEN]; omega), Cpu.sto_cell, if_pos rfl]
      exact Nat.mod_eq_of_lt (Nat.lt_of_le_of_lt hn (by decide))
    rw [Named, hcell]
    exact ⟨not_lt.mp hlen, hn⟩
  · cases h

/-- However the attempts end, there is a name. -/
theorem named_SES_GETNAME (c : Cpu) (first second : KeyTry) :
    Named (SES_GETNAME c first second) := by
  have htries : ∀ (ts : List KeyTry) (d : Cpu), Named (tryNames d ts) := by
    intro ts
    induction ts with
    | nil => exact named_guestName
    | cons t ts ih =>
      intro d
      unfold tryNames
      simp only
      split
      · exact named_tryName d t ‹_›
      · exact named_guestName _
      · split
        · exact named_guestName _
        · exact ih _
  exact htries _ _

/-- An attempt at the name sends nothing to the relay. -/
theorem silent_tryName (c : Cpu) (t : KeyTry) : Silent c (tryName c t).1 := by
  have hclose : ∀ d : Cpu, Silent d (SES_AK_CLOSE d t.closed) := fun d =>
    (Silent.refl d).sto.sto.sto.sto.sto.trans (silent_MB_TRANSACT _ _)
  have hcopy : ∀ (n : ℕ) (d : Cpu) (i r5 : ℕ), Silent d (copyName d t.rx i r5 n).1 := by
    intro n
    induction n with
    | zero => exact fun d _ _ => .refl d
    | succ n ih =>
      intro d i r5
      unfold copyName
      split
      · exact (Silent.refl d).sto.trans (ih _ _ _)
      · exact .refl d
  unfold tryName
  extract_lets c1 c2 c3 c4 c5 n r
  have h3 : Silent c c3 := ⟨rfl, rfl⟩
  have h4 : Silent c c4 := h3.trans (silent_MB_TRANSACT _ _)
  have h5 : Silent c c5 := h4.sto.sto.trans (silent_MB_TRANSACT _ _)
  have hr : Silent c r.1 := h5.sto.trans (hcopy n _ _ _)
  split
  · exact h4.trans (hclose c4)
  split
  · exact h5.trans (hclose c5)
  split
  · exact h5.trans (hclose c5)
  split
  · exact hr.sto.trans (hclose _)
  · exact hr.trans (hclose _)

theorem silent_SES_GETNAME (c : Cpu) (first second : KeyTry) :
    Silent c (SES_GETNAME c first second) := by
  have hguest : ∀ d : Cpu, Silent d (guestName d) := fun _ => ⟨rfl, rfl⟩
  have htries : ∀ (ts : List KeyTry) (d : Cpu), Silent d (tryNames d ts) := by
    intro ts
    induction ts with
    | nil => exact hguest
    | cons t ts ih =>
      intro d
      have hr := silent_tryName d t
      unfold tryNames
      simp only
      split
      · exact hr
      · exact hr.trans (hguest _)
      · exact Silent.ite (hr.sto.trans (hguest _)) (hr.sto.trans (ih _))
  exact (Silent.refl c).sto.trans (htries _ _)

/-- HELLO, with the name. -/
theorem sendsBuilt_sendHello {c : Cpu} (h : Named c) : SendsBuilt c (sendHello c) := by
  have hlen : ((c.cell NAME_LEN + 2) :: FT_HELLO :: 2 ::
      (List.range (c.cell NAME_LEN)).map fun i => c.cell (NAME_BUF + i)).length =
        c.cell NAME_LEN + 3 := by
    simp
  obtain ⟨h2, h8⟩ := h
  unfold sendHello
  extract_lets c1
  have hkeep : c1.cell NAME_LEN = c.cell NAME_LEN := by
    simp only [c1, Cpu.blit_cell]
    exact if_neg (by simp)
  rw [hkeep, ← hlen]
  refine SendsBuilt.frame (Silent.refl c) _ (by rw [hlen]; omega) ?_
  have hfirst : (c.cell NAME_LEN + 2) % 256 = c.cell NAME_LEN + 2 := Nat.mod_eq_of_lt (by omega)
  have hbuilt := Built.hello (((List.range (c.cell NAME_LEN)).map
    fun i => c.cell (NAME_BUF + i)).map (· % 256)) (by
      rw [List.length_map, List.length_map, List.length_range]
      exact ⟨h2, h8⟩)
  rw [List.length_map, List.length_map, List.length_range] at hbuilt
  rw [List.map_cons, hfirst]
  exact hbuilt

/-- Opening the session. -/
theorem sendsBuilt_SES_MAIN (c : Cpu) (w : Login) : SendsBuilt c (SES_MAIN c w).cpu := by
  have hexit : ∀ d : Cpu, Silent d (SES_EXIT d) := fun d => (Silent.refl d).sto.sto
  unfold SES_MAIN
  extract_lets c1 c2 c3 c4 c5 c6 c7 c8 c9
  have h3 : Silent c c3 :=
    (((Silent.refl c).sto.sto.sto.trans (silent_UI_CLS _)).trans (silent_UI_PRINT _ _ _)).sto
  have h4 : Silent c c4 := h3.trans (silent_SES_GETNAME _ _ _)
  have h6 : Silent c c6 := (h4.trans (silent_UI_PRINT _ _ _)).trans (silent_UI_PRINT _ _ _)
  have h7 : Silent c c7 := ⟨h6.out, h6.replies⟩
  have h8 : Silent c c8 :=
    h7.sto.sto.sto.sto.sto.sto.sto.sto.sto.trans (silent_MB_TRANSACT _ _)
  split
  · exact .silent ((h3.trans (silent_UI_PRINT _ _ _)).trans (hexit _))
  split
  · have h9 : Silent c c9 := h8.trans (silent_UI_PRINT _ _ _)
    exact .silent ((h9.trans (silent_UI_HEX2 _ _ _)).trans (hexit _))
  · -- nothing stored since the name was asked for is its length
    have hname : Named c8 := by
      have hprint : ∀ (d : Cpu) (off : ℕ) (s : List ℕ), off + s.length < 0x7E00 →
          (UI_PRINT d off s).cell NAME_LEN = d.cell NAME_LEN := fun d off s hs =>
        (paint_UI_PRINT d off s hs).cell_eq (by simp [PaintArea])
      have hopen : c8.cell NAME_LEN = c7.cell NAME_LEN := by
        unfold c8 NET_OPEN
        rw [(frame_MB_TRANSACT _ _).cell_eq (by simp [MailboxArea])]
        simp
      have hspec : c7.cell NAME_LEN = c6.cell NAME_LEN := by
        simp only [c7, Cpu.sto_cell, Cpu.blit_cell]
        simp
      refine (named_SES_GETNAME c3 w.first w.second).congr ?_
      have hshown := length_ramString_le 9 c5 NAME_BUF
      rw [hopen, hspec, hprint c5 46 _ (by omega), hprint c4 40 _ (by decide)]
    exact (SendsBuilt.silent h8).trans
      ((sendsBuilt_sendHello hname).trans (.silent (silent_UI_PRINT _ _ _)))

/-! ### From power-up on -/

/-- A console from power-up on, over any turns. -/
theorem sendsBuilt_session (c : Cpu) (w : Login) (ts : List PlayerTurn) :
    SendsBuilt c (ts.foldl Player.step (NET_START c w)).cpu := by
  have hturns : ∀ (ts : List PlayerTurn) (k : Player), SendsBuilt k.cpu (ts.foldl Player.step k).cpu := by
    intro ts
    induction ts with
    | nil => exact fun k => .silent (.refl k.cpu)
    | cons t ts ih => exact fun k => (sendsBuilt_player k t).trans (ih _)
  have hclear : Silent c (((c.fill NET_RAM NET_RAM_SIZE 0).sto DELAY_EN 0).sto NET_COUNT 2) :=
    ⟨rfl, rfl⟩
  exact ((SendsBuilt.silent hclear).trans (sendsBuilt_SES_MAIN _ w)).trans (hturns ts _)

/-- The first bytes that a console whose writes are acknowledged has sent since power-up. -/
def Session (xs : List ℕ) : Prop :=
  ∃ (c : Cpu) (w : Login) (ts : List PlayerTurn), AllAcked c ∧
    c.out ++ xs <+: (ts.foldl Player.step (NET_START c w)).cpu.out

/-- They are the beginning of frames that it builds. -/
theorem Session.fromConsole {xs : List ℕ} (h : Session xs) : FromConsole xs := by
  obtain ⟨c, w, ts, hc, ys, hys⟩ := h
  obtain ⟨fs, hfs, hs⟩ := sendsBuilt_session c w ts
  rw [hs.out hc, List.append_assoc] at hys
  exact ⟨fs, ys, hfs, List.append_cancel_left hys⟩

end BoxingNetplay.Interface
