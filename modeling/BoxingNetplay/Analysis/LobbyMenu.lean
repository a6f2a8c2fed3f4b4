import BoxingNetplay.Analysis.MatchStart
import BoxingNetplay.Interface.Menu

/-!
# The lobby's menu and what it shows

The cursor moves, lists come and go, and the waiting room hides the list while both go on behind
it.  Whenever the list owns the display, though, its rows hold what drawing the cursor and the entries that
are in memory would put there, so that a JOIN names the player in front of whom the cursor stands.
-/

set_option autoImplicit false

namespace BoxingNetplay.Analysis.LobbyMenu

open BoxingNetplay.Library
open BoxingNetplay.Model
open BoxingNetplay.Interface
open BoxingNetplay.Analysis

/-! ### What was heard -/

/-- The machines on which the last LOBBY was taken, and on which the last ROOM of two or more was taken
if none of fewer has followed it; and whether, since the list was last drawn, a STATE came in an open
resync, which stores an image on the screen. -/
structure Shown where
  list : Option Cpu
  room : Option Cpu
  torn : Bool

/-- The list is drawn, unless the waiting room owns the display. -/
def Shown.redraw (g : Shown) (c : Cpu) : Shown :=
  if 2 ≤ c.cell ROOM_CNT then g else { g with torn := false }

/-- The frame in the buffer is handled.
SOURCE: session.asm:637-680, 726-769, resync.asm:267-368 -/
def Shown.hear (g : Shown) (d : Cpu) : Shown :=
  if d.cell (FRMBUF + 1) = FT_LOBBY then
    if lobbyTaken d then { g.redraw (lobbyStored d) with list := some d } else g
  else if d.cell (FRMBUF + 1) = FT_ROOM then
    if roomTaken d then
      if d.cell (FRMBUF + 2) < 2 then { g with room := none, torn := false }
      else { g with room := some d }
    else g
  else if d.cell (FRMBUF + 1) = FT_STATE ∧ d.cell RESYNC_HOLD ≠ 0 then { g with torn := true }
  else g

/-- The cursor one up. -/
def movedUp (c : Cpu) : Cpu :=
  if c.cell MENU_SEL = 0 then c else c.sto MENU_SEL (c.cell MENU_SEL - 1)

/-- The cursor one down. -/
def movedDown (c : Cpu) : Cpu :=
  if c.cell LOBBY_CNT ≤ c.cell MENU_SEL + 1 then c else c.sto MENU_SEL (c.cell MENU_SEL + 1)

/-- The selected player is in a game: a notice, and the list again. -/
def Shown.enter (g : Shown) (c : Cpu) : Shown :=
  if 2 ≤ c.cell ROOM_CNT then g
  else if c.cell LOBBY_CNT = 0 then g
  else if (c.cell (selected c + 8)).testBit 7 then
    { g with torn := false }
  else g

/-- A key goes down.
SOURCE: session.asm:135-216 -/
def Shown.key (g : Shown) (c : Cpu) (key : ℕ) : Shown :=
  if key < DISC_MAX then
    if key.testBit 2 then g.redraw (movedUp c)
    else if key.testBit 0 then g.redraw (movedDown c) else g
  else if key = KEY_UP then g.redraw (movedUp c)
  else if key = KEY_DOWN then g.redraw (movedDown c)
  else if key = KEY_ENTER then g.enter c
  else g

/-- The menu reads the controller.
SOURCE: session.asm:127-134 -/
def Shown.press (g : Shown) (c : Cpu) (pad : ℕ) : Shown :=
  let key := Nat.xor (pad % 256) 0xFF
  if key = c.cell MENU_PREV then g
  else if key = 0 then g
  else g.key (c.sto MENU_PREV key) key

/-- A console in the lobby loop, which it entered under a name: the pump around its dispatches, frames
that begin no match, and its own part of a round, in any order. -/
inductive MenuRun : List ℕ → Cpu → Shown → Prop where
  | start (c : Cpu) (w : Login) (h : (NET_START c w).place = .lobby) :
    MenuRun (ownName (NET_START c w).cpu) (NET_START c w).cpu ⟨none, none, false⟩
  | moves {name c c' g} (run : MenuRun name c g) (h : Moves c c') : MenuRun name c' g
  | frame {name d g} (run : MenuRun name d g) (h : ¬ startsMatch d) :
    MenuRun name (SES_ONFRAME d) (g.hear d)
  | turn {name c g} (run : MenuRun name c g) (pad : ℕ) :
    MenuRun name (sesPace (menu c pad)) (g.press c pad)

/-- What every pump and every round of a console in the lobby belongs to. -/
theorem MenuRun.handles {name : List ℕ} {c c' : Cpu} {g : Shown} {ds : List Cpu}
    (run : MenuRun name c g) (hs : Handles SES_ONFRAME c ds c') (hds : ∀ d ∈ ds, ¬ startsMatch d) :
    MenuRun name c' (ds.foldl Shown.hear g) := by
  induction hs generalizing g with
  | done hm => exact run.moves hm
  | hand hm _ ih =>
    apply ih
    · exact (run.moves hm).frame (hds _ List.mem_cons_self)
    · exact fun d hd => hds d (List.mem_cons_of_mem _ hd)

/-! ### The invariant -/

/-- The cached list is that of the LOBBY, or there was none. -/
def FromLobby (list : Option Cpu) (c : Cpu) : Prop :=
  match list with
  | none => c.cell LOBBY_CNT = 0
  | some d => c.cell LOBBY_CNT = lobbyCount d ∧
    ∀ i ≤ 9 * lobbyCount d, c.cell (LOBBY_CACHE + i) = d.cell (FRMBUF + 2 + i)

/-- The menu's cells go with what was heard. -/
structure Kept (name : List ℕ) (c : Cpu) (g : Shown) : Prop where
  count : c.cell LOBBY_CNT ≤ 8
  sel : c.cell MENU_SEL < max 1 (c.cell LOBBY_CNT)
  list : FromLobby g.list c
  host : c.cell ROOM_HOST = 1 ↔ ∃ d, g.room = some d ∧ hostName d = name
  own : ownName c = name

/-- And while a list owns the display it is on the screen as it is in memory. -/
structure Synced (name : List ℕ) (c : Cpu) (g : Shown) : Prop extends Kept name c g where
  drawn : c.cell ROOM_CNT < 2 → c.cell LOBBY_CNT ≠ 0 → g.torn = false → Drawn c

section Steps

variable {name : List ℕ} {c c' : Cpu} {g : Shown}

theorem sel_menu : MENU_SEL ∈ MenuCells := Or.inl (Or.inl rfl)

theorem count_menu : LOBBY_CNT ∈ MenuCells := Or.inl (Or.inr (Or.inl rfl))

theorem room_menu : ROOM_CNT ∈ MenuCells := Or.inl (Or.inr (Or.inr (Or.inl rfl)))

theorem host_menu : ROOM_HOST ∈ MenuCells := Or.inl (Or.inr (Or.inr (Or.inr (Or.inl rfl))))

theorem cache_menu {i : ℕ} (h : i < 128) : LOBBY_CACHE + i ∈ MenuCells :=
  Or.inl (Or.inr (Or.inr (Or.inr (Or.inr ⟨by omega, by omega⟩))))

theorem name_menu {i : ℕ} (h : i < 9) : NAME_BUF + i ∈ MenuCells :=
  Or.inr ⟨by omega, by omega⟩

theorem ownName_congr (h : ∀ a ∈ MenuCells, c'.cell a = c.cell a) : ownName c' = ownName c := by
  apply ramString_congr
  intro i hi
  exact h _ (name_menu hi)

theorem FromLobby.congr {list : Option Cpu} (hl : FromLobby list c) (hc : c.cell LOBBY_CNT ≤ 8)
    (h1 : c'.cell LOBBY_CNT = c.cell LOBBY_CNT)
    (h2 : ∀ i < 128, c'.cell (LOBBY_CACHE + i) = c.cell (LOBBY_CACHE + i)) :
    FromLobby list c' := by
  cases list with
  | none => exact h1.trans hl
  | some d =>
    obtain ⟨hcount, hcells⟩ := hl
    refine ⟨h1.trans hcount, fun i hi => ?_⟩
    have hd := lobbyCount_le d
    rw [h2 i (by omega), hcells i hi]

theorem Kept.congr (h : Kept name c g) (heq : ∀ a ∈ MenuCells, c'.cell a = c.cell a) :
    Kept name c' g where
  count := (heq _ count_menu).le.trans h.count
  sel := by
    rw [heq _ sel_menu, heq _ count_menu]
    exact h.sel
  list := h.list.congr h.count (heq _ count_menu) fun i hi => heq _ (cache_menu hi)
  host := by
    rw [heq _ host_menu]
    exact h.host
  own := (ownName_congr heq).trans h.own

/-- What changes neither the menu nor the rows of the list keeps both in step. -/
theorem Synced.congr (h : Synced name c g) (heq : Alike ShownCells c c') : Synced name c' g where
  toKept := h.toKept.congr fun a ha => heq a (menu_shown ha)
  drawn hroom hcount htorn := by
    rw [heq _ (menu_shown room_menu)] at hroom
    rw [heq _ (menu_shown count_menu)] at hcount
    exact (h.drawn hroom hcount htorn).congr h.count heq

/-- After the list is drawn it is on the screen. -/
theorem Kept.render (h : Kept name c g) : Synced name (SES_RENDER c) { g with torn := false } := by
  have heq : ∀ a ∈ MenuCells, (SES_RENDER c).cell a = c.cell a := fun a ha =>
    SES_RENDER_menu c h.count ha
  have hk := h.congr heq
  exact ⟨⟨hk.count, hk.sel, hk.list, hk.host, hk.own⟩, fun _ _ _ => drawn_SES_RENDER h.count⟩

/-- It is drawn unless the waiting room owns the display. -/
theorem Kept.redraw (h : Kept name c g) : Synced name (menuRedraw c) (g.redraw c) := by
  unfold menuRedraw Shown.redraw
  split
  · rename_i hroom
    exact ⟨h, fun hr => absurd hroom (Nat.not_le.mpr hr)⟩
  · exact h.render

/-! ### Frames -/

/-- A LOBBY that is taken. -/
theorem Synced.lobby {d : Cpu} (h : Synced name d g) (ht : lobbyTaken d) :
    Synced name (of_lobby d) { g.redraw (lobbyStored d) with list := some d } := by
  have hst := listed d
  have hle := lobbyCount_le d
  have hbefore : ∀ a ∈ MenuCells, a ≠ LOBBY_CNT → a ≠ MENU_SEL → a < LOBBY_CACHE →
      (lobbyStored d).cell a = d.cell a := hst.rest
  have hk : Kept name (lobbyStored d) { g with list := some d } :=
    { count := hst.count.le.trans hle
      sel := by
        rw [hst.sel, hst.count]
        split <;> omega
      list := ⟨hst.count, hst.cache⟩
      host := by
        rw [hbefore _ host_menu (by decide) (by decide) (by decide)]
        exact h.host
      own := by
        rw [← h.own]
        apply ramString_congr
        intro i hi
        exact hbefore _ (name_menu hi) (by simp only [NAME_BUF, LOBBY_CNT]; omega)
          (by simp only [NAME_BUF, MENU_SEL]; omega) (by simp only [NAME_BUF, LOBBY_CACHE]; omega) }
  have hr := hk.redraw
  rw [of_lobby_eq, if_pos ht]
  have hswap : Shown.redraw { g with list := some d } (lobbyStored d) =
      { g.redraw (lobbyStored d) with list := some d } := by
    unfold Shown.redraw
    split
    · rfl
    · rfl
  rwa [hswap] at hr

/-- A machine on which only the two cells of the room are new goes with what was heard of the room, when the
mark of the host does. -/
theorem Kept.room (h : Kept name c g) {room : Option Cpu}
    (heq : ∀ a ∈ MenuCells, a ≠ ROOM_CNT → a ≠ ROOM_HOST → c'.cell a = c.cell a)
    (hhost : c'.cell ROOM_HOST = 1 ↔ ∃ d, room = some d ∧ hostName d = name) :
    Kept name c' { g with room := room } where
  count := by
    rw [heq _ count_menu (by decide) (by decide)]
    exact h.count
  sel := by
    rw [heq _ count_menu (by decide) (by decide), heq _ sel_menu (by decide) (by decide)]
    exact h.sel
  list := h.list.congr h.count (heq _ count_menu (by decide) (by decide)) fun i hi =>
    heq _ (cache_menu hi) (by simp only [LOBBY_CACHE, ROOM_CNT]; omega)
      (by simp only [LOBBY_CACHE, ROOM_HOST]; omega)
  host := hhost
  own := by
    rw [← h.own]
    apply ramString_congr
    intro i hi
    exact heq _ (name_menu hi) (by simp only [NAME_BUF, ROOM_CNT]; omega)
      (by simp only [NAME_BUF, ROOM_HOST]; omega)

/-- A ROOM that ends the waiting. -/
theorem Synced.roomLeft {d : Cpu} (h : Synced name d g) (ht : roomTaken d)
    (h2 : d.cell (FRMBUF + 2) < 2) :
    Synced name (of_room d) { g with room := none, torn := false } := by
  have hk : Kept name (Interface.roomLeft d) { g with room := none } := by
    refine h.toKept.room (fun a ha h3 h4 => ?_) ?_
    · rw [roomLeft_menu d ha, if_neg (by tauto)]
    · rw [roomLeft_menu d host_menu, if_pos (Or.inr rfl)]
      simp
  rw [of_room_left ht h2]
  exact hk.render

/-- A ROOM that puts up the waiting room. -/
theorem Synced.roomFormed {d : Cpu} (h : Synced name d g) (ht : roomTaken d)
    (h2 : 2 ≤ d.cell (FRMBUF + 2)) : Synced name (of_room d) { g with room := some d } := by
  have hcnt : (of_room d).cell ROOM_CNT = d.cell (FRMBUF + 2) := by
    rw [of_room_formed ht h2 room_menu, if_pos rfl]
  refine ⟨h.toKept.room (fun a ha h3 h4 => ?_) ?_, fun hr => ?_⟩
  · rw [of_room_formed ht h2 ha, if_neg h3, if_neg h4]
  · rw [of_room_formed ht h2 host_menu, if_neg (by decide), if_pos rfl, h.own]
    by_cases hs : hostName d = name <;> simp [hs]
  · rw [hcnt] at hr
    omega

/-- Any frame that begins no match. -/
theorem Synced.hear {m : Heard} {d : Cpu} (h : Synced name d g) (hin : InLobby m d)
    (hs : ¬ startsMatch d) : Synced name (SES_ONFRAME d) (g.hear d) := by
  unfold Shown.hear
  by_cases h1 : d.cell (FRMBUF + 1) = FT_LOBBY
  · rw [if_pos h1, SES_ONFRAME_lobby h1]
    split
    · rename_i ht
      exact h.lobby ht
    · rename_i ht
      rw [of_lobby_eq, if_neg ht]
      exact h
  rw [if_neg h1]
  by_cases h2 : d.cell (FRMBUF + 1) = FT_ROOM
  · rw [if_pos h2, SES_ONFRAME_room h2]
    split
    · rename_i ht
      split
      · rename_i hleft
        exact h.roomLeft ht hleft
      · rename_i hformed
        exact h.roomFormed ht (Nat.not_lt.mp hformed)
    · rename_i ht
      rw [of_room_refused ht]
      exact h
  rw [if_neg h2]
  by_cases h3 : d.cell (FRMBUF + 1) = FT_STATE ∧ d.cell RESYNC_HOLD ≠ 0
  · rw [if_pos h3]
    have hk := h.toKept.congr fun a ha => SES_ONFRAME_menu hin.count h1 h2 hs ha
    exact ⟨⟨hk.count, hk.sel, hk.list, hk.host, hk.own⟩, fun _ _ htorn => by cases htorn⟩
  · rw [if_neg h3]
    exact h.congr fun a ha =>
      SES_ONFRAME_shown hin.count h1 h2 hs ha fun hstate hhold => absurd ⟨hstate, hhold⟩ h3

/-! ### Keys -/

/-- The cursor is put elsewhere within the list. -/
theorem Kept.select (h : Kept name c g) {v : ℕ} (hv : v < max 1 (c.cell LOBBY_CNT)) :
    Kept name (c.sto MENU_SEL v) g := by
  have hcell : ∀ a, a ≠ MENU_SEL → (c.sto MENU_SEL v).cell a = c.cell a := by
    intro a ha
    rw [Cpu.sto_cell, if_neg ha]
  refine ⟨?_, ?_, ?_, ?_, ?_⟩
  · rw [hcell _ (by decide)]
    exact h.count
  · have hcount := h.count
    rw [hcell LOBBY_CNT (by decide), Cpu.sto_cell, if_pos rfl, cellWidth_cart (by decide) (by decide)]
    omega
  · exact h.list.congr h.count (hcell _ (by decide)) fun i hi =>
      hcell _ (by simp only [LOBBY_CACHE, MENU_SEL]; omega)
  · rw [hcell _ (by decide)]
    exact h.host
  · rw [← h.own]
    apply ramString_congr
    intro i hi
    exact hcell _ (by simp only [NAME_BUF, MENU_SEL]; omega)

/-- A cursor that moves up stays within the list. -/
theorem Kept.up (h : Kept name c g) : Kept name (movedUp c) g := by
  have hsel := h.sel
  unfold movedUp
  split
  · exact h
  · exact h.select (by omega)

theorem Kept.down (h : Kept name c g) : Kept name (movedDown c) g := by
  unfold movedDown
  split
  · exact h
  · rename_i hlt
    exact h.select (by omega)

/-- ENTER changes neither the menu nor its list, and draws it again at most. -/
theorem Synced.enter (h : Synced name c g) : Synced name (menuEnter c) (g.enter c) := by
  unfold menuEnter Shown.enter
  split
  · split
    · exact h
    · exact h.congr (shown_sendFrame c [1, FT_GO] (by decide))
  split
  · exact h
  split
  · apply Kept.render
    apply h.toKept.congr
    intro a ha
    exact ((frame_UI_PRINT c _ _ (by decide)).mono screen_draw).cell_eq (menu_not_draw ha)
  · have hsend : Alike ShownCells c (sendFrame c (9 :: FT_JOIN ::
        (List.range 8).map fun i => c.cell (selected c + i))) := shown_sendFrame c _ (by simp)
    exact h.congr (hsend.trans (shown_prompt _ STR_JOINING (by decide)))

/-- Any key leaves the list on the screen as it is in memory. -/
theorem Synced.key (h : Synced name c g) (key : ℕ) :
    Synced name (menuKey c key) (g.key c key) := by
  have hup : Synced name (menuUp c) (g.redraw (movedUp c)) := h.toKept.up.redraw
  have hdown : Synced name (menuDown c) (g.redraw (movedDown c)) := h.toKept.down.redraw
  unfold menuKey Shown.key
  split
  · split
    · exact hup
    split
    · exact hdown
    · exact h
  split
  · exact hup
  split
  · exact hdown
  split
  · exact h.enter
  · exact h

/-- What the controller reads is noted where neither the menu nor its list is. -/
theorem shown_prev (c : Cpu) (v : ℕ) : Alike ShownCells c (c.sto MENU_PREV v) := by
  intro a ha
  have hc := shown_cases ha
  rw [Cpu.sto_cell, if_neg (by simp only [MENU_PREV]; omega)]

/-- Noting it keeps the menu and its list in step. -/
theorem Synced.prev (h : Synced name c g) (v : ℕ) : Synced name (c.sto MENU_PREV v) g :=
  h.congr (shown_prev c v)

theorem Synced.press (h : Synced name c g) (pad : ℕ) :
    Synced name (menu c pad) (g.press c pad) := by
  unfold menu Shown.press
  simp only
  split
  · exact h
  split
  · exact h.prev _
  · exact (h.prev _).key _

/-! ### What is sent -/

/-- The bytes of a JOIN for an entry of the list. -/
def joinOf (d : Cpu) (i : ℕ) : List ℕ :=
  9 :: FT_JOIN :: (List.range 8).map fun k => d.cell (LOBBY_CACHE + 1 + 9 * i + k)

/-- The list owns the display, entry `i` is the selected one and can be joined, and it is the one in front
of which the cursor stands on the screen, alone, among the entries as they are in memory. -/
structure Pointed (g : Shown) (c : Cpu) (i : ℕ) : Prop where
  list : c.cell ROOM_CNT < 2
  sel : i = c.cell MENU_SEL
  inside : i < c.cell LOBBY_CNT ∧ c.cell LOBBY_CNT ≤ 8
  joinable : (c.cell (LOBBY_CACHE + 1 + 9 * i + 8)).testBit 7 = false
  drawn : g.torn = false → Drawn c
  cursor : g.torn = false → ∀ j < 8, c.cell (cursorCard j) = CURSOR ↔ j = i

/-- What a key sends: nothing, a GO of the host of a room, or a JOIN for the entry at the cursor. -/
inductive Sent (g : Shown) (c : Cpu) : List ℕ → Prop where
  | nothing : Sent g c c.out
  | go (hroom : 2 ≤ c.cell ROOM_CNT) (hhost : c.cell ROOM_HOST ≠ 0) : Sent g c (c.out ++ [1, FT_GO])
  | join {i} (h : Pointed g c i) : Sent g c (c.out ++ joinOf c i)

/-- The selected entry is the one at the cursor on the screen. -/
theorem Synced.pointed (h : Synced name c g) (hroom : c.cell ROOM_CNT < 2)
    (hcount : c.cell LOBBY_CNT ≠ 0) (hbusy : (c.cell (selected c + 8)).testBit 7 = false) :
    Pointed g c (c.cell MENU_SEL) where
  list := hroom
  sel := rfl
  inside := by
    have hsel := h.sel
    have hle := h.count
    omega
  joinable := by
    have hat : LOBBY_CACHE + 1 + 9 * c.cell MENU_SEL + 8 = selected c + 8 := by
      unfold selected
      omega
    rw [hat]
    exact hbusy
  drawn := h.drawn hroom hcount
  cursor htorn j hj := by
    have hsel := h.sel
    rw [(h.drawn hroom hcount htorn).cursor h.count hj]
    omega

/-- Its name is what the JOIN carries. -/
theorem joinOf_selected (c : Cpu) : joinOf c (c.cell MENU_SEL) =
    9 :: FT_JOIN :: (List.range 8).map fun k => c.cell (selected c + k) := by
  have hat : LOBBY_CACHE + 1 + 9 * c.cell MENU_SEL = selected c := by
    unfold selected
    omega
  unfold joinOf
  rw [hat]

/-- ENTER sends a GO of the host, or a JOIN for the selected entry. -/
theorem Synced.sent_enter (h : Synced name c g) : Sent g c (menuEnter c).out := by
  unfold menuEnter
  split
  · rename_i hroom
    split
    · exact Sent.nothing
    · rename_i hhost
      have hgo := out_sendFrame c [1, FT_GO] (by decide) (by decide)
      change Sent g c (sendFrame c [1, FT_GO]).out
      rcases hgo with hgo | hgo <;> rw [hgo]
      · exact Sent.nothing
      · exact Sent.go hroom hhost
  rename_i hroom
  split
  · exact Sent.nothing
  rename_i hcount
  split
  · rw [(silent_SES_RENDER _).out, (silent_UI_PRINT c _ _).out]
    exact Sent.nothing
  · rename_i hbusy
    have hpoint := h.pointed (Nat.not_le.mp hroom) hcount (Bool.eq_false_iff.mpr hbusy)
    have hout : (sendJoin c).out = (sendFrame c (joinOf c (c.cell MENU_SEL))).out := by
      rw [joinOf_selected]
      exact (silent_UI_PRINT _ _ _).out
    have hbytes : ∀ b ∈ joinOf c (c.cell MENU_SEL), b < 256 := by
      intro b hb
      have hin := hpoint.inside
      simp only [joinOf, List.mem_cons, List.mem_map, List.mem_range] at hb
      rcases hb with rfl | rfl | ⟨k, hk, rfl⟩
      · decide
      · decide
      · exact c.cell_lt_cart (by simp only [LOBBY_CACHE]; omega) (by simp only [LOBBY_CACHE]; omega)
    rw [hout]
    rcases out_sendFrame c (joinOf c (c.cell MENU_SEL)) (by simp [joinOf]) hbytes with ho | ho <;> rw [ho]
    · exact Sent.nothing
    · exact Sent.join hpoint

/-- Of the keys only ENTER sends. -/
theorem Synced.sent_key (h : Synced name c g) (key : ℕ) : Sent g c (menuKey c key).out := by
  have hsame : ∀ {c' : Cpu}, Silent c c' → Sent g c c'.out := by
    intro c' hs
    rw [hs.out]
    exact Sent.nothing
  unfold menuKey
  split
  · split
    · exact hsame (silent_menuUp c)
    split
    · exact hsame (silent_menuDown c)
    · exact Sent.nothing
  split
  · exact hsame (silent_menuUp c)
  split
  · exact hsame (silent_menuDown c)
  split
  · exact h.sent_enter
  · exact Sent.nothing

/-- What is sent is said of the machine before the key was noted. -/
theorem Sent.congr {out : List ℕ} (h : Sent g c' out) (heq : Alike ShownCells c c')
    (hout : c'.out = c.out) : Sent g c out := by
  have hcell : ∀ a ∈ MenuCells, c'.cell a = c.cell a := fun a ha => heq a (menu_shown ha)
  cases h with
  | nothing =>
    rw [hout]
    exact Sent.nothing
  | go hroom hhost =>
    rw [hcell _ room_menu] at hroom
    rw [hcell _ host_menu] at hhost
    rw [hout]
    exact Sent.go hroom hhost
  | @join i h =>
    obtain ⟨hlist, hsel, hin, hbusy, hdrawn, hcursor⟩ := h
    have hentry : ∀ k ≤ 8, c'.cell (LOBBY_CACHE + 1 + 9 * i + k) = c.cell (LOBBY_CACHE + 1 + 9 * i + k) := by
      intro k hk
      rw [Nat.add_assoc LOBBY_CACHE, Nat.add_assoc LOBBY_CACHE]
      exact hcell _ (cache_menu (by omega))
    rw [hcell _ room_menu] at hlist
    rw [hentry 8 le_rfl] at hbusy
    have hjoin : joinOf c' i = joinOf c i := by
      unfold joinOf
      congr 2
      apply List.map_congr_left
      intro k hk
      rw [List.mem_range] at hk
      exact hentry k (by omega)
    have hcards : ∀ j < 8, c'.cell (cursorCard j) = c.cell (cursorCard j) := by
      intro j hj
      apply heq _ (cards_shown _)
      constructor <;> simp only [cursorCard, BACKTAB, ROW_LIST] <;> omega
    have hcount := hcell _ count_menu
    rw [hjoin, hout]
    refine Sent.join ⟨hlist, hsel.trans (hcell _ sel_menu), by omega, hbusy, fun htorn => ?_,
      fun htorn j hj => ?_⟩
    · exact (hdrawn htorn).congr (by omega) heq.symm
    · rw [← hcards j hj]
      exact hcursor htorn j hj

/-- What the menu sends when it reads the controller is one of these. -/
theorem Synced.sent (h : Synced name c g) (pad : ℕ) : Sent g c (menu c pad).out := by
  unfold menu
  simp only
  split
  · exact Sent.nothing
  split
  · exact Sent.nothing
  · exact ((h.prev _).sent_key _).congr (shown_prev c _) rfl

end Steps

/-! ### Runs -/

section Runs

variable {name : List ℕ} {c : Cpu} {g : Shown}

/-- A console that goes round the lobby loop is in the lobby. -/
theorem MenuRun.inLobby (run : MenuRun name c g) : ∃ m, InLobby m c := by
  induction run with
  | start c w _ => exact ⟨_, inLobby_start c w⟩
  | moves _ hm ih =>
    obtain ⟨m, h⟩ := ih
    exact ⟨m, h.moves hm⟩
  | frame _ hs ih =>
    obtain ⟨m, h⟩ := ih
    exact ⟨_, h.handle hs⟩
  | turn _ pad ih =>
    obtain ⟨m, h⟩ := ih
    exact ⟨m, h.aside (aside_turn _ pad h.entries) fun _ => lobby_not_aside⟩

/-- Logging in leaves the cleared cells of the menu alone. -/
theorem cleared_start (c : Cpu) (w : Login) {a : ℕ}
    (ha : a = LOBBY_CNT ∨ a = MENU_SEL ∨ a = ROOM_HOST ∨ a = ROOM_CNT) :
    (NET_START c w).cpu.cell a = 0 := by
  have hf := login_SES_MAIN (((c.fill NET_RAM NET_RAM_SIZE 0).sto DELAY_EN 0).sto NET_COUNT 2) w
  have hna : a ∉ LoginArea := by
    rcases ha with rfl | rfl | rfl | rfl <;> simp [LoginArea, MailboxArea]
  apply (hf.cell_eq hna).trans
  rcases ha with rfl | rfl | rfl | rfl <;> simp [cellWidth]

/-- When it enters there is no list and no room. -/
theorem synced_start (c : Cpu) (w : Login) :
    Synced (ownName (NET_START c w).cpu) (NET_START c w).cpu ⟨none, none, false⟩ := by
  have hcount := cleared_start c w (a := LOBBY_CNT) (Or.inl rfl)
  have hsel := cleared_start c w (a := MENU_SEL) (Or.inr (Or.inl rfl))
  have hhost := cleared_start c w (a := ROOM_HOST) (Or.inr (Or.inr (Or.inl rfl)))
  refine ⟨⟨?_, ?_, hcount, ?_, rfl⟩, fun _ hlist => absurd hcount hlist⟩
  · omega
  · omega
  · rw [hhost]
    simp

/-- In every run the menu goes with what was heard, and the screen with the menu. -/
theorem MenuRun.synced (run : MenuRun name c g) : Synced name c g := by
  induction run with
  | start c w _ => exact synced_start c w
  | moves _ hm ih =>
    apply ih.congr
    intro a ha
    exact hm.frame.cell_eq (shown_not_pump ha)
  | frame run hs ih =>
    obtain ⟨m, hin⟩ := run.inLobby
    exact ih.hear hin hs
  | turn _ pad ih => exact (ih.press pad).congr (shown_sesPace _)

/-- A round of the lobby loop belongs to the run. -/
theorem MenuRun.round {k : Player} (run : MenuRun name k.cpu g) (hp : k.place = .lobby)
    (t : PlayerTurn) (hds : ∀ d ∈ pumpHanded SES_ONFRAME k.cpu t.poll, ¬ startsMatch d) :
    (k.step t).place = .lobby ∧ ∃ g', MenuRun name (k.step t).cpu g' := by
  have hpumped := run.handles (handles_pump k.cpu t.poll) hds
  obtain ⟨m, hin⟩ := hpumped.inLobby
  have hidle : ¬ (SES_PUMP SES_ONFRAME k.cpu t.poll).cpu.cell NET_ACTIVE ≠ 0 :=
    not_not.mpr hin.active
  have hstep : k.step t =
      ⟨sesPace (menu (SES_PUMP SES_ONFRAME k.cpu t.poll).cpu t.pad), .lobby⟩ := by
    unfold Player.step
    rw [hp]
    simp only [lobbyRound]
    rw [if_neg hidle]
  rw [hstep]
  exact ⟨rfl, _, hpumped.turn t.pad⟩

/-- Whatever lists, rooms and other frames that begin no match come in and whatever keys go down, in any
order: there are at most eight entries, and the cursor is on one of them; the
entries are those of the last LOBBY that was taken, which a frame that was not leaves as they
are; the player is the host exactly when the last ROOM of two or more, with none of fewer after it,
has the player's name in its first slot; while a list owns the display, which no image of an open resync has
overwritten since, its rows on the screen hold what drawing the list in memory would put there; and a key sends
nothing, a GO, or a JOIN with the name of the entry in front of which the cursor then stands on the screen,
who can be joined.
SOURCE: session.asm:122-238, 637-680, 726-769, 942-1027 -/
theorem menu_shows_what_it_sends (run : MenuRun name c g) :
    c.cell LOBBY_CNT ≤ 8 ∧ c.cell MENU_SEL < max 1 (c.cell LOBBY_CNT) ∧ FromLobby g.list c ∧
      (¬ startsMatch c → ¬ (c.cell (FRMBUF + 1) = FT_LOBBY ∧ lobbyTaken c) →
        ∀ a, a = LOBBY_CNT ∨ (LOBBY_CACHE ≤ a ∧ a < LOBBY_CACHE + 73) →
          (SES_ONFRAME c).cell a = c.cell a) ∧
      (c.cell ROOM_HOST = 1 ↔ ∃ d, g.room = some d ∧ hostName d = name) ∧
      (c.cell ROOM_CNT < 2 → c.cell LOBBY_CNT ≠ 0 → g.torn = false → Drawn c) ∧
      ∀ pad, Sent g c (menu c pad).out := by
  have h := run.synced
  refine ⟨h.count, h.sel, h.list, fun hs ht a ha => ?_, h.host, h.drawn, h.sent⟩
  obtain ⟨m, hin⟩ := run.inLobby
  have hmem : a ∈ MenuCells := data_menu (Or.inr ha)
  have hne : a ≠ ROOM_CNT ∧ a ≠ ROOM_HOST := by
    simp only [LOBBY_CNT, LOBBY_CACHE, ROOM_CNT, ROOM_HOST] at ha ⊢
    omega
  by_cases h1 : c.cell (FRMBUF + 1) = FT_LOBBY
  · rw [SES_ONFRAME_lobby h1, of_lobby_eq, if_neg fun hl => ht ⟨h1, hl⟩]
  by_cases h2 : c.cell (FRMBUF + 1) = FT_ROOM
  · rw [SES_ONFRAME_room h2]
    by_cases hroom : roomTaken c
    · by_cases hleft : c.cell (FRMBUF + 2) < 2
      · have hcell : (roomLeft c).cell a = c.cell a := by
          rw [roomLeft_menu c hmem, if_neg (by tauto)]
        have hcount : (roomLeft c).cell LOBBY_CNT ≤ 8 := by
          rw [roomLeft_menu c count_menu, if_neg (by decide)]
          exact h.count
        rw [of_room_left hroom hleft, SES_RENDER_menu _ hcount hmem, hcell]
      · rw [of_room_formed hroom (Nat.not_lt.mp hleft) hmem, if_neg hne.1, if_neg hne.2]
    · rw [of_room_refused hroom]
  · exact SES_ONFRAME_menu hin.count h1 h2 hs hmem

/-- A LOBBY with one player, who is free. -/
def oneEntry : List ℕ := [11, FT_LOBBY, 1, 71, 85, 69, 83, 84, 48, 49, 0, 0]

/-- A LOBBY does not change how many the room has. -/
theorem room_of_lobby (d : Cpu) : (of_lobby d).cell ROOM_CNT = d.cell ROOM_CNT := by
  have hst := listed d
  have hstored : (lobbyStored d).cell ROOM_CNT = d.cell ROOM_CNT :=
    hst.rest _ room_menu (by decide) (by decide) (by decide)
  rw [of_lobby_eq]
  split
  · unfold menuRedraw
    split
    · exact hstored
    · rw [SES_RENDER_menu _ (hst.count.le.trans (lobbyCount_le d)) room_menu, hstored]
  · rfl

/-- A list that arrives is on the screen with its cursor in front of its one player, and what this player is
called is what a key sends. -/
theorem one_entry_is_shown :
    ∃ name c g, MenuRun name c g ∧ c.cell LOBBY_CNT = 1 ∧ c.cell MENU_SEL = 0 ∧ Drawn c ∧
      c.cell (cursorCard 0) = CURSOR ∧ ∀ pad, Sent g c (menu c pad).out := by
  have hfits : Fits oneEntry :=
    ⟨⟨rfl, rfl⟩, by decide, fun h => (nomatch h), fun h => (nomatch h)⟩
  have hdata : [oneEntry].flatten.length ≤ 64 ∧ ∀ b ∈ [oneEntry].flatten, b < 256 :=
    ⟨by decide, by decide⟩
  have hall : ∀ f ∈ [oneEntry], Fits f := by simpa using hfits
  have hhanded := handed_on hall (by decide) hdata
  have hpump := handles_pump (f := SES_ONFRAME) arrived.cpu (deliveryOf [oneEntry].flatten hdata).poll
  generalize pumpHanded SES_ONFRAME arrived.cpu (deliveryOf [oneEntry].flatten hdata).poll = ds
    at hhanded hpump
  generalize (SES_PUMP SES_ONFRAME arrived.cpu (deliveryOf [oneEntry].flatten hdata).poll).cpu = c
    at hpump
  obtain ⟨d, _, hd, hnil, rfl⟩ := List.forall₂_cons_right_iff.mp hhanded
  rw [List.forall₂_nil_right_iff] at hnil
  subst hnil
  have hlen : d.cell FRMBUF = 11 := hd.cell (i := 0) (by decide)
  have htype : d.cell (FRMBUF + 1) = FT_LOBBY := hd.cell (i := 1) (by decide)
  have hcount : lobbyCount d = 1 := by
    have hbyte : d.cell (FRMBUF + 2) = 1 := hd.cell (i := 2) (by decide)
    unfold lobbyCount
    rw [hbyte, if_pos (by decide)]
  have hstart : ¬ startsMatch d := by
    intro hs
    rw [hs.1] at htype
    cases htype
  have hin : MenuRun _ arrived.cpu ⟨none, none, false⟩ :=
    MenuRun.start default namelessLogin (place_of_login default rfl rfl)
  have hrun := hin.handles hpump (by simpa using hstart)
  have htaken : lobbyTaken d ∧ c.cell ROOM_CNT = 0 := by
    cases hpump with
    | hand hm hs =>
      cases hs with
      | done hm' =>
        obtain ⟨m, hlobby⟩ := (hin.moves hm).inLobby
        refine ⟨⟨hlobby.active, by omega, by omega⟩, ?_⟩
        have hpumped : ROOM_CNT ∉ PumpArea := shown_not_pump (menu_shown room_menu)
        rw [hm'.frame.cell_eq hpumped, SES_ONFRAME_lobby htype, room_of_lobby,
          hm.frame.cell_eq hpumped]
        exact cleared_start default namelessLogin (Or.inr (Or.inr (Or.inr rfl)))
  obtain ⟨-, hsel, hlist, -, -, hdrawn, hsent⟩ := menu_shows_what_it_sends hrun
  simp only [List.foldl_cons, List.foldl_nil, Shown.hear, if_pos htype, if_pos htaken.1] at hlist hdrawn
  have hone : c.cell LOBBY_CNT = 1 := hlist.1.trans hcount
  rw [hone] at hsel
  have hshown : Drawn c := by
    apply hdrawn (by omega) (by omega)
    unfold Shown.redraw
    split <;> rfl
  refine ⟨_, c, _, hrun, hone, by omega, hshown, ?_, hsent⟩
  rw [hshown.cursor (by omega) (by decide)]
  omega

end Runs

end BoxingNetplay.Analysis.LobbyMenu
