import BoxingNetplay.Model.Lockstep

/-!
# Before the match

`src/hook.asm` and `src/netcode/session.asm`: `NET_START` clears the netcode's memory and calls
`SES_MAIN`, which asks the FujiNet for the player's name, connects, says HELLO and goes round
the lobby loop until a START switches the match on.  The roster is then shown for 150
pumps, the cartridge boots, and from there on the console runs its passes.

What the peripheral answers, the controller and the code of the cartridge are arguments.
`AUTO_JOIN` is off, as in `src/main_net.asm`.
-/

set_option autoImplicit false

namespace BoxingNetplay.Model

open BoxingNetplay.Library

@[simp] abbrev NET_RAM : ℕ := 0x8080
@[simp] abbrev NET_RAM_SIZE : ℕ := 0x0180
@[simp] abbrev DELAY_EN : ℕ := 0x8105
@[simp] abbrev NAME_LEN : ℕ := 0x8159
@[simp] abbrev MENU_PREV : ℕ := 0x815B
@[simp] abbrev SES_TMR_LO : ℕ := 0x815D
@[simp] abbrev SES_SAVE102 : ℕ := 0x816F
@[simp] abbrev EXEC_RNG : ℕ := 0x035E
@[simp] abbrev FT_HELLO : ℕ := 0x01
@[simp] abbrev FT_LIST : ℕ := 0x02
@[simp] abbrev FT_JOIN : ℕ := 0x04
@[simp] abbrev FT_GO : ℕ := 0x0F

def STR_HELLO : List ℕ := romString "NAME: "
def STR_NOFN : List ℕ := romString "NO FUJINET - LOCAL GAME"
def STR_NOSRV : List ℕ := romString "NO SERVER ERR "
def STR_JOINING : List ℕ := romString "JOINING...          "
def STR_BUSY : List ℕ := romString "ALREADY IN A GAME   "
def STR_YOUARE : List ℕ := romString "YOU ARE BOXER"
def STR_PICKS : List ℕ := romString "FIGHT"
def STR_GUEST : List ℕ := romString "GUEST"

/-! ### The name -/

/-- What the peripheral answers to one attempt at the username appkey: to OPEN, to READ with the
bytes of the reply, and to CLOSE. -/
structure KeyTry where
  opened : MbReply
  read : MbReply
  rx : ℕ → ℕ
  closed : MbReply
  bytes : ∀ i, rx i < 256

/-- SOURCE: session.asm:435-445 -/
def SES_AK_CLOSE (c : Cpu) (reply : MbReply) : Cpu :=
  let c := (c.sto MB_DEV 0x70).sto MB_CMD 0xDB
  MB_TRANSACT (((c.sto MB_NPARAM 0).sto MB_TXLEN_LO 0).sto MB_TXLEN_HI 0) reply

/-- `A`-`Z` and `0`-`9`.
SOURCE: session.asm:378-385 -/
def nameCell (ch : ℕ) : Bool := 48 ≤ ch && (ch ≤ 57 || (65 ≤ ch && ch ≤ 90))

/-- Copy `n` characters of the reply from index `i` on to `r5`, up to one that no name has.
SOURCE: session.asm:376-389 -/
def copyName (c : Cpu) (rx : ℕ → ℕ) (i r5 : ℕ) : ℕ → Cpu × Bool
  | 0 => (c, true)
  | n + 1 => if nameCell (rx i) then copyName (c.sto r5 (rx i)) rx (i + 1) (r5 + 1) n else (c, false)

/-- How an attempt ends: with a name, with a name that is refused, or with nothing. -/
inductive Tried where
  | named
  | refused
  | failed

/-- One attempt.
SOURCE: session.asm:331-396 -/
def tryName (c : Cpu) (t : KeyTry) : Cpu × Tried :=
  let c := c.blit FN_TX [1, 0, 1, 0, 0, 0]
  let c := (c.sto MB_DEV 0x70).sto MB_CMD 0xDC
  let c := ((c.sto MB_NPARAM 0).sto MB_TXLEN_HI 0).sto MB_TXLEN_LO 6
  let c := MB_TRANSACT c t.opened
  if c.cell MB_OK = 0 then (SES_AK_CLOSE c t.closed, .failed)
  else
    let c := MB_TRANSACT ((c.sto MB_CMD 0xDD).sto MB_TXLEN_LO 0) t.read
    if c.cell MB_OK = 0 then (SES_AK_CLOSE c t.closed, .failed)
    else
      let n := if t.rx 0 < 8 then t.rx 0 else 8
      if n < 2 then (SES_AK_CLOSE c t.closed, .refused)
      else
        let r := copyName (c.sto NAME_LEN n) t.rx 2 NAME_BUF n
        if r.2 then (SES_AK_CLOSE (r.1.sto (NAME_BUF + n) 0) t.closed, .named)
        else (SES_AK_CLOSE r.1 t.closed, .refused)

/-- A decimal digit made of four bits.
SOURCE: session.asm:412-419 -/
def guestDigit (v : ℕ) : ℕ := (if v % 16 < 10 then v % 16 else v % 16 - 10) + 48

/-- `GUESTnn`.
SOURCE: session.asm:403-433 -/
def guestName (c : Cpu) : Cpu :=
  let c := c.blit NAME_BUF STR_GUEST
  let c := c.sto (NAME_BUF + 5) (guestDigit (c.cell EXEC_RNG))
  let c := c.sto (NAME_BUF + 6) (guestDigit (swap (c.cell EXEC_RNG)))
  (c.sto (NAME_BUF + 7) 0).sto NAME_LEN 7

/-- The attempts, as many as the counter in `PP_TMP` allows.
SOURCE: session.asm:329-331, 397-403 -/
def tryNames (c : Cpu) : List KeyTry → Cpu
  | [] => guestName c
  | t :: ts =>
    let r := tryName c t
    match r.2 with
    | .named => r.1
    | .refused => guestName r.1
    | .failed =>
      let c := r.1.sto PP_TMP (r.1.cell PP_TMP - 1)
      if c.cell PP_TMP = 0 then guestName c else tryNames c ts

/-- SOURCE: session.asm:327-433 -/
def SES_GETNAME (c : Cpu) (first second : KeyTry) : Cpu := tryNames (c.sto PP_TMP 2) [first, second]

/-! ### Logging in -/

/-- What the world decides while a console logs in: whether a FujiNet is there, its answers for the
name, the devicespec the build generates, and the answer to OPEN. -/
structure Login where
  magic : Bool
  first : KeyTry
  second : KeyTry
  spec : List ℕ
  opened : MbReply

/-- Open the devicespec staged at `FN_TX`.
SOURCE: mailbox.asm:276-299 -/
def NET_OPEN (c : Cpu) (reply : MbReply) : Cpu :=
  let c := ((c.sto MB_DEV 0x71).sto MB_CMD 0x4F).sto MB_NPARAM 2
  let c := (c.sto FN_PARAM_SIZE 1).sto (FN_PARAM_SIZE + 1) 1
  let c := (c.sto FN_PARAM_VAL 12).sto (FN_PARAM_VAL + 4) 0
  MB_TRANSACT ((c.sto MB_TXLEN_LO (c.cell NREQ_LO)).sto MB_TXLEN_HI 0) reply

/-- Say HELLO with the name.
SOURCE: session.asm:96-119 -/
def sendHello (c : Cpu) : Cpu :=
  let c := c.blit FN_TX ((c.cell NAME_LEN + 2) :: FT_HELLO :: 2 ::
    (List.range (c.cell NAME_LEN)).map fun i => c.cell (NAME_BUF + i))
  NET_WRITE ((c.sto NREQ_LO (c.cell NAME_LEN + 3)).sto NREQ_HI 0)

/-- Where a console is: going round the lobby loop, showing the roster, in the passes of a match, or
in the stock game without a network. -/
inductive Place where
  | lobby
  | roster
  | playing (phase : Phase)
  | stock

/-- A console from power-up on. -/
structure Player where
  cpu : Cpu
  place : Place

/-- Hand the display back to the EXEC.
SOURCE: session.asm:313-321 -/
def SES_EXIT (c : Cpu) : Cpu :=
  (c.sto STIC_EXT (c.cell 0x500D)).sto ISR_PHASE (c.cell SES_SAVE102)

/-- SOURCE: session.asm:29-120 -/
def SES_MAIN (c : Cpu) (w : Login) : Player :=
  let c := (c.sto SES_SAVE102 (c.cell ISR_PHASE)).sto ISR_PHASE 0
  let c := UI_PRINT (UI_CLS (c.sto STIC_EXT 0)) 0 STR_TITLE
  let c := c.sto MB_OK (if w.magic then 1 else 0)
  if c.cell MB_OK = 0 then ⟨SES_EXIT (UI_PRINT c 40 STR_NOFN), .stock⟩
  else
    let c := SES_GETNAME c w.first w.second
    let c := UI_PRINT c 40 STR_HELLO
    let c := UI_PRINT c 46 (ramString c NAME_BUF 9)
    let c := ((c.blit FN_TX w.spec).sto NREQ_LO w.spec.length).sto NREQ_HI 0
    let c := NET_OPEN c w.opened
    if c.cell MB_OK = 0 then
      let c := UI_PRINT c 60 STR_NOSRV
      ⟨SES_EXIT (UI_HEX2 c (c.cell MB_ERR) 75), .stock⟩
    else ⟨UI_PRINT (sendHello c) ROW_PROMPT STR_PICK, .lobby⟩

/-- Clear the netcode's memory and open the session.
SOURCE: hook.asm:103-125 -/
def NET_START (c : Cpu) (w : Login) : Player :=
  SES_MAIN (((c.fill NET_RAM NET_RAM_SIZE 0).sto DELAY_EN 0).sto NET_COUNT 2) w

/-! ### The lobby loop -/

/-- Stage a body-less frame and send it.
SOURCE: session.asm:180-189, 274-283 -/
def sendBare (c : Cpu) (ty : ℕ) : Cpu :=
  NET_WRITE (((c.blit FN_TX [1, ty]).sto NREQ_LO 2).sto NREQ_HI 0)

/-- Draw the list, unless the waiting room owns the display.
SOURCE: session.asm:166-171 -/
def menuRedraw (c : Cpu) : Cpu := if 2 ≤ c.cell ROOM_CNT then c else SES_RENDER c

/-- SOURCE: session.asm:153-159 -/
def menuUp (c : Cpu) : Cpu :=
  menuRedraw (if c.cell MENU_SEL = 0 then c else c.sto MENU_SEL (c.cell MENU_SEL - 1))

/-- SOURCE: session.asm:160-165 -/
def menuDown (c : Cpu) : Cpu :=
  menuRedraw (if c.cell LOBBY_CNT ≤ c.cell MENU_SEL + 1 then c
    else c.sto MENU_SEL (c.cell MENU_SEL + 1))

/-- The entry under the cursor in the cached list.
SOURCE: session.asm:196-201 -/
def selected (c : Cpu) : ℕ := c.cell MENU_SEL * 9 + (LOBBY_CACHE + 1)

/-- Join the selected player.
SOURCE: session.asm:217-237 -/
def sendJoin (c : Cpu) : Cpu :=
  let c := c.blit FN_TX (9 :: FT_JOIN :: (List.range 8).map fun i => c.cell (selected c + i))
  UI_PRINT (NET_WRITE ((c.sto NREQ_LO 10).sto NREQ_HI 0)) ROW_PROMPT STR_JOINING

/-- ENTER: the host of a room starts it; outside a room it joins the selected player.
SOURCE: session.asm:172-237 -/
def menuEnter (c : Cpu) : Cpu :=
  if 2 ≤ c.cell ROOM_CNT then
    if c.cell ROOM_HOST = 0 then c else sendBare c FT_GO
  else if c.cell LOBBY_CNT = 0 then c
  else if (c.cell (selected c + 8)).testBit 7 then SES_RENDER (UI_PRINT c ROW_PROMPT STR_BUSY)
  else sendJoin c

@[simp] abbrev KEY_UP : ℕ := 0x41
@[simp] abbrev KEY_DOWN : ℕ := 0x44
@[simp] abbrev KEY_ENTER : ℕ := 0x28
@[simp] abbrev DISC_MAX : ℕ := 0x20

/-- A key that went down: the disc, or the keypad.
SOURCE: session.asm:135-152 -/
def menuKey (c : Cpu) (key : ℕ) : Cpu :=
  if key < DISC_MAX then
    if key.testBit 2 then menuUp c else if key.testBit 0 then menuDown c else c
  else if key = KEY_UP then menuUp c
  else if key = KEY_DOWN then menuDown c
  else if key = KEY_ENTER then menuEnter c
  else c

/-- The menu reads the controller, whose lines are active low.
SOURCE: session.asm:127-134 -/
def menu (c : Cpu) (pad : ℕ) : Cpu :=
  let key := Nat.xor (pad % 256) 0xFF
  if key = c.cell MENU_PREV then c
  else if key = 0 then c.sto MENU_PREV key
  else menuKey (c.sto MENU_PREV key) key

/-- Ask for the list every 256 rounds.
SOURCE: session.asm:238-244, 274-283 -/
def sesPace (c : Cpu) : Cpu :=
  let t := c.cell SES_TMR_LO + 1
  let c := c.sto SES_TMR_LO t
  if t = 0x100 then sendBare c FT_LIST else c

/-- Show the roster, and set the timer of the hold.
SOURCE: session.asm:285-312, 1045-1048 -/
def ses_go (c : Cpu) : Cpu :=
  let c := SES_ROSTER (UI_PRINT (UI_CLS c) 0 STR_TITLE)
  let c := UI_PRINT (c.sto UI_COLOR C_WHITE) 180 STR_YOUARE
  let c := c.sto (BACKTAB + 195) (Nat.xor ((c.cell NET_SEAT + 17) * 8 % 65536) C_WHITE)
  (UI_PRINT c 220 STR_PICKS).sto SES_TMR_LO 150

/-- What the world does at one step of a player: one poll of the network, the controller, and the code
of the cartridge. -/
structure PlayerTurn extends Outside where
  pad : ℕ
  boot : Cpu → Cpu
  boot_frame : ∀ c, GameFrame c (boot c)

/-- One round of the lobby loop.
SOURCE: session.asm:122-284 -/
def lobbyRound (c : Cpu) (t : PlayerTurn) : Player :=
  let c := (SES_PUMP SES_ONFRAME c t.poll).cpu
  if c.cell NET_ACTIVE ≠ 0 then ⟨ses_go c, .roster⟩ else ⟨sesPace (menu c t.pad), .lobby⟩

/-- One pump under the roster; after the last the cartridge boots.
SOURCE: session.asm:1049-1057, 313-321, hook.asm:126-127 -/
def rosterRound (c : Cpu) (t : PlayerTurn) : Player :=
  let c := (SES_PUMP SES_ONFRAME c t.poll).cpu
  let c := c.sto SES_TMR_LO (c.cell SES_TMR_LO + 255)
  if c.cell SES_TMR_LO = 0 then ⟨t.boot (SES_EXIT c), .playing .pass⟩ else ⟨c, .roster⟩

namespace Player

/-- One step of a player. -/
def step (k : Player) (t : PlayerTurn) : Player :=
  match k.place with
  | .lobby => lobbyRound k.cpu t
  | .roster => rosterRound k.cpu t
  | .playing phase =>
    let k' := Console.step ⟨k.cpu, phase⟩ t.toOutside
    ⟨k'.cpu, .playing k'.phase⟩
  | .stock => k

end Player

end BoxingNetplay.Model
