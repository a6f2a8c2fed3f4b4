import BoxingNetplay.Library.Framing
import BoxingNetplay.Model.Resync
import BoxingNetplay.Model.Text

/-!
# The session: stream reassembly, frame handlers and their screens

`src/netcode/session.asm`: `SES_PUMP` accumulates what the network delivers in a 256-cell
ring, extracts frames against the length table `SES_FLEN` and hands each to `SES_ONFRAME`,
whose handlers set up the match, store remote inputs and draw the lobby.

`SES_PUMP` returns, next to the machine, the list of what it extracted.  The list is an
observation; nothing in the console reads it.
-/

set_option autoImplicit false

namespace BoxingNetplay.Model

open BoxingNetplay.Library

/-! ### Screens -/

@[simp] abbrev ROW_PROMPT : ℕ := 60
@[simp] abbrev ROW_LIST : ℕ := 4

def STR_TITLE : List ℕ := romString "BOXING NETPLAY"
def STR_PICK : List ℕ := romString "DISC/2/8  ENTER=PLAY"
def STR_ROOM : List ℕ := romString "WAITING ROOM   OF 2"
def STR_GOHINT : List ℕ := romString "ENTER = START GAME  "
def STR_WAITHOST : List ℕ := romString "WAITING FOR HOST    "

/-- The cursor card, a yellow `>`.
SOURCE: session.asm:886, 1018 -/
@[simp] abbrev CURSOR : ℕ := (62 - 32) * 8 + C_YELLOW

/-- The colour of a seat: two entries, then whatever the ROM holds behind the table.
SOURCE: session.asm:838-843, 902-903 -/
def SEAT_CLR_TBL (c : Cpu) (seat : ℕ) : ℕ :=
  if seat = 0 then C_YELLOW else if seat = 1 then C_WHITE else c.rom (seat - 2)

/-- One row of the roster.
SOURCE: session.asm:835-887 -/
def rosterRow (c : Cpu) (seat : ℕ) : Cpu :=
  let c := c.sto UI_COLOR (SEAT_CLR_TBL c seat)
  let off := (seat + 3) * 20 + 4
  let c := c.sto PP_TMP off
  let c := c.sto ((off + (BACKTAB - 2)) % 65536)
    (Nat.xor ((seat + 17) * 8 % 65536) (c.cell UI_COLOR))
  let c := UI_PRINTN c (c.cell PP_TMP) (NAME_TBL + 9 * seat) 8
  if c.cell NET_ACTIVE ≠ 0 ∧ c.cell NET_SEAT = seat then
    c.sto ((c.cell PP_TMP + (BACKTAB - 4)) % 65536) CURSOR
  else c

/-- The rows of `n` seats from `seat` on.
SOURCE: session.asm:834-891 -/
def rosterRows (c : Cpu) (seat : ℕ) : ℕ → Cpu
  | 0 => c
  | n + 1 => rosterRows (rosterRow c seat) (seat + 1) n

/-- Print the roster; the loop tests its bound after the first row.
SOURCE: session.asm:824-894 -/
def SES_ROSTER (c : Cpu) : Cpu :=
  let count := if c.cell NET_ACTIVE = 0 then c.cell ROOM_CNT else c.cell NET_COUNT
  (rosterRows c 0 (max 1 count)).sto UI_COLOR C_WHITE

/-- The pre-match waiting room.
SOURCE: session.asm:909-937 -/
def SES_ROOMSCR (c : Cpu) : Cpu :=
  let c := UI_PRINT (UI_CLS c) 0 STR_TITLE
  let c := UI_PRINT c 20 STR_ROOM
  let c := c.sto (BACKTAB + 33) (Nat.xor ((c.cell ROOM_CNT + 16) * 8 % 65536) C_WHITE)
  let c := SES_ROSTER c
  if c.cell ROOM_HOST = 0 then UI_PRINT c 180 STR_WAITHOST else UI_PRINT c 180 STR_GOHINT

/-- One row of the lobby list.
SOURCE: session.asm:962-1020 -/
def renderRow (c : Cpu) (i : ℕ) : Cpu :=
  let c := c.sto PP_TMP ((i + ROW_LIST) * 20 + 2)
  let entry := LOBBY_CACHE + 1 + 9 * i
  let status := c.cell (entry + 8)
  let c := c.sto UI_COLOR (if status.testBit 7 then C_BLACK else C_WHITE)
  let c := UI_PRINTN c (c.cell PP_TMP) entry 8
  let c :=
    if status % 8 < 2 then c
    else c.sto (c.cell PP_TMP + (BACKTAB + 9))
      (Nat.xor ((status % 8 + 16) * 8) (c.cell UI_COLOR))
  if c.cell MENU_SEL = i then c.sto (c.cell PP_TMP - 2 + BACKTAB) CURSOR else c

/-- The rows of `n` lobby entries from entry `i` on.
SOURCE: session.asm:961-1023 -/
def renderRows (c : Cpu) (i : ℕ) : ℕ → Cpu
  | 0 => c
  | n + 1 => renderRows (renderRow c i) (i + 1) n

/-- The lobby list and the cursor.
SOURCE: session.asm:942-1027 -/
def SES_RENDER (c : Cpu) : Cpu :=
  let c := UI_PRINT (c.sto UI_COLOR C_WHITE) ROW_PROMPT STR_PICK
  let c := c.fill (BACKTAB + 20 * ROW_LIST) 160 0
  (renderRows c 0 (c.cell LOBBY_CNT)).sto UI_COLOR C_WHITE

/-- Copy `n` 8-byte names from `r4` into 9-cell, NUL-terminated slots at `r5`.
SOURCE: session.asm:801-816 -/
def SES_CPR_GO (c : Cpu) (r4 r5 : ℕ) : ℕ → Cpu
  | 0 => c
  | n + 1 => SES_CPR_GO ((c.copy r4 r5 8).sto (r5 + 8) 0) (r4 + 8) (r5 + 9) n

/-- Whether two NUL-terminated strings agree; the roster slot ends within `n` cells.
SOURCE: session.asm:753-766 -/
def sameName (c : Cpu) (r4 r5 : ℕ) : ℕ → Bool
  | 0 => false
  | n + 1 =>
    if c.cell r4 ≠ c.cell r5 then false
    else if c.cell r4 = 0 then true
    else sameName c (r4 + 1) (r5 + 1) n

/-! ### Frame handlers -/

/-- Idle rings and watermarks far ahead: the match is over.
SOURCE: lockstep.asm:444-459 -/
def LS_IDLE_RMT (c : Cpu) : Cpu :=
  let c := LS_RING_INIT c
  setWatermarks c (c.cell TICK_LO) (c.cell TICK_HI + 0x40)

/-- A remote input: stored when it is ahead of its seat's watermark.
SOURCE: session.asm:587-636 -/
def of_input (c : Cpu) : Cpu :=
  let seat := c.cell (FRMBUF + 2)
  if c.cell FRMBUF < 6 then c
  else if seat = c.cell NET_SEAT then c
  else if c.cell NET_COUNT ≤ seat then c
  else
    let tick := word c (FRMBUF + 3) (FRMBUF + 4)
    let wmAt := SEAT_WM + 2 * seat
    let ahead := sub16 tick (word c wmAt (wmAt + 1))
    if 32768 ≤ ahead then c
    else if ahead = 0 then c
    else
      let slot := swap seat + c.cell (FRMBUF + 3)
      let ring := (slot + SEAT_RING) % 65536
      let c := c.sto ring (c.cell (FRMBUF + 5))
      let c := c.sto ((ring + (SEAT_KP - SEAT_RING)) % 65536) (c.cell (FRMBUF + 6))
      (c.sto wmAt (c.cell (FRMBUF + 3))).sto (wmAt + 1) (c.cell (FRMBUF + 4))

/-- The lobby list: cached, clamped to eight entries it really carries.
SOURCE: session.asm:637-680 -/
def of_lobby (c : Cpu) : Cpu :=
  if c.cell NET_ACTIVE ≠ 0 then c
  else if c.cell FRMBUF < 2 then c
  else
    let count := if c.cell (FRMBUF + 2) < 8 then c.cell (FRMBUF + 2) else 8
    if c.cell FRMBUF < 9 * count + 2 then c
    else
      let c := c.sto LOBBY_CNT count
      let c := if c.cell MENU_SEL < count then c else c.sto MENU_SEL 0
      let c := c.copy (FRMBUF + 2) LOBBY_CACHE (9 * count + 1)
      if 2 ≤ c.cell ROOM_CNT then c else SES_RENDER c

/-- The match begins.
SOURCE: session.asm:681-725 -/
def of_start (c : Cpu) : Cpu :=
  if c.cell FRMBUF < 38 then c
  else
    let c := (c.sto NET_SEAT (c.cell (FRMBUF + 2))).sto NET_COUNT (c.cell (FRMBUF + 3))
    let c := (c.sto RNG_LO (c.cell (FRMBUF + 4))).sto RNG_HI (c.cell (FRMBUF + 5))
    let c := c.sto NET_DELAY (c.cell (FRMBUF + 6))
    let c := SES_CPR_GO c (FRMBUF + 7) NAME_TBL 4
    let c := RS_CLR_CRC (LS_RING_INIT c)
    let c := setWatermarks c ((c.cell NET_DELAY + 65535) % 65536) 0
    ((c.sto TICK_LO 0).sto TICK_HI 0).sto NET_ACTIVE 1

/-- Room membership, before the match only.
SOURCE: session.asm:726-769 -/
def of_room (c : Cpu) : Cpu :=
  if c.cell NET_ACTIVE ≠ 0 then c
  else if c.cell FRMBUF < 34 then c
  else
    let c := c.sto ROOM_CNT (c.cell (FRMBUF + 2))
    if c.cell (FRMBUF + 2) < 2 then
      let c := (c.sto ROOM_CNT 0).sto ROOM_HOST 0
      SES_RENDER (UI_PRINT (UI_CLS c) 0 STR_TITLE)
    else
      let c := SES_CPR_GO c (FRMBUF + 3) NAME_TBL 4
      SES_ROOMSCR (c.sto ROOM_HOST (if sameName c NAME_TBL NAME_BUF 9 then 1 else 0))

/-- Somebody left: the match is over for everyone.
SOURCE: session.asm:770-792 -/
def of_pl (c : Cpu) : Cpu :=
  let c :=
    if c.cell FRMBUF < 10 then c
    else ((c.sto LEFT_SEAT (c.cell (FRMBUF + 2))).copy (FRMBUF + 3) LEFT_NAME 8).sto
      (LEFT_NAME + 8) 0
  LS_IDLE_RMT ((c.sto PEER_WHY 1).sto NET_DROPPED 1)

/-- Dispatch the frame in `FRMBUF`.
SOURCE: session.asm:558-586 -/
def SES_ONFRAME (c : Cpu) : Cpu :=
  let ty := c.cell (FRMBUF + 1)
  if ty = FT_INPUT then of_input c
  else if ty = FT_LOBBY then of_lobby c
  else if ty = FT_START then of_start c
  else if ty = FT_PEER_LEFT then of_pl c
  else if ty = FT_ROOM then of_room c
  else if ty = FT_CRC then RS_ON_CRC c
  else if ty = FT_STATE then RS_ON_STATE c
  else if ty = FT_RESYNC then RS_ON_REQ c
  else c

/-! ### Stream reassembly -/

/-- Body-length bounds by frame type, `max << 8 | min`; 0 for types that never arrive.
SOURCE: session.asm:1064-1081 -/
def SES_FLEN : List ℕ :=
  [0x0000, 0x0000, 0x0000, 0x4A02, 0x0000, 0x2626, 0x0606, 0x0606,
    0x6303, 0x0303, 0x0000, 0x0A0A, 0x0000, 0x0101, 0x2222, 0x0000]

/-- Whether a frame of type `ty` may have `len` body bytes.
SOURCE: session.asm:512-526 -/
def flenOk (ty len : ℕ) : Bool :=
  ty < 16 && SES_FLEN.getD ty 0 != 0 && decide (SES_FLEN.getD ty 0 % 256 ≤ len) &&
    decide (len ≤ SES_FLEN.getD ty 0 / 256)

/-- Append received bytes to the ring.
SOURCE: session.asm:477-487 -/
def accumulate (c : Cpu) : List ℕ → Cpu
  | [] => c
  | b :: bs =>
    accumulate ((c.sto (c.cell RX_WR + RXACC) b).sto RX_WR ((c.cell RX_WR + 1) % 256)) bs

/-- Move `n` bytes of the ring to the frame buffer at `r5`.
SOURCE: session.asm:532-541 -/
def extract (c : Cpu) (r5 : ℕ) : ℕ → Cpu
  | 0 => c
  | n + 1 =>
    let c := c.sto r5 (c.cell (c.cell RX_RD + RXACC))
    extract (c.sto RX_RD ((c.cell RX_RD + 1) % 256)) (r5 + 1) n

/-- Unread bytes in the ring.
SOURCE: session.asm:489-492 -/
def buffered (c : Cpu) : ℕ := (c.cell RX_WR + 256 - c.cell RX_RD) % 256

/-- The frame in the frame buffer, as it is handed to the dispatcher. -/
def frameBuf (c : Cpu) (n : ℕ) : List ℕ := (List.range n).map fun i => c.cell (FRMBUF + i)

/-- What one round of the parse loop takes off the ring, before any handler runs: `none`
when the loop stops.
SOURCE: session.asm:488-541, 544-551 -/
def parseNext (c : Cpu) : Option (Cpu × Item ℕ) :=
  if buffered c < 2 then none
  else
    let len := c.cell (c.cell RX_RD + RXACC)
    let ty := c.cell ((c.cell RX_RD + 1) % 256 + RXACC)
    if flenOk ty len = false then
      some (DIAG_BUMP (c.sto RX_RD ((c.cell RX_RD + 1) % 256)) DIAG_SLIP, .slip len)
    else if buffered c < len + 1 then none
    else
      let c := extract c FRMBUF (len + 1)
      some (c, .frame (frameBuf c (len + 1)))

/-- One round of the parse loop: a frame goes to its handler.
SOURCE: session.asm:488-551 -/
def parseStep (onFrame : Cpu → Cpu) (c : Cpu) : Option (Cpu × Item ℕ) :=
  (parseNext c).map fun r =>
    match r.2 with
    | .slip _ => r
    | .frame _ => (onFrame r.1, r.2)

/-- What a run of the parse loop leaves: the machine, what was extracted, and whether the
loop stopped by itself. -/
structure Parsed where
  cpu : Cpu
  items : List (Item ℕ)
  finished : Bool

/-- The parse loop, at most `fuel` rounds.
SOURCE: session.asm:488-553 -/
def parseLoop (onFrame : Cpu → Cpu) : ℕ → Cpu → Parsed
  | 0, c => ⟨c, [], false⟩
  | fuel + 1, c =>
    match parseStep onFrame c with
    | none => ⟨c, [], true⟩
    | some (c', item) =>
      let rest := parseLoop onFrame fuel c'
      ⟨rest.cpu, item :: rest.items, rest.finished⟩

/-- The transactions of a pump, one STATUS and one READ of at most 64 bytes, and the bytes
they deliver.
SOURCE: session.asm:452-476 -/
def request (c : Cpu) (p : Poll) : Cpu × List ℕ :=
  let c := NET_STATUS c p
  if c.cell MB_OK = 0 then (c, [])
  else if c.cell NAVAIL_HI = 0 ∧ c.cell NAVAIL_LO = 0 then (c, [])
  else
    let n := if c.cell NAVAIL_HI = 0 ∧ c.cell NAVAIL_LO < 64 then c.cell NAVAIL_LO else 64
    let c := NET_READ ((c.sto NREQ_LO n).sto NREQ_HI 0) p
    (c, p.data.take (c.cell NGOT_LO))

/-- The receive half of a pump.
SOURCE: session.asm:452-487 -/
def receive (c : Cpu) (p : Poll) : Cpu := accumulate (request c p).1 (request c p).2

/-- Receive, then extract and dispatch complete frames.  The ring holds at most 255 unread
bytes and every round of the loop consumes one, so 256 rounds always suffice.
SOURCE: session.asm:452-553 -/
def SES_PUMP (onFrame : Cpu → Cpu) (c : Cpu) (p : Poll) : Parsed :=
  parseLoop onFrame 256 (receive c p)

end BoxingNetplay.Model
