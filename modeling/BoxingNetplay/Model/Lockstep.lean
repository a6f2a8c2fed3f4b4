import BoxingNetplay.Model.Session

/-!
# The lockstep engine and the pass of a console

`src/netcode/lockstep.asm`: `LS_PASS` cut at the points where a console waits, so that one
step of a `Console` makes at most one pump.  A pass of the EXEC is `pass` (the first pump or a
round of the resync hold), `due` (capture and send), `gate` (as many rounds as it takes),
`run` (dispatch, game tick, CRC report, deferred push), `native` (the timer entries in slots
2-5) and `scan` (the controller scan, which dispatches through `$035D`).
-/

set_option autoImplicit false

namespace BoxingNetplay.Model

open BoxingNetplay.Library

@[simp] abbrev LS_TIMEOUT : ℕ := 900

/-! ### Pieces of `LS_PASS` -/

/-- Increment a 16-bit counter kept in two byte cells.
SOURCE: lockstep.asm:331-339 -/
def countUp (c : Cpu) (lo hi : ℕ) : Cpu :=
  let v := c.cell lo + 1
  let c := c.sto lo v
  if v = 0x100 then c.sto hi (c.cell hi + 1) else c

/-- Freeze the interrupt's phase counter, once.
SOURCE: lockstep.asm:20-31, 218-229 -/
def freeze (c : Cpu) : Cpu :=
  if c.cell LS_FROZE ≠ 0 then c
  else ((c.sto LS_FROZE 1).sto LS_SAVE102 (c.cell ISR_PHASE)).sto ISR_PHASE 0

/-- Let the interrupt's phases run again after a stall.
SOURCE: lockstep.asm:248-258 -/
def unfreeze (c : Cpu) : Cpu :=
  if c.cell LS_FROZE = 0 then c
  else
    let c := ((c.sto LS_FROZE 0).sto LS_WAITC_LO 0).sto LS_WAITC_HI 0
    c.sto ISR_PHASE (c.cell LS_SAVE102)

/-- The peer did not answer for too long: the match is over.
SOURCE: lockstep.asm:52-59, 240-245 -/
def giveUp (c : Cpu) : Cpu := (c.sto PEER_WHY 0).sto NET_DROPPED 1

/-- The tick counter as a word.
SOURCE: lockstep.asm:75-77 -/
def tickWord (c : Cpu) : ℕ := word c TICK_LO TICK_HI

/-- Capture the left controller for tick `T+d`, store it in our own rings and send it.
SOURCE: lockstep.asm:73-162 -/
def captureSend (c : Cpu) : Cpu :=
  let r2 := (tickWord c + c.cell NET_DELAY) % 65536
  let c := (c.sto LS_TMPB (c.cell EXEC_IN_L)).sto LS_TMPB2 (c.cell EXEC_KP_L)
  let ring := (r2 % 256 + swap (c.cell NET_SEAT) + SEAT_RING) % 65536
  let c := c.sto ring (c.cell LS_TMPB)
  let c := c.sto ((ring + (SEAT_KP - SEAT_RING)) % 65536) (c.cell LS_TMPB2)
  sendFrame c
    [6, FT_INPUT, c.cell NET_SEAT, r2, swap r2, c.cell LS_TMPB, c.cell LS_TMPB2]

/-- Whether the watermark of a seat has reached the tick.
SOURCE: lockstep.asm:172-184 -/
def seatReady (c : Cpu) (seat : ℕ) : Bool :=
  sub16 (word c (SEAT_WM + 2 * seat) (SEAT_WM + 2 * seat + 1)) (tickWord c) < 32768

/-- The seat loop of the gate; its bound is tested after the first seat.
SOURCE: lockstep.asm:169-194 -/
def seatsReady (c : Cpu) : Bool :=
  (List.range (max 1 (c.cell NET_COUNT))).all fun seat =>
    seat = c.cell NET_SEAT || seatReady c seat

/-- The gate is open: the match is over, or every remote input for the tick has arrived.
SOURCE: lockstep.asm:166-194 -/
def gateOpen (c : Cpu) : Bool := c.cell NET_DROPPED != 0 || seatsReady c

/-- Checksum step: rotate left by one and add a cell.
SOURCE: lockstep.asm:469-471 -/
def rotateAdd (acc v : ℕ) : ℕ := ((2 * acc + acc / 32768) % 65536 + v) % 65536

/-- The cells the checksum covers, in its order.
SOURCE: lockstep.asm:465-501 -/
def cksumCells : List ℕ :=
  List.range' 0x015D 147 ++ [RNG_LO, RNG_HI, RS_SPARE0, RS_SPARE1] ++
    [SC_CNT2, SC_CNT3, SC_CNT4, SC_CNT5, SC_CNT6, SC_CNT7] ++ [RS_SPARE5]

/-- Rotate-add checksum over the game state.
SOURCE: lockstep.asm:465-501 -/
def LS_CKSUM (c : Cpu) : ℕ := cksumCells.foldl (fun acc a => rotateAdd acc (c.cell a)) 0

/-- Every 64 ticks: reassert the display, record the checksum and report it.
SOURCE: lockstep.asm:295-330 -/
def crcReport (c : Cpu) : Cpu :=
  if c.cell TICK_LO % 64 ≠ 0 then c
  else
    let c := RS_DISPLAY_RESET c
    let sum := LS_CKSUM c
    let c := RS_RECORD_CRC ((c.sto LS_TMPB sum).sto LS_TMPB2 (swap sum))
    sendFrame c [6, FT_CRC, c.cell NET_SEAT, c.cell TICK_LO, c.cell TICK_HI, c.cell LS_TMPB,
      c.cell LS_TMPB2]

/-- Put the game's handler table back.
SOURCE: lockstep.asm:269-274 -/
def installTable (c : Cpu) : Cpu :=
  let t := word c GAME_TBL_LO GAME_TBL_HI
  if t = 0 then c else c.sto EXEC_HTBL t

/-- Select the seat whose events are replayed.
SOURCE: lockstep.asm:281-287 -/
def selectSeat (c : Cpu) (seat : ℕ) : Cpu := (c.sto VD_SIDE seat).sto VD_CTRL seat

/-! ### One tick -/

/-- What a tick leaves: the machine, and for an observer the machine at each of the two
virtual dispatches. -/
structure Ran where
  cpu : Cpu
  atSeat0 : Cpu
  atSeat1 : Cpu

/-- Dispatch, game tick, CRC report, tick counter, deferred push.
SOURCE: lockstep.asm:247-349 -/
def runTick (g : Game) (c : Cpu) : Ran :=
  let c0 := selectSeat (installTable (LS_TBL_ADOPT (unfreeze c))) 0
  let c1 := selectSeat (LS_VDISPATCH g c0) 1
  let c := BX_GAME_TICK g (LS_VDISPATCH g c1)
  let c := (LS_TBL_ADOPT c).sto EXEC_HTBL NULL_TBL
  let c := countUp (crcReport c) TICK_LO TICK_HI
  ⟨RS_PENDING c, c0, c1⟩

/-! ### The terminal screen -/

def STR_GONE : List ℕ := romString "PLAYER LEFT"
def STR_LOST : List ℕ := romString "CONNECTION LOST"
def STR_RESET : List ℕ := romString "PRESS RESET"
def STR_DIAG : List ℕ := romString "SLIP REJ TMO ERR"

/-- The characters of a RAM string up to its NUL, at most `n`.
SOURCE: text.asm:91-95 -/
def ramString (c : Cpu) (a : ℕ) : ℕ → List ℕ
  | 0 => []
  | n + 1 => if c.cell a = 0 then [] else c.cell a :: ramString c (a + 1) n

/-- One hexadecimal digit as a card.
SOURCE: text.asm:137-147 -/
def hexCard (n : ℕ) : ℕ := Nat.xor (((if n < 10 then n else n + 7) + 16) * 8) C_YELLOW

/-- Two hexadecimal digits of a byte.
SOURCE: text.asm:131-159 -/
def UI_HEX2 (c : Cpu) (v off : ℕ) : Cpu :=
  c.blit (off + BACKTAB) [hexCard (v / 16), hexCard (v % 16)]

/-- Wait for the cart's interrupt body to leave, which it never does, then force the default.
SOURCE: vdispatch.asm:323-338 -/
def DANCE_SETTLE (c : Cpu) : Cpu :=
  if c.cell ISR_VEC_HI ≠ 0x58 then c
  else (c.sto ISR_VEC_LO (EXEC_ISR_DEF % 256)).sto ISR_VEC_HI (EXEC_ISR_DEF / 256)

/-- Black background, no scroll, no objects.
SOURCE: text.asm:49-66 -/
def UI_DISPLAY_NORMALIZE (c : Cpu) : Cpu :=
  let c := ((c.sto STIC_EXT (c.cell 0x500D)).sto 0x0030 0).sto 0x0031 0
  (c.fill STIC_CS 5 0).fill 0x0300 0x18 0

/-- Paint the terminal screen.
SOURCE: lockstep.asm:401-438 -/
def LS_PEER_LEFT (c : Cpu) : Cpu :=
  let c := UI_CLS (UI_DISPLAY_NORMALIZE (DANCE_SETTLE c))
  let c := if c.cell PEER_WHY = 0 then UI_PRINT c 82 STR_LOST else UI_PRINT c 83 STR_GONE
  let c := UI_PRINT c 126 (ramString c LEFT_NAME 9)
  let c := UI_PRINT (UI_PRINT c 184 STR_RESET) 202 STR_DIAG
  let c := UI_HEX2 (UI_HEX2 c (c.cell DIAG_SLIP) 222) (c.cell DIAG_REJ) 227
  UI_HEX2 (UI_HEX2 c (c.cell DIAG_TMO) 231) (c.cell DIAG_ERR) 235

/-! ### The console -/

/-- Where a console is in its pass. -/
inductive Phase where
  | pass
  | due
  | gate
  | run
  | native
  | scan
  | parked
  deriving DecidableEq, Repr

/-- A console in a match. -/
@[ext]
structure Console where
  cpu : Cpu
  phase : Phase

/-- What the world outside the netcode does at one step of a console. -/
structure Outside where
  poll : Poll
  game : Game

/-- One round of the resync hold, after which the pass goes on to the native entries.
SOURCE: lockstep.asm:14-61 -/
def holdRound (c : Cpu) (p : Poll) : Cpu :=
  let c := (SES_PUMP SES_ONFRAME (freeze c) p).cpu
  let lo := c.cell RS_TO_LO + 1
  let c := c.sto RS_TO_LO lo
  if lo ≠ 0x100 then c
  else
    let hi := c.cell RS_TO_HI + 1
    let c := c.sto RS_TO_HI hi
    if hi < RS_HOLD_TMO / 256 then c
    else LS_IDLE_RMT ((giveUp c).sto RESYNC_HOLD 0)

/-- One round of the gate while it is shut.
SOURCE: lockstep.asm:215-246 -/
def stallRound (c : Cpu) (p : Poll) : Cpu :=
  let c := (SES_PUMP SES_ONFRAME (freeze c) p).cpu
  let lo := c.cell LS_WAITC_LO + 1
  let c := c.sto LS_WAITC_LO lo
  if lo ≠ 0x100 then c
  else
    let hi := c.cell LS_WAITC_HI + 1
    let c := c.sto LS_WAITC_HI hi
    if hi < LS_TIMEOUT / 256 then c else LS_IDLE_RMT (giveUp c)

namespace Console

/-- The start of a pass: parked for good once the match is over, else a round of the hold
or the pump that opens the tick.
SOURCE: lockstep.asm:8-71, 351-380 -/
def stepPass (c : Cpu) (p : Poll) : Console :=
  if c.cell PEER_SCR ≠ 0 then ⟨c, .native⟩
  else if c.cell NET_DROPPED ≠ 0 then ⟨(LS_PEER_LEFT (freeze c)).sto PEER_SCR 1, .parked⟩
  else if c.cell RESYNC_HOLD ≠ 0 then ⟨holdRound c p, .native⟩
  else ⟨(SES_PUMP SES_ONFRAME c p).cpu, .due⟩

/-- One step of a console.
SOURCE: lockstep.asm:8-380, hook.asm:9-41 -/
def step (k : Console) (o : Outside) : Console :=
  match k.phase with
  | .pass => stepPass k.cpu o.poll
  | .due => ⟨captureSend k.cpu, .gate⟩
  | .gate => if gateOpen k.cpu then ⟨k.cpu, .run⟩ else ⟨stallRound k.cpu o.poll, .gate⟩
  | .run => ⟨(runTick o.game k.cpu).cpu, .native⟩
  | .native => ⟨o.game.native k.cpu, .scan⟩
  | .scan => ⟨o.game.scan k.cpu, .pass⟩
  | .parked => k

end Console

end BoxingNetplay.Model
