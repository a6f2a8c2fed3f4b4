import BoxingNetplay.Analysis.GateInputs
import BoxingNetplay.Interface.Keys
import BoxingNetplay.Interface.Reports
import BoxingNetplay.Library.Delay

/-!
# Two consoles and the links between them

Each console takes its turns at any time: a START hands it the match, it pumps under the roster,
enters the game and then makes its passes, one step of `Console.step` at a turn.  What it
writes goes behind the bytes that are on their way to the other; what a pump delivers is taken off
the front, as much of it as the poll says.  Nothing else is on the links.

An observer beside each console notes what it captured, what it dispatched and which checksums it
reported at each tick of each baseline, and in which baseline each INPUT frame was written and
stored or refused.  No console reads it.
-/

set_option autoImplicit false

namespace BoxingNetplay.Analysis

open BoxingNetplay.Library
open BoxingNetplay.Library.Delay (put)
open BoxingNetplay.Model
open BoxingNetplay.Interface

/-! ### The observer -/

/-- What the controller cells hold when a console captures.
SOURCE: lockstep.asm:125-130 -/
def controller (c : Cpu) : ℕ × ℕ := (c.cell EXEC_IN_L, c.cell EXEC_KP_L)

/-- The machine whose checksum a tick may report.
SOURCE: lockstep.asm:247-294 -/
def reportMachine (g : Game) (c : Cpu) : Cpu :=
  (LS_TBL_ADOPT (BX_GAME_TICK g (LS_VDISPATCH g (runTick g c).atSeat1))).sto EXEC_HTBL NULL_TBL

/-- The cells the two dispatches of a tick read. -/
def dispatchedCells (g : Game) (c : Cpu) : Cells × Cells :=
  (dispatchCells (loadCells (runTick g c).atSeat0), dispatchCells (loadCells (runTick g c).atSeat1))

/-- What an observer of a console has noted: how often it has re-baselined since START, how many
ticks it has run since; by baseline and tick after it, its captures, the cells its two dispatches
read and the checksums it reported; the baseline in which it wrote each of its INPUT frames; and for
each that it was handed, the baseline it was in and whether it stored it. -/
structure Seen where
  epoch : ℕ
  age : ℕ
  captured : ℕ → ℕ → Option (ℕ × ℕ)
  played : ℕ → ℕ → Option (Cells × Cells)
  summed : ℕ → ℕ → Option ℕ
  wrote : List ℕ
  inputs : List (ℕ × Bool)

namespace Seen

/-- Nothing yet. -/
def fresh : Seen := ⟨0, 0, fun _ _ => none, fun _ _ => none, fun _ _ => none, [], []⟩

/-- A capture, whose frame is written. -/
def capture (v : Seen) (c : Cpu) : Seen :=
  { v with captured := put v.captured v.epoch v.age (controller c), wrote := v.wrote ++ [v.epoch] }

/-- An INPUT frame is handed on, and stored or refused. -/
def hear (v : Seen) (d : Cpu) : Seen :=
  if d.cell (FRMBUF + 1) = FT_INPUT then
    { v with inputs := v.inputs ++ [(v.epoch, decide (StoresInput d))] }
  else v

/-- A frame is handed on, after which the console may have a new baseline. -/
def note (v : Seen) (d : Cpu) : Seen :=
  if Rebases d then { v with epoch := v.epoch + 1, age := 0 } else v.hear d

/-- A tick, which may report. -/
def ran (v : Seen) (g : Game) (c : Cpu) : Seen :=
  { v with
    age := v.age + 1
    played := put v.played v.epoch v.age (dispatchedCells g c)
    summed := if c.cell TICK_LO % 64 = 0 then
      put v.summed v.epoch v.age (reportSum (reportMachine g c)) else v.summed }

/-- Its end may push. -/
def ticked (v : Seen) (g : Game) (c : Cpu) : Seen :=
  if Pushes (countUp (tickBody g c) TICK_LO TICK_HI) then
    { v.ran g c with epoch := v.epoch + 1, age := 0 }
  else v.ran g c

/-- A step of the console. -/
def step (v : Seen) (k : Console) (o : Outside) : Seen :=
  match k.phase with
  | .due => v.capture k.cpu
  | .run => v.ticked o.game k.cpu
  | _ => (dispatched k o).foldl note v

end Seen

/-! ### The consoles and their links -/

/-- A console that has no match yet, that shows the roster of one, or that plays it. -/
inductive Party where
  | lobby
  | roster (c : Cpu)
  | playing (k : Console)

/-- The machine of a console that has a match. -/
def Party.cpu : Party → Option Cpu
  | .lobby => none
  | .roster c => some c
  | .playing k => some k.cpu

/-- A console, the bytes on their way to it, and its observer. -/
structure Side where
  party : Party
  inbound : List ℕ
  seen : Seen

/-- The two consoles of a match: the host has seat 0, the guest seat 1. -/
structure Net where
  host : Side
  guest : Side

/-- More bytes on their way. -/
def Side.post (a : Side) (bytes : List ℕ) : Side := { a with inbound := a.inbound ++ bytes }

/-- What a console has written from one machine to a later one. -/
def written (c c' : Cpu) : List ℕ := c'.out.drop c.out.length

/-- The bytes a step of a console takes off its link. -/
def takes (k : Console) (o : Outside) : List ℕ :=
  match pumping k with
  | none => []
  | some _ => delivers o.poll

/-- The START of a match of two in the frame buffer of a machine whose writes are all taken, and
which is in no resync.
SOURCE: session.asm:681-725, hook.asm:104-110 -/
structure OpensFor (d seat : ℕ) (c : Cpu) : Prop where
  type : c.cell (FRMBUF + 1) = FT_START
  length : 38 ≤ c.cell FRMBUF
  seat : c.cell (FRMBUF + 2) = seat
  count : c.cell (FRMBUF + 3) = 2
  delay : c.cell (FRMBUF + 6) = d
  hold : c.cell RESYNC_HOLD = 0
  acked : AllAcked c

/-- A turn of a console, and what it writes: the rest of the pump that hands it START, a pump under
the roster, code there that leaves the match alone, the way into the game, a step of a pass.
SOURCE: session.asm:285-321, 488-553, 1040-1062, hook.asm:9-41, 104-145 -/
inductive SideTurn (d seat : ℕ) : Side → Side → List ℕ → Prop where
  | start {wire : List ℕ} {v : Seen} (c : Cpu) (rest : List ℕ) (h : OpensFor d seat c)
      (hw : unread c ++ rest = wire) :
      SideTurn d seat ⟨.lobby, wire, v⟩
        ⟨.roster (parseLoop SES_ONFRAME 256 (of_start c)).cpu, rest,
          (handed SES_ONFRAME 256 (of_start c)).foldl Seen.note v⟩
        (written c (parseLoop SES_ONFRAME 256 (of_start c)).cpu)
  | pump {wire : List ℕ} {v : Seen} {c : Cpu} (p : Poll) (rest : List ℕ)
      (hw : delivers p ++ rest = wire) :
      SideTurn d seat ⟨.roster c, wire, v⟩
        ⟨.roster (SES_PUMP SES_ONFRAME c p).cpu, rest, (pumpHanded SES_ONFRAME c p).foldl Seen.note v⟩
        (written c (SES_PUMP SES_ONFRAME c p).cpu)
  | quiet {wire : List ℕ} {v : Seen} {c c' : Cpu}
      (heq : ∀ a ∈ MatchCells ∪ CrcRecords, c'.cell a = c.cell a) (hs : Silent c c') :
      SideTurn d seat ⟨.roster c, wire, v⟩ ⟨.roster c', wire, v⟩ []
  | enter {wire : List ℕ} {v : Seen} {c : Cpu} :
      SideTurn d seat ⟨.roster c, wire, v⟩ ⟨.playing ⟨c, .pass⟩, wire, v⟩ []
  | step {wire : List ℕ} {v : Seen} {k : Console} (o : Outside) (rest : List ℕ)
      (hw : takes k o ++ rest = wire) :
      SideTurn d seat ⟨.playing k, wire, v⟩ ⟨.playing (k.step o), rest, v.step k o⟩
        (written k.cpu (k.step o).cpu)

/-- A match of two consoles with delay `d`, where each turn leaves its console in `P`. -/
inductive PairRun (d : ℕ) (P : Side → Prop) : Net → Prop where
  | lobby : PairRun d P ⟨⟨.lobby, [], .fresh⟩, ⟨.lobby, [], .fresh⟩⟩
  | host {net : Net} {a : Side} {bytes : List ℕ} (h : PairRun d P net)
      (ht : SideTurn d 0 net.host a bytes) (hp : P a) : PairRun d P ⟨a, net.guest.post bytes⟩
  | guest {net : Net} {a : Side} {bytes : List ℕ} (h : PairRun d P net)
      (ht : SideTurn d 1 net.guest a bytes) (hp : P a) : PairRun d P ⟨net.host.post bytes, a⟩

/-- Nobody has left. -/
def Up (a : Side) : Prop := ∀ c, a.party.cpu = some c → c.cell NET_DROPPED = 0

/-- Nor has anybody re-baselined. -/
def Unpushed (a : Side) : Prop := Up a ∧ a.seen.epoch = 0

end BoxingNetplay.Analysis
