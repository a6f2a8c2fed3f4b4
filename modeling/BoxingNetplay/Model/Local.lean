import BoxingNetplay.Model.Lobby

/-!
# The builds without netplay

`src/vdispatch.asm`'s capture, `src/debug.asm`'s trace and the path of `MASTER_TICK` that a
build takes while no match is on, for the builds that virtualize the dispatch (`SPIKE_VIRT`).  Inputs come
from the pads, from the demo script and then at random, or from a recording.

The script and the recording are words of the ROM, at addresses that are parameters of the build.
-/

set_option autoImplicit false

namespace BoxingNetplay.Model

open BoxingNetplay.Library

@[simp] abbrev EXEC_IN_R : ℕ := 0x0120
@[simp] abbrev EXEC_KP_R : ℕ := 0x0122
@[simp] abbrev SLF_LO : ℕ := 0x810A
@[simp] abbrev SLF_HI : ℕ := 0x810B
@[simp] abbrev SCR_IDX : ℕ := 0x810D
@[simp] abbrev SCR_CNT : ℕ := 0x810E
@[simp] abbrev FIRSTC_LO : ℕ := 0x8110
@[simp] abbrev FIRSTC_HI : ℕ := 0x8111
@[simp] abbrev RNGP_LO : ℕ := 0x8112
@[simp] abbrev RNGP_HI : ℕ := 0x8113
@[simp] abbrev TRACE_RING : ℕ := 0x9000

/-! ### Capture -/

/-- Where a build takes its inputs from: the pads; the script at an address, and then a generator; or
the recording of `len` ticks at an address.
SOURCE: vdispatch.asm:35, 79, 146 -/
inductive CaptureMode where
  | live
  | script (tbl : ℕ)
  | replay (tbl len : ℕ)
  deriving DecidableEq, Repr

/-- The tick whose inputs are captured.
SOURCE: vdispatch.asm:30-33 -/
def captureTick (c : Cpu) : ℕ := (tickWord c + c.cell DELAY_EN) % 65536

/-- Store to the cell of a slot in a page: `MOVR R1,R3 / ADDI #page,R3 / MVO@ R0,R3`.
SOURCE: vdispatch.asm:61-63 -/
def putRing (c : Cpu) (page slot v : ℕ) : Cpu := c.sto ((slot + page) % 65536) v

/-- Store the four words from `r4` on to a slot.
SOURCE: vdispatch.asm:59-75, 93-107 -/
def putRow (c : Cpu) (slot r4 : ℕ) : Cpu :=
  let c := putRing c SEAT_RING slot (c.cell (r4 % 65536))
  let c := putRing c (SEAT_RING + 0x100) slot (c.cell ((r4 + 1) % 65536))
  let c := putRing c SEAT_KP slot (c.cell ((r4 + 2) % 65536))
  putRing c (SEAT_KP + 0x100) slot (c.cell ((r4 + 3) % 65536))

/-- What is stored past the end of the recording.  R3 does not step on as R4 would, so that
`ADDI #$100 / DECR` is one cell short of the next page's slot.
SOURCE: vdispatch.asm:43-55 -/
def putIdle (c : Cpu) (slot : ℕ) : Cpu :=
  let r3 := (slot + SEAT_RING) % 65536
  let c := (c.sto r3 0x40).sto ((r3 + 0x100 + 65535) % 65536) 0x40
  let r3 := (slot + SEAT_KP) % 65536
  (c.sto r3 0).sto ((r3 + 0x100 + 65535) % 65536) 0

/-- The script's sequencer: the machine, and the address of the current row or 0.
SOURCE: vdispatch.asm:176-205 -/
def SCR_STEP (tbl : ℕ) (c : Cpu) : Cpu × ℕ :=
  if c.cell SCR_IDX = 0xFF then (c, 0)
  else
    let row := (c.cell SCR_IDX + tbl) % 65536
    let cnt := c.cell SCR_CNT + 1
    if slt16 cnt (c.cell row) then (c.sto SCR_CNT cnt, row)
    else
      let next := c.cell SCR_IDX + 5
      let c := c.sto SCR_IDX next
      -- a row of no ticks ends the script
      let c := if c.cell ((next + tbl) % 65536) = 0 then c.sto SCR_IDX 0xFF else c
      (c.sto SCR_CNT 0, row)

/-- Every eighth tick the generator steps.
SOURCE: vdispatch.asm:111-122 -/
def stepFuzz (c : Cpu) : Cpu :=
  if c.cell TICK_LO % 8 ≠ 0 then c
  else
    let r0 := rotateAdd (word c SLF_LO SLF_HI) 0x6D2B
    (c.sto SLF_LO r0).sto SLF_HI (swap r0)

/-- Store the generator's discs to a slot.
SOURCE: vdispatch.asm:127-143 -/
def putFuzz (c : Cpu) (slot : ℕ) : Cpu :=
  let c := putRing c SEAT_RING slot (c.cell SLF_LO % 64)
  let c := putRing c (SEAT_RING + 0x100) slot (c.cell SLF_HI % 64)
  let c := putRing c SEAT_KP slot 0
  putRing c (SEAT_KP + 0x100) slot 0

/-- Store the pads to a slot.
SOURCE: vdispatch.asm:148-164 -/
def putPads (c : Cpu) (slot : ℕ) : Cpu :=
  let c := putRing c SEAT_RING slot (c.cell EXEC_IN_L)
  let c := putRing c (SEAT_RING + 0x100) slot (c.cell EXEC_IN_R)
  let c := putRing c SEAT_KP slot (c.cell EXEC_KP_L)
  putRing c (SEAT_KP + 0x100) slot (c.cell EXEC_KP_R)

/-- Fill the rings for the tick `d` ahead.
SOURCE: vdispatch.asm:28-167 -/
def VIRT_CAPTURE (m : CaptureMode) (c : Cpu) : Cpu :=
  let r2 := captureTick c
  let slot := r2 % 256
  match m with
  | .live => putPads c slot
  | .script tbl =>
    let (c, row) := SCR_STEP tbl c
    if row = 0 then putFuzz (stepFuzz c) slot else putRow c slot (row + 1)
  | .replay tbl len => if slt16 r2 len then putRow c slot (r2 * 4 + tbl) else putIdle c slot

/-! ### Trace -/

/-- The table of checksummed ranges: first address, and the address past the last.
SOURCE: debug.asm:100-112 -/
def TRACE_RANGES : List ℕ :=
  [0x015D, 0x01F0, RNG_LO, RNG_HI + 1, RS_SPARE0, RS_SPARE0 + 1, RS_SPARE1, RS_SPARE1 + 1,
    SC_CNT2, SC_CNT7 + 1, RS_SPARE5, RS_SPARE5 + 1, 0, 0]

/-- The inner loop of a checksum, whose test is behind its body: rotate, add the cell at R4, step on,
and go on while R4 is below R2.
SOURCE: debug.asm:32-36, lockstep.asm:468-472 -/
def sumRange (c : Cpu) (r2 r4 acc : ℕ) : ℕ :=
  let acc := rotateAdd acc (c.cell r4)
  if slt16 ((r4 + 1) % 65536) r2 then sumRange c r2 ((r4 + 1) % 65536) acc else acc
termination_by (r2 % 65536 + 131071 - r4 % 65536) % 65536
decreasing_by
  rename_i h
  simp only [slt16, decide_eq_true_eq] at h
  omega

/-- The outer loop, along the table.
SOURCE: debug.asm:23-37 -/
def sumRanges (c : Cpu) : List ℕ → ℕ → ℕ
  | first :: last :: rest, acc =>
    if first = 0 then acc else sumRanges c rest (sumRange c last first acc)
  | _, acc => acc

/-- `LS_CKSUM` with the loops of its listing.
SOURCE: lockstep.asm:465-501 -/
def cksumLoops (c : Cpu) : ℕ :=
  let r0 := sumRange c 0x01F0 0x015D 0
  let r0 := rotateAdd (rotateAdd r0 (c.cell RNG_LO)) (c.cell RNG_HI)
  let r0 := rotateAdd (rotateAdd r0 (c.cell RS_SPARE0)) (c.cell RS_SPARE1)
  let r0 := sumRange c (SC_CNT7 + 1) SC_CNT2 r0
  rotateAdd r0 (c.cell RS_SPARE5)

/-- Note the tick of the first use of the game's RNG.
SOURCE: debug.asm:40-60 -/
def noteRng (c : Cpu) : Cpu :=
  if c.cell RNG_LO = c.cell RNGP_LO ∧ c.cell RNG_HI = c.cell RNGP_HI then c
  else
    let c := (c.sto RNGP_LO (c.cell RNG_LO)).sto RNGP_HI (c.cell RNG_HI)
    if c.cell FIRSTC_LO ≠ 0 ∨ c.cell FIRSTC_HI ≠ 0 then c
    else (c.sto FIRSTC_LO (c.cell TICK_LO + 1)).sto FIRSTC_HI (c.cell TICK_HI)

/-- Store the checksum to the tick's entry of the trace, low byte first, and count the tick.
SOURCE: debug.asm:18-79 -/
def TRACE_TICK (c : Cpu) : Cpu :=
  let r0 := sumRanges c TRACE_RANGES 0
  let c := noteRng c
  let r4 := (c.cell TICK_LO * 2 + TRACE_RING) % 65536
  let c := (c.sto r4 r0).sto ((r4 + 1) % 65536) (swap r0)
  countUp c TICK_LO TICK_HI

/-! ### The local path -/

/-- A build: its inputs, and the tick at which it parks if it traces.
SOURCE: core.asm:1-8 -/
structure LocalBuild where
  mode : CaptureMode
  stop : Option ℕ
  deriving DecidableEq, Repr

/-- What a tick leaves: the machine it finds, the one after the capture, the one at each
dispatch, and the one at the end; and whether the CPU parks there. -/
structure LocalRan where
  start : Cpu
  captured : Cpu
  atSeat0 : Cpu
  atSeat1 : Cpu
  cpu : Cpu
  parked : Bool

/-- A tick without netplay.
SOURCE: hook.asm:142-225, debug.asm:80-88 -/
def MASTER_TICK (b : LocalBuild) (g : Game) (c : Cpu) : LocalRan :=
  let c1 := VIRT_CAPTURE b.mode c
  let c2 := selectSeat (installTable (LS_TBL_ADOPT c1)) 0
  let c3 := selectSeat (LS_VDISPATCH g c2) 1
  let c4 := (LS_TBL_ADOPT (BX_GAME_TICK g (LS_VDISPATCH g c3))).sto EXEC_HTBL NULL_TBL
  match b.stop with
  | none => ⟨c, c1, c2, c3, countUp c4 TICK_LO TICK_HI, false⟩
  | some stop => ⟨c, c1, c2, c3, TRACE_TICK c4, tickWord (TRACE_TICK c4) = stop⟩

end BoxingNetplay.Model
