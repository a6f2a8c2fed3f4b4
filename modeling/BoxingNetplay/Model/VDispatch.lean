import BoxingNetplay.Model.Ram

/-!
# The game behind the netcode, and virtual dispatch

The original cartridge (`BX_TICK1`, the native timer entries, the event handlers) and the
EXEC's controller scan are not part of the repository.  They are a `Game`: four functions
of the machine, of which only a frame is known: they store below `$8000`, or, through the RNG
wrappers of `src/hook.asm`, into the canonical RNG, and never talk to the mailbox.

Over it, `src/vdispatch.asm`: the handler-table swap and the replay of one seat's ring
cells through the live handler table.
-/

set_option autoImplicit false

namespace BoxingNetplay.Model

open BoxingNetplay.Library

/-- What code outside the netcode may store to.
SOURCE: hook.asm:281-313 (RNG wrappers), ram.asm:1-27 -/
def GameArea : Set ℕ := {a | a < 0x8000 ∨ a = RNG_LO ∨ a = RNG_HI}

/-- The frame of code outside the netcode. -/
structure GameFrame (c c' : Cpu) : Prop where
  writes : WritesIn GameArea c.mem c'.mem
  out : c'.out = c.out
  replies : c'.replies = c.replies
  rom : c'.rom = c.rom

theorem GameFrame.refl (c : Cpu) : GameFrame c c := ⟨WritesIn.refl _ _, rfl, rfl, rfl⟩

/-- The handler table that swallows every event, `NET_NULL_TBL+4`: the table follows the 26
words of `NEW_TIMER_TBL` and the 25 of `NET_START`.
SOURCE: hook.asm:64-79, 103-135 -/
@[simp] abbrev NULL_TBL : ℕ := 0x6037

/-- The code outside the netcode, as it behaves on one occasion: the handler at an
address called with `R0` and `R1`, `BX_TICK1`, the timer entries in slots 2-5, and the scan.
The scan calls what the table at `$035D` lists; through the null table it calls nothing, and
leaves the pointer. -/
structure Game where
  handler : ℕ → ℕ → ℕ → Cpu → Cpu
  tick1 : Cpu → Cpu
  native : Cpu → Cpu
  scan : Cpu → Cpu
  handler_frame : ∀ entry r0 r1 c, GameFrame c (handler entry r0 r1 c)
  tick1_frame : ∀ c, GameFrame c (tick1 c)
  native_frame : ∀ c, GameFrame c (native c)
  scan_frame : ∀ c, GameFrame c (scan c)
  scan_null : ∀ c, c.cell EXEC_HTBL = NULL_TBL → (scan c).cell EXEC_HTBL = NULL_TBL

/-- A cartridge that does nothing. -/
instance : Inhabited Game where
  default :=
    { handler := fun _ _ _ c => c
      tick1 := id
      native := id
      scan := id
      handler_frame := fun _ _ _ _ => ⟨WritesIn.refl _ _, rfl, rfl, rfl⟩
      tick1_frame := fun _ => ⟨WritesIn.refl _ _, rfl, rfl, rfl⟩
      native_frame := fun _ => ⟨WritesIn.refl _ _, rfl, rfl, rfl⟩
      scan_frame := fun _ => ⟨WritesIn.refl _ _, rfl, rfl, rfl⟩
      scan_null := fun _ h => h }

/-- Idle-fill all eight ring pages.
SOURCE: vdispatch.asm:528-541 -/
def LS_RING_INIT (c : Cpu) : Cpu := (c.fill SEAT_RING 1024 0x40).fill SEAT_KP 1024 0

/-- Park whatever table was installed since we last nulled it.
SOURCE: vdispatch.asm:486-494 -/
def LS_TBL_ADOPT (c : Cpu) : Cpu :=
  let t := c.cell EXEC_HTBL
  if t = NULL_TBL then c else (c.sto GAME_TBL_LO t).sto GAME_TBL_HI (swap t)

/-- Call the handler `VD_TMP` bytes into the live table with event value `r0`.
SOURCE: vdispatch.asm:500-524 -/
def LS_VCALL (g : Game) (c : Cpu) (r0 : ℕ) : Cpu :=
  let tbl := c.cell EXEC_HTBL
  if tbl = 0 then c
  else
    let r4 := (tbl + c.cell VD_TMP) % 65536
    let entry := c.cell r4 % 256 + c.cell ((r4 + 1) % 65536) % 256 * 256
    if entry = 0 then c else g.handler entry r0 (c.cell VD_CTRL) c

/-- The cells one dispatch of a seat reads: decoded input and keypad cell, at this tick
and at the one before. -/
structure Cells where
  cur : ℕ
  prev : ℕ
  kp : ℕ
  kppre : ℕ
  deriving DecidableEq, Repr

/-- The slot before the one addressed by `r3`, in the page of the tick's low byte.
SOURCE: vdispatch.asm:390-395 -/
def prevSlot (c : Cpu) (r3 : ℕ) : ℕ :=
  let r3 := (r3 + 65535) % 65536
  if c.cell TICK_LO = 0 then (r3 + 256) % 65536 else r3

/-- The ring reads of `LS_VDISPATCH` for the seat in `VD_SIDE`.
SOURCE: vdispatch.asm:381-411 -/
def VD_READ (c : Cpu) : Cells :=
  let r2 := (swap (c.cell VD_SIDE) + SEAT_RING) % 65536
  let r3 := (c.cell TICK_LO + r2) % 65536
  let k2 := (r2 + (SEAT_KP - SEAT_RING)) % 65536
  let k3 := (c.cell TICK_LO + k2) % 65536
  { cur := c.cell r3, prev := c.cell (prevSlot c r3)
    kp := c.cell k3, kppre := c.cell (prevSlot c k3) }

/-- Replay the events of the seat in `VD_SIDE` at the current tick.
SOURCE: vdispatch.asm:379-482 -/
def LS_VDISPATCH (g : Game) (c : Cpu) : Cpu :=
  let rd := VD_READ c
  let c := (c.sto VD_CUR rd.cur).sto VD_PREV rd.prev
  let c := (c.sto VD_KP rd.kp).sto VD_KPPRE rd.kppre
  -- action-button release
  let pre := c.cell VD_KPPRE
  let c :=
    if pre = 0 ∨ 3 < pre ∨ pre = c.cell VD_KP then c
    else LS_VCALL g (c.sto VD_TMP (pre * 2 + 2)) 0xFFFF
  -- action-button press or held re-fire
  let kp := c.cell VD_KP
  let c :=
    if kp = 0 ∨ 3 < kp then c
    else
      let c := c.sto VD_TMP (kp * 2 + 2)
      LS_VCALL g c (if c.cell VD_KP = c.cell VD_KPPRE then 0 else 1)
  -- fresh decoded event, or disc settle
  let cur := c.cell VD_CUR
  if cur = c.cell VD_PREV then c
  else if cur.testBit 6 = false then
    LS_VCALL g (c.sto VD_TMP (if cur.testBit 7 then 2 else 0)) (cur % 128)
  else if cur.testBit 7 then c
  else LS_VCALL g (c.sto VD_TMP 0) 0xFFFF

/-- The game tick: the original slot-0 body, then the mirrors of the native countdowns
and the quiescence flag.
SOURCE: hook.asm:233-262 -/
def BX_GAME_TICK (g : Game) (c : Cpu) : Cpu :=
  let c := g.tick1 c
  let c := (c.sto SC_CNT2 (c.cell BX_CNT2_LO)).sto SC_CNT3 (c.cell BX_CNT2_HI)
  let c := (c.sto SC_CNT4 (c.cell BX_CNT3_LO)).sto SC_CNT5 (c.cell BX_CNT3_HI)
  let c := (c.sto SC_CNT6 (c.cell BX_CNT4_LO)).sto SC_CNT7 (c.cell BX_CNT4_HI)
  c.sto BX_QUIESCENT (if c.cell BX_MATCHOVER = 0 then 0 else 1)

/-- Restore the native countdowns from their mirrors.
SOURCE: hook.asm:385-398 -/
def BX_REBASE_HOOK (c : Cpu) : Cpu :=
  let c := (c.sto BX_CNT2_LO (c.cell SC_CNT2)).sto BX_CNT2_HI (c.cell SC_CNT3)
  let c := (c.sto BX_CNT3_LO (c.cell SC_CNT4)).sto BX_CNT3_HI (c.cell SC_CNT5)
  (c.sto BX_CNT4_LO (c.cell SC_CNT6)).sto BX_CNT4_HI (c.cell SC_CNT7)

end BoxingNetplay.Model
