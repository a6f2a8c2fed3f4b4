import BoxingNetplay.Library.Cp1610
import BoxingNetplay.Model.Ram

/-!
# The RNG wrappers

`BX_RAND1` and `BX_RAND2` of `src/hook.asm`, instruction by instruction, with an interrupt wherever
interrupts are enabled.  Code addresses count instructions from `BX_RAND1` on; the EXEC's two
routines, which are not in the repository, are parameters and run in one step.
-/

set_option autoImplicit false

namespace BoxingNetplay.Model.Rand

open BoxingNetplay.Library BoxingNetplay.Library.Cp1610

/-- SOURCE: exec_equ.asm:7-10 -/
@[simp] abbrev EXEC_RNG : ℕ := 0x035E
@[simp] abbrev X_RAND1 : ℕ := 0x167D
@[simp] abbrev X_RAND2 : ℕ := 0x169E

/-- The CPU stack.
SOURCE: debug.asm:93 -/
@[simp] abbrev STACK : ℕ := 0x02F0
@[simp] abbrev STACK_END : ℕ := 0x031D

@[simp] abbrev BX_RAND1 : ℕ := 0
@[simp] abbrev BX_RAND2 : ℕ := 5
@[simp] abbrev SWAP_OUT : ℕ := 9
@[simp] abbrev SWAP_IN : ℕ := 17

/-- The wrappers with their shared tail and their subroutine.
SOURCE: hook.asm:281-313 -/
def code : List Instr :=
  [.pshr 5, .dis, .jsr 5 SWAP_IN, .jsr 5 X_RAND1, .b SWAP_OUT,
    .pshr 5, .dis, .jsr 5 SWAP_IN, .jsr 5 X_RAND2,
    -- swap_out
    .pshr 1, .mvi EXEC_RNG 1, .mvo 1 RNG_LO, .swap 1, .mvo 1 RNG_HI, .pulr 1, .eis, .pulr 7,
    -- swap_in
    .pshr 1, .pshr 2, .mvi RNG_HI 1, .swap 1, .mvi RNG_LO 2, .addr 2 1, .mvo 1 EXEC_RNG, .pulr 2,
    .pulr 1, .movr 5 7]

/-- The console's machine. -/
abbrev Console := Machine cellWidth

/-- The canonical state of the RNG and the stack below the pointer: what the mainline relies on. -/
def Untouched (sp : ℕ) (m m' : Memory cellWidth) : Prop :=
  m'.cell RNG_LO = m.cell RNG_LO ∧ m'.cell RNG_HI = m.cell RNG_HI ∧
    ∀ a, STACK ≤ a → a < STACK_END → a < sp → m'.cell a = m.cell a

/-- The two routines. -/
inductive Routine where
  | rand1
  | rand2
  deriving DecidableEq

/-- The registers R0 to R4. -/
def args (m : Console) : Fin 5 → ℕ := fun i => m.reg (i.castLE (by omega))

/-- The EXEC's `X_RAND1` and `X_RAND2`: functions of `$035E` and the registers, which preserve R1 and
R2, use no stack but their own, leave the interrupts disabled and return through R5. -/
structure Exec where
  rand : Routine → Console → Console
  value : Routine → ℕ → (Fin 5 → ℕ) → ℕ
  next : Routine → ℕ → (Fin 5 → ℕ) → ℕ
  rand_value : ∀ w m, (rand w m).reg 0 = value w (m.mem.cell EXEC_RNG) (args m)
  rand_next : ∀ w m, (rand w m).mem.cell EXEC_RNG = next w (m.mem.cell EXEC_RNG) (args m)
  rand_kept : ∀ w m, (rand w m).reg 1 = m.reg 1 ∧ (rand w m).reg 2 = m.reg 2 ∧
    (rand w m).reg 6 = m.reg 6
  rand_returns : ∀ w m, (rand w m).reg 7 = m.reg 5
  rand_disabled : ∀ w m, m.ie = false → (rand w m).ie = false
  rand_untouched : ∀ w m, Untouched (m.reg 6) m.mem (rand w m).mem

/-- What interrupts do to the memory, from one instruction to the next; they restore the registers
and know neither the canonical RNG nor what lies on the stack. -/
structure Interrupts where
  isr : ℕ → Console → Memory cellWidth
  isr_untouched : ∀ t m, Untouched (m.reg 6) m.mem (isr t m)

/-- The interrupts that come before an instruction. -/
def interrupt (s : Interrupts) (t : ℕ) (m : Console) : Console :=
  if m.ie then { m with mem := s.isr t m } else m

/-- The program counter is in the wrappers or in one of the routines. -/
def inside (pc : ℕ) : Bool := pc < code.length || pc = X_RAND1 || pc = X_RAND2

/-- One step: interrupts, and an instruction or a routine. -/
def step (x : Exec) (s : Interrupts) (t : ℕ) (m : Console) : Console :=
  let m := interrupt s t m
  if m.reg 7 = X_RAND1 then x.rand .rand1 m
  else if m.reg 7 = X_RAND2 then x.rand .rand2 m
  else
    match code[m.reg 7]? with
    | some i => i.exec m
    | none => m

/-- At most so many steps, until control leaves the wrappers. -/
def steps (x : Exec) (s : Interrupts) : ℕ → Console → Console
  | 0, m => m
  | t + 1, m => if inside (m.reg 7) then steps x s t (step x s t m) else m

/-- More than a call takes. -/
abbrev CALL_STEPS : ℕ := 32

/-- Where a wrapper starts. -/
def entry : Routine → ℕ
  | .rand1 => BX_RAND1
  | .rand2 => BX_RAND2

/-- A call site: which wrapper, with what in R0 to R4. -/
structure Call where
  routine : Routine
  args : Fin 5 → ℕ

/-- The machine behind the `JSR` of a call site: the return address is outside the wrappers and the
stack has room for three words. -/
structure AtCall (c : Call) (m : Console) : Prop where
  pc : m.reg 7 = entry c.routine
  args_eq : args m = c.args
  outside : inside (m.reg 5) = false
  stack_lo : STACK ≤ m.reg 6
  stack_hi : m.reg 6 + 3 ≤ STACK_END

/-- What the caller sees. -/
structure Outcome where
  r0 : ℕ
  r1 : ℕ
  r2 : ℕ
  back : Bool
  deriving DecidableEq

/-- The registers behind a call, and whether control is back at the call site. -/
def outcome (before after : Console) : Outcome :=
  ⟨after.reg 0, after.reg 1, after.reg 2, after.reg 7 = before.reg 5⟩

/-- A run of the game, from call to call.  Between the calls anything may happen, except to the
canonical RNG. -/
inductive Run (x : Exec) : Console → List Call → List Outcome → Console → Prop
  | done (m : Console) : Run x m [] [] m
  | call {m m0 m' : Console} {c : Call} {cs : List Call} {os : List Outcome} (s : Interrupts)
    (hlo : m0.mem.cell RNG_LO = m.mem.cell RNG_LO) (hhi : m0.mem.cell RNG_HI = m.mem.cell RNG_HI)
    (hc : AtCall c m0) (hr : Run x (steps x s CALL_STEPS m0) cs os m') :
    Run x m (c :: cs) (outcome m0 (steps x s CALL_STEPS m0) :: os) m'

end BoxingNetplay.Model.Rand
