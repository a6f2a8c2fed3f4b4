import Mathlib.Logic.Function.Basic
import Mathlib.Data.Fin.VecNotation
import BoxingNetplay.Library.Memory

/-!
# A small CP-1610

Eight registers of 16 bits, of which R6 is the stack pointer and R7 the program counter, a memory,
and the interrupt-enable flip-flop.  The stack grows upwards.  Code addresses count
instructions.
-/

set_option autoImplicit false

namespace BoxingNetplay.Library.Cp1610

/-- Registers are written as numerals. -/
instance eight_neZero : NeZero 8 := ⟨by decide⟩

/-- The state of the machine. -/
structure Machine (width : ℕ → ℕ) where
  reg : Fin 8 → ℕ
  word : ∀ r, reg r < 65536
  mem : Memory width
  ie : Bool

/-- The instructions that the modelled code uses. -/
inductive Instr where
  | pshr (r : Fin 8)
  | pulr (r : Fin 8)
  | dis
  | eis
  | jsr (r : Fin 8) (target : ℕ)
  | b (target : ℕ)
  | mvi (a : ℕ) (r : Fin 8)
  | mvo (r : Fin 8) (a : ℕ)
  | swap (r : Fin 8)
  | addr (s d : Fin 8)
  | movr (s d : Fin 8)
  deriving DecidableEq

variable {width : ℕ → ℕ}

namespace Machine

/-- A register takes the low 16 bits of a value. -/
def set (m : Machine width) (r : Fin 8) (v : ℕ) : Machine width where
  reg := Function.update m.reg r (v % 65536)
  word q := by
    by_cases h : q = r
    · subst h
      simpa using Nat.mod_lt v (by omega)
    · simpa [h] using m.word q
  mem := m.mem
  ie := m.ie

/-- A cell takes a value. -/
def sto (m : Machine width) (a v : ℕ) : Machine width := { m with mem := m.mem.store a v }

section Fields

variable (m : Machine width) (r q : Fin 8) (a v : ℕ)

/-- A register that is set holds its value as a word, and the others what they held. -/
@[simp] theorem set_reg : (m.set r v).reg q = if q = r then v % 65536 else m.reg q :=
  Function.update_apply ..
@[simp] theorem set_mem : (m.set r v).mem = m.mem := rfl
@[simp] theorem set_ie : (m.set r v).ie = m.ie := rfl
@[simp] theorem sto_reg : (m.sto a v).reg = m.reg := rfl
@[simp] theorem sto_mem : (m.sto a v).mem = m.mem.store a v := rfl
@[simp] theorem sto_ie : (m.sto a v).ie = m.ie := rfl

end Fields

end Machine

/-- The stack pointer behind a push. -/
def up (p : ℕ) : ℕ := (p + 1) % 65536

/-- The stack pointer behind a pull. -/
def down (p : ℕ) : ℕ := if p = 0 then 65535 else p - 1

/-- Below the last address a push moves the pointer up by one. -/
theorem up_eq {p : ℕ} (h : p + 1 < 65536) : up p = p + 1 := Nat.mod_eq_of_lt h

@[simp] theorem down_succ (p : ℕ) : down (p + 1) = p := by simp [down]

/-- What an instruction does once the program counter is past it. -/
def Instr.act (m : Machine width) : Instr → Machine width
  | .pshr r => (m.sto (m.reg 6) (m.reg r)).set 6 (up (m.reg 6))
  | .pulr r => (m.set 6 (down (m.reg 6))).set r (m.mem.cell (down (m.reg 6)))
  | .dis => { m with ie := false }
  | .eis => { m with ie := true }
  | .jsr r target => (m.set r (m.reg 7)).set 7 target
  | .b target => m.set 7 target
  | .mvi a r => m.set r (m.mem.cell a)
  | .mvo r a => m.sto a (m.reg r)
  | .swap r => m.set r (m.reg r % 256 * 256 + m.reg r / 256)
  | .addr s d => m.set d (m.reg s + m.reg d)
  | .movr s d => m.set d (m.reg s)

/-- An instruction. -/
def Instr.exec (i : Instr) (m : Machine width) : Machine width := i.act (m.set 7 (m.reg 7 + 1))

/-- A run of instructions, each behind the other. -/
def block (is : List Instr) (m : Machine width) : Machine width := is.foldl (fun m i => i.exec m) m

@[simp] theorem block_nil (m : Machine width) : block [] m = m := rfl

@[simp] theorem block_cons (i : Instr) (is : List Instr) (m : Machine width) :
    block (i :: is) m = block is (i.exec m) := rfl

/-- An instruction that goes on to the next and leaves the interrupts as they are. -/
def Instr.straight : Instr → Bool
  | .pshr _ => true
  | .pulr r => r ≠ 7
  | .mvi _ r => r ≠ 7
  | .mvo _ _ => true
  | .swap r => r ≠ 7
  | .addr _ d => d ≠ 7
  | .movr _ d => d ≠ 7
  | _ => false

/-- An instruction that is no branch moves the program counter by one and leaves the interrupts on or off.
-/
theorem Instr.straight_exec {i : Instr} (h : i.straight = true) (m : Machine width) :
    (i.exec m).reg 7 = (m.reg 7 + 1) % 65536 ∧ (i.exec m).ie = m.ie := by
  cases i <;> simp [straight, exec, act] at h ⊢ <;> grind

/-- Control goes through a run of such instructions. -/
theorem straight_block (is : List Instr) (h : ∀ i ∈ is, i.straight = true) (m : Machine width) :
    (block is m).reg 7 = (m.reg 7 + is.length) % 65536 ∧ (block is m).ie = m.ie := by
  induction is generalizing m with
  | nil => simpa using (Nat.mod_eq_of_lt (m.word 7)).symm
  | cons i is ih =>
    obtain ⟨hpc, hie⟩ := Instr.straight_exec (h i List.mem_cons_self) m
    obtain ⟨hpcs, hies⟩ := ih (fun j hj => h j (List.mem_cons_of_mem _ hj)) (i.exec m)
    constructor
    · rw [block_cons, hpcs, hpc, List.length_cons]
      omega
    · rw [block_cons, hies, hie]

end BoxingNetplay.Library.Cp1610
