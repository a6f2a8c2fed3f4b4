import BoxingNetplay.Model.Ram

/-!
# BACKTAB text output

`src/ui/text.asm`: the three primitives the session screens are drawn with.  A ROM string is
the list of its character codes; a string in RAM is read cell by cell.
-/

set_option autoImplicit false

namespace BoxingNetplay.Model

@[simp] abbrev C_BLACK : ℕ := 0
@[simp] abbrev C_YELLOW : ℕ := 6
@[simp] abbrev C_WHITE : ℕ := 7

/-- The card word of a character in a colour: `(ch - 32) << 3 XOR colour`.
SOURCE: text.asm:97-101 -/
def card (ch color : ℕ) : ℕ := Nat.xor ((ch + 65504) % 65536 * 8 % 65536) color

/-- A ROM string as `STRING` assembles it.
SOURCE: session.asm:1083-1120 -/
def romString (s : String) : List ℕ := s.toList.map Char.toNat

/-- Blank BACKTAB and reset the text colour.
SOURCE: text.asm:67-79 -/
def UI_CLS (c : Cpu) : Cpu := (c.sto UI_COLOR C_WHITE).fill BACKTAB 240 0

/-- The loop of `UI_PRINT`, from the address in `R4` on.
SOURCE: text.asm:91-100 -/
def UI_PRINT_loop (c : Cpu) (r4 color : ℕ) : List ℕ → Cpu
  | [] => c
  | ch :: rest => UI_PRINT_loop (c.sto r4 (card ch color)) ((r4 + 1) % 65536) color rest

/-- Print a ROM string at BACKTAB offset `off` in `UI_COLOR`.
SOURCE: text.asm:83-102 -/
def UI_PRINT (c : Cpu) (off : ℕ) (s : List ℕ) : Cpu :=
  UI_PRINT_loop c ((off + BACKTAB) % 65536) (c.cell UI_COLOR % 8) s

/-- The loop of `UI_PRINTN`: at most `n` characters, stopping at a NUL.
SOURCE: text.asm:113-126 -/
def UI_PRINTN_loop (c : Cpu) (r4 r5 color : ℕ) : ℕ → Cpu
  | 0 => c
  | n + 1 =>
    if c.cell r5 = 0 then c
    else UI_PRINTN_loop (c.sto r4 (card (c.cell r5) color)) ((r4 + 1) % 65536)
      ((r5 + 1) % 65536) color n

/-- Print at most `n` characters of the string in RAM at `src`.
SOURCE: text.asm:106-127 -/
def UI_PRINTN (c : Cpu) (off src n : ℕ) : Cpu :=
  UI_PRINTN_loop c ((off + BACKTAB) % 65536) src (c.cell UI_COLOR % 8) n

end BoxingNetplay.Model
