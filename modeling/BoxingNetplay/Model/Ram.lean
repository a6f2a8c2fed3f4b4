import BoxingNetplay.Library.Memory
import BoxingNetplay.Library.Ring

/-!
# The console: addresses, cells and the machine state

The addresses of `src/ram.asm`, `src/exec_equ.asm` and the register block of
`src/netcode/mailbox.asm` that the modelled routines use, under the names they have there,
for the build `src/main_net.asm` describes (`NET_FUZZ`, `NET_HUD` and `AUTO_JOIN` off).

Scratch RAM (`$0100`-`$01FF`) and cartridge RAM with the mailbox (`$8000`-`$9FFF`) are 8-bit cells;
system RAM, the STIC and the ROM are words.  Registers are 16 bits wide, so an address
computed in a register is taken modulo 65536.

A `Cpu` is the memory, what the console has handed to the network so far, and how the peripheral will answer
the next writes.
Return addresses on the machine stack are not part of it: a `JSR` is a call of a Lean function.
-/

set_option autoImplicit false

namespace BoxingNetplay.Model

open BoxingNetplay.Library

/-! ### Netcode RAM (`ram.asm`) -/

@[simp] abbrev RNG_LO : ℕ := 0x8106
@[simp] abbrev RNG_HI : ℕ := 0x8107
@[simp] abbrev TICK_LO : ℕ := 0x8108
@[simp] abbrev TICK_HI : ℕ := 0x8109
@[simp] abbrev RS_SPARE0 : ℕ := 0x8102
@[simp] abbrev RS_SPARE1 : ℕ := 0x810F
@[simp] abbrev MB_DEV : ℕ := 0x8114
@[simp] abbrev MB_CMD : ℕ := 0x8115
@[simp] abbrev MB_NPARAM : ℕ := 0x8116
@[simp] abbrev MB_TXLEN_LO : ℕ := 0x8117
@[simp] abbrev MB_TXLEN_HI : ℕ := 0x8118
@[simp] abbrev MB_OK : ℕ := 0x8119
@[simp] abbrev MB_ERR : ℕ := 0x811A
@[simp] abbrev MB_PMAX_LO : ℕ := 0x811B
@[simp] abbrev MB_PMAX_HI : ℕ := 0x811C
@[simp] abbrev NAVAIL_LO : ℕ := 0x811D
@[simp] abbrev NAVAIL_HI : ℕ := 0x811E
@[simp] abbrev NREQ_LO : ℕ := 0x8130
@[simp] abbrev NREQ_HI : ℕ := 0x8131
@[simp] abbrev NGOT_LO : ℕ := 0x8132
@[simp] abbrev NGOT_HI : ℕ := 0x8133
@[simp] abbrev RX_WR : ℕ := 0x8134
@[simp] abbrev RX_RD : ℕ := 0x8135
@[simp] abbrev NAME_BUF : ℕ := 0x8150
@[simp] abbrev MENU_SEL : ℕ := 0x815A
@[simp] abbrev LOBBY_CNT : ℕ := 0x815C
@[simp] abbrev NET_SEAT : ℕ := 0x8160
@[simp] abbrev NET_DELAY : ℕ := 0x8161
@[simp] abbrev NET_ACTIVE : ℕ := 0x8162
@[simp] abbrev NET_DROPPED : ℕ := 0x8163
@[simp] abbrev LS_TMPB : ℕ := 0x8168
@[simp] abbrev LS_TMPB2 : ℕ := 0x8169
@[simp] abbrev LS_FROZE : ℕ := 0x816A
@[simp] abbrev LS_SAVE102 : ℕ := 0x816B
@[simp] abbrev LS_WAITC_LO : ℕ := 0x816C
@[simp] abbrev LS_WAITC_HI : ℕ := 0x816D
@[simp] abbrev PP_TMP : ℕ := 0x816E
@[simp] abbrev RESYNC_HOLD : ℕ := 0x8090
@[simp] abbrev RS_R_LO : ℕ := 0x8091
@[simp] abbrev RS_R_HI : ℕ := 0x8092
@[simp] abbrev RS_TO_LO : ℕ := 0x8093
@[simp] abbrev RS_TO_HI : ℕ := 0x8094
@[simp] abbrev RS_TMP : ℕ := 0x8095
@[simp] abbrev RS_POS_LO : ℕ := 0x8096
@[simp] abbrev RS_POS_HI : ℕ := 0x8097
@[simp] abbrev RS_TMP2 : ℕ := 0x8098
@[simp] abbrev GAME_TBL_LO : ℕ := 0x80C0
@[simp] abbrev GAME_TBL_HI : ℕ := 0x80C1
@[simp] abbrev VD_TMP : ℕ := 0x80C2
@[simp] abbrev VD_SIDE : ℕ := 0x80C3
@[simp] abbrev VD_CUR : ℕ := 0x80C4
@[simp] abbrev VD_PREV : ℕ := 0x80C5
@[simp] abbrev VD_KP : ℕ := 0x80C6
@[simp] abbrev VD_KPPRE : ℕ := 0x80C7
@[simp] abbrev DIAG_SLIP : ℕ := 0x8180
@[simp] abbrev DIAG_REJ : ℕ := 0x8181
@[simp] abbrev DIAG_TMO : ℕ := 0x8182
@[simp] abbrev DIAG_ERR : ℕ := 0x8183
@[simp] abbrev PEER_SCR : ℕ := 0x8185
@[simp] abbrev PEER_WHY : ℕ := 0x8186
@[simp] abbrev RS_PEND : ℕ := 0x8187
@[simp] abbrev RS_PTMO : ℕ := 0x8188
@[simp] abbrev RS_WAITED : ℕ := 0x8189
@[simp] abbrev RS_GATE : ℕ := 0x818A
@[simp] abbrev UI_COLOR : ℕ := 0x818B
@[simp] abbrev SC_CNT2 : ℕ := 0x8196
@[simp] abbrev SC_CNT3 : ℕ := 0x8197
@[simp] abbrev SC_CNT4 : ℕ := 0x8198
@[simp] abbrev SC_CNT5 : ℕ := 0x8199
@[simp] abbrev SC_CNT6 : ℕ := 0x819A
@[simp] abbrev SC_CNT7 : ℕ := 0x819B
@[simp] abbrev NET_COUNT : ℕ := 0x819D
@[simp] abbrev RS_SPARE5 : ℕ := 0x819F
@[simp] abbrev SEAT_WM : ℕ := 0x81A0
@[simp] abbrev VD_CTRL : ℕ := 0x81A8
@[simp] abbrev ROOM_CNT : ℕ := 0x81AA
@[simp] abbrev ROOM_HOST : ℕ := 0x81AB
@[simp] abbrev LEFT_SEAT : ℕ := 0x81AC
@[simp] abbrev BX_QUIESCENT : ℕ := 0x81AF
@[simp] abbrev LEFT_NAME : ℕ := 0x81B0
@[simp] abbrev NAME_TBL : ℕ := 0x81C0
@[simp] abbrev RXACC : ℕ := 0x8200
@[simp] abbrev FRMBUF : ℕ := 0x8300
@[simp] abbrev LOBBY_CACHE : ℕ := 0x8380
@[simp] abbrev SEAT_RING : ℕ := 0x8400
@[simp] abbrev SEAT_KP : ℕ := 0x8800
@[simp] abbrev OWN_CRC : ℕ := 0x8C00

/-- The quiescence predicate `RS_PENDING` reads, under the family's name.
SOURCE: ram.asm:207-209 -/
@[simp] abbrev SC_PHASE : ℕ := BX_QUIESCENT

/-! ### EXEC and cartridge cells (`exec_equ.asm`) -/

@[simp] abbrev EXEC_IN_L : ℕ := 0x011F
@[simp] abbrev EXEC_KP_L : ℕ := 0x0121
@[simp] abbrev EXEC_HTBL : ℕ := 0x035D
@[simp] abbrev EXEC_ISR_DEF : ℕ := 0x1126
@[simp] abbrev BX_CNT2_LO : ℕ := 0x0129
@[simp] abbrev BX_CNT2_HI : ℕ := 0x012A
@[simp] abbrev BX_CNT3_LO : ℕ := 0x012B
@[simp] abbrev BX_CNT3_HI : ℕ := 0x012C
@[simp] abbrev BX_CNT4_LO : ℕ := 0x012D
@[simp] abbrev BX_CNT4_HI : ℕ := 0x012E
@[simp] abbrev BX_MATCHOVER : ℕ := 0x017C
@[simp] abbrev SC_PASSLEN : ℕ := 0x0103
/-- The interrupt vector that the game has saved, and jumps through. -/
@[simp] abbrev SC_ISR_SAVE : ℕ := 0x01A8
/-- The EXEC's interrupt phase counter, and its interrupt vector.
SOURCE: lockstep.asm:23-30, resync.asm:512-521 -/
@[simp] abbrev ISR_PHASE : ℕ := 0x0102
@[simp] abbrev ISR_VEC_LO : ℕ := 0x0100
@[simp] abbrev ISR_VEC_HI : ℕ := 0x0101
/-- BACKTAB, the object table and the STIC display registers.
SOURCE: resync.asm:26-27, 481-492 -/
@[simp] abbrev BACKTAB : ℕ := 0x0200
@[simp] abbrev OBJ_TBL : ℕ := 0x031D
@[simp] abbrev STIC_CS : ℕ := 0x0028
@[simp] abbrev STIC_EXT : ℕ := 0x0032

/-! ### Mailbox registers (`mailbox.asm`) -/

@[simp] abbrev FN_SEQ : ℕ := 0x9C03
@[simp] abbrev FN_ACKSEQ : ℕ := 0x9C04
@[simp] abbrev FN_DEVICE : ℕ := 0x9C05
@[simp] abbrev FN_CMD : ℕ := 0x9C06
@[simp] abbrev FN_NPARAM : ℕ := 0x9C07
@[simp] abbrev FN_TXLEN_LO : ℕ := 0x9C08
@[simp] abbrev FN_TXLEN_HI : ℕ := 0x9C09
@[simp] abbrev FN_PARAM_SIZE : ℕ := 0x9C10
@[simp] abbrev FN_PARAM_VAL : ℕ := 0x9C20
@[simp] abbrev FN_TX : ℕ := 0x9C40

/-- Scratch RAM, cartridge RAM and the mailbox are bytes; everything else is a word.
SOURCE: ram.asm:1-7, mailbox.asm:1-4 -/
def cellWidth (a : ℕ) : ℕ :=
  if 0x0100 ≤ a ∧ a ≤ 0x01FF ∨ 0x8000 ≤ a ∧ a ≤ 0x9FFF then 8 else 16

/-- A cell of cartridge RAM or of the mailbox holds a byte. -/
theorem cellWidth_cart {a : ℕ} (h1 : 0x8000 ≤ a) (h2 : a ≤ 0x9FFF) : cellWidth a = 8 := by
  unfold cellWidth
  rw [if_pos (Or.inr ⟨h1, h2⟩)]

/-- A cell of scratch RAM holds a byte. -/
theorem cellWidth_scratch {a : ℕ} (h1 : 0x0100 ≤ a) (h2 : a ≤ 0x01FF) : cellWidth a = 8 := by
  unfold cellWidth
  rw [if_pos (Or.inl ⟨h1, h2⟩)]

/-- A cell of system RAM holds a word. -/
theorem cellWidth_system {a : ℕ} (h1 : 0x0200 ≤ a) (h2 : a ≤ 0x7FFF) : cellWidth a = 16 := by
  unfold cellWidth
  rw [if_neg (by omega)]

/-! ### The machine -/

/-- How the peripheral answers one transaction, and after how many polls.
SOURCE: mailbox.asm:107-169 -/
inductive MbReply where
  | timeout
  | nak (polls err : ℕ)
  | ack (polls : ℕ)
  deriving DecidableEq, Repr

/-- The console: its memory; the bytes its acknowledged `NET_WRITE`s have sent, oldest
first; the answers the peripheral will give to the next `NET_WRITE`s (none listed: it
acknowledges); and the ROM words that follow `SEAT_CLR_TBL`. -/
@[ext]
structure Cpu where
  mem : Memory cellWidth
  out : List ℕ
  replies : List MbReply
  rom : ℕ → ℕ

namespace Cpu

/-- `MVI`: the content of a cell. -/
def cell (c : Cpu) (a : ℕ) : ℕ := c.mem.cell a

/-- `MVO`: store a register. -/
def sto (c : Cpu) (a v : ℕ) : Cpu := { c with mem := c.mem.store a v }

/-- A run of `MVO@` of one register through an auto-incrementing one. -/
def fill (c : Cpu) (a n v : ℕ) : Cpu := { c with mem := c.mem.fill a n v }

/-- A run of `MVO@` of given values through an auto-incrementing register. -/
def blit (c : Cpu) (a : ℕ) (vs : List ℕ) : Cpu := { c with mem := c.mem.blit a vs }

/-- A run of `MVI@`/`MVO@` pairs. -/
def copy (c : Cpu) (src dst n : ℕ) : Cpu := { c with mem := c.mem.copy src dst n }

section Cells

variable (c : Cpu) (a n v x src dst : ℕ) (vs : List ℕ)

@[simp] theorem sto_cell :
    (c.sto a v).cell x = if x = a then v % 2 ^ cellWidth a else c.cell x := rfl
@[simp] theorem sto_out : (c.sto a v).out = c.out := rfl
@[simp] theorem sto_replies : (c.sto a v).replies = c.replies := rfl
@[simp] theorem sto_rom : (c.sto a v).rom = c.rom := rfl

@[simp] theorem fill_cell :
    (c.fill a n v).cell x =
      if a ≤ x ∧ x < a + n then v % 2 ^ cellWidth x else c.cell x := Memory.fill_cell ..
@[simp] theorem fill_out : (c.fill a n v).out = c.out := rfl
@[simp] theorem fill_replies : (c.fill a n v).replies = c.replies := rfl
@[simp] theorem fill_rom : (c.fill a n v).rom = c.rom := rfl

@[simp] theorem blit_cell :
    (c.blit a vs).cell x =
      if a ≤ x ∧ x < a + vs.length then vs.getD (x - a) 0 % 2 ^ cellWidth x
      else c.cell x := Memory.blit_cell ..
@[simp] theorem blit_out : (c.blit a vs).out = c.out := rfl
@[simp] theorem blit_replies : (c.blit a vs).replies = c.replies := rfl
@[simp] theorem blit_rom : (c.blit a vs).rom = c.rom := rfl

/-- Copying between two ranges that do not meet. -/
theorem copy_cell (hsep : dst + n ≤ src ∨ src + n ≤ dst) :
    (c.copy src dst n).cell x =
      if dst ≤ x ∧ x < dst + n then c.cell (src + (x - dst)) % 2 ^ cellWidth x
      else c.cell x := Memory.copy_cell _ _ _ _ _ hsep
@[simp] theorem copy_out : (c.copy src dst n).out = c.out := rfl
@[simp] theorem copy_replies : (c.copy src dst n).replies = c.replies := rfl
@[simp] theorem copy_rom : (c.copy src dst n).rom = c.rom := rfl

end Cells

/-- A cell of cartridge RAM is below 256. -/
theorem cell_lt_cart (c : Cpu) {a : ℕ} (h1 : 0x8000 ≤ a) (h2 : a ≤ 0x9FFF) :
    c.cell a < 256 := by
  exact c.mem.cell_lt a 8 (cellWidth_cart h1 h2)

/-- No cell is wider than a word. -/
theorem cell_lt_word (c : Cpu) (a : ℕ) : c.cell a < 65536 := by
  have h := c.mem.bounded a
  have hw : cellWidth a ≤ 16 := by
    unfold cellWidth
    split <;> omega
  exact lt_of_lt_of_le h (Nat.pow_le_pow_right (by omega) hw)

end Cpu

/-- A console whose memory is all zero and that has sent nothing. -/
instance : Inhabited Cpu := ⟨⟨⟨fun _ => 0, fun _ => Nat.two_pow_pos _, []⟩, [], [], fun _ => 0⟩⟩

/-- `SWAP`: exchange the two bytes of a register. -/
def swap (v : ℕ) : ℕ := v % 256 * 256 + v / 256 % 256

/-- Two byte cells read as a 16-bit word, low byte first: `MVI hi / SWAP / ADD lo`. -/
def word (c : Cpu) (lo hi : ℕ) : ℕ := (c.cell hi * 256 + c.cell lo) % 65536

/-- `CMPR` followed by `BLT`: signed comparison of two 16-bit registers. -/
def slt16 (a b : ℕ) : Bool := (a + 32768) % 65536 < (b + 32768) % 65536

end BoxingNetplay.Model
