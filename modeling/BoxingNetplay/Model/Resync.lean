import BoxingNetplay.Model.Mailbox
import BoxingNetplay.Model.VDispatch

/-!
# Desync detection and recovery

`src/netcode/resync.asm`: the CRC records, the state image (`IMG_GET`, `IMG_PUT`), the host's
push, the guest's applier and the re-baseline.  Image positions run over four
sections: bytes of game scratch, BACKTAB and the object table as low/high halves of
words, and a table of single cells.
-/

set_option autoImplicit false

namespace BoxingNetplay.Model

/-! ### Frame types (`server_cfg.asm`) -/

@[simp] abbrev FT_LOBBY : ℕ := 0x03
@[simp] abbrev FT_START : ℕ := 0x05
@[simp] abbrev FT_INPUT : ℕ := 0x06
@[simp] abbrev FT_CRC : ℕ := 0x07
@[simp] abbrev FT_STATE : ℕ := 0x08
@[simp] abbrev FT_RESYNC : ℕ := 0x09
@[simp] abbrev FT_PEER_LEFT : ℕ := 0x0B
@[simp] abbrev FT_ROOM : ℕ := 0x0E

@[simp] abbrev IMG_S1 : ℕ := 147
@[simp] abbrev IMG_S2 : ℕ := 627
@[simp] abbrev IMG_S3 : ℕ := 755
@[simp] abbrev IMG_TOTAL : ℕ := 769
@[simp] abbrev RS_CHUNK : ℕ := 96
@[simp] abbrev RS_HOLD_TMO : ℕ := 0x0600
@[simp] abbrev RS_PEND_MAX : ℕ := 60

/-! ### CRC records -/

/-- The record slot of a tick's low byte.
SOURCE: resync.asm:52-59, 87-94 -/
def crcSlot (tickLo : ℕ) : ℕ := OWN_CRC + tickLo / 64 % 8 * 4

/-- Record our own checksum for this tick.
SOURCE: resync.asm:50-68 -/
def RS_RECORD_CRC (c : Cpu) : Cpu :=
  c.blit (crcSlot (c.cell TICK_LO))
    [c.cell TICK_LO, c.cell TICK_HI, c.cell LS_TMPB, c.cell LS_TMPB2]

/-- A peer's CRC frame: compare it with our record for its tick.
SOURCE: resync.asm:76-137 -/
def RS_ON_CRC (c : Cpu) : Cpu :=
  if c.cell FRMBUF < 6 then c
  else if c.cell RESYNC_HOLD ≠ 0 then c
  else if c.cell RS_PEND ≠ 0 then c
  else
    let r4 := crcSlot (c.cell (FRMBUF + 3))
    if c.cell r4 ≠ c.cell (FRMBUF + 3) then c
    else if c.cell (r4 + 1) ≠ c.cell (FRMBUF + 4) then c
    else if c.cell (r4 + 2) = c.cell (FRMBUF + 5) ∧ c.cell (r4 + 3) = c.cell (FRMBUF + 6) then c
    else
      let c := (c.sto RS_PEND 1).sto RS_PTMO 0
      if c.cell NET_SEAT = 0 then c
      else sendFrame c [3, FT_RESYNC, c.cell (FRMBUF + 3), c.cell (FRMBUF + 4)]

/-- The guest asked for a push.
SOURCE: resync.asm:142-158 -/
def RS_ON_REQ (c : Cpu) : Cpu :=
  if c.cell NET_SEAT ≠ 0 then c
  else if c.cell RESYNC_HOLD ≠ 0 then c
  else if c.cell RS_PEND ≠ 0 then c
  else (c.sto RS_PEND 1).sto RS_PTMO 0

/-- Invalidate every record.
SOURCE: resync.asm:532-540 -/
def RS_CLR_CRC (c : Cpu) : Cpu := c.fill OWN_CRC 32 0xFF

/-! ### The state image -/

/-- The cells of the fourth section.
SOURCE: resync.asm:550-556 -/
def RS_TAILTBL : List ℕ :=
  [RNG_LO, RNG_HI, RS_SPARE0, RS_SPARE1, SC_CNT2, SC_CNT3, SC_CNT4, SC_CNT5, SC_CNT6, SC_CNT7,
    RS_SPARE5, SC_PASSLEN, GAME_TBL_LO, GAME_TBL_HI]

/-- One half of a word: the high byte when `hi` is odd.
SOURCE: resync.asm:582-588 -/
def wordHalf (w hi : ℕ) : ℕ := if hi = 0 then w % 256 else swap w % 256

/-- The image byte at position `pos`.
SOURCE: resync.asm:558-595 -/
def IMG_GET (c : Cpu) (pos : ℕ) : ℕ :=
  if slt16 pos IMG_S1 then c.cell (0x015D + pos)
  else if slt16 pos IMG_S2 then
    wordHalf (c.cell ((pos - IMG_S1) / 2 + BACKTAB)) ((pos - IMG_S1) % 2)
  else if slt16 pos IMG_S3 then
    wordHalf (c.cell ((pos - IMG_S2) / 2 + OBJ_TBL)) ((pos - IMG_S2) % 2)
  else c.cell (RS_TAILTBL.getD (pos - IMG_S3) 0)

/-- Replace one half of a word by the byte in `RS_TMP`.
SOURCE: resync.asm:623-638 -/
def wordPut (w hi v : ℕ) : ℕ := if hi = 0 then w / 256 * 256 + v else w % 256 + v * 256

/-- Write byte `v` to image position `pos`.
SOURCE: resync.asm:597-647 -/
def IMG_PUT (c : Cpu) (pos v : ℕ) : Cpu :=
  let c := c.sto RS_TMP v
  if slt16 pos IMG_S1 then c.sto (0x015D + pos) (c.cell RS_TMP)
  else if slt16 pos IMG_S2 then
    let a := (pos - IMG_S1) / 2 + BACKTAB
    c.sto a (wordPut (c.cell a) ((pos - IMG_S1) % 2) (c.cell RS_TMP))
  else if slt16 pos IMG_S3 then
    let a := (pos - IMG_S2) / 2 + OBJ_TBL
    c.sto a (wordPut (c.cell a) ((pos - IMG_S2) % 2) (c.cell RS_TMP))
  else c.sto (RS_TAILTBL.getD (pos - IMG_S3) 0) (c.cell RS_TMP)

/-! ### Re-baselining -/

/-- Reassert the static display state from the cartridge header.
SOURCE: resync.asm:481-492 -/
def RS_DISPLAY_RESET (c : Cpu) : Cpu := (c.sto STIC_EXT (c.cell 0x500D)).copy 0x500F STIC_CS 5

/-- Force the saved and the live interrupt vector back to the EXEC default.
SOURCE: resync.asm:512-521 -/
def RS_CLAMP_ISR (c : Cpu) : Cpu :=
  let c := (c.sto SC_ISR_SAVE (EXEC_ISR_DEF % 256)).sto ISR_VEC_LO (EXEC_ISR_DEF % 256)
  (c.sto (SC_ISR_SAVE + 1) (EXEC_ISR_DEF / 256)).sto ISR_VEC_HI (EXEC_ISR_DEF / 256)

/-- Hold the simulation for a resync.
SOURCE: resync.asm:360-368 -/
def RS_ENTER_HOLD (c : Cpu) : Cpu :=
  RS_CLR_CRC (((c.sto RESYNC_HOLD 1).sto RS_TO_LO 0).sto RS_TO_HI 0)

/-- Set the four watermark pairs to `wm`.
SOURCE: resync.asm:401-411, session.asm:705-712 -/
def setWatermarks (c : Cpu) (lo hi : ℕ) : Cpu := c.blit SEAT_WM [lo, hi, lo, hi, lo, hi, lo, hi]

/-- Restart the tick counter at the agreed tick with idle rings.
SOURCE: resync.asm:370-419 -/
def RS_REBASE (c : Cpu) : Cpu :=
  let c := (c.sto RS_PEND 0).sto RS_PTMO 0
  let c := BX_REBASE_HOOK (RS_CLAMP_ISR (RS_DISPLAY_RESET c))
  let c := (c.sto TICK_LO (c.cell RS_R_LO)).sto TICK_HI (c.cell RS_R_HI)
  let c := LS_RING_INIT c
  let wm := (word c RS_R_LO RS_R_HI + c.cell NET_DELAY + 65535) % 65536
  let c := RS_CLR_CRC (setWatermarks c wm (swap wm))
  let c := ((c.sto RESYNC_HOLD 0).sto RS_TO_LO 0).sto RS_TO_HI 0
  (c.sto LS_WAITC_LO 0).sto LS_WAITC_HI 0

/-! ### The host's push -/

/-- Stage the `n` image bytes from position `r2` on at `r3`.
SOURCE: resync.asm:220-228 -/
def stageImage (c : Cpu) (r2 r3 : ℕ) : ℕ → Cpu
  | 0 => c
  | n + 1 =>
    let c := c.sto r3 (IMG_GET c r2)
    stageImage (c.sto RS_TMP2 (c.cell RS_TMP2 + 255)) (r2 + 1) (r3 + 1) n

/-- Send the `n` image bytes from position `pos` on as one chunk.
SOURCE: resync.asm:207-237 -/
def sendChunk (c : Cpu) (pos n : ℕ) : Cpu :=
  let c := (c.sto RS_TMP2 n).sto LS_TMPB n
  let c := c.blit FN_TX [n + 3, FT_STATE, pos, swap pos]
  let c := stageImage c pos (FN_TX + 4) n
  let c := (c.sto RS_POS_LO (pos + n)).sto RS_POS_HI (swap (pos + n))
  NET_WRITE ((c.sto NREQ_LO (c.cell LS_TMPB + 4)).sto NREQ_HI 0)

/-- Send chunks until the position reaches the end of the image.  `fuel` bounds the number
of chunks; nine are sent.
SOURCE: resync.asm:197-238 -/
def sendImage (c : Cpu) : ℕ → Cpu
  | 0 => c
  | fuel + 1 =>
    let pos := word c RS_POS_LO RS_POS_HI
    let left := (IMG_TOTAL + 65536 - pos) % 65536
    if left = 0 then c
    else sendImage (sendChunk c pos (if slt16 left RS_CHUNK then left else RS_CHUNK)) fuel

/-- Hold, BEGIN, the image in chunks, END, re-baseline.
SOURCE: resync.asm:163-256 -/
def RS_PUSH (c : Cpu) : Cpu :=
  let c := RS_ENTER_HOLD c
  let r := (word c TICK_LO TICK_HI + 16) % 65536
  let c := (c.sto RS_R_LO r).sto RS_R_HI (swap r)
  let c := sendFrame c [5, FT_STATE, 0, 0xFF, c.cell RS_R_LO, c.cell RS_R_HI]
  let c := sendImage ((c.sto RS_POS_LO 0).sto RS_POS_HI 0) 9
  RS_REBASE (sendFrame c [3, FT_STATE, 1, 0xFF])

/-- Once per tick on the host: push when quiescent, or when we have waited long enough.
SOURCE: resync.asm:438-470 -/
def RS_PENDING (c : Cpu) : Cpu :=
  if c.cell RS_PEND = 0 then c
  else if c.cell NET_SEAT ≠ 0 then c
  else if c.cell RESYNC_HOLD ≠ 0 then c
  else
    let c := c.sto RS_PTMO (c.cell RS_PTMO + 1)
    let push (c : Cpu) (gate : ℕ) : Cpu :=
      let c := c.sto RS_GATE gate
      RS_PUSH (c.sto RS_WAITED (c.cell RS_PTMO))
    if c.cell SC_PHASE % 2 ≠ 0 then push c 1
    else if c.cell RS_PTMO < RS_PEND_MAX then c
    else push c 2

/-! ### The guest's applier -/

/-- Apply `n` payload bytes from `r3` on at the position in `RS_POS`.
SOURCE: resync.asm:307-326 -/
def applyImage (c : Cpu) (r3 : ℕ) : ℕ → Cpu
  | 0 => c
  | n + 1 =>
    let c := IMG_PUT c (word c RS_POS_LO RS_POS_HI) (c.cell r3)
    let lo := c.cell RS_POS_LO + 1
    let c := c.sto RS_POS_LO lo
    let c := if lo = 0x100 then c.sto RS_POS_HI (c.cell RS_POS_HI + 1) else c
    applyImage (c.sto RS_TMP2 (c.cell RS_TMP2 + 255)) (r3 + 1) n

/-- Count a refused STATE frame.
SOURCE: resync.asm:350-353 -/
def RS_BAD (c : Cpu) : Cpu := DIAG_BUMP c DIAG_REJ

/-- Apply a STATE frame from `FRMBUF`.
SOURCE: resync.asm:267-355 -/
def RS_ON_STATE (c : Cpu) : Cpu :=
  let len := c.cell FRMBUF
  if len < 3 then RS_BAD c
  else if c.cell (FRMBUF + 3) = 0xFF then
    if c.cell (FRMBUF + 2) = 0 then
      -- BEGIN
      if len < 5 then RS_BAD c
      else
        let c := RS_ENTER_HOLD c
        (c.sto RS_R_LO (c.cell (FRMBUF + 4))).sto RS_R_HI (c.cell (FRMBUF + 5))
    else if c.cell (FRMBUF + 2) = 1 ∧ c.cell RESYNC_HOLD ≠ 0 then RS_REBASE c
    else c
  else if c.cell RESYNC_HOLD = 0 then RS_BAD c
  else if len = 3 then RS_BAD c
  else
    let count := len - 3
    let c := c.sto RS_TMP2 count
    let posHi := c.cell (FRMBUF + 3)
    if 4 ≤ posHi then RS_BAD c
    else if IMG_TOTAL + 1 ≤ posHi * 256 + c.cell (FRMBUF + 2) + count then RS_BAD c
    else
      let c := (c.sto RS_POS_LO (c.cell (FRMBUF + 2))).sto RS_POS_HI (c.cell (FRMBUF + 3))
      applyImage c (FRMBUF + 4) count

end BoxingNetplay.Model
