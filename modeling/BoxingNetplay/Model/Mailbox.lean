import BoxingNetplay.Model.Ram

/-!
# The FujiNet mailbox driver

`src/netcode/mailbox.asm`: one transaction (`MB_TRANSACT`) and the three calls the netcode
makes through it.  The peripheral's answer is an argument: `NET_STATUS` and `NET_READ` are given theirs by the
poll they belong to, `NET_WRITE` takes the next one the `Cpu` lists.  What the peripheral
itself writes (the reply area, `FN_ACKSEQ`) is not a store of the console.
-/

set_option autoImplicit false

namespace BoxingNetplay.Model

/-- Saturating increment of the 8-bit counter at `a`.
SOURCE: mailbox.asm:40-48 -/
def DIAG_BUMP (c : Cpu) (a : ℕ) : Cpu :=
  if c.cell a = 0xFF then c else c.sto a (c.cell a + 1)

/-- Run the transaction staged in `MB_DEV` .. `MB_TXLEN_HI`.
SOURCE: mailbox.asm:85-169 -/
def MB_TRANSACT (c : Cpu) (reply : MbReply) : Cpu :=
  let c := c.sto FN_DEVICE (c.cell MB_DEV)
  let c := c.sto FN_CMD (c.cell MB_CMD)
  let c := c.sto FN_NPARAM (c.cell MB_NPARAM)
  let c := c.sto FN_TXLEN_LO (c.cell MB_TXLEN_LO)
  let c := c.sto FN_TXLEN_HI (c.cell MB_TXLEN_HI)
  let next := (c.cell FN_ACKSEQ + 1) % 256
  -- the sequence number skips 0
  let c := c.sto FN_SEQ (if next = 0 then 1 else next)
  let trackMax (c : Cpu) (polls : ℕ) : Cpu :=
    if slt16 polls (word c MB_PMAX_LO MB_PMAX_HI) then c
    else (c.sto MB_PMAX_LO polls).sto MB_PMAX_HI (swap polls)
  match reply with
  | .timeout => DIAG_BUMP ((c.sto MB_OK 0).sto MB_ERR 0) DIAG_TMO
  | .nak polls err =>
    DIAG_BUMP (((trackMax c polls).sto MB_ERR err).sto MB_OK 0) DIAG_ERR
  | .ack polls => (trackMax c polls).sto MB_OK 1

/-- What the peripheral answers one pump: to the status request, whether it is
acknowledged, the bytes it says are waiting and the device status byte; to the read
request, whether it is acknowledged and the bytes it delivers, which are at most the 64
the pump asks for.
SOURCE: session.asm:461-477 -/
structure Poll where
  status : MbReply
  avail : ℕ
  devStatus : ℕ
  read : MbReply
  data : List ℕ
  short : data.length ≤ 64
  bytes : ∀ b ∈ data, b < 256

/-- Bytes available on the open channel.
SOURCE: mailbox.asm:177-211 -/
def NET_STATUS (c : Cpu) (p : Poll) : Cpu :=
  let c := (c.sto MB_DEV 0x71).sto MB_CMD 0x53
  let c := c.sto MB_NPARAM 2
  let c := (c.sto FN_PARAM_SIZE 1).sto (FN_PARAM_SIZE + 1) 1
  let c := (c.sto FN_PARAM_VAL 0).sto (FN_PARAM_VAL + 4) 0
  let c := (c.sto MB_TXLEN_LO 0).sto MB_TXLEN_HI 0
  let c := MB_TRANSACT c p.status
  if c.cell MB_OK = 0 then (c.sto NAVAIL_LO 0).sto NAVAIL_HI 0
  else
    let c := (c.sto NAVAIL_LO (p.avail % 256)).sto NAVAIL_HI (p.avail / 256 % 256)
    if p.devStatus = 1 then c else (c.sto MB_ERR p.devStatus).sto MB_OK 0

/-- Read up to `NREQ` bytes; the count delivered is left in `NGOT`.
SOURCE: mailbox.asm:218-248 -/
def NET_READ (c : Cpu) (p : Poll) : Cpu :=
  let c := (c.sto MB_DEV 0x71).sto MB_CMD 0x52
  let c := (c.sto MB_NPARAM 1).sto FN_PARAM_SIZE 2
  let c := c.sto FN_PARAM_VAL (c.cell NREQ_LO)
  let c := c.sto (FN_PARAM_VAL + 1) (c.cell NREQ_HI)
  let c := (c.sto MB_TXLEN_LO 0).sto MB_TXLEN_HI 0
  let c := MB_TRANSACT c p.read
  if c.cell MB_OK = 0 then (c.sto NGOT_LO 0).sto NGOT_HI 0
  else (c.sto NGOT_LO (p.data.length % 256)).sto NGOT_HI (p.data.length / 256 % 256)

/-- Whether the next `NET_WRITE` is acknowledged, and the answers that remain. -/
def nextReply (c : Cpu) : MbReply × List MbReply :=
  match c.replies with
  | [] => (.ack 0, [])
  | r :: rs => (r, rs)

/-- Send the `NREQ` bytes staged at `FN_TX`.  The peripheral takes them when it
acknowledges the transaction.
SOURCE: mailbox.asm:253-270 -/
def NET_WRITE (c : Cpu) : Cpu :=
  let c := (c.sto MB_DEV 0x71).sto MB_CMD 0x57
  let c := (c.sto MB_NPARAM 1).sto FN_PARAM_SIZE 2
  let c := (c.sto FN_PARAM_VAL (c.cell NREQ_LO)).sto MB_TXLEN_LO (c.cell NREQ_LO)
  let c := (c.sto (FN_PARAM_VAL + 1) (c.cell NREQ_HI)).sto MB_TXLEN_HI (c.cell NREQ_HI)
  let bytes := (List.range (word c NREQ_LO NREQ_HI)).map fun i => c.cell (FN_TX + i)
  let reply := nextReply c
  let sent := match reply.1 with
    | .ack _ => bytes
    | _ => []
  MB_TRANSACT { c with out := c.out ++ sent, replies := reply.2 } reply.1

/-- Stage `frame` at `FN_TX` and send it: the pattern every sender of the netcode follows.
SOURCE: lockstep.asm:142-162, resync.asm:122-135 -/
def sendFrame (c : Cpu) (frame : List ℕ) : Cpu :=
  let c := c.blit FN_TX frame
  NET_WRITE ((c.sto NREQ_LO frame.length).sto NREQ_HI 0)

end BoxingNetplay.Model
