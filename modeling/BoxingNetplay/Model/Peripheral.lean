import Mathlib.Data.Nat.Init
import Mathlib.Tactic.Common

/-!
# The mailbox between the console and its peripheral

`MB_TRANSACT` one mailbox access at a time, and a peripheral that takes a request when it sees
`FN_SEQ` differ from `FN_ACKSEQ`, writes the reply area when it is done and then
sets `FN_ACKSEQ` to the number of the request it has taken.  Either moves at any time.

Every reply remembers which call of `MB_TRANSACT` numbered the request it answers and what the registers
held when that was taken; neither the console nor the peripheral reads this.
-/

set_option autoImplicit false

namespace BoxingNetplay.Model.Peripheral

/-- The cells of a request: device, command, parameters, lengths and payload.
SOURCE: mailbox.asm:8-21 -/
abbrev Registers := ℕ → ℕ

/-- A request the peripheral has taken, and whether its reply is written. -/
structure Taken where
  seq : ℕ
  call : ℕ
  request : Registers
  replied : Bool

/-- What the reply area holds: whether `FN_REPLY_CMD` is an ACK, and what the reply answers. -/
structure Reply where
  call : ℕ
  request : Registers
  accepted : Bool

/-- Where the console is: outside a transaction; staging the cells of a request; with `FN_ACKSEQ`
read, about to write `FN_SEQ`; polling; about to read `FN_REPLY_CMD`.
SOURCE: mailbox.asm:85-169 -/
inductive Doing where
  | idle
  | staging (writes : List (ℕ × ℕ))
  | numbering (ack : ℕ)
  | polling (expected polls : ℕ)
  | acked

/-- The mailbox and its two users. -/
structure Mailbox where
  regs : Registers
  seq : ℕ
  ackseq : ℕ
  reply : Reply
  taken : Option Taken
  doing : Doing
  ok : Bool
  call : ℕ
  numbered : ℕ

/-- The number of the next request; it skips 0.
SOURCE: mailbox.asm:98-104 -/
def nextSeq (ack : ℕ) : ℕ := if (ack + 1) % 256 = 0 then 1 else (ack + 1) % 256

/-- The poll counter wraps after this many polls.
SOURCE: mailbox.asm:106-110 -/
abbrev POLL_LIMIT : ℕ := 65536

/-- A mailbox with nothing in progress. -/
def start (regs : Registers) (seq : Fin 256) (reply : Reply) : Mailbox :=
  ⟨regs, seq, seq, { reply with call := 0 }, none, .idle, false, 0, 0⟩

/-- The next access of the console.
SOURCE: mailbox.asm:85-169 -/
def consoleStep (m : Mailbox) : Mailbox :=
  match m.doing with
  | .idle => m
  | .staging ((a, v) :: writes) =>
    { m with regs := Function.update m.regs a v, doing := .staging writes }
  | .staging [] => { m with doing := .numbering m.ackseq }
  | .numbering ack =>
    { m with seq := nextSeq ack, numbered := m.call, doing := .polling (nextSeq ack) 0 }
  | .polling expected polls =>
    if m.ackseq = expected then { m with doing := .acked }
    else if polls + 1 = POLL_LIMIT then { m with doing := .idle, ok := false }
    else { m with doing := .polling expected (polls + 1) }
  | .acked => { m with doing := .idle, ok := m.reply.accepted }

/-- What happens next: a call of `MB_TRANSACT` whose request these stores stage; an access of the
console; the peripheral takes a request, writes its reply, acknowledges it. -/
inductive Event where
  | transact (writes : List (ℕ × ℕ))
  | console
  | take
  | answer (accepted : Bool)
  | acknowledge

/-- One event; one that is not possible changes nothing. -/
def step (m : Mailbox) : Event → Mailbox
  | .transact writes =>
    match m.doing with
    | .idle => { m with doing := .staging writes, call := m.call + 1 }
    | _ => m
  | .console => consoleStep m
  | .take =>
    match m.taken with
    | none =>
      if m.seq = m.ackseq then m
      else { m with taken := some ⟨m.seq, m.numbered, m.regs, false⟩ }
    | some _ => m
  | .answer accepted =>
    match m.taken with
    | some t =>
      if t.replied then m
      else { m with
        reply := ⟨t.call, t.request, accepted⟩
        taken := some { t with replied := true } }
    | none => m
  | .acknowledge =>
    match m.taken with
    | some t => if t.replied then { m with ackseq := t.seq, taken := none } else m
    | none => m

/-- The mailbox after a sequence of events. -/
def run (m : Mailbox) (es : List Event) : Mailbox := es.foldl step m

end BoxingNetplay.Model.Peripheral
