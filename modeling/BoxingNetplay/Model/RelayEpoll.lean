import Mathlib.Algebra.Group.Nat.Defs
import BoxingNetplay.Model.IntvRelay

/-!
# The event loop of the C relay

`server/c/src/intv-relay.c`, the loop of `main`: a batch of readiness events is served event
by event, and every event carries the tag its descriptor was registered under, which names a slot and
the generation of the slot.
-/

set_option autoImplicit false

namespace BoxingNetplay.Model.IntvRelay

open BoxingNetplay.Model.Wire

/-- The tag of the listening socket.
SOURCE: intv-relay.c:181 -/
abbrev TAG_LISTEN : ℕ := 0xFFFFFFFFFFFFFFFF

/-- The tag of the pipe that wakes the loop for a signal.
SOURCE: intv-relay.c:182 -/
abbrev TAG_SIG : ℕ := 0xFFFFFFFFFFFFFFFE

/-- The generation, as an unsigned 32-bit number, above the slot.
SOURCE: intv-relay.c:317-320 -/
def tag_of (s : Relay) (ci : ℕ) : ℕ := (s.clients ci).gen % 2 ^ 32 * 2 ^ 32 + ci

/-- One event of a batch: its tag, whether the descriptor is writable, whether it is readable, hung
up or in error; and what the world decides when it is served: what `recv()` returns, the connection
`accept()` returns, the results of the sends, and the seeds. -/
structure Reported where
  tag : ℕ
  out : Bool
  inp : Bool
  recv : Recv
  accepted : Option (ℕ × ℕ × Bool)
  kernel : List SendResult
  seeds : List ℕ

/-- The slot a tag selects, if its generation is still that of the tag.
SOURCE: intv-relay.c:1565-1572 -/
def selected (s : Relay) (tag : ℕ) : Option ℕ :=
  let ci := tag % 2 ^ 32
  if ci ≥ MAX_CLIENTS then none
  else if (s.clients ci).in_use = false ∨ (s.clients ci).gen % 2 ^ 32 ≠ tag / 2 ^ 32 then none
  else some ci

/-- The relay, and what the world decides for one event. -/
def facing (s : Relay) (e : Reported) : Relay := { s with kernel := e.kernel, seeds := e.seeds }

section Loop

variable (cfg : Config)

/-- SOURCE: intv-relay.c:1573-1574 -/
def whenWritable (s : Relay) (e : Reported) (ci : ℕ) : Relay :=
  if e.out ∧ (s.clients ci).dead = false then flush (drop cfg) s ci else s

/-- SOURCE: intv-relay.c:1575-1576 -/
def whenReadable (s : Relay) (e : Reported) (ci : ℕ) : Relay :=
  if e.inp ∧ (s.clients ci).dead = false then service cfg s ci e.recv else s

/-- Serve one event of a batch.
SOURCE: intv-relay.c:1548-1577 -/
def turn (s : Relay) (e : Reported) : Relay :=
  let s := facing s e
  if e.tag = TAG_LISTEN then
    match e.accepted with
    | some (ip, now, added) => accept_client s ip now added
    | none => s
  else if e.tag = TAG_SIG then s
  else
    match selected s e.tag with
    | some ci => whenReadable cfg (whenWritable cfg s e ci) e ci
    | none => s

end Loop

end BoxingNetplay.Model.IntvRelay
