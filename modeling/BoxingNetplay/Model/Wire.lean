import Mathlib.Data.Nat.Init
import Mathlib.Tactic.Common

/-!
# The relay protocol on the wire

What `server/c/src/intv-relay.c` and `server/intv_relay_server.py` share: the frame types,
the limits, the frame layout, and the loop that hands a backlog to `send()`.
-/

set_option autoImplicit false

namespace BoxingNetplay.Model.Wire

/-! ### Frame types
SOURCE: intv-relay.c:50-56, intv_relay_server.py:61-64 -/

abbrev T_HELLO : ℕ := 0x01
abbrev T_LIST : ℕ := 0x02
abbrev T_LOBBY : ℕ := 0x03
abbrev T_JOIN : ℕ := 0x04
abbrev T_START : ℕ := 0x05
abbrev T_INPUT : ℕ := 0x06
abbrev T_CRC : ℕ := 0x07
abbrev T_STATE : ℕ := 0x08
abbrev T_RESYNC : ℕ := 0x09
abbrev T_BYE : ℕ := 0x0A
abbrev T_PEER_LEFT : ℕ := 0x0B
abbrev T_PING : ℕ := 0x0C
abbrev T_PONG : ℕ := 0x0D
abbrev T_ROOM : ℕ := 0x0E
abbrev T_GO : ℕ := 0x0F

/-! ### Limits
SOURCE: intv-relay.c:75-91, intv_relay_server.py:66-83 -/

abbrev ROSTER_SLOTS : ℕ := 4
abbrev MAX_TX_BACKLOG : ℕ := 64 * 1024
abbrev MAX_CLIENTS : ℕ := 64
abbrev MAX_CONNECTIONS_PER_IP : ℕ := 8
abbrev LOBBY_ENTRIES : ℕ := 8

/-- `HELLO_TIMEOUT`, 60 seconds, on a clock that counts nanoseconds. -/
abbrev HELLO_TIMEOUT : ℕ := 60 * 1000000000

/-- The frame types that are fanned out to the other members of a started room.
SOURCE: intv-relay.c:1251-1252, intv_relay_server.py:66 -/
def relayed (ftype : ℕ) : Bool :=
  ftype = T_INPUT || ftype = T_CRC || ftype = T_STATE || ftype = T_RESYNC

/-- A frame: the length of type and payload, the type, the payload.
SOURCE: intv-relay.c:246-254 (`frame_build`), intv_relay_server.py:86-89 (`frame`) -/
def frame (ftype : ℕ) (payload : List ℕ) : List ℕ :=
  (payload.length + 1) % 256 :: ftype :: payload

/-- A name in eight bytes.
SOURCE: intv-relay.c:256-263, intv_relay_server.py:92-93 -/
def pad_name (name : List ℕ) : List ℕ :=
  name.take 8 ++ List.replicate (8 - name.length) 0

/-- A padded name has eight bytes. -/
@[simp]
theorem length_pad_name (name : List ℕ) : (pad_name name).length = 8 := by
  simp only [pad_name, List.length_append, List.length_take, List.length_replicate]
  omega

/-- Names in seat order, padded to the four slots of the wire.
SOURCE: intv-relay.c:383-389 (`room_roster`), intv_relay_server.py:107-109 (`Room.roster`) -/
def roster (names : List (List ℕ)) : List ℕ :=
  ((names.take ROSTER_SLOTS).map pad_name).flatten ++
    List.replicate (8 * (ROSTER_SLOTS - names.length)) 0

/-- Padded names have eight bytes each. -/
theorem length_flatten_pad (names : List (List ℕ)) :
    ((names.map pad_name).flatten).length = 8 * names.length := by
  induction names with
  | nil => rfl
  | cons n ns ih =>
    simp only [List.map_cons, List.flatten_cons, List.length_append, length_pad_name, ih,
      List.length_cons]
    omega

/-- A roster has room for four. -/
@[simp]
theorem length_roster (names : List (List ℕ)) : (roster names).length = 32 := by
  simp only [roster, ROSTER_SLOTS, List.length_append, length_flatten_pad, List.length_take,
    List.length_replicate]
  omega

/-- Strip trailing NULs and spaces.
SOURCE: intv-relay.c:790-796 (`rstrip_nul_space`), intv_relay_server.py:384 (`rstrip`) -/
def rstrip (name : List ℕ) : List ℕ :=
  (name.reverse.dropWhile fun b => b = 0 || b = 32).reverse

/-- A byte a name may contain: `A` to `Z` and `0` to `9`.
SOURCE: intv-relay.c:836-837, intv_relay_server.py:67 (`NAME_CHARS`) -/
def nameChar (b : ℕ) : Bool := (65 ≤ b && b ≤ 90) || (48 ≤ b && b ≤ 57)

/-! ### Sending -/

/-- What one `send()` does: take some bytes (`took k` takes `k + 1` of them, or all there are), get
interrupted, find no space, or fail with an error or a return of zero. -/
inductive SendResult where
  | took (k : ℕ)
  | interrupted
  | blocked
  | failed

/-- What the kernel took of a backlog, what is left of it, and the results it has in store. -/
structure Transmit where
  taken : List ℕ
  left : List ℕ
  rest : List SendResult
  failed : Bool

/-- Send until the backlog is empty, there is no space, or it fails.  When no
result is prescribed the kernel takes everything.
SOURCE: intv-relay.c:419-436, intv_relay_server.py:217-228 -/
def transmit : List SendResult → List ℕ → Transmit
  | rest, [] => ⟨[], [], rest, false⟩
  | [], tx => ⟨tx, [], [], false⟩
  | .took k :: rest, tx =>
    let t := transmit rest (tx.drop (k + 1))
    { t with taken := tx.take (k + 1) ++ t.taken }
  | .interrupted :: rest, tx => transmit rest tx
  | .blocked :: rest, tx => ⟨[], tx, rest, false⟩
  | .failed :: rest, tx => ⟨[], tx, rest, true⟩

/-- Nothing is lost, repeated or reordered between the backlog and the kernel. -/
theorem transmit_split (rest : List SendResult) (tx : List ℕ) :
    (transmit rest tx).taken ++ (transmit rest tx).left = tx := by
  fun_induction transmit rest tx with
  | case1 rest => rfl
  | case2 tx h => exact List.append_nil tx
  | case3 k rest tx h t ih =>
    rw [List.append_assoc, ih, List.take_append_drop]
  | case4 rest tx h ih => exact ih
  | case5 rest tx h => rfl
  | case6 rest tx h => rfl

end BoxingNetplay.Model.Wire
