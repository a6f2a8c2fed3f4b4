import Mathlib.Algebra.Group.Nat.Defs
import BoxingNetplay.Library.SlotTable

/-!
# The CRC comparators of the two relays

`log_crc` and `log_crc_v1` of `server/c/src/intv-relay.c` on their fixed rows and slots, and
`Server.log_crc` of `server/intv_relay_server.py` on its dictionaries.  Both relays call `log_crc` for a CRC
frame of five payload bytes from a member of a started room; under protocol 1 the C relay calls `log_crc_v1` for
one of four.  A match starts with an empty log.  What they log is recorded: each mismatch, as its tick and the
seats or clients with their checksums.
-/

set_option autoImplicit false

namespace BoxingNetplay.Model

open BoxingNetplay.Library

/-- The fields of a CRC payload: seat, tick, checksum.
SOURCE: intv-relay.c:1139-1141, intv_relay_server.py:471-473 -/
def crcSeat (payload : List ℕ) : ℕ := payload.getD 0 0

/-- The tick a report is about, least byte first. -/
def crcTick (payload : List ℕ) : ℕ := payload.getD 1 0 + payload.getD 2 0 * 256

/-- The checksum it carries. -/
def crcValue (payload : List ℕ) : ℕ := payload.getD 3 0 + payload.getD 4 0 * 256

namespace IntvRelay

/-- SOURCE: intv-relay.c:83-84 -/
abbrev CRC_TICKS : ℕ := 64

abbrev CRC_SEATS : ℕ := 8

/-- SOURCE: intv-relay.c:120-123 -/
structure CrcSlot where
  in_use : Bool
  seat : ℕ
  crc : ℕ

/-- SOURCE: intv-relay.c:125-130 -/
structure CrcRow where
  in_use : Bool
  tick : ℕ
  nseats : ℕ
  s : ℕ → CrcSlot

/-- The branches of the comparator that are not supposed to be taken. -/
inductive CrcUnreachable where
  | tableFull
  | rowFull
  deriving DecidableEq

/-- The part of a room that the comparator uses, and the mismatches it has logged.
SOURCE: intv-relay.c:132-143 -/
structure CrcLog where
  crc_ok : ℕ
  ncrc : ℕ
  crc : ℕ → CrcRow
  mismatches : List (ℕ × List (ℕ × ℕ))
  reached : List CrcUnreachable

/-- A row as `memset` leaves it, but for the two fields set after it.
SOURCE: intv-relay.c:1155-1157 -/
def CrcRow.fresh (tick : ℕ) : CrcRow := ⟨true, tick, 0, fun _ => ⟨false, 0, 0⟩⟩

/-- The log of a match that starts.
SOURCE: intv-relay.c:996-998 -/
def CrcLog.start : CrcLog := ⟨0, 0, fun _ => ⟨false, 0, 0, fun _ => ⟨false, 0, 0⟩⟩, [], []⟩

/-- The row of a tick, taking a free one when it has none.
SOURCE: intv-relay.c:1146-1163 -/
def crcRow (r : CrcLog) (tick : ℕ) : Option (ℕ × CrcLog) :=
  match SlotTable.findKey CrcRow.in_use CrcRow.tick (CRC_TICKS + 1) r.crc tick with
  | some i => some (i, r)
  | none =>
    match SlotTable.findFree CrcRow.in_use (CRC_TICKS + 1) r.crc with
    | some i =>
      some (i, { r with crc := Function.update r.crc i (CrcRow.fresh tick), ncrc := r.ncrc + 1 })
    | none => none

/-- Insert or replace a seat's checksum.
SOURCE: intv-relay.c:1171-1191 -/
def putSeat (row : CrcRow) (seat crc : ℕ) : Option CrcRow :=
  match SlotTable.findKey CrcSlot.in_use CrcSlot.seat CRC_SEATS row.s seat with
  | some i => some { row with s := Function.update row.s i { row.s i with crc := crc } }
  | none =>
    match SlotTable.findFree CrcSlot.in_use CRC_SEATS row.s with
    | some i =>
      some { row with s := Function.update row.s i ⟨true, seat, crc⟩, nseats := row.nseats + 1 }
    | none => none

/-- Give a row up.
SOURCE: intv-relay.c:1203-1204, 1222-1223 -/
def dropRow (r : CrcLog) (i : ℕ) : CrcLog :=
  { r with crc := Function.update r.crc i { r.crc i with in_use := false }, ncrc := r.ncrc - 1 }

/-- The row of the lowest tick goes when there is one too many.
SOURCE: intv-relay.c:1197-1206 -/
def evict (r : CrcLog) : CrcLog :=
  if CRC_TICKS < r.ncrc then
    match SlotTable.lowest CrcRow.in_use CrcRow.tick (CRC_TICKS + 1) r.crc with
    | some i => dropRow r i
    | none => r
  else r

/-- Whether the checksums of a row are one.
SOURCE: intv-relay.c:1212-1219 -/
def rowAgrees (row : CrcRow) : Bool :=
  ((List.range CRC_SEATS).foldl (fun (acc : ℕ × ℕ × Bool) i =>
    if (row.s i).in_use = false then acc
    else if acc.1 = 0 then (acc.1 + 1, (row.s i).crc, acc.2.2)
    else (acc.1 + 1, acc.2.1, if (row.s i).crc ≠ acc.2.1 then false else acc.2.2))
    (0, 0, true)).2.2

/-- The seats of a row with their checksums, in the order they are printed.  An entry takes at most 14 of the
160 characters of the line.
SOURCE: intv-relay.c:1227-1241 -/
def mismatchLine (row : CrcRow) : List (ℕ × ℕ) :=
  (List.range 256).foldl (fun out pass =>
    if out.length < row.nseats then
      (List.range CRC_SEATS).foldl (fun out i =>
        if (row.s i).in_use && (row.s i).seat = pass then out ++ [((row.s i).seat, (row.s i).crc)]
        else out) out
    else out) []

/-- SOURCE: intv-relay.c:1136-1247 -/
def log_crc (r : CrcLog) (nmembers : ℕ) (payload : List ℕ) : CrcLog :=
  match crcRow r (crcTick payload) with
  | none => { r with reached := r.reached ++ [.tableFull] }
  | some (i, r) =>
    match putSeat (r.crc i) (crcSeat payload) (crcValue payload) with
    | none => { r with reached := r.reached ++ [.rowFull] }
    | some row =>
      -- `i` still names the row after an eviction, even of itself
      let r := evict { r with crc := Function.update r.crc i row }
      let row := r.crc i
      if row.nseats < nmembers then r
      else
        let r := if row.in_use then dropRow r i else r
        if rowAgrees row then { r with crc_ok := (r.crc_ok + 1) % 2 ^ 32 }
        else { r with mismatches := r.mismatches ++ [(crcTick payload, mismatchLine row)] }

/-! ### The comparator of protocol 1 -/

/-- A checksum a client has reported.
SOURCE: intv-relay.c:93-97 -/
structure CrcEntry where
  in_use : Bool
  tick : ℕ
  crc : ℕ

/-- The part of a client that this comparator uses.
SOURCE: intv-relay.c:114-116 -/
structure ClientCrc where
  crclog : ℕ → CrcEntry
  ncrclog : ℕ
  crc_ok : ℕ

/-- The clients; the mismatches logged, each with its tick, the client that reports it and the partner, and their
checksums; and whether the branch for a full table was taken. -/
structure CrcPair where
  clients : ℕ → ClientCrc
  mismatches : List (ℕ × (ℕ × ℕ) × (ℕ × ℕ))
  reached : Bool

/-- A client of a match that starts.
SOURCE: intv-relay.c:1039-1044 -/
def ClientCrc.start : ClientCrc := ⟨fun _ => ⟨false, 0, 0⟩, 0, 0⟩

/-- A pair that has just been started, with nothing logged. -/
def CrcPair.start : CrcPair := ⟨fun _ => .start, [], false⟩

/-- The last other member of the room.
SOURCE: intv-relay.c:1078-1082 -/
def crcPartner (members : List ℕ) (ci : ℕ) : Option ℕ :=
  members.foldl (fun partner m => if m ≠ ci then some m else partner) none

/-- Give an entry up.
SOURCE: intv-relay.c:1087-1088, 1130-1131 -/
def ClientCrc.release (c : ClientCrc) (i : ℕ) : ClientCrc :=
  { c with
    crclog := Function.update c.crclog i { c.crclog i with in_use := false }
    ncrclog := c.ncrclog - 1 }

/-- A pair that agrees.
SOURCE: intv-relay.c:1093-1094 -/
def ClientCrc.agree (c : ClientCrc) : ClientCrc := { c with crc_ok := (c.crc_ok + 1) % 2 ^ 32 }

/-- Insert or replace a tick's checksum.
SOURCE: intv-relay.c:1102-1121 -/
def ClientCrc.put (c : ClientCrc) (tick crc : ℕ) : Option ClientCrc :=
  match SlotTable.findKey CrcEntry.in_use CrcEntry.tick (CRC_TICKS + 1) c.crclog tick with
  | some i => some { c with crclog := Function.update c.crclog i { c.crclog i with crc := crc } }
  | none =>
    match SlotTable.findFree CrcEntry.in_use (CRC_TICKS + 1) c.crclog with
    | some i =>
      some { c with crclog := Function.update c.crclog i ⟨true, tick, crc⟩, ncrclog := c.ncrclog + 1 }
    | none => none

/-- The lowest tick goes when there is one too many.
SOURCE: intv-relay.c:1123-1133 -/
def ClientCrc.evict (c : ClientCrc) : ClientCrc :=
  if CRC_TICKS < c.ncrclog then
    match SlotTable.lowest CrcEntry.in_use CrcEntry.tick (CRC_TICKS + 1) c.crclog with
    | some i => c.release i
    | none => c
  else c

/-- The fields of a CRC payload of protocol 1.
SOURCE: intv-relay.c:1074-1075 -/
def crcTickV1 (payload : List ℕ) : ℕ := payload.getD 0 0 + payload.getD 1 0 * 256

/-- The checksum a report of protocol 1 carries. -/
def crcValueV1 (payload : List ℕ) : ℕ := payload.getD 2 0 + payload.getD 3 0 * 256

/-- SOURCE: intv-relay.c:1069-1134 -/
def log_crc_v1 (l : CrcPair) (members : List ℕ) (ci : ℕ) (payload : List ℕ) : CrcPair :=
  match crcPartner members ci with
  | none => l
  | some partner =>
    let log := (l.clients partner).crclog
    match SlotTable.findKey CrcEntry.in_use CrcEntry.tick (CRC_TICKS + 1) log (crcTickV1 payload) with
    | some i =>
      let clients := Function.update l.clients partner ((l.clients partner).release i)
      if (log i).crc ≠ crcValueV1 payload then
        { l with
          clients := clients
          mismatches := l.mismatches ++
            [(crcTickV1 payload, (ci, crcValueV1 payload), (partner, (log i).crc))] }
      else
        let clients := Function.update clients ci (clients ci).agree
        { l with clients := Function.update clients partner (clients partner).agree }
    | none =>
      match (l.clients ci).put (crcTickV1 payload) (crcValueV1 payload) with
      | none => { l with reached := true }
      | some c => { l with clients := Function.update l.clients ci c.evict }

end IntvRelay

namespace RelayServer

/-- `room.crc`, `room.crc_ok`, and the mismatches logged.
SOURCE: intv_relay_server.py:447-451 -/
structure CrcLog where
  crc : List (ℕ × List (ℕ × ℕ))
  crc_ok : ℕ
  mismatches : List (ℕ × List (ℕ × ℕ))

/-- The log of a match that starts. -/
def CrcLog.start : CrcLog := ⟨[], 0, []⟩

/-- Entries in the order of their seats.
SOURCE: intv_relay_server.py:486 -/
def sortedItems (entry : List (ℕ × ℕ)) : List (ℕ × ℕ) :=
  entry.mergeSort fun a b => a.1 < b.1 || (a.1 = b.1 && a.2 ≤ b.2)

/-- The lowest tick goes when there is one too many.
SOURCE: intv_relay_server.py:476-477 -/
def popLowest (crc : List (ℕ × List (ℕ × ℕ))) : List (ℕ × List (ℕ × ℕ)) :=
  if 64 < crc.length then
    match (crc.map Prod.fst).min? with
    | some tick => Dict.del crc tick
    | none => crc
  else crc

/-- SOURCE: intv_relay_server.py:469-490 -/
def log_crc (r : CrcLog) (members : ℕ) (payload : List ℕ) : CrcLog :=
  let tick := crcTick payload
  let entry := Dict.set ((Dict.get r.crc tick).getD []) (crcSeat payload) (crcValue payload)
  let r := { r with crc := popLowest (Dict.set r.crc tick entry) }
  if entry.length < members then r
  else
    let vals := (entry.map Prod.snd).dedup
    let r := { r with crc := Dict.del r.crc tick }
    if vals.length ≠ 1 then
      { r with mismatches := r.mismatches ++ [(tick, sortedItems entry)] }
    else { r with crc_ok := r.crc_ok + 1 }

end RelayServer

end BoxingNetplay.Model
