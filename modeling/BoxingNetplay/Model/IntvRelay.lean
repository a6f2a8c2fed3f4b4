import Mathlib.Data.List.Basic
import Mathlib.Logic.Function.Basic
import BoxingNetplay.Model.Wire

/-!
# The C relay

`server/c/src/intv-relay.c`: fixed tables of clients and rooms, the list `by_name`, and
the functions that serve one connection.  Sending to a client may drop it, which
sends to others, which may drop them; the functions between are written over the `drop` they
call, and `drop` itself ties the knot (`dropFuel`), with a bound on how deep it goes.

What `send()` does is prescribed (`kernel`), and so are the match seeds.  The log, the
counters that only the log prints, the published player count and the comparison of the
clients' CRCs, which only goes to the log, are left out.

A client keeps a history of its connection, and the relay a list of the branches it took that
are not supposed to be taken.  Nothing reads either.
-/

set_option autoImplicit false

namespace BoxingNetplay.Model.IntvRelay

open BoxingNetplay.Model.Wire

/-! ### Tables -/

/-- The two generations of the protocol.
SOURCE: intv-relay.c:72-73 -/
inductive Proto where
  | v1
  | v2
  deriving DecidableEq

/-- What the command line sets, within the limits `main` enforces.
SOURCE: intv-relay.c:1405-1449 -/
structure Config where
  proto : Proto
  max_seats : ℕ
  delay : ℕ
  auto_go : ℕ
  two_le : 2 ≤ max_seats
  le_roster : max_seats ≤ ROSTER_SLOTS
  v1_pairs : proto = .v1 → max_seats = 2
  go_le : auto_go ≤ max_seats
  v1_go : proto = .v1 → auto_go = 0

/-- Where a frame for a client comes from: the relay, the start of a match, or a member of a started
room, which its serial number names. -/
inductive Origin where
  | relay
  | start (serial : ℕ)
  | member (serial ci : ℕ)
  deriving DecidableEq

/-- A frame for a client. -/
structure Queued where
  origin : Origin
  bytes : List ℕ
  deriving DecidableEq

/-- A frame from a client, and the started room it was in when it was handled. -/
structure Handled where
  serial : Option ℕ
  bytes : List ℕ
  deriving DecidableEq

/-- A client slot, and the history of its connection: the bytes received, the frames handled, the
frames queued and the bytes the kernel took.
SOURCE: intv-relay.c:104-122 -/
structure Client where
  in_use : Bool
  gen : ℕ
  ip : ℕ
  rx : List ℕ
  tx : List ℕ
  name : List ℕ
  room : Option ℕ
  connected_at : ℕ
  dead : Bool
  received : List ℕ
  handled : List Handled
  queued : List Queued
  wire : List ℕ

/-- A room slot.  The serial number tells one use of the slot from another.
SOURCE: intv-relay.c:137-148 -/
structure Room where
  used : Bool
  members : List ℕ
  started : Bool
  seed : ℕ
  serial : ℕ

/-- Branches the source calls unreachable, and a `drop` nested too deep. -/
inductive Unreachable where
  | clientsFull
  | roomsFull
  | namesFull
  | rxOverflow
  | recursion
  deriving DecidableEq

/-- The relay.
SOURCE: intv-relay.c:164-168 -/
structure Relay where
  clients : ℕ → Client
  rooms : ℕ → Room
  by_name : List (List ℕ × ℕ)
  n_clients : ℕ
  kernel : List SendResult
  seeds : List ℕ
  serial : ℕ
  reached : List Unreachable

/-- SOURCE: intv-relay.c:92 -/
abbrev MAX_ROOMS : ℕ := MAX_CLIENTS / 2

/-- SOURCE: intv-relay.c:90 -/
abbrev RX_CAP : ℕ := 256

/-- A static slot, all zero. -/
def Client.zero : Client := ⟨false, 0, 0, [], [], [], some 0, 0, false, [], [], [], []⟩

/-- A static slot, all zero. -/
def Room.zero : Room := ⟨false, [], false, 0, 0⟩

/-- The relay when `main` enters its loop. -/
def start : Relay := ⟨fun _ => Client.zero, fun _ => Room.zero, [], 0, [], [], 0, []⟩

/-- Change one client slot. -/
def Relay.modify (s : Relay) (ci : ℕ) (f : Client → Client) : Relay :=
  { s with clients := Function.update s.clients ci (f (s.clients ci)) }

/-- Change one room slot. -/
def Relay.modifyRoom (s : Relay) (ri : ℕ) (f : Room → Room) : Relay :=
  { s with rooms := Function.update s.rooms ri (f (s.rooms ri)) }

/-- Note a branch that is not supposed to be taken. -/
def Relay.reach (s : Relay) (u : Unreachable) : Relay := { s with reached := s.reached ++ [u] }

/-! ### Names
SOURCE: intv-relay.c:318-357 -/

/-- The text of a C string: what stands before the first NUL. -/
def cstr (b : List ℕ) : List ℕ := b.takeWhile fun x => x ≠ 0

/-- The client under a name. -/
def name_find (s : Relay) (name : List ℕ) : Option ℕ :=
  (s.by_name.find? fun e => e.1 = name).map Prod.snd

/-- A name that is there keeps its position. -/
def name_set (s : Relay) (name : List ℕ) (ci : ℕ) : Relay :=
  if (name_find s name).isSome then
    { s with by_name := s.by_name.map fun e => if e.1 = name then (name, ci) else e }
  else if s.by_name.length ≥ MAX_CLIENTS then s.reach .namesFull
  else { s with by_name := s.by_name ++ [(name, ci)] }

/-- Remove the entry of a name. -/
def name_del (s : Relay) (name : List ℕ) : Relay :=
  { s with by_name := s.by_name.eraseP fun e => e.1 = name }

/-! ### Rooms
SOURCE: intv-relay.c:361-389 -/

/-- The first free slot becomes a room of one. -/
def room_alloc (s : Relay) (host : ℕ) : Option ℕ × Relay :=
  match (List.range MAX_ROOMS).find? fun i => !(s.rooms i).used with
  | some i =>
    (some i, { s.modifyRoom i (fun _ => ⟨true, [host], false, 0, s.serial⟩) with
      serial := s.serial + 1 })
  | none => (none, s.reach .roomsFull)

/-- The seat of a client, its position among the members. -/
def room_seat (s : Relay) (ri ci : ℕ) : Option ℕ := (s.rooms ri).members.idxOf? ci

/-- Four names of eight bytes. -/
def room_roster (s : Relay) (ri : ℕ) : List ℕ :=
  roster ((s.rooms ri).members.map fun m => (s.clients m).name)

/-- The next match seed. -/
def next_seed (s : Relay) : ℕ × Relay := (s.seeds.headD 1, { s with seeds := s.seeds.tail })

/-! ### Sending -/

section Sending

variable (drop : Relay → ℕ → Relay)

/-- SOURCE: intv-relay.c:415-437 -/
def flush (s : Relay) (ci : ℕ) : Relay :=
  let t := transmit s.kernel (s.clients ci).tx
  let s := { s.modify ci (fun c => { c with tx := t.left, wire := c.wire ++ t.taken }) with
    kernel := t.rest }
  if t.failed then drop s ci else s

/-- SOURCE: intv-relay.c:439-455 -/
def send_raw (s : Relay) (origin : Origin) (ci : ℕ) (data : List ℕ) : Relay :=
  if (s.clients ci).dead then s
  else if (s.clients ci).tx.length + data.length > MAX_TX_BACKLOG then drop s ci
  else
    flush drop (s.modify ci fun c =>
      { c with tx := c.tx ++ data, queued := c.queued ++ [⟨origin, data⟩] }) ci

/-- SOURCE: intv-relay.c:457-462 -/
def send_frame (s : Relay) (origin : Origin) (ci ftype : ℕ) (payload : List ℕ) : Relay :=
  send_raw drop s origin ci (frame ftype payload)

/-- SOURCE: intv-relay.c:578-588 -/
def room_broadcast (s : Relay) (ri : ℕ) : Relay :=
  let payload := (s.rooms ri).members.length % 256 :: room_roster s ri
  -- snapshot: a send can drop
  let mm := (s.rooms ri).members
  mm.foldl (fun s m => send_frame drop s .relay m T_ROOM payload) s

/-- Return every member to solo; `notify` get ROOM count 0.
SOURCE: intv-relay.c:591-601 -/
def dissolve (s : Relay) (ri : ℕ) (notify : List ℕ) : Relay :=
  let s := (s.rooms ri).members.foldl (fun s m => s.modify m fun c => { c with room := none }) s
  let s := notify.foldl
    (fun s m => send_frame drop s .relay m T_ROOM (0 :: List.replicate (8 * ROSTER_SLOTS) 0)) s
  s.modifyRoom ri fun r => { r with members := [], used := false }

/-- SOURCE: intv-relay.c:489-494 -/
def client_free (s : Relay) (ci : ℕ) : Relay :=
  { s.modify ci (fun c => { c with in_use := false, gen := c.gen + 1 }) with
    n_clients := s.n_clients - 1 }

/-- The end of `drop` under protocol 1: the partner is unlinked and told.
SOURCE: intv-relay.c:650-666 -/
def unpair (s : Relay) (ri : ℕ) : Relay :=
  let partner := (s.rooms ri).members.head?
  let s := s.modifyRoom ri fun r => { r with members := [], used := false }
  match partner with
  | some p => send_frame drop (s.modify p fun c => { c with room := none }) .relay p T_PEER_LEFT []
  | none => s

/-- The end of `drop` under protocol 2.  A match ends for everyone; a forming room
dissolves without its host, or with one member left.
SOURCE: intv-relay.c:668-695 -/
def leave (s : Relay) (ri ci : ℕ) (seat : Option ℕ) : Relay :=
  let survivors := (s.rooms ri).members
  if (s.rooms ri).started then
    let pl := seat.getD 255 :: pad_name (s.clients ci).name
    survivors.foldl (fun s m => send_frame drop s .relay m T_PEER_LEFT pl) (dissolve drop s ri [])
  else if seat = some 0 then dissolve drop s ri survivors
  else if survivors.length < 2 then dissolve drop s ri survivors
  else room_broadcast drop s ri

/-- A client is marked, and every alias goes, not just the current name.
SOURCE: intv-relay.c:612-637 -/
def unlist (s : Relay) (ci : ℕ) : Relay :=
  { s.modify ci (fun c => { c with dead := true }) with
    by_name := s.by_name.filter fun e => e.2 ≠ ci }

/-- A client leaves its seat, and the others close up.
SOURCE: intv-relay.c:645-650 -/
def vacate (s : Relay) (ri ci : ℕ) : Relay :=
  (s.modify ci fun c => { c with room := none }).modifyRoom ri fun r =>
    { r with members := r.members.erase ci }

/-- SOURCE: intv-relay.c:603-698 -/
def dropBody (cfg : Config) (s : Relay) (ci : ℕ) : Relay :=
  if (s.clients ci).dead then s
  else
    match (s.clients ci).room with
    | none => client_free (unlist s ci) ci
    | some ri =>
      let seat := room_seat s ri ci
      let s := vacate (unlist s ci) ri ci
      let s := if cfg.proto = .v1 then unpair drop s ri else leave drop s ri ci seat
      client_free s ci

end Sending

/-- `drop`, nested at most `n` deep. -/
def dropFuel (cfg : Config) : ℕ → Relay → ℕ → Relay
  | 0, s, ci => if (s.clients ci).dead then s else s.reach .recursion
  | n + 1, s, ci => dropBody (dropFuel cfg n) cfg s ci

/-- Each nested `drop` is of another client. -/
def drop (cfg : Config) : Relay → ℕ → Relay := dropFuel cfg MAX_CLIENTS

/-! ### Connections -/

/-- SOURCE: intv-relay.c:464-487 -/
def client_alloc (s : Relay) (ip now : ℕ) : Option ℕ × Relay :=
  match (List.range MAX_CLIENTS).find? fun i => !(s.clients i).in_use with
  | some i =>
    (some i, { s.modify i (fun c =>
        ⟨true, c.gen, ip, [], [], [], none, now, false, [], [], [], []⟩) with
      n_clients := s.n_clients + 1 })
  | none => (none, s.reach .clientsFull)

/-- A connection from `ip`; `added` says whether `epoll_ctl` took it.
SOURCE: intv-relay.c:496-546 -/
def accept_client (s : Relay) (ip now : ℕ) (added : Bool) : Relay :=
  if s.n_clients ≥ MAX_CLIENTS then s
  else if ((List.range MAX_CLIENTS).filter fun i =>
      (s.clients i).in_use && (s.clients i).ip = ip).length ≥ MAX_CONNECTIONS_PER_IP then s
  else
    match client_alloc s ip now with
    | (some ci, s) => if added then s else client_free s ci
    | (none, s) => s

/-- SOURCE: intv-relay.c:548-558 -/
def sweepClients (cfg : Config) (s : Relay) (now : ℕ) : Relay :=
  (List.range MAX_CLIENTS).foldl (fun s i =>
    let c := s.clients i
    if c.in_use ∧ c.dead = false ∧ c.name = [] ∧ now - c.connected_at > HELLO_TIMEOUT then
      drop cfg s i
    else s) s

/-! ### Protocol -/

section Protocol

variable (cfg : Config)

/-- SOURCE: intv-relay.c:875-886 -/
def status_byte (s : Relay) (ci : ℕ) : ℕ :=
  match cfg.proto, (s.clients ci).room with
  | .v1, none => 0
  | .v1, some _ => 1
  | .v2, none => 1
  | .v2, some ri =>
    let n := (s.rooms ri).members.length
    let busy := if (s.rooms ri).started ∨ n ≥ cfg.max_seats then 0x80 else 0
    (busy ||| n) % 256

/-- The named clients other than `ci`, in display order, at most eight.
SOURCE: intv-relay.c:896-905 -/
def others (s : Relay) (ci : ℕ) : List ℕ :=
  ((s.by_name.map Prod.snd).filter fun oc => oc ≠ ci ∧ (s.clients oc).name ≠ []).take LOBBY_ENTRIES

/-- SOURCE: intv-relay.c:888-908 -/
def on_list (s : Relay) (ci : ℕ) : Relay :=
  let entries := (others s ci).map fun oc =>
    pad_name (s.clients oc).name ++ [status_byte cfg s oc]
  send_frame (drop cfg) s .relay ci T_LOBBY ((others s ci).length :: entries.flatten)

/-- Take a name and answer with the lobby.
SOURCE: intv-relay.c:842-866 -/
def rename (s : Relay) (ci : ℕ) (name : List ℕ) : Relay :=
  let c := s.clients ci
  let s := if c.name ≠ [] ∧ c.name ≠ name ∧ name_find s c.name = some ci then name_del s c.name
    else s
  let s := s.modify ci fun c => { c with name := name }
  on_list cfg (name_set s name ci) ci

/-- SOURCE: intv-relay.c:799-867 -/
def on_hello (s : Relay) (ci : ℕ) (payload : List ℕ) : Relay :=
  let name := rstrip payload.tail
  if payload.length < 3 then drop cfg s ci
  else if cfg.proto = .v2 ∧ payload.headD 0 ≠ 2 then drop cfg s ci
  else if name.length < 2 ∨ name.length > 8 then drop cfg s ci
  else if ¬ name.all nameChar then drop cfg s ci
  else
    match name_find s name with
    | some old =>
      if old ≠ ci then
        let s := drop cfg s old
        if (s.clients ci).dead then s else rename cfg s ci name
      else rename cfg s ci name
    | none => rename cfg s ci name

/-- SOURCE: intv-relay.c:989-1016 -/
def start_room (s : Relay) (ri : ℕ) : Relay :=
  let (seed, s) := next_seed s
  let s := s.modifyRoom ri fun r => { r with started := true, seed := seed }
  let mm := (s.rooms ri).members
  let origin := Origin.start (s.rooms ri).serial
  let common := [mm.length % 256, seed % 256, seed / 256 % 256, cfg.delay % 256] ++ room_roster s ri
  mm.zipIdx.foldl (fun s m => send_frame (drop cfg) s origin m.1 T_START (m.2 % 256 :: common)) s

/-- SOURCE: intv-relay.c:1022-1063 -/
def start_pair (s : Relay) (host guest : ℕ) : Relay :=
  let (seed, s) := next_seed s
  match room_alloc s host with
  | (none, s) => on_list cfg s guest
  | (some ri, s) =>
    let s := s.modifyRoom ri fun r =>
      { r with members := r.members ++ [guest], started := true, seed := seed }
    let s := s.modify host fun c => { c with room := some ri }
    let s := s.modify guest fun c => { c with room := some ri }
    let common := [seed % 256, seed / 256 % 256, cfg.delay % 256]
    let origin := Origin.start (s.rooms ri).serial
    let s := send_frame (drop cfg) s origin host T_START
      (0 :: common ++ pad_name (s.clients guest).name)
    send_frame (drop cfg) s origin guest T_START (1 :: common ++ pad_name (s.clients host).name)

/-- The JOIN target is gone or unjoinable.
SOURCE: intv-relay.c:940-941, 953-956 -/
def unjoinable (s : Relay) (ci target : ℕ) : Bool :=
  target = ci || (s.clients target).name = [] ||
    match cfg.proto, (s.clients target).room with
    | _, none => false
    | .v1, some _ => true
    | .v2, some ri => (s.rooms ri).started || (s.rooms ri).members.length ≥ cfg.max_seats

/-- Tell a room who is in it, and start it when the rig wants it started.
SOURCE: intv-relay.c:976-978 -/
def announce (s : Relay) (ri : ℕ) : Relay :=
  let s := room_broadcast (drop cfg) s ri
  if cfg.auto_go ≠ 0 ∧ (s.rooms ri).members.length ≥ cfg.auto_go then start_room cfg s ri else s

/-- Append a client to a room.
SOURCE: intv-relay.c:971-978 -/
def join (s : Relay) (ri ci : ℕ) : Relay :=
  let s := s.modifyRoom ri fun r => { r with members := r.members ++ [ci] }
  let s := s.modify ci fun c => { c with room := some ri }
  announce cfg s ri

/-- SOURCE: intv-relay.c:913-979 -/
def on_join (s : Relay) (ci : ℕ) (payload : List ℕ) : Relay :=
  if (s.clients ci).name = [] then drop cfg s ci
  else if (s.clients ci).room.isSome then s
  else if (rstrip payload).length > 8 then on_list cfg s ci
  else
    match name_find s (cstr (rstrip payload)) with
    | none => on_list cfg s ci
    | some target =>
      if unjoinable cfg s ci target then on_list cfg s ci
      else if cfg.proto = .v1 then start_pair cfg s target ci
      else
        match (s.clients target).room with
        | some ri => join cfg s ri ci
        | none =>
          match room_alloc s target with
          | (none, s) => on_list cfg s ci
          | (some ri, s) => join cfg (s.modify target fun c => { c with room := some ri }) ri ci

/-- SOURCE: intv-relay.c:981-990 -/
def on_go (s : Relay) (ci : ℕ) : Relay :=
  match (s.clients ci).room with
  | none => s
  | some ri =>
    if (s.rooms ri).started ∨ room_seat s ri ci ≠ some 0 then s
    else if (s.rooms ri).members.length < 2 ∨ (s.rooms ri).members.length > cfg.max_seats then s
    else start_room cfg s ri

/-- Fan a frame out to the other members of a started room.
SOURCE: intv-relay.c:1253-1274 -/
def relay (s : Relay) (ci ftype : ℕ) (payload : List ℕ) : Relay :=
  match (s.clients ci).room with
  | none => s
  | some ri =>
    if (s.rooms ri).started then
      let mm := (s.rooms ri).members
      let origin := Origin.member (s.rooms ri).serial ci
      mm.foldl (fun s m =>
        if m ≠ ci then send_raw (drop cfg) s origin m (frame ftype payload) else s) s
    else s

/-- SOURCE: intv-relay.c:1249-1294 -/
def handle (s : Relay) (ci ftype : ℕ) (payload : List ℕ) : Relay :=
  if relayed ftype then relay cfg s ci ftype payload
  else if ftype = T_HELLO then on_hello cfg s ci payload
  else if ftype = T_LIST then on_list cfg s ci
  else if ftype = T_JOIN then on_join cfg s ci payload
  else if ftype = T_GO then if cfg.proto = .v1 then drop cfg s ci else on_go cfg s ci
  else if ftype = T_BYE then drop cfg s ci
  else if ftype = T_PING then send_frame (drop cfg) s .relay ci T_PONG []
  else drop cfg s ci

/-- The serial number of the started room a client is in. -/
def matchOf (s : Relay) (ci : ℕ) : Option ℕ :=
  match (s.clients ci).room with
  | some ri => if (s.rooms ri).started then some (s.rooms ri).serial else none
  | none => none

/-- Take one frame off the buffer and handle it. -/
def takeFrame (s : Relay) (ci : ℕ) : Relay :=
  let lenb := (s.clients ci).rx.headD 0
  let body := ((s.clients ci).rx.drop 1).take lenb
  let s := s.modify ci fun c =>
    { c with
      rx := c.rx.drop (lenb + 1), handled := c.handled ++ [⟨matchOf s ci, lenb :: body⟩] }
  handle cfg s ci (body.headD 0) body.tail

/-- Handle the frames that are complete.
SOURCE: intv-relay.c:738-764 -/
def drain : ℕ → Relay → ℕ → Relay
  | 0, s, _ => s
  | fuel + 1, s, ci =>
    match (s.clients ci).rx with
    | [] => s
    | lenb :: rest =>
      -- length validity is checked before completeness
      if lenb = 0 ∨ lenb > 200 then drop cfg s ci
      else if rest.length < lenb then s
      else
        let s := takeFrame cfg s ci
        if (s.clients ci).dead then s else drain fuel s ci

/-- SOURCE: intv-relay.c:717-766 -/
def feed : ℕ → Relay → ℕ → List ℕ → Relay
  | 0, s, _, _ => s
  | fuel + 1, s, ci, p =>
    if p = [] then s
    else
      let space := RX_CAP - (s.clients ci).rx.length
      if space = 0 then drop cfg (s.reach .rxOverflow) ci
      else
        let s := s.modify ci fun c =>
          { c with rx := c.rx ++ p.take space, received := c.received ++ p.take space }
        let s := drain cfg RX_CAP s ci
        if (s.clients ci).dead then s else feed fuel s ci (p.drop space)

/-- What `recv()` returns: bytes, or none at the end of the stream; nothing yet; an error. -/
inductive Recv where
  | got (data : List ℕ)
  | blocked
  | failed

/-- SOURCE: intv-relay.c:768-788 -/
def service (s : Relay) (ci : ℕ) : Recv → Relay
  | .blocked => s
  | .failed => drop cfg s ci
  | .got data => if data = [] then drop cfg s ci else feed cfg data.length s ci data

/-! ### The main loop -/

/-- What `epoll_wait` reports. -/
inductive Event where
  | accept (ip now : ℕ) (added : Bool)
  | writable (ci : ℕ)
  | readable (ci : ℕ) (r : Recv)
  | sweep (now : ℕ)

/-- Serve one event.
SOURCE: intv-relay.c:1541-1576 -/
def serve (s : Relay) : Event → Relay
  | .accept ip now added => accept_client s ip now added
  | .writable ci =>
    if (s.clients ci).in_use ∧ (s.clients ci).dead = false then flush (drop cfg) s ci else s
  | .readable ci r =>
    if (s.clients ci).in_use ∧ (s.clients ci).dead = false then service cfg s ci r else s
  | .sweep now => sweepClients cfg s now

/-- What the world decides for one event: the event, the results of the sends it makes, and the
seeds it draws. -/
structure Input where
  event : Event
  kernel : List SendResult
  seeds : List ℕ

/-- One turn of the loop. -/
def step (s : Relay) (i : Input) : Relay :=
  serve cfg { s with kernel := i.kernel, seeds := i.seeds } i.event

/-- The relay after a sequence of events. -/
def run (is : List Input) : Relay := is.foldl (step cfg) start

end Protocol

end BoxingNetplay.Model.IntvRelay
