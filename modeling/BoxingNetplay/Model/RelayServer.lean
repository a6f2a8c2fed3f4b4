import Mathlib.Data.List.Basic
import Mathlib.Logic.Function.Basic
import BoxingNetplay.Model.Wire

/-!
# The Python relay

`server/intv_relay_server.py`: the objects `Client` and `Room`, the dictionary `by_name`, the set
`clients`, and the methods of `Server`.  Objects are numbered in the order they are made and never
go away; a client that has not been made yet is dead.  `send` may call `drop`, which calls `send`;
the methods between are written over the `drop` they call, and `drop` itself ties the knot, with
as many levels as there are clients connected.

What `send()` does is prescribed (`kernel`), and so are the match seeds.  The log, the
counters, the lobby publisher and the comparison of the clients' CRCs, which only goes to the log,
are left out.

A client keeps a history of its connection, which nothing reads: the bytes received, the frames
queued, and the bytes the kernel took.
-/

set_option autoImplicit false

namespace BoxingNetplay.Model.RelayServer

open BoxingNetplay.Model.Wire

/-! ### Objects -/

/-- The constant `MAX_SEATS` and the command line.  The source as it stands has two seats, and its
comments speak of up to four.
SOURCE: intv_relay_server.py:68, 134-139 -/
structure Config where
  max_seats : ℕ
  delay : ℕ
  auto_go : ℕ
  two_le : 2 ≤ max_seats
  le_roster : max_seats ≤ ROSTER_SLOTS

/-- SOURCE: intv_relay_server.py:65 -/
abbrev PROTO_VER : ℕ := 2

/-- SOURCE: intv_relay_server.py:68 -/
abbrev MAX_SEATS : ℕ := 2

/-- The server of the source, with its two seats. -/
def Config.ofSource (delay auto_go : ℕ) : Config :=
  ⟨MAX_SEATS, delay, auto_go, Nat.le_refl 2, by decide⟩

/-- SOURCE: intv_relay_server.py:110-120 -/
structure Client where
  addr : ℕ
  rx : List ℕ
  tx : List ℕ
  name : Option (List ℕ)
  room : Option ℕ
  connected_at : ℕ
  dead : Bool
  received : List ℕ
  queued : List (List ℕ)
  wire : List ℕ

/-- SOURCE: intv_relay_server.py:91-100 -/
structure Room where
  members : List ℕ
  started : Bool
  seed : ℕ

/-- The server; `connected` is its set `clients`.
SOURCE: intv_relay_server.py:133-147 -/
structure Server where
  clients : ℕ → Client
  rooms : ℕ → Room
  by_name : List (List ℕ × ℕ)
  connected : List ℕ
  next_client : ℕ
  next_room : ℕ
  kernel : List SendResult
  seeds : List ℕ

/-- A client that has not been made. -/
def Client.unmade : Client := ⟨0, [], [], none, none, 0, true, [], [], []⟩

/-- The server when `run` enters its loop. -/
def start : Server :=
  ⟨fun _ => Client.unmade, fun _ => ⟨[], false, 0⟩, [], [], 0, 0, [], []⟩

/-- Change one client. -/
def Server.modify (s : Server) (ci : ℕ) (f : Client → Client) : Server :=
  { s with clients := Function.update s.clients ci (f (s.clients ci)) }

/-- Change one room. -/
def Server.modifyRoom (s : Server) (ri : ℕ) (f : Room → Room) : Server :=
  { s with rooms := Function.update s.rooms ri (f (s.rooms ri)) }

/-! ### The dictionary -/

/-- `by_name.get(name)` -/
def by_name_get (s : Server) (name : List ℕ) : Option ℕ :=
  (s.by_name.find? fun e => e.1 = name).map Prod.snd

/-- `by_name[name] = client`: a name that is there keeps its position. -/
def by_name_set (s : Server) (name : List ℕ) (ci : ℕ) : Server :=
  if (by_name_get s name).isSome then
    { s with by_name := s.by_name.map fun e => if e.1 = name then (name, ci) else e }
  else { s with by_name := s.by_name ++ [(name, ci)] }

/-- `del by_name[name]` -/
def by_name_del (s : Server) (name : List ℕ) : Server :=
  { s with by_name := s.by_name.eraseP fun e => e.1 = name }

/-! ### Sending -/

/-- `for i, m in enumerate(room.members)`, over the list as it is at each turn.  It only ever
gets shorter while the loop runs, so `fuel` turns are enough for a list of that length. -/
def eachMember (f : Server → ℕ → ℕ → Server) (ri : ℕ) : ℕ → ℕ → Server → Server
  | 0, _, s => s
  | fuel + 1, i, s =>
    match (s.rooms ri).members[i]? with
    | none => s
    | some m => eachMember f ri fuel (i + 1) (f s i m)

section Sending

variable (drop : Server → ℕ → Server)

/-- SOURCE: intv_relay_server.py:216-230 -/
def flush (s : Server) (ci : ℕ) : Server :=
  let t := transmit s.kernel (s.clients ci).tx
  let s := { s.modify ci (fun c => { c with tx := t.left, wire := c.wire ++ t.taken }) with
    kernel := t.rest }
  if t.failed then drop s ci else s

/-- SOURCE: intv_relay_server.py:206-214 -/
def send (s : Server) (ci : ℕ) (data : List ℕ) : Server :=
  if (s.clients ci).dead then s
  else if (s.clients ci).tx.length + data.length > MAX_TX_BACKLOG then drop s ci
  else
    flush drop (s.modify ci fun c =>
      { c with tx := c.tx ++ data, queued := c.queued ++ [data] }) ci

/-- The names of the members, on four slots.
SOURCE: intv_relay_server.py:102-104 -/
def roomRoster (s : Server) (ri : ℕ) : List ℕ :=
  roster ((s.rooms ri).members.map fun m => (s.clients m).name.getD [])

/-- SOURCE: intv_relay_server.py:257-260 -/
def room_broadcast (s : Server) (ri : ℕ) : Server :=
  let payload := (s.rooms ri).members.length :: roomRoster s ri
  eachMember (fun s _ m => send drop s m (frame T_ROOM payload)) ri (s.rooms ri).members.length 0 s

/-- SOURCE: intv_relay_server.py:262-268 -/
def dissolve (s : Server) (ri : ℕ) (notify : List ℕ) : Server :=
  let s := (s.rooms ri).members.foldl (fun s m => s.modify m fun c => { c with room := none }) s
  let s := notify.foldl (fun s m => send drop s m (frame T_ROOM (0 :: List.replicate 32 0))) s
  s.modifyRoom ri fun r => { r with members := [] }

/-- A client is marked, and every alias goes, not just the current name.
SOURCE: intv_relay_server.py:270-288 -/
def forget (s : Server) (ci : ℕ) : Server :=
  { s.modify ci (fun c => { c with dead := true }) with
    connected := s.connected.erase ci
    by_name := s.by_name.filter fun e => e.2 ≠ ci }

/-- A client leaves its seat, and the others close up.
SOURCE: intv_relay_server.py:293-295 -/
def vacate (s : Server) (ri ci : ℕ) : Server :=
  (s.modify ci fun c => { c with room := none }).modifyRoom ri fun r =>
    { r with members := r.members.erase ci }

/-- What becomes of a room that a client has left.  A match ends for everyone; a forming room
dissolves without its host, or with one member left.
SOURCE: intv_relay_server.py:296-318 -/
def leave (s : Server) (ri ci seat : ℕ) : Server :=
  let survivors := (s.rooms ri).members
  if (s.rooms ri).started then
    let pl := frame T_PEER_LEFT (seat :: pad_name ((s.clients ci).name.getD []))
    survivors.foldl (fun s m => send drop s m pl) (dissolve drop s ri [])
  else if seat = 0 then dissolve drop s ri survivors
  else if survivors.length < 2 then dissolve drop s ri survivors
  else room_broadcast drop s ri

/-- SOURCE: intv_relay_server.py:270-318 -/
def dropBody (s : Server) (ci : ℕ) : Server :=
  if (s.clients ci).dead then s
  else
    match (s.clients ci).room with
    | none => forget s ci
    | some ri => leave drop (vacate (forget s ci) ri ci) ri ci ((s.rooms ri).members.idxOf ci)

end Sending

/-- `drop`, nested at most `n` deep. -/
def dropFuel : ℕ → Server → ℕ → Server
  | 0, s, _ => s
  | n + 1, s, ci => dropBody (dropFuel n) s ci

/-- Each nested `drop` is of another client that is connected. -/
def drop (s : Server) (ci : ℕ) : Server := dropFuel (s.connected.length + 1) s ci

/-! ### Connections -/

/-- SOURCE: intv_relay_server.py:185-204 -/
def accept (s : Server) (addr now : ℕ) : Server :=
  if s.connected.length ≥ MAX_CLIENTS then s
  else if (s.connected.filter fun c => (s.clients c).addr = addr).length ≥
      MAX_CONNECTIONS_PER_IP then s
  else
    { s.modify s.next_client (fun _ => ⟨addr, [], [], none, none, now, false, [], [], []⟩) with
      connected := s.connected ++ [s.next_client]
      next_client := s.next_client + 1 }

/-- `order` is the order in which the set is listed.
SOURCE: intv_relay_server.py:240-244 -/
def sweep (s : Server) (now : ℕ) (order : List ℕ) : Server :=
  (order.filter fun c => c ∈ s.connected).foldl (fun s c =>
    if (s.clients c).name = none ∧ now - (s.clients c).connected_at > HELLO_TIMEOUT then drop s c
    else s) s

/-! ### Protocol -/

/-- `payload.decode("ascii", "replace")`, as code points. -/
def decode (payload : List ℕ) : List ℕ := payload.map fun b => if b < 128 then b else 0xFFFD

section Protocol

variable (cfg : Config)

/-- SOURCE: intv_relay_server.py:401-408 -/
def status (s : Server) (ci : ℕ) : ℕ :=
  match (s.clients ci).room with
  | none => 1
  | some ri =>
    let n := (s.rooms ri).members.length
    let busy := if (s.rooms ri).started ∨ n ≥ cfg.max_seats then 0x80 else 0
    busy ||| n

/-- The named clients other than `ci`, at most eight. -/
def others (s : Server) (ci : ℕ) : List ℕ :=
  ((s.by_name.map Prod.snd).filter fun c =>
    c ≠ ci ∧ (s.clients c).name.getD [] ≠ []).take LOBBY_ENTRIES

/-- SOURCE: intv_relay_server.py:410-417 -/
def on_list (s : Server) (ci : ℕ) : Server :=
  let entries := (others s ci).map fun c =>
    pad_name ((s.clients c).name.getD []) ++ [status cfg s c]
  send drop s ci (frame T_LOBBY ((others s ci).length :: entries.flatten))

/-- Take a name and answer with the lobby.
SOURCE: intv_relay_server.py:390-399 -/
def rename (s : Server) (ci : ℕ) (name : List ℕ) : Server :=
  let s := match (s.clients ci).name with
    | none => s
    | some n => if n ≠ name ∧ by_name_get s n = some ci then by_name_del s n else s
  let s := s.modify ci fun c => { c with name := some name }
  on_list cfg (by_name_set s name ci) ci

/-- SOURCE: intv_relay_server.py:379-399 -/
def on_hello (s : Server) (ci : ℕ) (payload : List ℕ) : Server :=
  let name := rstrip (decode payload.tail)
  if payload.length < 3 then drop s ci
  else if payload.headD 0 ≠ PROTO_VER then drop s ci
  else if ¬ (2 ≤ name.length ∧ name.length ≤ 8) ∨ ¬ name.all nameChar then drop s ci
  else
    match by_name_get s name with
    | some old => if old ≠ ci then rename cfg (drop s old) ci name else rename cfg s ci name
    | none => rename cfg s ci name

/-- The START for a seat. -/
def startFrame (s : Server) (ri seat : ℕ) : List ℕ :=
  let seed := (s.rooms ri).seed
  frame T_START (seat :: ([(s.rooms ri).members.length, seed % 256, seed / 256, cfg.delay] ++
    roomRoster s ri))

/-- A room starts: it is marked and draws its seed. -/
def begin_room (s : Server) (ri : ℕ) : Server :=
  { s with seeds := s.seeds.tail }.modifyRoom ri fun r =>
    { r with started := true, seed := s.seeds.headD 1 }

/-- A delay that is no byte raises an error, which ends the connection being served.
SOURCE: intv_relay_server.py:456-467, 176-178 -/
def start_room (s : Server) (ri ci : ℕ) : Server :=
  let s := begin_room s ri
  if cfg.delay > 255 then drop s ci
  else
    let common := startFrame cfg s ri
    eachMember (fun s seat m => send drop s m (common seat)) ri (s.rooms ri).members.length 0 s

/-- The JOIN target is gone or unjoinable.
SOURCE: intv_relay_server.py:429-435 -/
def unjoinable (s : Server) (ci target : ℕ) : Bool :=
  target = ci || (s.clients target).name = none ||
    match (s.clients target).room with
    | none => false
    | some ri => (s.rooms ri).started || (s.rooms ri).members.length ≥ cfg.max_seats

/-- Append a client to a room, tell the room, and start it when the rig wants it started.
SOURCE: intv_relay_server.py:440-446 -/
def join (s : Server) (ri ci : ℕ) : Server :=
  let s := s.modifyRoom ri fun r => { r with members := r.members ++ [ci] }
  let s := s.modify ci fun c => { c with room := some ri }
  let s := room_broadcast drop s ri
  if cfg.auto_go ≠ 0 ∧ (s.rooms ri).members.length ≥ cfg.auto_go then start_room cfg s ri ci else s

/-- `Room(target)`
SOURCE: intv_relay_server.py:436-439 -/
def make_room (s : Server) (target : ℕ) : Server :=
  { (s.modifyRoom s.next_room fun _ => ⟨[target], false, 0⟩).modify target
      (fun c => { c with room := some s.next_room }) with
    next_room := s.next_room + 1 }

/-- SOURCE: intv_relay_server.py:419-446 -/
def on_join (s : Server) (ci : ℕ) (payload : List ℕ) : Server :=
  if (s.clients ci).name = none then drop s ci
  else if (s.clients ci).room.isSome then s
  else
    match by_name_get s (rstrip (decode payload)) with
    | none => on_list cfg s ci
    | some target =>
      if unjoinable cfg s ci target then on_list cfg s ci
      else
        match (s.clients target).room with
        | some ri => join cfg s ri ci
        | none => join cfg (make_room s target) s.next_room ci

/-- SOURCE: intv_relay_server.py:448-454 -/
def on_go (s : Server) (ci : ℕ) : Server :=
  match (s.clients ci).room with
  | none => s
  | some ri =>
    if (s.rooms ri).started ∨ (s.rooms ri).members.idxOf ci ≠ 0 then s
    else if ¬ (2 ≤ (s.rooms ri).members.length ∧ (s.rooms ri).members.length ≤ cfg.max_seats) then s
    else start_room cfg s ri ci

/-- Fan a frame out to the other members of a started room.
SOURCE: intv_relay_server.py:353-363 -/
def relay (s : Server) (ci ftype : ℕ) (payload : List ℕ) : Server :=
  match (s.clients ci).room with
  | none => s
  | some ri =>
    if (s.rooms ri).started then
      eachMember (fun s _ m => if m ≠ ci then send drop s m (frame ftype payload) else s) ri
        (s.rooms ri).members.length 0 s
    else s

/-- A `ProtocolError` ends the connection.
SOURCE: intv_relay_server.py:352-377 -/
def handle (s : Server) (ci ftype : ℕ) (payload : List ℕ) : Server :=
  if relayed ftype then relay s ci ftype payload
  else if ftype = T_HELLO then on_hello cfg s ci payload
  else if ftype = T_LIST then on_list cfg s ci
  else if ftype = T_JOIN then on_join cfg s ci payload
  else if ftype = T_GO then on_go cfg s ci
  else if ftype = T_BYE then drop s ci
  else if ftype = T_PING then send drop s ci (frame T_PONG [])
  else drop s ci

/-- The frame at the front of a client's buffer, when it is complete. -/
def frontFrame (s : Server) (ci : ℕ) : Option (ℕ × List ℕ) :=
  match (s.clients ci).rx with
  | [] => none
  | lenb :: rest =>
    if lenb = 0 ∨ lenb > 200 ∨ rest.length < lenb then none
    else some ((rest.take lenb).headD 0, (rest.take lenb).tail)

/-- A client's buffer without the frame at its front. -/
def takeFront (s : Server) (ci : ℕ) : Server :=
  s.modify ci fun c => { c with rx := c.rx.drop (c.rx.headD 0 + 1) }

/-- Handle the frames that are complete.
SOURCE: intv_relay_server.py:332-350 -/
def serviceLoop : ℕ → Server → ℕ → Server
  | 0, s, _ => s
  | fuel + 1, s, ci =>
    match (s.clients ci).rx with
    | [] => s
    | lenb :: rest =>
      if lenb = 0 ∨ lenb > 200 then drop s ci
      else if rest.length < lenb then s
      else
        let s := handle cfg (takeFront s ci) ci ((rest.take lenb).headD 0) (rest.take lenb).tail
        if (s.clients ci).dead then s else serviceLoop fuel s ci

/-- What `recv()` does: return bytes, or none at the end of the stream; nothing yet; an error. -/
inductive Recv where
  | got (data : List ℕ)
  | blocked
  | failed

/-- Bytes are appended to a client's buffer. -/
def receive (s : Server) (ci : ℕ) (data : List ℕ) : Server :=
  s.modify ci fun c => { c with rx := c.rx ++ data, received := c.received ++ data }

/-- SOURCE: intv_relay_server.py:320-350 -/
def service (s : Server) (ci : ℕ) : Recv → Server
  | .blocked => s
  | .failed => drop s ci
  | .got data =>
    if data = [] then drop s ci
    else serviceLoop cfg ((s.clients ci).rx.length + data.length) (receive s ci data) ci

/-! ### The main loop -/

/-- What `select` reports: a connection, a client whose socket is writable or readable; or the
second that passes between sweeps. -/
inductive Event where
  | accept (addr now : ℕ)
  | ready (ci : ℕ) (writable : Bool) (readable : Option Recv)
  | sweep (now : ℕ) (order : List ℕ)

/-- The writable half of a client's turn.
SOURCE: intv_relay_server.py:172-173 -/
def serveWrite (s : Server) (ci : ℕ) (writable : Bool) : Server :=
  if writable ∧ (s.clients ci).dead = false then flush drop s ci else s

/-- The readable half.
SOURCE: intv_relay_server.py:174-175 -/
def serveRead (s : Server) (ci : ℕ) : Option Recv → Server
  | some r => if (s.clients ci).dead = false then service cfg s ci r else s
  | none => s

/-- Serve one event.
SOURCE: intv_relay_server.py:163-180 -/
def serve (s : Server) : Event → Server
  | .accept addr now => accept s addr now
  | .ready ci writable readable => serveRead cfg (serveWrite s ci writable) ci readable
  | .sweep now order => sweep s now order

/-- What the world decides for one event: the event, the results of the sends it makes, and the
seeds it draws. -/
structure Input where
  event : Event
  kernel : List SendResult
  seeds : List ℕ

/-- The server with the results and the seeds an event will meet. -/
def Input.world (i : Input) (s : Server) : Server := { s with kernel := i.kernel, seeds := i.seeds }

/-- One event. -/
def step (s : Server) (i : Input) : Server := serve cfg (i.world s) i.event

/-- The server after a sequence of events. -/
def run (is : List Input) : Server := is.foldl (step cfg) start

end Protocol

end BoxingNetplay.Model.RelayServer
