import Mathlib.Data.List.DropRight
import BoxingNetplay.Library.Json

/-!
# The publisher of the C relay

`server/c/src/lobby.c`: what `lobby_start` accepts, the JSON body, the worker thread with its two
waits on one condition variable, `lobby_update` and `lobby_shutdown`; and the payload of
`LobbyPublisher` in `server/intv_relay_server.py`.

The threads interleave between critical sections: what a thread does while it holds `mu` is one
step.  `do_post` holds no mutex and takes two steps, its start and its end.  Times are in
nanoseconds of the monotonic clock.  The log and the HTTP exchange are left out: a POST ends well
or it does not.
-/

set_option autoImplicit false

namespace BoxingNetplay.Model.LobbyPublisher

open BoxingNetplay.Library.Json

abbrev HOST_MAX : ℕ := 256
abbrev PATH_MAX_ : ℕ := 256
abbrev STR_MAX : ℕ := 256
abbrev REGION_MAX : ℕ := 64
abbrev JSON_MAX : ℕ := 4096

/-! ### Strings -/

/-- A C string: its bytes before the NUL. -/
structure CString where
  bytes : List ℕ
  nonzero : ∀ b ∈ bytes, 0 < b ∧ b < 256

/-- A `char` array of `sz` bytes with a string that `copy_ascii` let through. -/
structure AsciiBuffer (sz : ℕ) where
  bytes : List ℕ
  ascii : ∀ b ∈ bytes, 0 < b ∧ b ≤ 0x7F
  fits : bytes.length < sz

/-- The string, unless it is too long or has a byte above `0x7F`.
SOURCE: lobby.c:329-345 -/
def copy_ascii (sz : ℕ) (src : CString) : Option (AsciiBuffer sz) :=
  if hn : sz ≤ src.bytes.length then none
  else if ha : ∃ p ∈ src.bytes, 0x7F < p then none
  else some ⟨src.bytes, fun b hb => ⟨(src.nonzero b hb).1, not_lt.mp fun hlt => ha ⟨b, hb, hlt⟩⟩,
    not_le.mp hn⟩

/-! ### The lobby's address -/

/-- `atoi` of a run of digits: `strtol`, which saturates, cut down to an `int`. -/
def atoi (ds : List ℕ) : ℤ :=
  Int.bmod (min (Nat.ofDigits 10 (ds.reverse.map fun d => d - 48)) (2 ^ 63 - 1) : ℕ) (2 ^ 32)

/-- How much of `host:port` is the host, and the port, which counts only when digits alone follow the
last colon.
SOURCE: lobby.c:376-388 -/
def split_port (hostport : List ℕ) : ℕ × ℤ :=
  let digits := (hostport.reverse.takeWhile fun c => c ≠ 0x3A).reverse
  if 0x3A ∈ hostport ∧ digits ≠ [] ∧ ∀ d ∈ digits, 48 ≤ d ∧ d ≤ 57 then
    (hostport.length - digits.length - 1, atoi digits)
  else (hostport.length, 80)

/-- The bytes of a C string between `i` and a byte `c` that ends them, cut to `k`. -/
def CString.part (s : CString) (i c k : ℕ) : CString :=
  ⟨((s.bytes.drop i).takeWhile fun b => b ≠ c).take k, fun b hb =>
    s.nonzero b (List.mem_of_mem_drop ((List.takeWhile_prefix _).mem (List.mem_of_mem_take hb)))⟩

/-- `http://host[:port][/prefix]` as host, port and `prefix + "/server"`.
SOURCE: lobby.c:349-414 -/
def parse_url (url : CString) : Option (AsciiBuffer HOST_MAX × ℤ × List ℕ) := do
  if ascii "https://" <+: url.bytes then none
  if ¬ ascii "http://" <+: url.bytes then none
  let hostport := (url.bytes.drop 7).takeWhile fun c => c ≠ 0x2F
  let slash := (url.bytes.drop 7).dropWhile fun c => c ≠ 0x2F
  if hostport.length = 0 ∨ HOST_MAX ≤ hostport.length then none
  let (k, port) := split_port hostport
  if port < 1 ∨ 65535 < port then none
  let host ← copy_ascii HOST_MAX (url.part 7 0x2F k)
  if PATH_MAX_ ≤ slash.length then none
  let path := slash.rdropWhile (fun c => c = 0x2F) ++ ascii "/server"
  if PATH_MAX_ ≤ path.length then none
  some (host, port, path)

/-! ### The record -/

/-- The fields of the record.  The pthread objects are in the step relation.
SOURCE: lobby.c:41-62 -/
structure Lobby where
  host : AsciiBuffer HOST_MAX
  path : List ℕ
  port : ℤ
  game : AsciiBuffer STR_MAX
  server : AsciiBuffer STR_MAX
  region : AsciiBuffer REGION_MAX
  serverurl : AsciiBuffer STR_MAX
  client_url : AsciiBuffer STR_MAX
  appkey : ℤ
  maxplayers : ℤ
  curplayers : ℤ
  offline : Bool
  dirty : Bool
  stopping : Bool
  stop_evt : Bool
  failures : ℕ
  keepalive : ℤ

/-- The arguments of `lobby_start`.
SOURCE: lobby.c:416-419 -/
structure Args where
  base_url : CString
  serverurl : CString
  client_url : CString
  appkey : ℤ
  region : CString
  game_name : CString
  server_name : CString
  maxplayers : ℤ
  keepalive : ℤ

/-- The record as `calloc` and the checks of the arguments leave it.
SOURCE: lobby.c:416-455 -/
def lobby_start (a : Args) : Option Lobby := do
  let (host, port, path) ← parse_url a.base_url
  let serverurl ← copy_ascii STR_MAX a.serverurl
  let client_url ← copy_ascii STR_MAX a.client_url
  let game ← copy_ascii STR_MAX a.game_name
  let server ← copy_ascii STR_MAX a.server_name
  let region ← copy_ascii REGION_MAX a.region
  some ⟨host, path, port, game, server, region, serverurl, client_url, a.appkey, a.maxplayers, 0,
    false, false, false, false, 0, a.keepalive⟩

/-! ### The body -/

/-- What one byte of a string becomes.
SOURCE: lobby.c:78-96 -/
def replacement (p : ℕ) : List ℕ :=
  if p = 0x22 then ascii "\\\""
  else if p = 0x5C then ascii "\\\\"
  else if p = 0x08 then ascii "\\b"
  else if p = 0x0C then ascii "\\f"
  else if p = 0x0A then ascii "\\n"
  else if p = 0x0D then ascii "\\r"
  else if p = 0x09 then ascii "\\t"
  else if p < 0x20 then hexEscape p
  else [p]

/-- The loop of `json_esc`, with what it has written so far.
SOURCE: lobby.c:75-106 -/
def json_esc_loop (sz : ℕ) (dst : List ℕ) : List ℕ → Option (List ℕ)
  | [] => if sz ≤ dst.length then none else some dst
  | p :: rest =>
    if sz ≤ dst.length + (replacement p).length then none
    else json_esc_loop sz (dst ++ replacement p) rest

/-- A string with its escapes, in a buffer of `sz` bytes.
SOURCE: lobby.c:72-107 -/
def json_esc (src : List ℕ) (sz : ℕ) : Option (List ℕ) := json_esc_loop sz [] src

/-- The status of the record.
SOURCE: lobby.c:123 -/
def status (offline : Bool) : List ℕ := if offline then ascii "offline" else ascii "online"

/-- The body in a buffer of `sz` bytes.
SOURCE: lobby.c:109-126 -/
def render_json (l : Lobby) (sz : ℕ) : Option (List ℕ) := do
  let g ← json_esc l.game.bytes (STR_MAX * 6)
  let s ← json_esc l.server.bytes (STR_MAX * 6)
  let r ← json_esc l.region.bytes (REGION_MAX * 6)
  let su ← json_esc l.serverurl.bytes (STR_MAX * 6)
  let cu ← json_esc l.client_url.bytes (STR_MAX * 6)
  let buf := ascii "\x7b\"game\": \"" ++ g ++ ascii "\", \"appkey\": " ++ decimal l.appkey ++
    ascii ", \"server\": \"" ++ s ++ ascii "\", \"region\": \"" ++ r ++
    ascii "\", \"serverurl\": \"" ++ su ++ ascii "\", \"status\": \"" ++ status l.offline ++
    ascii "\", \"maxplayers\": " ++ decimal l.maxplayers ++ ascii ", \"curplayers\": " ++
    decimal l.curplayers ++ ascii ", \"clients\": [\x7b\"platform\": \"intv\", \"url\": \"" ++ cu ++
    ascii "\"\x7d]\x7d"
  if sz ≤ buf.length then none else some buf

/-- The dictionary that `LobbyPublisher` keeps and posts.
SOURCE: intv_relay_server.py:520-530, 545, 552 -/
def payload (game server region serverurl client_url : List ℕ) (appkey maxplayers curplayers : ℤ)
    (offline : Bool) : Value :=
  .dict [(ascii "game", .str game), (ascii "appkey", .num appkey), (ascii "server", .str server),
    (ascii "region", .str region), (ascii "serverurl", .str serverurl),
    (ascii "status", .str (status offline)), (ascii "maxplayers", .num maxplayers),
    (ascii "curplayers", .num curplayers),
    (ascii "clients", .list [.dict [(ascii "platform", .str (ascii "intv")),
      (ascii "url", .str client_url)]])]

/-! ### The threads -/

/-- What `render_json` puts into a `snapshot` buffer, and the fields of that moment. -/
structure Snapshot where
  curplayers : ℤ
  offline : Bool
  body : Option (List ℕ)

/-- A snapshot of the record. -/
def Lobby.snapshot (l : Lobby) : Snapshot := ⟨l.curplayers, l.offline, render_json l JSON_MAX⟩

/-- Where `lobby_worker` stands between two steps: before the loop's first critical section,
blocked in its idle wait or woken there and without the mutex yet, before and in `do_post`, behind
a failed one, before the debounce, blocked in it or woken there, and out of the loop. -/
inductive Worker where
  | top
  | idle (dl : ℤ)
  | idleWoken (dl : ℤ) (timedOut : Bool)
  | rendered (snapshot : Snapshot)
  | posting
  | failed
  | posted
  | debounce (d1 : ℤ)
  | debounceWoken
  | done

/-- Where the caller of the publisher stands: it serves, or it is in `lobby_shutdown`, in the join
or in the POST behind it, or back from it, with the snapshot it took.  `joined` tells whether the
join was successful. -/
inductive Caller where
  | serving
  | joining (snapshot : Snapshot)
  | closing (joined : Bool) (snapshot : Snapshot)
  | returned (joined : Bool) (snapshot : Snapshot)

/-- A POST that has started. -/
structure Post where
  time : ℤ
  byWorker : Bool
  snapshot : Snapshot

/-- The record, the clock and the two threads; and, newest first, the POSTs that have started and
the snapshots that the worker has taken. -/
structure Publisher where
  l : Lobby
  now : ℤ
  worker : Worker
  caller : Caller
  posts : List Post
  taken : List Snapshot

/-- A step of the system.  `work` lets the worker take its next one, `sent` ends its POST,
`timeout` and `spurious` end the wait in which it is blocked. -/
inductive Event where
  | update (curplayers : ℤ)
  | shutdown
  | joined
  | joinTimeout
  | closed
  | work
  | sent (ok : Bool)
  | timeout
  | spurious
  | tick (ns : ℕ)

/-- The thread is up.
SOURCE: lobby.c:447 -/
def spawn (l : Lobby) : Publisher := ⟨l, 0, .top, .serving, [], []⟩

/-- `pthread_cond_broadcast` reaches the worker in either of its waits. -/
def Worker.broadcast : Worker → Worker
  | .idle dl => .idleWoken dl false
  | .debounce _ => .debounceWoken
  | w => w

/-- The idle loop with the mutex held: back into the wait, or out with the flag cleared.
SOURCE: lobby.c:303-314 -/
def Publisher.idleLoop (p : Publisher) (dl : ℤ) : Publisher :=
  if !p.l.dirty && !p.l.stopping then { p with worker := .idle dl }
  else
    let l := { p.l with dirty := false }
    if l.stopping then { p with l := l, worker := .done }
    else { p with l := l, worker := .rendered l.snapshot, taken := l.snapshot :: p.taken }

/-- A POST starts when the body has been rendered. -/
def Publisher.doPost (p : Publisher) (byWorker : Bool) (s : Snapshot) : Publisher :=
  if s.body.isSome then { p with posts := ⟨p.now, byWorker, s⟩ :: p.posts } else p

/-- The worker's next step, when it is not blocked.
SOURCE: lobby.c:292-325 -/
def Publisher.work (p : Publisher) : Option Publisher :=
  match p.worker with
  | .top => some (p.idleLoop (p.now + p.l.keepalive))
  | .idleWoken dl timedOut =>
    some ({ p with l := { p.l with dirty := p.l.dirty || timedOut } }.idleLoop dl)
  | .rendered s =>
    some { p.doPost true s with worker := if s.body.isSome then .posting else .posted }
  | .failed => some { p with l := { p.l with failures := p.l.failures + 1 }, worker := .posted }
  | .posted =>
    some { p with worker := if p.l.stop_evt then .top else .debounce (p.now + 1000000000) }
  | .debounceWoken => some { p with worker := .top }
  | _ => none

/-- `lobby_update`, until the record is freed.
SOURCE: lobby.c:457-468 -/
def Publisher.update (p : Publisher) (curplayers : ℤ) : Publisher :=
  if p.l.stopping then p
  else
    { p with
      l := { p.l with curplayers := curplayers, dirty := true }
      worker := p.worker.broadcast }

/-- `lobby_shutdown` up to the join.
SOURCE: lobby.c:481-496 -/
def Publisher.shutdown (p : Publisher) : Publisher :=
  let l := { p.l with stopping := true, stop_evt := true, offline := true }
  { p with l := l, worker := p.worker.broadcast, caller := .joining l.snapshot }

/-- `lobby_shutdown` behind the join: the last POST, unless the body could not be rendered.
SOURCE: lobby.c:502-514 -/
def Publisher.close (p : Publisher) (joined : Bool) (s : Snapshot) : Publisher :=
  { p.doPost false s with
    caller := if s.body.isSome then .closing joined s else .returned joined s }

/-- What an event does, when it can happen. -/
def step (p : Publisher) : Event → Option Publisher
  | .update n =>
    match p.caller with
    | .returned true _ => none
    | _ => some (p.update n)
  | .shutdown =>
    match p.caller with
    | .serving => some p.shutdown
    | _ => none
  | .joined =>
    match p.caller, p.worker with
    | .joining s, .done => some (p.close true s)
    | _, _ => none
  | .joinTimeout =>
    match p.caller with
    | .joining s => some (p.close false s)
    | _ => none
  | .closed =>
    match p.caller with
    | .closing joined s => some { p with caller := .returned joined s }
    | _ => none
  | .work => p.work
  | .sent ok =>
    match p.worker with
    | .posting => some { p with worker := if ok then .posted else .failed }
    | _ => none
  | .timeout =>
    match p.worker with
    | .idle dl => if dl ≤ p.now then some { p with worker := .idleWoken dl true } else none
    | .debounce d1 => if d1 ≤ p.now then some { p with worker := .debounceWoken } else none
    | _ => none
  | .spurious =>
    match p.worker with
    | .idle dl => some { p with worker := .idleWoken dl false }
    | .debounce _ => some { p with worker := .debounceWoken }
    | _ => none
  | .tick ns => some { p with now := p.now + ns }

/-- A run from a successful `lobby_start`, with its events, newest first, each of which meets a
condition in the state it finds. -/
inductive Run (ok : Publisher → Event → Prop) (a : Args) : List Event → Publisher → Prop
  | start {l : Lobby} (h : lobby_start a = some l) : Run ok a [] (spawn l)
  | step {es : List Event} {p p' : Publisher} {e : Event} (hr : Run ok a es p) (hok : ok p e)
      (h : LobbyPublisher.step p e = some p') : Run ok a (e :: es) p'

/-- The argument of the newest `lobby_update`. -/
def newestUpdate : List Event → Option ℤ
  | [] => none
  | .update n :: _ => some n
  | _ :: es => newestUpdate es

end BoxingNetplay.Model.LobbyPublisher
