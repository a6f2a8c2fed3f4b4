import BoxingNetplay.Model.LobbyPublisher

/-!
# What a step of the publisher does

The steps that are possible, each with what it finds and what it leaves.
-/

set_option autoImplicit false

namespace BoxingNetplay.Interface.LobbyWorker

open BoxingNetplay.Library.Json
open BoxingNetplay.Model.LobbyPublisher

/-- The worker waits, leaves the loop or takes a snapshot. -/
inductive Loops (p : Publisher) : Publisher → Prop
  | waits (dl : ℤ) (hd : p.l.dirty = false) (hs : p.l.stopping = false) :
    Loops p { p with worker := .idle dl }
  | leaves (hs : p.l.stopping = true) :
    Loops p { p with l := { p.l with dirty := false }, worker := .done }
  | takes (l : Lobby) (hs : p.l.stopping = false) (hl : l = { p.l with dirty := false }) :
    Loops p { p with l := l, worker := .rendered l.snapshot, taken := l.snapshot :: p.taken }

theorem loops_idleLoop (p : Publisher) (dl : ℤ) : Loops p (p.idleLoop dl) := by
  unfold Publisher.idleLoop
  cases hs : p.l.stopping with
  | true => simpa [hs] using Loops.leaves hs
  | false =>
    cases hd : p.l.dirty with
    | true => simpa [hs, hd] using Loops.takes _ hs rfl
    | false => simpa [hs, hd] using Loops.waits dl hd hs

/-- A step of the system, with what it needs. -/
inductive Moves (p : Publisher) : Event → Publisher → Prop
  | ignored {n : ℤ} (hs : p.l.stopping = true) : Moves p (.update n) p
  | update {n : ℤ} (hs : p.l.stopping = false) :
    Moves p (.update n)
      { p with
        l := { p.l with curplayers := n, dirty := true }
        worker := p.worker.broadcast }
  | shutdown (hc : p.caller = .serving) : Moves p .shutdown p.shutdown
  | joined {s : Snapshot} (hc : p.caller = .joining s) (hw : p.worker = .done) :
    Moves p .joined (p.close true s)
  | joinTimeout {s : Snapshot} (hc : p.caller = .joining s) : Moves p .joinTimeout (p.close false s)
  | closed {joined : Bool} {s : Snapshot} (hc : p.caller = .closing joined s) :
    Moves p .closed { p with caller := .returned joined s }
  | top {p' : Publisher} (hw : p.worker = .top) (hp : Loops p p') : Moves p .work p'
  | woken {q p' : Publisher} {dl : ℤ} {timedOut : Bool} (hw : p.worker = .idleWoken dl timedOut)
    (hq : q = { p with l := { p.l with dirty := p.l.dirty || timedOut } }) (hp : Loops q p') :
    Moves p .work p'
  | posts {s : Snapshot} {b : List ℕ} (hw : p.worker = .rendered s) (hb : s.body = some b) :
    Moves p .work { p with posts := ⟨p.now, true, s⟩ :: p.posts, worker := .posting }
  | skips {s : Snapshot} (hw : p.worker = .rendered s) (hb : s.body = none) :
    Moves p .work { p with worker := .posted }
  | counts (hw : p.worker = .failed) :
    Moves p .work { p with l := { p.l with failures := p.l.failures + 1 }, worker := .posted }
  | debounces (hw : p.worker = .posted) (he : p.l.stop_evt = false) :
    Moves p .work { p with worker := .debounce (p.now + 1000000000) }
  | hurries (hw : p.worker = .posted) (he : p.l.stop_evt = true) :
    Moves p .work { p with worker := .top }
  | again (hw : p.worker = .debounceWoken) : Moves p .work { p with worker := .top }
  | sent {ok : Bool} (hw : p.worker = .posting) :
    Moves p (.sent ok) { p with worker := if ok then .posted else .failed }
  | wakesIdle {e : Event} {dl : ℤ} {timedOut : Bool} (hw : p.worker = .idle dl)
    (he : e = .timeout ∨ e = .spurious) : Moves p e { p with worker := .idleWoken dl timedOut }
  | wakes {e : Event} {d1 : ℤ} (hw : p.worker = .debounce d1)
    (he : e = .timeout ∧ d1 ≤ p.now ∨ e = .spurious) : Moves p e { p with worker := .debounceWoken }
  | tick {ns : ℕ} : Moves p (.tick ns) { p with now := p.now + ns }

theorem moves_work {p p' : Publisher} (h : p.work = some p') : Moves p .work p' := by
  unfold Publisher.work at h
  cases hw : p.worker with
  | top =>
    simp only [hw, Option.some.injEq] at h
    exact .top hw (h ▸ loops_idleLoop p _)
  | idleWoken dl timedOut =>
    simp only [hw, Option.some.injEq] at h
    exact .woken hw rfl (h ▸ loops_idleLoop _ dl)
  | rendered s =>
    simp only [hw, Option.some.injEq, Publisher.doPost] at h
    cases hb : s.body with
    | none => simpa [← h, hb] using Moves.skips hw hb
    | some b => simpa [← h, hb] using Moves.posts hw hb
  | failed =>
    simp only [hw, Option.some.injEq] at h
    exact h ▸ .counts hw
  | posted =>
    simp only [hw, Option.some.injEq] at h
    cases he : p.l.stop_evt with
    | true => simpa [← h, he] using Moves.hurries hw he
    | false => simpa [← h, he] using Moves.debounces hw he
  | debounceWoken =>
    simp only [hw, Option.some.injEq] at h
    exact h ▸ .again hw
  | idle dl => simp [hw] at h
  | posting => simp [hw] at h
  | debounce d1 => simp [hw] at h
  | done => simp [hw] at h

theorem moves_update {p p' : Publisher} {n : ℤ} (h : p' = p.update n) :
    Moves p (.update n) p' := by
  subst h
  unfold Publisher.update
  cases hs : p.l.stopping with
  | true => exact .ignored hs
  | false => exact .update hs

/-- Every step is one of these. -/
theorem moves_of_step {p p' : Publisher} {e : Event} (h : step p e = some p') : Moves p e p' := by
  cases e with
  | update n =>
    cases hc : p.caller with
    | returned joined s =>
      cases joined with
      | true => simp [step, hc] at h
      | false => exact moves_update (by simpa [step, hc] using h.symm)
    | serving => exact moves_update (by simpa [step, hc] using h.symm)
    | joining s => exact moves_update (by simpa [step, hc] using h.symm)
    | closing joined s => exact moves_update (by simpa [step, hc] using h.symm)
  | shutdown =>
    simp only [step] at h
    split at h
    · cases h
      exact .shutdown ‹_›
    · cases h
  | joined =>
    simp only [step] at h
    split at h
    · cases h
      exact .joined ‹_› ‹_›
    · cases h
  | joinTimeout =>
    simp only [step] at h
    split at h
    · cases h
      exact .joinTimeout ‹_›
    · cases h
  | closed =>
    simp only [step] at h
    split at h
    · cases h
      exact .closed ‹_›
    · cases h
  | work => exact moves_work h
  | sent ok =>
    simp only [step] at h
    split at h
    · cases h
      exact .sent ‹_›
    · cases h
  | timeout =>
    simp only [step] at h
    split at h
    · split at h
      · cases h
        exact .wakesIdle ‹_› (.inl rfl)
      · cases h
    · split at h
      · cases h
        exact .wakes ‹_› (.inl ⟨rfl, ‹_›⟩)
      · cases h
    · cases h
  | spurious =>
    simp only [step] at h
    split at h
    · cases h
      exact .wakesIdle ‹_› (.inr rfl)
    · cases h
      exact .wakes ‹_› (.inr rfl)
    · cases h
  | tick ns =>
    cases h
    exact .tick

/-- What holds at the start and survives every step of a run holds in every state that it
reaches. -/
theorem run_induction {ok : Publisher → Event → Prop} {a : Args}
    {P : List Event → Publisher → Prop} (h0 : ∀ l, lobby_start a = some l → P [] (spawn l))
    (hs : ∀ es p e p', P es p → ok p e → Moves p e p' → P (e :: es) p')
    {es : List Event} {p : Publisher} (h : Run ok a es p) : P es p := by
  induction h with
  | start hl => exact h0 _ hl
  | step hr hok hstep ih => exact hs _ _ _ _ ih hok (moves_of_step hstep)

/-- The state behind given events, oldest first, where each is possible and meets the condition. -/
def history (ok : Publisher → Event → Prop) [∀ p e, Decidable (ok p e)] (a : Args)
    (es : List Event) : Option Publisher :=
  (lobby_start a).bind fun l =>
    es.foldlM (fun p e => if ok p e then step p e else none) (spawn l)

/-- A history whose events are all possible is a run. -/
theorem run_of_history {ok : Publisher → Event → Prop} [∀ p e, Decidable (ok p e)] {a : Args}
    {es : List Event} {p : Publisher} (h : history ok a es = some p) : Run ok a es.reverse p := by
  simp only [history, Option.bind_eq_some_iff] at h
  obtain ⟨l, hl, h⟩ := h
  induction es using List.reverseRecOn generalizing p with
  | nil =>
    simp only [List.foldlM_nil, Option.pure_def, Option.some.injEq] at h
    exact h ▸ .start hl
  | append_singleton es e ih =>
    simp only [List.foldlM_append, List.foldlM_cons, List.foldlM_nil, bind_pure,
      Option.bind_eq_bind, Option.bind_eq_some_iff] at h
    obtain ⟨q, hq, hstep⟩ := h
    split at hstep
    · rw [List.reverse_concat]
      exact .step (ih hq) ‹_› hstep
    · cases hstep

/-- The arguments of the relay's command line, with short strings. -/
def commandLine : Args where
  base_url := ⟨ascii "http://fujinet.online:8080", by decide⟩
  serverurl := ⟨ascii "TCP://fujinet.online:9109/", by decide⟩
  client_url := ⟨ascii "TNFS://fujinet.online/boxing.int", by decide⟩
  appkey := 17
  region := ⟨ascii "us", by decide⟩
  game_name := ⟨ascii "Boxing", by decide⟩
  server_name := ⟨ascii "Boxing Netplay", by decide⟩
  maxplayers := 4
  keepalive := 300000000000

/-- What `lobby_start` leaves in the flags. -/
theorem started {a : Args} {l : Lobby} (h : lobby_start a = some l) :
    l.curplayers = 0 ∧ l.offline = false ∧ l.dirty = false ∧ l.stopping = false ∧
      l.stop_evt = false := by
  simp only [lobby_start, Option.bind_eq_bind, Option.bind_eq_some_iff, Option.some.injEq] at h
  obtain ⟨-, -, -, -, -, -, -, -, -, -, -, -, rfl⟩ := h
  simp

end BoxingNetplay.Interface.LobbyWorker
