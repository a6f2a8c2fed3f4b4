import BoxingNetplay.Analysis.LobbyBody

/-!
# No update is lost

While nobody has asked for shutdown, a cleared `dirty` flag means that the newest player count is in
the last snapshot: an update sets both under the mutex, and only the section that takes a
snapshot clears the flag.  After a successful join the worker has left its loop, so the POST of
`lobby_shutdown` is the last.
-/

set_option autoImplicit false

namespace BoxingNetplay.Analysis.LobbyUpdates

open BoxingNetplay.Library.Json
open BoxingNetplay.Model.LobbyPublisher
open BoxingNetplay.Interface.LobbyWorker
open BoxingNetplay.Analysis.LobbyBody

variable {ok : Publisher → Event → Prop} {a : Args} {es : List Event} {p p' : Publisher} {e : Event}

/-! ### Counts -/

/-- The record has the newest count, and a cleared flag means that a snapshot has it too. -/
structure Published (es : List Event) (p : Publisher) : Prop where
  newest : p.l.stopping = false → ∀ n, newestUpdate es = some n → p.l.curplayers = n
  seen : p.l.stopping = false → p.l.dirty = false → newestUpdate es = none ∨
    ∃ s, p.taken.head? = some s ∧ s.curplayers = p.l.curplayers

/-- A step that is no update and leaves count, flags and snapshots alone. -/
theorem Published.quiet (h : Published es p) (he : newestUpdate (e :: es) = newestUpdate es)
    (hn : p'.l.curplayers = p.l.curplayers) (hs : p'.l.stopping = p.l.stopping)
    (hd : p'.l.dirty = false → p.l.dirty = false) (ht : p'.taken = p.taken) :
    Published (e :: es) p' where
  newest := by
    rw [he, hn, hs]
    exact h.newest
  seen := by
    rw [he, hn, hs, ht]
    intro hstop hdirty
    exact h.seen hstop (hd hdirty)

/-- Once shutdown is asked for nothing is left to show. -/
theorem published_stopping (h : p.l.stopping = true) : Published es p where
  newest := by simp [h]
  seen := by simp [h]

/-- The head of the loop takes the newest update, if it takes any. -/
theorem Published.loops {q : Publisher} (h : Published es p) (hp : Loops q p')
    (he : newestUpdate (e :: es) = newestUpdate es) (hn : q.l.curplayers = p.l.curplayers)
    (hs : q.l.stopping = p.l.stopping) (hd : q.l.dirty = false → p.l.dirty = false)
    (ht : q.taken = p.taken) : Published (e :: es) p' := by
  cases hp with
  | waits dl hdirty hstop => exact h.quiet he hn hs hd ht
  | leaves hstop => exact published_stopping hstop
  | takes l hstop hl =>
    constructor
    · intro _ n hnew
      rw [he] at hnew
      have hl' : l.curplayers = p.l.curplayers := by rw [hl, ← hn]
      exact hl'.trans (h.newest (hs ▸ hstop) n hnew)
    · intro _ _
      exact Or.inr ⟨l.snapshot, rfl, rfl⟩

/-- Closing changes neither the record nor the snapshots taken. -/
theorem close_same (p : Publisher) (joined : Bool) (s : Snapshot) :
    (p.close joined s).l = p.l ∧ (p.close joined s).taken = p.taken := by
  unfold Publisher.close Publisher.doPost
  split <;> exact ⟨rfl, rfl⟩

/-- One step. -/
theorem Published.step (h : Published es p) (hm : Moves p e p') : Published (e :: es) p' := by
  cases hm with
  | ignored hs => exact published_stopping hs
  | @update n hs =>
    constructor
    · intro _ m hnew
      cases hnew
      rfl
    · intro _ hd
      cases hd
  | shutdown => exact published_stopping rfl
  | top hw hp => exact h.loops hp rfl rfl rfl id rfl
  | woken hw hq hp =>
    subst hq
    refine h.loops hp rfl rfl rfl ?_ rfl
    intro hd
    exact (Bool.or_eq_false_iff.mp hd).1
  | @joined s hc hw =>
    obtain ⟨hl, ht⟩ := close_same p true s
    exact h.quiet rfl (by rw [hl]) (by rw [hl]) (by simp [hl]) ht
  | @joinTimeout s hc =>
    obtain ⟨hl, ht⟩ := close_same p false s
    exact h.quiet rfl (by rw [hl]) (by rw [hl]) (by simp [hl]) ht
  | wakesIdle hw he =>
    refine h.quiet ?_ rfl rfl id rfl
    obtain rfl | rfl := he <;> rfl
  | wakes hw he =>
    refine h.quiet ?_ rfl rfl id rfl
    obtain ⟨rfl, -⟩ | rfl := he <;> rfl
  | _ => exact h.quiet rfl rfl rfl id rfl

/-- Every run. -/
theorem published_run (h : Run ok a es p) : Published es p := by
  refine run_induction (fun l hl => ?_) (fun es p e p' hp _ hm => hp.step hm) h
  constructor
  · intro _ n hn
    cases hn
  · intro _ _
    exact Or.inl rfl

/-! ### The last POST -/

/-- The body, if there is one, tells that the server goes. -/
def SaysOffline (s : Snapshot) : Prop :=
  ∀ b, s.body = some b → ascii "\"status\": \"offline\"" <:+: b

/-- A body whose record is offline says so. -/
theorem text_offline {l : Lobby} (h : l.offline = true) :
    ascii "\"status\": \"offline\"" <:+: text l := by
  have hkey : ascii "\", \"status\": \"" = ascii "\", " ++ ascii "\"status\": \"" := by decide
  have hnext : ascii "\", \"maxplayers\": " = ascii "\"" ++ ascii ", \"maxplayers\": " := by decide
  have hword : ascii "\"status\": \"offline\"" =
      ascii "\"status\": \"" ++ ascii "offline" ++ ascii "\"" := by decide
  unfold text
  rw [hkey, hnext, hword, status, if_pos h]
  refine ⟨ascii "\x7b\"game\": \"" ++ l.game.bytes.flatMap replacement ++
    ascii "\", \"appkey\": " ++ decimal l.appkey ++ ascii ", \"server\": \"" ++
    l.server.bytes.flatMap replacement ++ ascii "\", \"region\": \"" ++
    l.region.bytes.flatMap replacement ++ ascii "\", \"serverurl\": \"" ++
    l.serverurl.bytes.flatMap replacement ++ ascii "\", ", ascii ", \"maxplayers\": " ++
    decimal l.maxplayers ++ ascii ", \"curplayers\": " ++ decimal l.curplayers ++
    ascii ", \"clients\": [\x7b\"platform\": \"intv\", \"url\": \"" ++
    l.client_url.bytes.flatMap replacement ++ ascii "\"\x7d]\x7d", ?_⟩
  simp only [List.append_assoc]

theorem saysOffline {l : Lobby} (h : l.offline = true) : SaysOffline l.snapshot := by
  intro b hb
  have hbody : render_json l JSON_MAX = some b := hb
  rw [render_json_eq] at hbody
  split at hbody
  · cases hbody
  · exact Option.some.inj hbody ▸ text_offline h

/-- How far `lobby_shutdown` is: its snapshot says that the server goes, and after a successful
join the worker is out of its loop and the snapshot is in the last POST. -/
def Closes (p : Publisher) : Prop :=
  match p.caller with
  | .serving => True
  | .joining s => SaysOffline s
  | .closing joined s => SaysOffline s ∧
    (joined = true → p.worker = .done ∧ p.posts.head?.map Post.snapshot = some s)
  | .returned joined s => SaysOffline s ∧ (joined = true → p.worker = .done ∧
    (s.body ≠ none → p.posts.head?.map Post.snapshot = some s))

/-- A step of the worker. -/
theorem Closes.quiet (h : Closes p) (hc : p'.caller = p.caller)
    (hw : p.worker = .done → p'.worker = .done ∧ p'.posts = p.posts) : Closes p' := by
  unfold Closes at h ⊢
  rw [hc]
  cases hcaller : p.caller with
  | serving => trivial
  | joining s => simpa [hcaller] using h
  | closing joined s =>
    simp only [hcaller] at h
    refine ⟨h.1, fun hj => ?_⟩
    obtain ⟨hdone, hposts⟩ := hw (h.2 hj).1
    exact ⟨hdone, hposts ▸ (h.2 hj).2⟩
  | returned joined s =>
    simp only [hcaller] at h
    refine ⟨h.1, fun hj => ?_⟩
    obtain ⟨hdone, hposts⟩ := hw (h.2 hj).1
    exact ⟨hdone, hposts ▸ (h.2 hj).2⟩

/-- The head of the loop ends no closing. -/
theorem Closes.loops {q : Publisher} (h : Closes p) (hp : Loops q p') (hc : q.caller = p.caller)
    (hw : p.worker ≠ .done) : Closes p' := by
  cases hp with
  | _ => exact h.quiet hc fun hd => absurd hd hw

/-- The last POST closes, when the worker that was waited for is done. -/
theorem Closes.close {joined : Bool} {s : Snapshot} (hs : SaysOffline s)
    (hw : joined = true → p.worker = .done) : Closes (p.close joined s) := by
  unfold Publisher.close Publisher.doPost Closes
  cases hb : s.body with
  | none =>
    refine ⟨hs, fun hj => ⟨hw hj, fun hne => ?_⟩⟩
    exact absurd hb hne
  | some b => exact ⟨hs, fun hj => ⟨hw hj, rfl⟩⟩

/-- One step. -/
theorem Closes.step (h : Closes p) (hm : Moves p e p') : Closes p' := by
  cases hm with
  | ignored => exact h
  | update =>
    refine h.quiet rfl fun hd => ?_
    simp [hd, Worker.broadcast]
  | shutdown => exact saysOffline rfl
  | joined hc hw =>
    simp only [Closes, hc] at h
    exact Closes.close h fun _ => hw
  | joinTimeout hc =>
    simp only [Closes, hc] at h
    exact Closes.close h nofun
  | @closed joined s hc =>
    simp only [Closes, hc] at h
    exact ⟨h.1, fun hj => ⟨(h.2 hj).1, fun _ => (h.2 hj).2⟩⟩
  | top hw hp => exact h.loops hp rfl (by simp [hw])
  | woken hw hq hp =>
    subst hq
    exact h.loops hp rfl (by simp [hw])
  | tick => exact h.quiet rfl fun hd => ⟨hd, rfl⟩
  | posts hw | skips hw | counts hw | debounces hw | hurries hw | again hw | sent hw
  | wakesIdle hw | wakes hw => exact h.quiet rfl fun hd => by simp [hw] at hd

/-- Every run. -/
theorem closes_run (h : Run ok a es p) : Closes p :=
  run_induction (P := fun _ p => Closes p) (fun _ _ => trivial) (fun _ _ _ _ hp _ hm => hp.step hm) h

/-- Blocked in the idle wait with nothing to publish, the worker has the newest count in its last
snapshot; and after a successful join the last POST says that the server goes. -/
theorem no_update_lost (h : Run ok a es p) :
    (∀ dl n, p.worker = .idle dl → p.l.dirty = false → p.l.stopping = false →
      newestUpdate es = some n → ∃ s, p.taken.head? = some s ∧ s.curplayers = n) ∧
    ∀ s b, p.caller = .returned true s → s.body = some b → ∃ post, p.posts.head? = some post ∧
      post.snapshot.body = some b ∧ ascii "\"status\": \"offline\"" <:+: b := by
  constructor
  · intro dl n _ hd hs hn
    have hp := published_run h
    obtain hnone | ⟨s, hs', hcount⟩ := hp.seen hs hd
    · rw [hn] at hnone
      cases hnone
    · exact ⟨s, hs', hcount.trans (hp.newest hs n hn)⟩
  · intro s b hc hb
    have hp := closes_run h
    simp only [Closes, hc] at hp
    obtain ⟨post, hpost, hsnap⟩ :=
      Option.map_eq_some_iff.mp ((hp.2 trivial).2 (by simp [hb]))
    exact ⟨post, hpost, hsnap ▸ hb, hp.1 b hb⟩

/-- Two players come, the second during the POST for the first. -/
def twoUpdates : List Event :=
  [.work, .update 1, .work, .work, .update 2, .sent false, .work, .work, .tick 1000000000, .timeout,
    .work, .work, .work, .sent true, .work, .tick 1000000000, .timeout, .work, .work]

/-- One of them goes, and the server shuts down: the worker wakes up and leaves its loop, and is
joined. -/
def shutDown : List Event :=
  twoUpdates ++ [.update 1, .shutdown, .work, .joined, .closed]

/-- The second of them is in the last snapshot of the worker, and the shutdown's POST says that the
server goes. -/
theorem second_is_published :
    (∃ p, history (fun _ _ => True) commandLine twoUpdates = some p ∧
      ∃ s, p.taken.head? = some s ∧ s.curplayers = 2) ∧
    ∃ p, history (fun _ _ => True) commandLine shutDown = some p ∧ p.posts.length = 3 ∧
      ∃ post b, p.posts.head? = some post ∧ post.snapshot.body = some b ∧
        ascii "\"status\": \"offline\"" <:+: b := by
  constructor
  · have hrun : (history (fun _ _ => True) commandLine twoUpdates).map
        (fun p => (p.worker matches .idle _, p.l.dirty, p.l.stopping)) =
          some (true, false, false) := by
      decide +kernel
    obtain ⟨p, hp, hfacts⟩ := Option.map_eq_some_iff.mp hrun
    rw [Prod.mk.injEq, Prod.mk.injEq] at hfacts
    obtain ⟨hidle, hdirty, hstop⟩ := hfacts
    refine ⟨p, hp, ?_⟩
    cases hw : p.worker with
    | idle dl => exact (no_update_lost (run_of_history hp)).1 dl 2 hw hdirty hstop rfl
    | _ => simp [hw] at hidle
  · have hrun : (history (fun _ _ => True) commandLine shutDown).map (fun p =>
        (p.posts.length, match p.caller with
          | .serving => false
          | .joining _ => false
          | .closing _ _ => false
          | .returned joined s => joined && s.body.isSome)) = some (3, true) := by
      decide +kernel
    obtain ⟨p, hp, hfacts⟩ := Option.map_eq_some_iff.mp hrun
    rw [Prod.mk.injEq] at hfacts
    obtain ⟨hlength, hbody⟩ := hfacts
    cases hc : p.caller with
    | returned joined s =>
      rw [hc] at hbody
      obtain ⟨rfl, hsome⟩ := Bool.and_eq_true_iff.mp hbody
      obtain ⟨b, hb⟩ := Option.isSome_iff_exists.mp hsome
      obtain ⟨post, hpost, hsent⟩ := (no_update_lost (run_of_history hp)).2 s b hc hb
      exact ⟨p, hp, hlength, post, b, hpost, hsent⟩
    | _ => simp [hc] at hbody

end BoxingNetplay.Analysis.LobbyUpdates
