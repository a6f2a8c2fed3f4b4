import Mathlib.Data.List.Chain
import BoxingNetplay.Interface.LobbyWorker

/-!
# A second between two POSTs

The debounce waits on the condition variable that `lobby_update` broadcasts, so an update ends it
early and the next POST follows at once.  Where nothing disturbs the debounce, the POSTs of the
worker are a second apart.
-/

set_option autoImplicit false

namespace BoxingNetplay.Analysis.LobbySpacing

open BoxingNetplay.Model.LobbyPublisher
open BoxingNetplay.Interface.LobbyWorker

variable {a : Args} {es : List Event} {p p' : Publisher} {e : Event}

/-- When the POSTs of the worker started, newest first. -/
def starts (posts : List Post) : List ℤ := (posts.filter Post.byWorker).map Post.time

/-- Successive times, newest first, are a second apart. -/
def Spaced (ts : List ℤ) : Prop := ts.IsChain fun later earlier => earlier + 1000000000 ≤ later

instance (ts : List ℤ) : Decidable (Spaced ts) :=
  inferInstanceAs (Decidable (ts.IsChain fun later earlier => earlier + 1000000000 ≤ later))

/-- The worker is in its debounce, and the second is not over. -/
def debouncing (p : Publisher) : Bool :=
  match p.worker with
  | .debounce d1 => !p.l.stopping && decide (p.now < d1)
  | _ => false

/-- Nothing wakes the worker out of its debounce. -/
def Undisturbed (p : Publisher) : Event → Prop
  | .update _ => debouncing p = false
  | .spurious => debouncing p = false
  | _ => True

instance (p : Publisher) (e : Event) : Decidable (Undisturbed p e) := by
  cases e <;> unfold Undisturbed <;> infer_instance

/-- All POSTs of the worker started a second before a time. -/
def Rested (p : Publisher) (t : ℤ) : Prop := ∀ u ∈ starts p.posts, u + 1000000000 ≤ t

/-- What the place of the worker tells about its last POST. -/
def Placed (p : Publisher) : Worker → Prop
  | .rendered _ => Rested p p.now
  | .top | .idle _ | .idleWoken _ _ | .debounceWoken => p.l.stopping = false → Rested p p.now
  | .debounce d1 => Rested p d1
  | _ => True

/-- The invariant. -/
structure Debounced (p : Publisher) : Prop where
  spaced : Spaced (starts p.posts)
  past : ∀ u ∈ starts p.posts, u ≤ p.now
  stops : p.l.stop_evt = true → p.l.stopping = true
  placed : Placed p p.worker

/-- Later they still have, when the worker has started none since. -/
theorem Rested.mono {t t' : ℤ} (h : Rested p t) (ht : t ≤ t')
    (hp : starts p'.posts = starts p.posts) : Rested p' t' := by
  intro u hu
  rw [hp] at hu
  exact (h u hu).trans ht

/-- Time passes, and the flags may change, as long as a stopped publisher stays stopped. -/
theorem Placed.mono {w : Worker} (h : Placed p w) (ht : p.now ≤ p'.now)
    (hs : p'.l.stopping = false → p.l.stopping = false) (hp : starts p'.posts = starts p.posts) :
    Placed p' w := by
  cases w with
  | rendered => exact Rested.mono h ht hp
  | top => exact fun hstop => Rested.mono (h (hs hstop)) ht hp
  | idle => exact fun hstop => Rested.mono (h (hs hstop)) ht hp
  | idleWoken => exact fun hstop => Rested.mono (h (hs hstop)) ht hp
  | debounceWoken => exact fun hstop => Rested.mono (h (hs hstop)) ht hp
  | debounce => exact Rested.mono h le_rfl hp
  | _ => trivial

/-- A step without a POST of the worker. -/
theorem Debounced.quiet (h : Debounced p) (hp : starts p'.posts = starts p.posts)
    (ht : p.now ≤ p'.now) (hs : p'.l.stop_evt = true → p'.l.stopping = true)
    (hw : Placed p' p'.worker) : Debounced p' where
  spaced := hp ▸ h.spaced
  past := by
    rw [hp]
    exact fun u hu => (h.past u hu).trans ht
  stops := hs
  placed := hw

/-- The head of the worker's loop keeps the POSTs apart. -/
theorem Debounced.loops (h : Debounced p) {q : Publisher} (hp : Loops q p')
    (hq : q.posts = p.posts) (ht : q.now = p.now) (hs : q.l.stopping = p.l.stopping)
    (he : q.l.stop_evt = p.l.stop_evt) (hrest : p.l.stopping = false → Rested p p.now) :
    Debounced p' := by
  have hstops : q.l.stop_evt = true → q.l.stopping = true := by
    rw [hs, he]
    exact h.stops
  cases hp with
  | waits dl _ hstop =>
    refine h.quiet (by rw [hq]) ht.ge hstops fun _ => ?_
    exact (hrest (hs ▸ hstop)).mono ht.ge (by rw [hq])
  | leaves hstop => exact h.quiet (by rw [hq]) ht.ge (fun _ => hstop) trivial
  | takes l hstop hl =>
    subst hl
    refine h.quiet (by rw [hq]) ht.ge hstops ?_
    exact (hrest (hs ▸ hstop)).mono ht.ge (by rw [hq])

/-- A POST that is not the worker's leaves its times alone. -/
theorem Debounced.close (h : Debounced p) (joined : Bool) (s : Snapshot) :
    Debounced (p.close joined s) := by
  unfold Publisher.close Publisher.doPost
  have hstarts : starts (⟨p.now, false, s⟩ :: p.posts) = starts p.posts := rfl
  have hplaced : Placed p p.worker := h.placed
  split
  · exact h.quiet hstarts le_rfl h.stops (hplaced.mono le_rfl id hstarts)
  · exact h.quiet rfl le_rfl h.stops (hplaced.mono le_rfl id rfl)

/-- The worker's POST. -/
theorem Debounced.posts {s : Snapshot} (h : Debounced p) (hw : p.worker = .rendered s) :
    Debounced { p with posts := ⟨p.now, true, s⟩ :: p.posts, worker := .posting } := by
  have hrest : Rested p p.now := by
    have hplaced := h.placed
    rwa [hw] at hplaced
  have hstarts : starts (⟨p.now, true, s⟩ :: p.posts) = p.now :: starts p.posts := rfl
  constructor
  · rw [hstarts]
    exact List.IsChain.cons h.spaced fun u hu => hrest u (List.mem_of_mem_head? hu)
  · rw [hstarts]
    intro u hu
    cases List.mem_cons.mp hu with
    | inl heq => exact heq.le
    | inr hmem => exact h.past u hmem
  · exact h.stops
  · trivial

/-- A broadcast, when it does not end a debounce early. -/
theorem Debounced.broadcast (h : Debounced p) {l : Lobby}
    (hs : l.stopping = false → p.l.stopping = false) (he : l.stop_evt = true → l.stopping = true)
    (hd : ∀ d1, p.worker = .debounce d1 → l.stopping = false → d1 ≤ p.now) :
    Debounced { p with l := l, worker := p.worker.broadcast } := by
  refine h.quiet rfl le_rfl he ?_
  have hplaced := h.placed
  cases hw : p.worker with
  | idle dl =>
    rw [hw] at hplaced
    exact fun hstop => (hplaced (hs hstop)).mono le_rfl rfl
  | debounce d1 =>
    rw [hw] at hplaced
    exact fun hstop => Rested.mono hplaced (hd d1 hw hstop) rfl
  | _ =>
    rw [hw] at hplaced
    exact hplaced.mono le_rfl hs rfl

/-- One step that leaves the debounce alone. -/
theorem Debounced.step (h : Debounced p) (hok : Undisturbed p e) (hm : Moves p e p') :
    Debounced p' := by
  have hplaced := h.placed
  cases hm with
  | ignored => exact h
  | update hs =>
    refine h.broadcast (fun _ => hs) h.stops fun d1 hw _ => ?_
    simpa [Undisturbed, debouncing, hw, hs] using hok
  | shutdown =>
    have hl : Debounced { p with
        l := { p.l with stopping := true, stop_evt := true, offline := true }
        worker := p.worker.broadcast } := h.broadcast (by simp) (fun _ => rfl) (by simp)
    exact hl.quiet rfl le_rfl hl.stops (hl.placed.mono le_rfl id rfl)
  | joined => exact h.close true _
  | joinTimeout => exact h.close false _
  | closed => exact h.quiet rfl le_rfl h.stops (hplaced.mono le_rfl id rfl)
  | top hw hp =>
    rw [hw] at hplaced
    exact h.loops hp rfl rfl rfl rfl hplaced
  | woken hw hq hp =>
    subst hq
    rw [hw] at hplaced
    exact h.loops hp rfl rfl rfl rfl hplaced
  | posts hw => exact h.posts hw
  | skips => exact h.quiet rfl le_rfl h.stops trivial
  | @sent ok =>
    refine h.quiet rfl le_rfl h.stops ?_
    cases ok with
    | _ => trivial
  | counts => exact h.quiet rfl le_rfl h.stops trivial
  | debounces hw he =>
    refine h.quiet rfl le_rfl h.stops ?_
    intro u hu
    have := h.past u hu
    simpa using this
  | hurries hw he =>
    refine h.quiet rfl le_rfl h.stops fun hstop => ?_
    have := h.stops he
    rw [hstop] at this
    cases this
  | again hw =>
    rw [hw] at hplaced
    exact h.quiet rfl le_rfl h.stops fun hstop => (hplaced hstop).mono le_rfl rfl
  | wakesIdle hw =>
    rw [hw] at hplaced
    exact h.quiet rfl le_rfl h.stops fun hstop => (hplaced hstop).mono le_rfl rfl
  | wakes hw he =>
    rw [hw] at hplaced
    refine h.quiet rfl le_rfl h.stops fun hstop => Rested.mono hplaced ?_ rfl
    obtain ⟨-, hle⟩ | rfl := he
    · exact hle
    · have hstop' : p.l.stopping = false := hstop
      simpa [Undisturbed, debouncing, hw, hstop'] using hok
  | @tick ns => exact h.quiet rfl (by simp) h.stops (hplaced.mono (by simp) id rfl)

/-- As long as no update and no spurious wake-up ends a debounce before its second is over, the
POSTs that the worker starts are a second apart. -/
theorem posts_apart (h : Run Undisturbed a es p) : Spaced (starts p.posts) := by
  have hinv : Debounced p := by
    refine run_induction (P := fun _ p => Debounced p) (fun l hl => ?_)
      (fun _ _ _ _ hp hok hm => hp.step hok hm) h
    refine ⟨List.IsChain.nil, nofun, ?_, nofun⟩
    simp [spawn, (started hl).2.2.2.2]
  exact hinv.spaced

/-- An update in the debounce. -/
def burst : List Event :=
  [.work, .update 1, .work, .work, .sent true, .work, .tick 1, .update 2, .work, .work, .work]

/-- The second POST follows after a nanosecond. -/
theorem burst_posts_at_once : ¬ ∀ (a : Args) (es : List Event) (p : Publisher),
    Run (fun _ _ => True) a es p → p.l.stopping = false → Spaced (starts p.posts) := by
  intro h
  have hrun : (history (fun _ _ => True) commandLine burst).map
      (fun p => (p.l.stopping, starts p.posts)) = some (false, [1, 0]) := by decide +kernel
  obtain ⟨p, hp, hfacts⟩ := Option.map_eq_some_iff.mp hrun
  rw [Prod.mk.injEq] at hfacts
  have hspaced := h _ _ p (run_of_history hp) hfacts.1
  rw [hfacts.2] at hspaced
  revert hspaced
  decide

/-- An update behind the debounce. -/
def patient : List Event :=
  [.work, .update 1, .work, .work, .sent true, .work, .tick 1000000000, .update 2, .work, .work,
    .work]

/-- Its two POSTs are a second apart. -/
theorem patient_posts : ∃ p, history Undisturbed commandLine patient = some p ∧
    Spaced (starts p.posts) ∧ (starts p.posts).length = 2 := by
  have hrun : (history Undisturbed commandLine patient).map (fun p => (starts p.posts).length) =
      some 2 := by decide +kernel
  obtain ⟨p, hp, hlength⟩ := Option.map_eq_some_iff.mp hrun
  exact ⟨p, hp, posts_apart (run_of_history hp), hlength⟩

end BoxingNetplay.Analysis.LobbySpacing
