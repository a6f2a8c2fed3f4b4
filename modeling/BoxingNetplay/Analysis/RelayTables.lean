import BoxingNetplay.Interface.RelayLoop

/-!
# The tables of the C relay after any events

The relay starts with empty tables; whatever the events and whatever every single send comes to,
they are consistent after each event, and no branch the source calls unreachable is taken.
-/

set_option autoImplicit false

namespace BoxingNetplay.Analysis.IntvRelay

open BoxingNetplay.Model.Wire
open BoxingNetplay.Model.IntvRelay
open BoxingNetplay.Interface.IntvRelay

variable {cfg : Config} {P : ℕ → Queued → Prop} {s s' : Relay}

/-- What an event does to the slots in use and to the rooms that have started: a slot stays
with its connection or is freed, once, and a started room keeps its members while it lasts. -/
structure Moves (s s' : Relay) : Prop where
  slots : ∀ c, (s.clients c).in_use = true →
    ((s'.clients c).in_use = true ∧ (s'.clients c).gen = (s.clients c).gen) ∨
    ((s'.clients c).in_use = false ∧ (s'.clients c).gen = (s.clients c).gen + 1)
  started : ∀ r, (s.rooms r).used = true → (s.rooms r).started = true →
    (s'.rooms r).used = true → (s'.rooms r).serial = (s.rooms r).serial →
    (s'.rooms r).started = true ∧ (s'.rooms r).members = (s.rooms r).members

/-- The tables of a relay that has just been started are consistent. -/
theorem settled_start (cfg : Config) : Settled cfg start where
  tables :=
    { slot := fun _ h => (nomatch h)
      count := by simp [start, inUse, Client.zero]
      leaving := fun _ h => (nomatch h)
      seated := fun _ _ h => (nomatch h.1)
      member := fun _ h => (nomatch h)
      distinct := fun _ h => (nomatch h)
      fits := fun _ h => (nomatch h)
      pairs := fun _ h => (nomatch h)
      empty := fun _ _ => rfl
      serials := fun _ h => (nomatch h)
      apart := fun _ _ h => (nomatch h)
      listed := fun _ h => (nomatch h)
      named := fun _ h => (nomatch h.1)
      names := List.nodup_nil
      reached := rfl }
  up _ h := (nomatch h)
  decoded _ h := (nomatch h.1)

/-- Connections that go free their slots. -/
theorem moves_of_turns (h : Settled cfg s) (ht : Turns P s s') : Moves s s' where
  slots c hu := by
    have hc : alive s c := ⟨hu, h.up c hu⟩
    by_cases hl : alive s' c
    · exact Or.inl ⟨hl.1, (ht.stays c hl).2.1⟩
    · obtain ⟨-, h2, h3, -⟩ := ht.gone c hc hl
      exact Or.inr ⟨h2, h3⟩
  started r hu hs hu' hse := by
    have hold := h.tables.serials r hu
    rcases ht.rooms r hu' with ⟨-, -, h3, -⟩ | ⟨h3, -⟩
    · exact h3 hs
    · omega

/-- What the sends and the seeds will be is not in the tables. -/
theorem settled_world (h : Settled cfg s) (k : List SendResult) (seeds : List ℕ) :
    Settled cfg { s with kernel := k, seeds := seeds } :=
  ⟨{ h.tables with }, h.up, h.decoded⟩

theorem moves_world {k : List SendResult} {seeds : List ℕ}
    (h : Moves { s with kernel := k, seeds := seeds } s') : Moves s s' := ⟨h.slots, h.started⟩

/-- Every event keeps the tables consistent. -/
theorem settled_step (h : Settled cfg s) (i : Input) :
    Settled cfg (step cfg s i) ∧ Moves s (step cfg s i) := by
  have hw := settled_world h i.kernel i.seeds
  have hnone : Settled cfg { s with kernel := i.kernel, seeds := i.seeds } ∧
      Moves s { s with kernel := i.kernel, seeds := i.seeds } :=
    ⟨hw, moves_world (moves_of_turns hw (Turns.refl (fun _ _ => True) _))⟩
  simp only [step]
  cases i.event with
  | accept ip now added =>
    obtain ⟨h1, h2, h3⟩ := settled_accept hw ip now added
    refine ⟨h1, ⟨fun c hu => ?_, fun r hu hs _ _ => ?_⟩⟩
    · simp only [serve]
      rw [h2 c hu]
      exact Or.inl ⟨hu, rfl⟩
    · simp only [serve]
      rw [h3]
      exact ⟨hs, rfl⟩
  | writable ci =>
    simp only [serve]
    split
    · rename_i hc
      have hk := served_flush (says_any cfg).toAnswers hw.tables (show alive _ ci from hc)
      exact ⟨hw.of_served hk, moves_world (moves_of_turns hw hk.turns)⟩
    · exact hnone
  | readable ci r =>
    simp only [serve]
    split
    · rename_i hc
      obtain ⟨hk, hrx⟩ := read_service (says_any cfg) r hw.tables (show alive _ ci from hc)
        (hw.decoded ci hc) (passes_any ci _)
      exact ⟨hw.of_read hk fun hl => (hrx hl).1, moves_world (moves_of_turns hw hk.turns)⟩
    · exact hnone
  | sweep now =>
    have hk := served_sweep (says_any cfg).toAnswers hw.tables now
    exact ⟨hw.of_served hk, moves_world (moves_of_turns hw hk.turns)⟩

/-- And so do any number of them. -/
theorem settled_run (cfg : Config) (is : List Input) : Settled cfg (run cfg is) := by
  simp only [run]
  generalize hs : start = s
  have h : Settled cfg s := hs ▸ settled_start cfg
  clear hs
  induction is generalizing s with
  | nil => exact h
  | cons i is ih => exact ih _ (settled_step h i).1

/-- After any sequence of events, whatever each send comes to: every room in use has two to
`max_seats` different members, which are the live clients whose room it is; the names are
those of the live clients that have one, each under its own; the slots in use are counted; no
unreachable branch was taken, and no `drop` was nested too deep.  The next event frees
each slot at most once and gives no started room a member. -/
theorem relay_tables (cfg : Config) (is : List Input) :
    (∀ r, ((run cfg is).rooms r).used = true → ((run cfg is).rooms r).members.Nodup ∧
      2 ≤ ((run cfg is).rooms r).members.length ∧
      ((run cfg is).rooms r).members.length ≤ cfg.max_seats ∧
      ∀ m ∈ ((run cfg is).rooms r).members, alive (run cfg is) m) ∧
    (∀ m r, ((run cfg is).clients m).in_use = true →
      (((run cfg is).clients m).room = some r ↔
        ((run cfg is).rooms r).used = true ∧ m ∈ ((run cfg is).rooms r).members)) ∧
    (((run cfg is).by_name.map Prod.fst).Nodup ∧ ((run cfg is).by_name.map Prod.snd).Nodup ∧
      (∀ e ∈ (run cfg is).by_name, ((run cfg is).clients e.2).name = e.1) ∧
      ∀ c, (∃ n, (n, c) ∈ (run cfg is).by_name) ↔
        alive (run cfg is) c ∧ ((run cfg is).clients c).name ≠ []) ∧
    ((run cfg is).n_clients = (inUse (run cfg is)).card ∧
      ∀ c, ((run cfg is).clients c).in_use = true → c < MAX_CLIENTS) ∧
    (run cfg is).reached = [] ∧
    ∀ i, Moves (run cfg is) (step cfg (run cfg is) i) := by
  have h := settled_run cfg is
  have ht := h.tables
  refine ⟨fun r hu => ⟨ht.distinct r hu (Set.notMem_empty r),
    ht.pairs r hu (Set.notMem_empty r) (Set.notMem_empty r), ht.fits r hu (Set.notMem_empty r),
    fun m hm => (ht.member r hu (Set.notMem_empty r) m hm).1⟩, fun m r hu => ⟨fun hr => ?_, ?_⟩,
    ⟨ht.names, ht.clients_nodup, fun e he => (ht.listed e he).2.1, fun c => ⟨?_, ?_⟩⟩,
    ⟨ht.count, ht.slot⟩, ht.reached, fun i => (settled_step h i).2⟩
  · exact (ht.seated m r ⟨hu, h.up m hu⟩ hr).2.2
  · rintro ⟨hr, hm⟩
    exact (ht.member r hr (Set.notMem_empty r) m hm).2
  · rintro ⟨n, hn⟩
    obtain ⟨h1, h2, h3⟩ := ht.listed _ hn
    exact ⟨h1, fun h0 => h3 (h2.symm.trans h0)⟩
  · rintro ⟨hc, hn⟩
    exact ⟨_, ht.named c hc hn⟩

end BoxingNetplay.Analysis.IntvRelay
