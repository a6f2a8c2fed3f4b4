import BoxingNetplay.Analysis.RelayTables
import BoxingNetplay.Interface.RelaySlots
import BoxingNetplay.Model.RelayEpoll

/-!
# Events reach the connection they were raised for

Connections are numbered as they take their slots.  An event of a batch was raised for a connection
that was up when the batch was fetched, under the tag it was registered with; by the time the
loop comes to it, drops may have freed the slot and an accept may have given it away.  The
number of times a slot can be freed within one batch is small against the range of the
generation, so the tag tells.

Within a handler no slot is taken at all, so an index that a function holds across a call still means
the same connection, or none.
-/

set_option autoImplicit false

namespace BoxingNetplay.Analysis.ConnectionTags

open BoxingNetplay.Model.Wire
open BoxingNetplay.Model.IntvRelay
open BoxingNetplay.Interface.IntvRelay
open BoxingNetplay.Analysis.IntvRelay

/-! ### The loop -/

/-- A connection has taken a slot. -/
def taken (s s' : Relay) (c : ℕ) : Prop :=
  (s.clients c).in_use = false ∧ (s'.clients c).in_use = true

instance (s s' : Relay) (c : ℕ) : Decidable (taken s s' c) := inferInstanceAs (Decidable (_ ∧ _))

/-- The relay, the number of the connection in each slot and the tag its descriptor is registered
under, and the number of the next turn. -/
structure Watch where
  relay : Relay
  who : ℕ → ℕ
  tag : ℕ → ℕ
  turns : ℕ

/-- A turn of the loop.  A connection that takes a slot is numbered by the turn and registered
under the tag of the slot. -/
def Watch.move (w : Watch) (s : Relay) : Watch where
  relay := s
  who c := if taken w.relay s c then w.turns else w.who c
  tag c := if taken w.relay s c then tag_of s c else w.tag c
  turns := w.turns + 1

/-- One event is served. -/
def Watch.serve (cfg : Config) (w : Watch) (e : Reported) : Watch := w.move (turn cfg w.relay e)

/-- For an event, the loop calls `flush` or `service` on a slot; and the relay at the call. -/
inductive Calls (cfg : Config) (s : Relay) (e : Reported) (ci : ℕ) : Relay → Prop where
  | flush : e.tag ≠ TAG_LISTEN → e.tag ≠ TAG_SIG → selected (facing s e) e.tag = some ci →
    e.out = true → ((facing s e).clients ci).dead = false → Calls cfg s e ci (facing s e)
  | service : e.tag ≠ TAG_LISTEN → e.tag ≠ TAG_SIG → selected (facing s e) e.tag = some ci →
    e.inp = true → ((whenWritable cfg (facing s e) e ci).clients ci).dead = false →
    Calls cfg s e ci (whenWritable cfg (facing s e) e ci)

/-- An index that a function holds across calls: the relay when the index was read, and the
relay when it is used.  Sends are nested in any number of drops. -/
inductive Held (cfg : Config) (n : ℕ) : Relay → ℕ → Relay → Prop where
  | broadcast {s ri m pre} (payload : List ℕ) : m ∈ (s.rooms ri).members →
    pre <+: (s.rooms ri).members → Held cfg n s m
      (pre.foldl (fun s m => send_frame (dropFuel cfg n) s .relay m T_ROOM payload) s)
  | notify {s ri m notify pre} (payload : List ℕ) : m ∈ notify → pre <+: notify →
    Held cfg n s m (pre.foldl (fun s m => send_frame (dropFuel cfg n) s .relay m T_ROOM payload)
      ((s.rooms ri).members.foldl (fun s m => s.modify m fun c => { c with room := none }) s))
  | survivor {s ri m pre} (payload : List ℕ) : m ∈ (s.rooms ri).members →
    pre <+: (s.rooms ri).members → Held cfg n s m
      (pre.foldl (fun s m => send_frame (dropFuel cfg n) s .relay m T_PEER_LEFT payload)
        (dissolve (dropFuel cfg n) s ri []))
  | unpaired {s ri} (ci : ℕ) : Held cfg n s ci (unpair (dropFuel cfg n) s ri)
  | leaver {s ri} (ci : ℕ) (seat : Option ℕ) : Held cfg n s ci (leave (dropFuel cfg n) s ri ci seat)
  | hello {s ci} (old : ℕ) : Held cfg n s ci (drop cfg s old)
  | seat {s ri m pre} (payload : ℕ → List ℕ) (origin : Origin) : m ∈ (s.rooms ri).members →
    pre <+: (s.rooms ri).members.zipIdx → Held cfg n s m
      (pre.foldl (fun s m => send_frame (drop cfg) s origin m.1 T_START (payload m.2)) s)
  | pair {s m} (host guest : ℕ) (origin : Origin) (payload : List ℕ) : m = host ∨ m = guest →
    Held cfg n s m (send_frame (drop cfg) s origin host T_START payload)
  | fan {s ri m pre} (ci : ℕ) (origin : Origin) (data : List ℕ) :
    m ∈ (s.rooms ri).members ∨ m = ci → pre <+: (s.rooms ri).members → Held cfg n s m
      (pre.foldl (fun s m => if m ≠ ci then send_raw (drop cfg) s origin m data else s) s)
  | reader {s} (ci : ℕ) : Held cfg n s ci (takeFrame cfg s ci)
  | feeder {s} (ci : ℕ) : Held cfg n s ci (drain cfg RX_CAP s ci)

/-! ### One turn -/

section Turn

variable {cfg : Config} {P : ℕ → Queued → Prop} {s s' s'' : Relay} {ci : ℕ} {n m : ℕ}

/-- Slots are freed at most `n` times, and one that is not freed stays in use. -/
structure Aged (n : ℕ) (s s' : Relay) : Prop where
  up : ∀ c, (s.clients c).gen ≤ (s'.clients c).gen
  le : ∀ c, (s'.clients c).gen ≤ (s.clients c).gen + n
  stays : ∀ c, (s.clients c).in_use = true → (s'.clients c).gen = (s.clients c).gen →
    (s'.clients c).in_use = true

/-- Where the slots are as they were, none was freed. -/
theorem Aged.of_clients (h : s'.clients = s.clients) : Aged n s s' where
  up c := by rw [h]
  le c := by
    rw [h]
    exact Nat.le_add_right ..
  stays c hu _ := by rwa [h]

theorem Aged.mono (h : Aged n s s') (hn : n ≤ m) : Aged m s s' :=
  ⟨h.up, fun c => (h.le c).trans (Nat.add_le_add_left hn _), h.stays⟩

theorem Aged.trans (h : Aged n s s') (h' : Aged m s' s'') : Aged (n + m) s s'' where
  up c := (h.up c).trans (h'.up c)
  le c := by
    have h1 := h.le c
    have h2 := h'.le c
    omega
  stays c hu hg := by
    have h1 := h.up c
    have h2 := h'.up c
    exact h'.stays c (h.stays c hu (by omega)) (by omega)

/-- While an event is served a connection goes at most once. -/
theorem aged_of_turns (ht : Turns P s s') : Aged 1 s s' := by
  have hcase : ∀ c, ((s'.clients c).gen = (s.clients c).gen ∧
      ((s.clients c).in_use = true → (s'.clients c).in_use = true)) ∨
      (s'.clients c).gen = (s.clients c).gen + 1 := by
    intro c
    by_cases hc : alive s c
    · by_cases hl : alive s' c
      · exact Or.inl ⟨(ht.stays c hl).2.1, fun _ => hl.1⟩
      · exact Or.inr (ht.gone c hc hl).2.2.1
    · rw [ht.rest c hc]
      exact Or.inl ⟨rfl, id⟩
  refine ⟨fun c => ?_, fun c => ?_, fun c hu hg => ?_⟩
  · rcases hcase c with ⟨hg, -⟩ | hg
    · exact hg.ge
    · omega
  · rcases hcase c with ⟨hg, -⟩ | hg
    · omega
    · exact hg.le
  · rcases hcase c with ⟨-, hk⟩ | hg'
    · exact hk hu
    · omega

/-- What a turn does to the slots. -/
structure Turned (s s' : Relay) : Prop where
  aged : Aged 2 s s'
  keeps : ∀ c, (s.clients c).in_use = true → (s'.clients c).in_use = true →
    (s'.clients c).gen = (s.clients c).gen
  one : ∀ c c', taken s s' c → taken s s' c' → c = c'

/-- Nothing takes a slot but a connection. -/
theorem turned_of_steady (ha : Aged 2 s s') (hs : Steady s s') : Turned s s' where
  aged := ha
  keeps c _ hu := (hs c hu).2
  one c _ ht _ := by
    have hu := (hs c ht.2).1
    rw [ht.1] at hu
    cases hu

/-- `accept_client` changes no slot but one that is not in use. -/
theorem accept_slots (s : Relay) (ip now : ℕ) (added : Bool) :
    (accept_client s ip now added).clients = s.clients ∨ ∃ i c, (s.clients i).in_use = false ∧
      (s.clients i).gen ≤ c.gen ∧ c.gen ≤ (s.clients i).gen + 1 ∧
      (accept_client s ip now added).clients = Function.update s.clients i c := by
  simp only [accept_client]
  split
  · exact Or.inl rfl
  split
  · exact Or.inl rfl
  simp only [client_alloc]
  cases hf : (List.range MAX_CLIENTS).find? (fun i => !(s.clients i).in_use) with
  | none => exact Or.inl rfl
  | some i =>
    have hu : (s.clients i).in_use = false := by simpa using List.find?_some hf
    cases added with
    | true =>
      exact Or.inr ⟨i, ⟨true, (s.clients i).gen, ip, [], [], [], none, now, false, [], [], [], []⟩,
        hu, Nat.le_refl _, Nat.le_succ _, rfl⟩
    | false =>
      refine Or.inr ⟨i, ⟨false, (s.clients i).gen + 1, ip, [], [], [], none, now, false, [], [], [],
        []⟩, hu, Nat.le_succ _, Nat.le_refl _, ?_⟩
      simp only [Bool.false_eq_true, if_false, client_free, Relay.modify, Function.update_self,
        Function.update_idem]

/-- Accepting a connection is such a turn. -/
theorem turned_accept (s : Relay) (ip now : ℕ) (added : Bool) :
    Turned s (accept_client s ip now added) := by
  rcases accept_slots s ip now added with heq | ⟨i, c, hfree, hup, hle, heq⟩
  · exact turned_of_steady (Aged.of_clients heq) (Steady.of_clients heq)
  have hother : ∀ x, x ≠ i → (accept_client s ip now added).clients x = s.clients x := by
    intro x hx
    rw [heq, Function.update_of_ne hx]
  have hself : (accept_client s ip now added).clients i = c := by
    rw [heq, Function.update_self]
  have hused : ∀ x, (s.clients x).in_use = true →
      (accept_client s ip now added).clients x = s.clients x := by
    intro x hu
    apply hother
    intro hx
    rw [hx, hfree] at hu
    cases hu
  have htaken : ∀ x, taken s (accept_client s ip now added) x → x = i := by
    intro x ht
    by_contra hx
    have hu := ht.2
    rw [hother x hx, ht.1] at hu
    cases hu
  refine ⟨⟨fun x => ?_, fun x => ?_, fun x hu _ => by rwa [hused x hu]⟩,
    fun x hu _ => by rw [hused x hu], fun x y hx hy => (htaken x hx).trans (htaken y hy).symm⟩
  · by_cases hx : x = i
    · rw [hx, hself]
      exact hup
    · rw [hother x hx]
  · by_cases hx : x = i
    · rw [hx, hself]
      omega
    · rw [hother x hx]
      exact Nat.le_add_right ..

/-- The first half of serving a connection. -/
theorem writable_spec (h : Settled cfg s) (e : Reported) (hc : alive s ci) :
    Settled cfg (whenWritable cfg s e ci) ∧
      Turns (fun _ _ => True) s (whenWritable cfg s e ci) ∧
      Steady s (whenWritable cfg s e ci) := by
  simp only [whenWritable]
  split
  · have hk := served_flush (says_any cfg).toAnswers h.tables hc
    exact ⟨h.of_served hk, hk.turns, steady_flush (steady_drop cfg) s ci⟩
  · exact ⟨h, Turns.refl _ s, Steady.refl s⟩

/-- The second half.  A slot that was given up in the first is still marked as dead. -/
theorem readable_spec (h : Settled cfg s) (e : Reported)
    (hc : (s.clients ci).dead = false → alive s ci) :
    Settled cfg (whenReadable cfg s e ci) ∧ Aged 1 s (whenReadable cfg s e ci) ∧
      Steady s (whenReadable cfg s e ci) := by
  simp only [whenReadable]
  split
  · rename_i hd
    have hup := hc hd.2
    obtain ⟨hk, hrx⟩ := read_service (says_any cfg) e.recv h.tables hup (h.decoded ci hup)
      (passes_any ci _)
    exact ⟨h.of_read hk fun hl => (hrx hl).1, aged_of_turns hk.turns, steady_service cfg s ci _⟩
  · exact ⟨h, Aged.of_clients rfl, Steady.refl s⟩

/-- The slot an event selects is in use, in the generation of the tag. -/
theorem selected_spec {tag : ℕ} (h : selected s tag = some ci) :
    ci = tag % 2 ^ 32 ∧ (s.clients ci).in_use = true ∧
      (s.clients ci).gen % 2 ^ 32 = tag / 2 ^ 32 := by
  simp only [selected] at h
  split at h
  · cases h
  split at h
  · cases h
  · rename_i hno
    simp only [not_or, Bool.not_eq_false, not_not] at hno
    simp only [Option.some.injEq] at h
    exact ⟨h.symm, h ▸ hno.1, h ▸ hno.2⟩

/-- What the world decides is not in the slots. -/
theorem turned_facing {e : Reported} (h : Turned (facing s e) s') : Turned s s' :=
  ⟨⟨h.aged.up, h.aged.le, h.aged.stays⟩, h.keeps, h.one⟩

/-- A turn keeps the tables consistent, frees a slot at most twice and takes one slot at most. -/
theorem turn_spec (h : Settled cfg s) (e : Reported) :
    Settled cfg (turn cfg s e) ∧ Turned s (turn cfg s e) := by
  have hf : Settled cfg (facing s e) := settled_world h e.kernel e.seeds
  have hnone : Settled cfg (facing s e) ∧ Turned s (facing s e) :=
    ⟨hf, turned_of_steady (Aged.of_clients rfl) (Steady.of_clients rfl)⟩
  simp only [turn]
  split
  · cases e.accepted with
    | none => exact hnone
    | some a =>
      obtain ⟨ip, now, added⟩ := a
      exact ⟨(settled_accept hf ip now added).1, turned_facing (turned_accept _ ip now added)⟩
  split
  · exact hnone
  cases hsel : selected (facing s e) e.tag with
  | none => exact hnone
  | some ci =>
    have hu := (selected_spec hsel).2.1
    obtain ⟨h1, h2, h3⟩ := writable_spec hf e ⟨hu, hf.up ci hu⟩
    obtain ⟨k1, k2, k3⟩ := readable_spec h1 e fun hd =>
      h2.alive ⟨hu, hf.up ci hu⟩ (by rw [hd]; exact Bool.false_ne_true)
    exact ⟨k1, turned_facing (turned_of_steady ((aged_of_turns h2).trans k2) (h3.trans k3))⟩

end Turn

/-! ### Runs -/

section Run

variable {cfg : Config} {s : Relay} {w : Watch} {es : List Reported} {n ci : ℕ}

/-- Every connection is registered under the tag of its slot, and its number is its own. -/
structure Registered (cfg : Config) (w : Watch) : Prop where
  settled : Settled cfg w.relay
  tags : ∀ c, (w.relay.clients c).in_use = true → w.tag c = tag_of w.relay c
  fresh : ∀ c, (w.relay.clients c).in_use = true → w.who c < w.turns
  own : ∀ c c', (w.relay.clients c).in_use = true → (w.relay.clients c').in_use = true →
    w.who c = w.who c' → c = c'

/-- A relay that goes on leaves its connections registered. -/
theorem Registered.move (h : Registered cfg w) (hs : Settled cfg s) (ht : Turned w.relay s) :
    Registered cfg (w.move s) := by
  have hold : ∀ c, (s.clients c).in_use = true → ¬ taken w.relay s c →
      (w.relay.clients c).in_use = true := by
    intro c hu hno
    by_contra hf
    exact hno ⟨Bool.eq_false_iff.mpr hf, hu⟩
  refine ⟨hs, fun c hu => ?_, fun c hu => ?_, fun c c' hu hu' heq => ?_⟩
  · simp only [Watch.move] at hu ⊢
    split
    · rfl
    · rename_i hno
      rw [h.tags c (hold c hu hno), tag_of, tag_of, ht.keeps c (hold c hu hno) hu]
  · simp only [Watch.move] at hu ⊢
    split
    · exact Nat.lt_succ_self _
    · rename_i hno
      exact Nat.lt_succ_of_lt (h.fresh c (hold c hu hno))
  · simp only [Watch.move] at hu hu' heq
    split at heq
    · rename_i hc
      split at heq
      · rename_i hc'
        exact ht.one c c' hc hc'
      · rename_i hno
        have hlt := h.fresh c' (hold c' hu' hno)
        omega
    · rename_i hno
      split at heq
      · have hlt := h.fresh c (hold c hu hno)
        omega
      · rename_i hno'
        exact h.own c c' (hold c hu hno) (hold c' hu' hno') heq

/-- Serving an event of a batch leaves the connections registered. -/
theorem Registered.serve (h : Registered cfg w) (e : Reported) :
    Registered cfg (w.serve cfg e) := by
  obtain ⟨hs, ht⟩ := turn_spec h.settled e
  exact h.move hs ht

/-- The calls of the loop are on connections that are up. -/
theorem Calls.spec {e : Reported} {s₁ : Relay} (h : Calls cfg s e ci s₁) (hs : Settled cfg s) :
    e.tag ≠ TAG_LISTEN ∧ e.tag ≠ TAG_SIG ∧ selected (facing s e) e.tag = some ci ∧
      alive s₁ ci ∧ (s₁.clients ci).gen = (s.clients ci).gen := by
  have hf : Settled cfg (facing s e) := settled_world hs e.kernel e.seeds
  cases h with
  | flush h1 h2 h3 _ hd => exact ⟨h1, h2, h3, ⟨(selected_spec h3).2.1, hd⟩, rfl⟩
  | service h1 h2 h3 _ hd =>
    have hu := (selected_spec h3).2.1
    have ht := (writable_spec hf e ⟨hu, hf.up ci hu⟩).2.1
    have hup := ht.alive ⟨hu, hf.up ci hu⟩ (by rw [hd]; exact Bool.false_ne_true)
    exact ⟨h1, h2, h3, hup, (ht.stays ci hup).2.1⟩

/-- Between the time an index is read and the time it is used no slot is taken. -/
theorem Held.steady {s' : Relay} (h : Held cfg n s ci s') : Steady s s' := by
  have hf := steady_dropFuel cfg n
  have hd := steady_drop cfg
  cases h with
  | broadcast payload _ _ => exact Steady.foldl _ (fun s m => steady_send_frame hf s _ m _ _) _ s
  | notify payload _ _ =>
    refine Steady.trans ?_ (Steady.foldl _ (fun s m => steady_send_frame hf s _ m _ _) _ _)
    apply Steady.foldl
    intro s m
    exact steady_modify s m _ fun _ => ⟨rfl, rfl⟩
  | survivor payload _ _ =>
    refine Steady.trans ?_ (Steady.foldl _ (fun s m => steady_send_frame hf s _ m _ _) _ _)
    exact steady_dissolve hf s _ []
  | unpaired _ => exact steady_unpair hf s _
  | leaver _ seat => exact steady_leave hf s _ ci seat
  | hello old => exact hd s old
  | seat payload origin _ _ =>
    apply Steady.foldl
    intro s m
    exact steady_send cfg s origin m.1 _ _
  | pair host guest origin payload _ => exact steady_send cfg s origin host _ payload
  | fan _ origin data _ _ =>
    apply Steady.foldl
    intro s m
    split
    · exact steady_send_raw hd s origin m data
    · exact Steady.refl s
  | reader _ => exact steady_takeFrame cfg s ci
  | feeder _ => exact steady_drain cfg RX_CAP s ci

end Run

end BoxingNetplay.Analysis.ConnectionTags
