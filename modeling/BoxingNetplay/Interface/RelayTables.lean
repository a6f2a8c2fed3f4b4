import Mathlib.Algebra.Order.BigOperators.Group.Finset
import Mathlib.Data.Finset.Card
import BoxingNetplay.Model.IntvRelay

/-!
# The tables of the C relay

What holds of the tables of clients, rooms and names whenever a function sends, and what
a send may do to them.  A send may drop its recipient, whose room then ends or closes up,
which sends again; whatever comes of it, clients only go, rooms only shrink, and the tables stay
consistent, save for the rooms that a caller is about to free.
-/

set_option autoImplicit false

namespace BoxingNetplay.Interface.IntvRelay

open BoxingNetplay.Model.Wire
open BoxingNetplay.Model.IntvRelay

/-! ### Slots -/

@[simp]
theorem modify_self (s : Relay) (ci : ℕ) (f : Client → Client) :
    (s.modify ci f).clients ci = f (s.clients ci) := Function.update_self ..

theorem modify_of_ne (s : Relay) {ci c : ℕ} (f : Client → Client) (h : c ≠ ci) :
    (s.modify ci f).clients c = s.clients c := Function.update_of_ne h ..

@[simp]
theorem modifyRoom_self (s : Relay) (ri : ℕ) (f : Room → Room) :
    (s.modifyRoom ri f).rooms ri = f (s.rooms ri) := Function.update_self ..

theorem modifyRoom_of_ne (s : Relay) {ri r : ℕ} (f : Room → Room) (h : r ≠ ri) :
    (s.modifyRoom ri f).rooms r = s.rooms r := Function.update_of_ne h ..

/-- A connection that is up. -/
def alive (s : Relay) (c : ℕ) : Prop := (s.clients c).in_use = true ∧ (s.clients c).dead = false

instance (s : Relay) (c : ℕ) : Decidable (alive s c) :=
  inferInstanceAs (Decidable (_ ∧ _))

/-- The slots in use. -/
def inUse (s : Relay) : Finset ℕ := {c ∈ Finset.range MAX_CLIENTS | (s.clients c).in_use = true}

/-- The connections that are up. -/
def live (s : Relay) : Finset ℕ := {c ∈ Finset.range MAX_CLIENTS | alive s c}

/-! ### The invariant -/

/-- The tables are consistent, but for the rooms `D` a caller is about to free and the number of
members of the rooms `E`. -/
structure Tables (cfg : Config) (D E : Set ℕ) (s : Relay) : Prop where
  slot : ∀ c, (s.clients c).in_use = true → c < MAX_CLIENTS
  count : s.n_clients = (inUse s).card
  leaving : ∀ c, (s.clients c).in_use = true → (s.clients c).dead = true →
    (s.clients c).room = none
  seated : ∀ c r, alive s c → (s.clients c).room = some r →
    r < MAX_ROOMS ∧ r ∉ D ∧ (s.rooms r).used = true ∧ c ∈ (s.rooms r).members
  member : ∀ r, (s.rooms r).used = true → r ∉ D → ∀ m ∈ (s.rooms r).members,
    alive s m ∧ (s.clients m).room = some r
  distinct : ∀ r, (s.rooms r).used = true → r ∉ D → (s.rooms r).members.Nodup
  fits : ∀ r, (s.rooms r).used = true → r ∉ D → (s.rooms r).members.length ≤ cfg.max_seats
  pairs : ∀ r, (s.rooms r).used = true → r ∉ D → r ∉ E → 2 ≤ (s.rooms r).members.length
  empty : ∀ r, (s.rooms r).used = false → (s.rooms r).members = []
  serials : ∀ r, (s.rooms r).used = true → (s.rooms r).serial < s.serial
  apart : ∀ r r', (s.rooms r).used = true → (s.rooms r').used = true →
    (s.rooms r).serial = (s.rooms r').serial → r = r'
  listed : ∀ e ∈ s.by_name, alive s e.2 ∧ (s.clients e.2).name = e.1 ∧ e.1 ≠ []
  named : ∀ c, alive s c → (s.clients c).name ≠ [] → ((s.clients c).name, c) ∈ s.by_name
  names : (s.by_name.map Prod.fst).Nodup
  reached : s.reached = []

/-- What a client has sent so far, and what became of it. -/
def input (c : Client) : List ℕ × List ℕ × List Handled := (c.rx, c.received, c.handled)

/-- A client has been sent frames of a kind; the kernel has some of them and the rest waits. -/
def Grows (P : Queued → Prop) (c c' : Client) : Prop :=
  ∃ l, c'.queued = c.queued ++ l ∧
    c'.wire ++ c'.tx = c.wire ++ c.tx ++ (l.map Queued.bytes).flatten ∧ ∀ q ∈ l, P q

/-- What sending can do: connections go and their slots are freed, those that stay are sent
frames, rooms shrink before the start or are freed. -/
structure Shrinks (P : ℕ → Queued → Prop) (s s' : Relay) : Prop where
  stays : ∀ c, alive s' c → alive s c ∧ (s'.clients c).gen = (s.clients c).gen ∧
    (s'.clients c).name = (s.clients c).name ∧ input (s'.clients c) = input (s.clients c) ∧
    ((s'.clients c).room = (s.clients c).room ∨ (s'.clients c).room = none) ∧
    Grows (P c) (s.clients c) (s'.clients c)
  gone : ∀ c, alive s c → ¬ alive s' c → (s'.clients c).dead = true ∧
    (s'.clients c).in_use = false ∧ (s'.clients c).gen = (s.clients c).gen + 1 ∧
    Grows (P c) (s.clients c) (s'.clients c)
  rest : ∀ c, ¬ alive s c → s'.clients c = s.clients c
  rooms : ∀ r, (s'.rooms r).used = true → (s.rooms r).used = true ∧
    (s'.rooms r).started = (s.rooms r).started ∧ (s'.rooms r).serial = (s.rooms r).serial ∧
    (s'.rooms r).members.Sublist (s.rooms r).members ∧
    ((s.rooms r).started = true → (s'.rooms r).members = (s.rooms r).members)
  serial : s'.serial = s.serial

/-- A change that leaves the tables alone. -/
structure Same (s s' : Relay) : Prop where
  clients : ∀ c, (s'.clients c).in_use = (s.clients c).in_use ∧
    (s'.clients c).dead = (s.clients c).dead ∧ (s'.clients c).gen = (s.clients c).gen ∧
    (s'.clients c).name = (s.clients c).name ∧ (s'.clients c).room = (s.clients c).room
  rooms : s'.rooms = s.rooms
  by_name : s'.by_name = s.by_name
  n_clients : s'.n_clients = s.n_clients
  serial : s'.serial = s.serial
  reached : s'.reached = s.reached

/-! ### Lemmas -/

/-- A slot is in use, up and in a room as before. -/
theorem Same.alive_iff {s s' : Relay} (h : Same s s') (c : ℕ) : alive s' c ↔ alive s c := by
  obtain ⟨h1, h2, -⟩ := h.clients c
  rw [alive, alive, h1, h2]

/-- The slots in use are the same. -/
theorem Same.inUse_eq {s s' : Relay} (h : Same s s') : inUse s' = inUse s :=
  Finset.filter_congr fun c _ => by rw [(h.clients c).1]

theorem Same.live_eq {s s' : Relay} (h : Same s s') : live s' = live s :=
  Finset.filter_congr fun c _ => h.alive_iff c

/-- The tables of a state with the same tables are as consistent. -/
theorem Same.tables {cfg : Config} {D E : Set ℕ} {s s' : Relay} (h : Same s s')
    (ht : Tables cfg D E s) : Tables cfg D E s' where
  slot c hc := ht.slot c ((h.clients c).1 ▸ hc)
  count := by rw [h.n_clients, h.inUse_eq, ht.count]
  leaving c hc hd := by
    rw [(h.clients c).2.2.2.2]
    exact ht.leaving c ((h.clients c).1 ▸ hc) ((h.clients c).2.1 ▸ hd)
  seated c r hc hr := by
    rw [(h.clients c).2.2.2.2] at hr
    rw [h.rooms]
    exact ht.seated c r ((h.alive_iff c).mp hc) hr
  member r hu hD m hm := by
    rw [h.rooms] at hu hm
    rw [h.alive_iff, (h.clients m).2.2.2.2]
    exact ht.member r hu hD m hm
  distinct r hu hD := by
    rw [h.rooms] at hu ⊢
    exact ht.distinct r hu hD
  fits r hu hD := by
    rw [h.rooms] at hu ⊢
    exact ht.fits r hu hD
  pairs r hu hD hE := by
    rw [h.rooms] at hu ⊢
    exact ht.pairs r hu hD hE
  empty := by
    rw [h.rooms]
    exact ht.empty
  serials := by
    rw [h.rooms, h.serial]
    exact ht.serials
  apart := by
    rw [h.rooms]
    exact ht.apart
  listed e he := by
    rw [h.by_name] at he
    rw [h.alive_iff, (h.clients e.2).2.2.2.1]
    exact ht.listed e he
  named c hc hn := by
    rw [(h.clients c).2.2.2.1] at hn ⊢
    rw [h.by_name]
    exact ht.named c ((h.alive_iff c).mp hc) hn
  names := by
    rw [h.by_name]
    exact ht.names
  reached := by rw [h.reached, ht.reached]

/-- Changing one slot's buffers and history leaves the tables alone. -/
theorem same_modify (s : Relay) (ci : ℕ) (f : Client → Client)
    (hf : ∀ c, (f c).in_use = c.in_use ∧ (f c).dead = c.dead ∧ (f c).gen = c.gen ∧
      (f c).name = c.name ∧ (f c).room = c.room) : Same s (s.modify ci f) where
  clients c := by
    by_cases hc : c = ci
    · subst hc
      rw [modify_self]
      exact hf _
    · rw [modify_of_ne s f hc]
      exact ⟨rfl, rfl, rfl, rfl, rfl⟩
  rooms := rfl
  by_name := rfl
  n_clients := rfl
  serial := rfl
  reached := rfl

/-- Nothing may be sent. -/
theorem Grows.refl (P : Queued → Prop) (c : Client) : Grows P c c :=
  ⟨[], (List.append_nil _).symm, (List.append_nil _).symm, nofun⟩

/-- What is sent later goes behind. -/
theorem Grows.trans {P : Queued → Prop} {c c' c'' : Client} (h : Grows P c c')
    (h' : Grows P c' c'') : Grows P c c'' := by
  obtain ⟨l, h1, h2, h3⟩ := h
  obtain ⟨l', k1, k2, k3⟩ := h'
  refine ⟨l ++ l', ?_, ?_, fun q hq => ?_⟩
  · rw [k1, h1, List.append_assoc]
  · rw [k2, h2, List.map_append, List.flatten_append, List.append_assoc, List.append_assoc]
  · rcases List.mem_append.mp hq with hq | hq
    · exact h3 q hq
    · exact k3 q hq

/-- Nothing is sent when the outgoing buffers are as before. -/
theorem Grows.of_eq {P : Queued → Prop} {c c' : Client} (hq : c'.queued = c.queued)
    (hw : c'.wire = c.wire) (ht : c'.tx = c.tx) : Grows P c c' :=
  ⟨[], by rw [hq, List.append_nil], by rw [hw, ht]; exact (List.append_nil _).symm, nofun⟩

namespace Shrinks

variable {P : ℕ → Queued → Prop} {s s' s'' : Relay}

/-- Nothing may happen. -/
theorem refl (P : ℕ → Queued → Prop) (s : Relay) : Shrinks P s s where
  stays _ hc := ⟨hc, rfl, rfl, rfl, Or.inl rfl, Grows.refl ..⟩
  gone _ hc hn := absurd hc hn
  rest _ _ := rfl
  rooms _ hu := ⟨hu, rfl, rfl, List.Sublist.refl _, fun _ => rfl⟩
  serial := rfl

/-- Whoever is not up stays so. -/
theorem not_alive (h : Shrinks P s s') {c : ℕ} (hc : ¬ alive s c) : ¬ alive s' c :=
  fun hc' => hc (h.stays c hc').1

/-- One thing may happen after another. -/
theorem trans (h : Shrinks P s s') (h' : Shrinks P s' s'') : Shrinks P s s'' where
  stays c hc := by
    obtain ⟨h1, h2, h3, h4, h5, h6⟩ := h'.stays c hc
    obtain ⟨k1, k2, k3, k4, k5, k6⟩ := h.stays c h1
    refine ⟨k1, h2.trans k2, h3.trans k3, h4.trans k4, ?_, k6.trans h6⟩
    rcases h5 with h5 | h5
    · rwa [h5]
    · exact Or.inr h5
  gone c hc hn := by
    by_cases hm : alive s' c
    · obtain ⟨h1, h2, h3, h4⟩ := h'.gone c hm hn
      obtain ⟨-, k2, -, -, -, k6⟩ := h.stays c hm
      exact ⟨h1, h2, by rw [h3, k2], k6.trans h4⟩
    · rw [h'.rest c hm]
      exact h.gone c hc hm
  rest c hc := by rw [h'.rest c (h.not_alive hc), h.rest c hc]
  rooms r hu := by
    obtain ⟨h1, h2, h3, h4, h5⟩ := h'.rooms r hu
    obtain ⟨k1, k2, k3, k4, k5⟩ := h.rooms r h1
    exact ⟨k1, h2.trans k2, h3.trans k3, h4.trans k4, fun hs =>
      (h5 (k2.trans hs)).trans (k5 hs)⟩
  serial := h'.serial.trans h.serial

/-- Whoever is dead stays so. -/
theorem dead (h : Shrinks P s s') {c : ℕ} (hc : (s.clients c).dead = true) :
    (s'.clients c).dead = true := by
  rw [h.rest c fun hl => by rw [hl.2] at hc; cases hc]
  exact hc

/-- Whoever was up and is not is dead. -/
theorem dead_of_alive (h : Shrinks P s s') {c : ℕ} (hc : alive s c) (hd : ¬ alive s' c) :
    (s'.clients c).dead = true := (h.gone c hc hd).1

/-- A recipient stays one. -/
theorem recipient (h : Shrinks P s s') {c : ℕ} (hc : alive s c ∨ (s.clients c).dead = true) :
    alive s' c ∨ (s'.clients c).dead = true := by
  rcases hc with hc | hc
  · by_cases hl : alive s' c
    · exact Or.inl hl
    · exact Or.inr (h.dead_of_alive hc hl)
  · exact Or.inr (h.dead hc)

/-- Connections only go. -/
theorem live_subset (h : Shrinks P s s') : live s' ⊆ live s := by
  intro c hc
  rw [live, Finset.mem_filter] at hc ⊢
  exact ⟨hc.1, (h.stays c hc.2).1⟩

/-- A change of buffers. -/
theorem of_same (h : Same s s') (hin : ∀ c, input (s'.clients c) = input (s.clients c))
    (hg : ∀ c, Grows (P c) (s.clients c) (s'.clients c))
    (hrest : ∀ c, ¬ alive s c → s'.clients c = s.clients c) : Shrinks P s s' where
  stays c hc := by
    obtain ⟨-, -, h3, h4, h5⟩ := h.clients c
    exact ⟨(h.alive_iff c).mp hc, h3, h4, hin c, Or.inl h5, hg c⟩
  gone c hc hn := absurd ((h.alive_iff c).mpr hc) hn
  rest := hrest
  rooms r hu := by
    rw [h.rooms] at hu ⊢
    exact ⟨hu, rfl, rfl, List.Sublist.refl _, fun _ => rfl⟩
  serial := h.serial

end Shrinks

/-- Freeing a slot changes no other. -/
theorem client_free_of_ne (s : Relay) {ci c : ℕ} (h : c ≠ ci) :
    (client_free s ci).clients c = s.clients c := Function.update_of_ne h ..

/-! ### Leaving -/

section Leaving

variable {cfg : Config} {D E : Set ℕ} {s s' : Relay} {ci ri : ℕ}

/-- `ci` has been marked, unlisted and unseated. -/
structure Left (s : Relay) (ci : ℕ) (s' : Relay) : Prop where
  was : alive s ci
  clients : (s'.clients ci).in_use = true ∧ (s'.clients ci).dead = true ∧
    (s'.clients ci).gen = (s.clients ci).gen
  sent : (s'.clients ci).queued = (s.clients ci).queued ∧
    (s'.clients ci).wire = (s.clients ci).wire ∧ (s'.clients ci).tx = (s.clients ci).tx
  others : ∀ c, c ≠ ci → s'.clients c = s.clients c
  rooms : ∀ r, (s'.rooms r).used = (s.rooms r).used ∧ (s'.rooms r).started = (s.rooms r).started ∧
    (s'.rooms r).serial = (s.rooms r).serial ∧
    (s'.rooms r).members.Sublist (s.rooms r).members ∧
    ((s.clients ci).room ≠ some r → (s'.rooms r).members = (s.rooms r).members)
  serial : s'.serial = s.serial

/-- One connection fewer is up. -/
theorem Left.live_card (h : Left s ci s') (ht : Tables cfg D E s) :
    (live s').card + 1 = (live s).card := by
  have hmem : ci ∈ live s :=
    Finset.mem_filter.mpr ⟨Finset.mem_range.mpr (ht.slot ci h.was.1), h.was⟩
  have heq : live s' = (live s).erase ci := by
    ext c
    rw [Finset.mem_erase, live, live, Finset.mem_filter, Finset.mem_filter]
    by_cases hc : c = ci
    · subst hc
      have hdead : ¬ alive s' c := fun hl => by
        have hd := h.clients.2.1
        rw [hl.2] at hd
        cases hd
      tauto
    · rw [alive, h.others c hc]
      exact ⟨fun hl => ⟨hc, hl⟩, fun hl => hl.2⟩
  rw [heq, Finset.card_erase_add_one hmem]

/-- When its slot is freed after whatever else happened, it is just one connection that went. -/
theorem Left.free {P : ℕ → Queued → Prop} {s'' : Relay} (h : Left s ci s')
    (hs : Shrinks P s' s'')
    (hend : ∀ r, (s.clients ci).room = some r → (s.rooms r).started = true →
      (s''.rooms r).used = false) : Shrinks P s (client_free s'' ci) := by
  have hdead : ¬ alive s' ci := fun hl => by
    have hd := h.clients.2.1
    rw [hl.2] at hd
    cases hd
  have hself : (client_free s'' ci).clients ci =
      { s'.clients ci with in_use := false, gen := (s'.clients ci).gen + 1 } := by
    simp only [client_free, modify_self, hs.rest ci hdead]
  have hother : ∀ c, c ≠ ci → (client_free s'' ci).clients c = s''.clients c :=
    fun c hc => client_free_of_ne s'' hc
  have hgone : ¬ alive (client_free s'' ci) ci := fun hl => by
    rw [alive, hself] at hl
    cases hl.1
  have halive : ∀ c, c ≠ ci → (alive (client_free s'' ci) c ↔ alive s'' c) := fun c hc => by
    rw [alive, alive, hother c hc]
  have hbefore : ∀ c, c ≠ ci → (alive s' c ↔ alive s c) := fun c hc => by
    rw [alive, alive, h.others c hc]
  exact
    { stays := fun c hc => by
        have hne : c ≠ ci := fun heq => hgone (heq ▸ hc)
        rw [hother c hne, ← h.others c hne, ← hbefore c hne]
        exact hs.stays c ((halive c hne).mp hc)
      gone := fun c hc hn => by
        by_cases hne : c = ci
        · subst hne
          rw [hself]
          exact ⟨h.clients.2.1, rfl, by rw [h.clients.2.2],
            Grows.of_eq h.sent.1 h.sent.2.1 h.sent.2.2⟩
        · rw [halive c hne] at hn
          rw [hother c hne, ← h.others c hne]
          exact hs.gone c ((hbefore c hne).mpr hc) hn
      rest := fun c hc => by
        have hne : c ≠ ci := fun heq => hc (heq ▸ h.was)
        rw [hother c hne, hs.rest c fun hl => hc ((hbefore c hne).mp hl), h.others c hne]
      rooms := fun r hu => by
        obtain ⟨h1, h2, h3, h4, h5⟩ := hs.rooms r hu
        obtain ⟨k1, k2, k3, k4, k5⟩ := h.rooms r
        refine ⟨k1 ▸ h1, h2.trans k2, h3.trans k3, h4.trans k4, fun hst => ?_⟩
        have hne : (s.clients ci).room ≠ some r := fun heq => by
          have hu' : (s''.rooms r).used = true := hu
          rw [hend r heq hst] at hu'
          cases hu'
        exact (h5 (k2.trans hst)).trans (k5 hne)
      serial := hs.serial.trans h.serial }

/-- Freeing a slot that has been given up keeps the tables. -/
theorem Tables.free (ht : Tables cfg D E s) (hu : (s.clients ci).in_use = true)
    (hd : (s.clients ci).dead = true) : Tables cfg D E (client_free s ci) := by
  have hother : ∀ c, c ≠ ci → (client_free s ci).clients c = s.clients c :=
    fun c hc => client_free_of_ne s hc
  have hfree : ((client_free s ci).clients ci).in_use = false := by
    simp only [client_free, modify_self]
  have hne : ∀ c, ((client_free s ci).clients c).in_use = true → c ≠ ci := fun c hc heq => by
    rw [heq, hfree] at hc
    cases hc
  have hlive : ∀ c, alive (client_free s ci) c ↔ alive s c := fun c => by
    by_cases hc : c = ci
    · subst hc
      rw [alive, alive, hfree, hd]
      exact ⟨fun h => absurd h.1 Bool.false_ne_true, fun h => absurd h.2.symm Bool.false_ne_true⟩
    · rw [alive, alive, hother c hc]
  have hsame : ∀ c, alive s c → (client_free s ci).clients c = s.clients c := fun c hc =>
    hother c (hne c ((hlive c).mpr hc).1)
  refine
    { slot := fun c hc => ?_, count := ?_, leaving := fun c hc hdc => ?_, seated := fun c r hc hr => ?_
      member := fun r hr hD m hm => ?_, distinct := ht.distinct, fits := ht.fits, pairs := ht.pairs
      empty := ht.empty, serials := ht.serials, apart := ht.apart, listed := fun e he => ?_
      named := fun c hc hn => ?_, names := ht.names, reached := ht.reached }
  · rw [hother c (hne c hc)] at hc
    exact ht.slot c hc
  · have hmem : ci ∈ inUse s :=
      Finset.mem_filter.mpr ⟨Finset.mem_range.mpr (ht.slot ci hu), hu⟩
    have heq : inUse (client_free s ci) = (inUse s).erase ci := by
      ext c
      rw [Finset.mem_erase, inUse, inUse, Finset.mem_filter, Finset.mem_filter]
      by_cases hc : c = ci
      · subst hc
        rw [hfree]
        tauto
      · rw [hother c hc]
        tauto
    rw [heq, Finset.card_erase_of_mem hmem, ← ht.count]
    rfl
  · have heq := hother c (hne c hc)
    rw [heq] at hc hdc ⊢
    exact ht.leaving c hc hdc
  · rw [hlive] at hc
    rw [hsame c hc] at hr
    exact ht.seated c r hc hr
  · obtain ⟨hm1, hm2⟩ := ht.member r hr hD m hm
    rw [hlive, hsame m hm1]
    exact ⟨hm1, hm2⟩
  · obtain ⟨h1, h2⟩ := ht.listed e he
    rw [hlive, hsame e.2 h1]
    exact ⟨h1, h2⟩
  · rw [hlive] at hc
    rw [hsame c hc] at hn ⊢
    exact ht.named c hc hn

/-- A client that is marked and unlisted, with its room, if any, closed up. -/
theorem Tables.left (ht : Tables cfg D ∅ s) (hc : alive s ci)
    (hci : s'.clients ci = { s.clients ci with dead := true, room := none })
    (hother : ∀ c, c ≠ ci → s'.clients c = s.clients c)
    (hroom : ∀ r, s'.rooms r = { s.rooms r with members := (s.rooms r).members.erase ci } ∧
        (s.clients ci).room = some r ∨
      s'.rooms r = s.rooms r ∧ (s.clients ci).room ≠ some r)
    (hE : ∀ r, r ∉ E → (s.clients ci).room ≠ some r)
    (hnames : s'.by_name = s.by_name.filter fun e => e.2 ≠ ci)
    (hrest : s'.n_clients = s.n_clients ∧ s'.serial = s.serial ∧ s'.reached = s.reached) :
    Left s ci s' ∧ Tables cfg D E s' := by
  have hdead : ¬ alive s' ci := fun hl => by
    have hd := hl.2
    rw [hci] at hd
    cases hd
  have hlive : ∀ c, alive s' c → c ≠ ci ∧ alive s c := fun c hl => by
    have hne : c ≠ ci := fun heq => hdead (heq ▸ hl)
    rw [alive, hother c hne] at hl
    exact ⟨hne, hl⟩
  have hlive' : ∀ c, c ≠ ci → alive s c → alive s' c := fun c hne hl => by
    rw [alive, hother c hne]
    exact hl
  have hr : ∀ r, (s'.rooms r).used = (s.rooms r).used ∧
      (s'.rooms r).started = (s.rooms r).started ∧ (s'.rooms r).serial = (s.rooms r).serial ∧
      (s'.rooms r).members.Sublist (s.rooms r).members ∧
      ((s.clients ci).room ≠ some r → (s'.rooms r).members = (s.rooms r).members) := fun r => by
    rcases hroom r with ⟨h, hseat⟩ | ⟨h, -⟩
    · rw [h]
      exact ⟨rfl, rfl, rfl, List.erase_sublist, fun hne => absurd hseat hne⟩
    · rw [h]
      exact ⟨rfl, rfl, rfl, List.Sublist.refl _, fun _ => rfl⟩
  have hmem : ∀ r, (s.rooms r).used = true → r ∉ D → ∀ m, m ∈ (s'.rooms r).members ↔
      m ∈ (s.rooms r).members ∧ m ≠ ci := fun r hu hD m => by
    rcases hroom r with ⟨h, -⟩ | ⟨h, hn⟩
    · rw [h]
      exact (List.Nodup.mem_erase_iff (ht.distinct r hu hD)).trans and_comm
    · rw [h]
      refine ⟨fun hm => ⟨hm, fun heq => ?_⟩, fun hm => hm.1⟩
      exact hn (heq ▸ (ht.member r hu hD m hm).2)
  refine ⟨⟨hc, ⟨?_, ?_, ?_⟩, by rw [hci]; exact ⟨rfl, rfl, rfl⟩, hother, hr, hrest.2.1⟩, ?_⟩
  · rw [hci]
    exact hc.1
  · rw [hci]
  · rw [hci]
  refine
    { slot := fun c hu => ?_, count := ?_, leaving := fun c hu hd => ?_
      seated := fun c r hl hs => ?_, member := fun r hu hD m hm => ?_
      distinct := fun r hu hD => ?_, fits := fun r hu hD => ?_, pairs := fun r hu hD hne => ?_
      empty := fun r hu => ?_, serials := fun r hu => ?_, apart := fun r r' hu hu' h => ?_
      listed := fun e he => ?_, named := fun c hl hn => ?_, names := ?_, reached := ?_ }
  · by_cases hne : c = ci
    · exact hne ▸ ht.slot ci hc.1
    · rw [hother c hne] at hu
      exact ht.slot c hu
  · have heq : inUse s' = inUse s := Finset.filter_congr fun c _ => by
      by_cases hne : c = ci
      · rw [hne, hci]
      · rw [hother c hne]
    rw [hrest.1, heq, ht.count]
  · by_cases hne : c = ci
    · rw [hne, hci]
    · rw [hother c hne] at hu hd ⊢
      exact ht.leaving c hu hd
  · obtain ⟨hne, hl'⟩ := hlive c hl
    rw [hother c hne] at hs
    obtain ⟨h1, h2, h3, h4⟩ := ht.seated c r hl' hs
    exact ⟨h1, h2, (hr r).1 ▸ h3, (hmem r h3 h2 c).mpr ⟨h4, hne⟩⟩
  · rw [(hr r).1] at hu
    obtain ⟨hm', hne⟩ := (hmem r hu hD m).mp hm
    obtain ⟨h1, h2⟩ := ht.member r hu hD m hm'
    exact ⟨hlive' m hne h1, by rw [hother m hne, h2]⟩
  · rw [(hr r).1] at hu
    exact (hr r).2.2.2.1.nodup (ht.distinct r hu hD)
  · rw [(hr r).1] at hu
    exact Nat.le_trans (hr r).2.2.2.1.length_le (ht.fits r hu hD)
  · rw [(hr r).1] at hu
    rcases hroom r with ⟨h, -⟩ | ⟨h, -⟩
    · have hni : ci ∉ (s.rooms r).members := fun hi => hE r hne (ht.member r hu hD ci hi).2
      rw [h]
      simp only [List.erase_of_not_mem hni]
      exact ht.pairs r hu hD (Set.notMem_empty r)
    · rw [h]
      exact ht.pairs r hu hD (Set.notMem_empty r)
  · rw [(hr r).1] at hu
    exact List.sublist_nil.mp (ht.empty r hu ▸ (hr r).2.2.2.1)
  · rw [(hr r).1] at hu
    rw [(hr r).2.2.1, hrest.2.1]
    exact ht.serials r hu
  · rw [(hr r).1] at hu
    rw [(hr r').1] at hu'
    rw [(hr r).2.2.1, (hr r').2.2.1] at h
    exact ht.apart r r' hu hu' h
  · rw [hnames, List.mem_filter] at he
    have hne : e.2 ≠ ci := of_decide_eq_true he.2
    obtain ⟨h1, h2⟩ := ht.listed e he.1
    exact ⟨hlive' e.2 hne h1, by rw [hother e.2 hne]; exact h2⟩
  · obtain ⟨hne, hl'⟩ := hlive c hl
    rw [hother c hne] at hn ⊢
    rw [hnames, List.mem_filter]
    exact ⟨ht.named c hl' hn, decide_eq_true hne⟩
  · rw [hnames]
    exact (List.filter_sublist.map Prod.fst).nodup ht.names
  · rw [hrest.2.2, ht.reached]

/-- A client in no room is marked and unlisted. -/
theorem Tables.unlisted (ht : Tables cfg D ∅ s) (hc : alive s ci) (hr : (s.clients ci).room = none) :
    Left s ci (unlist s ci) ∧ Tables cfg D ∅ (unlist s ci) := by
  have hne : ∀ r, (s.clients ci).room ≠ some r := fun r => by
    rw [hr]
    exact nofun
  refine ht.left hc ?_ (fun c hc => Function.update_of_ne hc ..) (fun r => Or.inr ⟨rfl, hne r⟩)
    (fun r _ => hne r) rfl ⟨rfl, rfl, rfl⟩
  have hself : (unlist s ci).clients ci = { s.clients ci with dead := true } :=
    Function.update_self ..
  rw [hself, ← hr]

/-- A client in a room leaves it. -/
theorem Tables.vacated (ht : Tables cfg D ∅ s) (hc : alive s ci)
    (hr : (s.clients ci).room = some ri) :
    Left s ci (vacate (unlist s ci) ri ci) ∧ Tables cfg D {ri} (vacate (unlist s ci) ri ci) := by
  refine ht.left hc ?_ (fun c hc => ?_) (fun r => ?_) (fun r hne heq => ?_) rfl ⟨rfl, rfl, rfl⟩
  · simp only [vacate, Relay.modifyRoom, Relay.modify, unlist, Function.update_self]
  · simp only [vacate, Relay.modifyRoom, Relay.modify, unlist, Function.update_of_ne hc]
  · by_cases heq : r = ri
    · subst heq
      exact Or.inl ⟨modifyRoom_self .., hr⟩
    · refine Or.inr ⟨modifyRoom_of_ne _ _ heq, fun h => heq ?_⟩
      rw [hr] at h
      exact (Option.some.inj h).symm
  · rw [hr] at heq
    exact hne (Option.some.inj heq).symm

end Leaving

/-! ### Sending -/

/-- A client something may be sent to: one that is up, or one that went while its caller was
looking elsewhere. -/
def Recipient (s : Relay) (c : ℕ) : Prop := alive s c ∨ (s.clients c).dead = true

/-- What a function that sends frames of a kind leaves behind. -/
structure Kept (cfg : Config) (P : ℕ → Queued → Prop) (D : Set ℕ) (s s' : Relay) : Prop where
  tables : Tables cfg D ∅ s'
  shrinks : Shrinks P s s'

/-- A kind of frames that has those a departure gives rise to. -/
structure Tells (cfg : Config) (P : ℕ → Queued → Prop) : Prop where
  room : ∀ c payload, payload.length = 33 → payload.headD 0 ≤ ROSTER_SLOTS →
    P c ⟨.relay, frame T_ROOM payload⟩
  left : ∀ c payload, (payload.length = if cfg.proto = .v1 then 0 else 9) →
    P c ⟨.relay, frame T_PEER_LEFT payload⟩

/-- A `drop` that may be relied on while at most `n` connections are up. -/
def Sound (cfg : Config) (P : ℕ → Queued → Prop) (drop : Relay → ℕ → Relay) (n : ℕ) : Prop :=
  ∀ D s ci, Tables cfg D ∅ s → (live s).card ≤ n → Recipient s ci →
    Kept cfg P D s (drop s ci) ∧ ((drop s ci).clients ci).dead = true

section Sending

variable {cfg : Config} {P : ℕ → Queued → Prop} {D : Set ℕ} {s s' s'' : Relay}
  {ci ri n : ℕ} {drop : Relay → ℕ → Relay}

theorem Kept.refl (ht : Tables cfg D ∅ s) : Kept cfg P D s s := ⟨ht, Shrinks.refl P s⟩

theorem Kept.trans (h : Kept cfg P D s s') (h' : Kept cfg P D s' s'') : Kept cfg P D s s'' :=
  ⟨h'.tables, h.shrinks.trans h'.shrinks⟩

/-- What keeps the tables makes the connections no more. -/
theorem Kept.card_le (h : Kept cfg P D s s') (hn : (live s).card ≤ n) : (live s').card ≤ n :=
  Nat.le_trans (Finset.card_le_card h.shrinks.live_subset) hn

/-- Changing the buffers of a client that is up. -/
theorem kept_modify (f : Client → Client) (hc : alive s ci) (ht : Tables cfg D ∅ s)
    (hf : ∀ c, (f c).in_use = c.in_use ∧ (f c).dead = c.dead ∧ (f c).gen = c.gen ∧
      (f c).name = c.name ∧ (f c).room = c.room) (hin : ∀ c, input (f c) = input c)
    (hg : Grows (P ci) (s.clients ci) (f (s.clients ci))) :
    Kept cfg P D s (s.modify ci f) ∧ live (s.modify ci f) = live s ∧ alive (s.modify ci f) ci := by
  have hsame := same_modify s ci f hf
  refine ⟨⟨hsame.tables ht, Shrinks.of_same hsame (fun c => ?_) (fun c => ?_) fun c hd => ?_⟩,
    hsame.live_eq, (hsame.alive_iff ci).mpr hc⟩
  · by_cases h : c = ci
    · rw [h, modify_self, hin]
    · rw [modify_of_ne s f h]
  · by_cases h : c = ci
    · rw [h, modify_self]
      exact hg
    · rw [modify_of_ne s f h]
      exact Grows.refl ..
  · exact modify_of_ne s f fun h => hd (h ▸ hc)

/-- The kernel's results are not in the tables. -/
theorem kept_kernel (ht : Tables cfg D ∅ s) (k : List SendResult) :
    Kept cfg P D s { s with kernel := k } ∧ live { s with kernel := k } = live s := by
  have hsame : Same s { s with kernel := k } :=
    ⟨fun _ => ⟨rfl, rfl, rfl, rfl, rfl⟩, rfl, rfl, rfl, rfl, rfl⟩
  exact ⟨⟨hsame.tables ht, Shrinks.of_same hsame (fun _ => rfl) (fun _ => Grows.refl ..)
    fun _ _ => rfl⟩, hsame.live_eq⟩

/-- Handing a queue to the kernel keeps the tables consistent. -/
theorem Sound.flush (hf : Sound cfg P drop n) (ht : Tables cfg D ∅ s) (hn : (live s).card ≤ n)
    (hc : alive s ci) : Kept cfg P D s (flush drop s ci) := by
  obtain ⟨hk, hlive, hup⟩ := kept_modify
    (fun c => { c with
      tx := (transmit s.kernel (s.clients ci).tx).left
      wire := c.wire ++ (transmit s.kernel (s.clients ci).tx).taken })
    hc ht (fun _ => ⟨rfl, rfl, rfl, rfl, rfl⟩) (fun _ => rfl)
    ⟨[], (List.append_nil _).symm, by
      rw [List.append_assoc, transmit_split]
      exact (List.append_nil _).symm, nofun⟩
  obtain ⟨hk', hlive'⟩ := kept_kernel (P := P) hk.tables (transmit s.kernel (s.clients ci).tx).rest
  simp only [Model.IntvRelay.flush]
  split
  · have hd := hf D _ ci hk'.tables (by rw [hlive', hlive]; exact hn) (Or.inl hup)
    exact (hk.trans hk').trans hd.1
  · exact hk.trans hk'

theorem Sound.send_raw (hf : Sound cfg P drop n) (ht : Tables cfg D ∅ s) (hn : (live s).card ≤ n)
    (hc : Recipient s ci) (o : Origin) (data : List ℕ) (hP : P ci ⟨o, data⟩) :
    Kept cfg P D s (send_raw drop s o ci data) := by
  simp only [Model.IntvRelay.send_raw]
  split
  · exact Kept.refl ht
  · rename_i hdead
    have hup : alive s ci := hc.resolve_right hdead
    split
    · exact (hf D s ci ht hn hc).1
    · obtain ⟨hk, hlive, hup'⟩ := kept_modify
        (fun c => { c with tx := c.tx ++ data, queued := c.queued ++ [⟨o, data⟩] })
        hup ht (fun _ => ⟨rfl, rfl, rfl, rfl, rfl⟩) (fun _ => rfl)
        ⟨[⟨o, data⟩], rfl, by simp, fun q hq => List.mem_singleton.mp hq ▸ hP⟩
      exact hk.trans (hf.flush hk.tables (by rw [hlive]; exact hn) hup')

/-- A loop of sends. -/
theorem kept_foldl {α : Type} (dst : α → ℕ) (g : Relay → α → Relay)
    (hg : ∀ s m, Tables cfg D ∅ s → (live s).card ≤ n → Recipient s (dst m) → Kept cfg P D s (g s m)) :
    ∀ (ms : List α) (s : Relay), Tables cfg D ∅ s → (live s).card ≤ n →
      (∀ m ∈ ms, Recipient s (dst m)) → Kept cfg P D s (ms.foldl g s) := by
  intro ms
  induction ms with
  | nil => exact fun s ht _ _ => Kept.refl ht
  | cons m ms ih =>
    intro s ht hn hms
    have hk := hg s m ht hn (hms m List.mem_cons_self)
    refine hk.trans (ih (g s m) hk.tables (hk.card_le hn) fun x hx => ?_)
    exact hk.shrinks.recipient (hms x (List.mem_cons_of_mem m hx))

/-- Sending a frame to several clients. -/
theorem Sound.send_frames (hf : Sound cfg P drop n) (ht : Tables cfg D ∅ s) (hn : (live s).card ≤ n)
    (ms : List ℕ) (hms : ∀ m ∈ ms, Recipient s m) (ftype : ℕ) (payload : List ℕ)
    (hP : ∀ c, P c ⟨.relay, frame ftype payload⟩) :
    Kept cfg P D s (ms.foldl (fun s m => send_frame drop s .relay m ftype payload) s) :=
  kept_foldl id _ (fun _ m ht hn hm => hf.send_raw ht hn hm .relay _ (hP m)) ms s ht hn hms

theorem Sound.room_broadcast (hP : Tells cfg P) (hf : Sound cfg P drop n) (ht : Tables cfg D ∅ s)
    (hn : (live s).card ≤ n) (hu : (s.rooms ri).used = true) (hD : ri ∉ D) :
    Kept cfg P D s (room_broadcast drop s ri) :=
  hf.send_frames ht hn _ (fun m hm => Or.inl (ht.member ri hu hD m hm).1) _ _ fun c =>
    hP.room c _ (by rw [List.length_cons, room_roster, length_roster])
      ((Nat.mod_le _ _).trans ((ht.fits ri hu hD).trans cfg.le_roster))

/-- The members of a room are in it no longer. -/
def unseat (s : Relay) (ms : List ℕ) : Relay :=
  ms.foldl (fun s m => s.modify m fun c => { c with room := none }) s

/-- The members are in no room, and everyone else is as before. -/
theorem unseat_clients (ms : List ℕ) (s : Relay) (c : ℕ) :
    (unseat s ms).clients c =
      if c ∈ ms then { s.clients c with room := none } else s.clients c := by
  induction ms generalizing s with
  | nil => rfl
  | cons m ms ih =>
    refine (ih (s.modify m fun c => { c with room := none })).trans ?_
    by_cases hc : c = m
    · subst hc
      simp only [modify_self, List.mem_cons_self, if_true]
      split <;> rfl
    · rw [modify_of_ne s _ hc]
      simp only [List.mem_cons, hc, false_or]

/-- Nothing but the clients changes. -/
theorem unseat_rest (ms : List ℕ) (s : Relay) :
    (unseat s ms).rooms = s.rooms ∧ (unseat s ms).by_name = s.by_name ∧
      (unseat s ms).n_clients = s.n_clients ∧ (unseat s ms).serial = s.serial ∧
      (unseat s ms).reached = s.reached := by
  induction ms generalizing s with
  | nil => exact ⟨rfl, rfl, rfl, rfl, rfl⟩
  | cons m ms ih => exact ih (s.modify m fun c => { c with room := none })

/-- Unseating the members of a room that is about to be freed. -/
theorem Tables.unseat (ht : Tables cfg D {ri} s) (hu : (s.rooms ri).used = true) (hD : ri ∉ D) :
    Kept cfg P (insert ri D) s (unseat s (s.rooms ri).members) ∧
      live (IntvRelay.unseat s (s.rooms ri).members) = live s ∧
      ∀ c, alive (IntvRelay.unseat s (s.rooms ri).members) c ↔ alive s c := by
  have hcl := unseat_clients (s.rooms ri).members s
  obtain ⟨hr, hb, hn, hse, hre⟩ := unseat_rest (s.rooms ri).members s
  set s' := IntvRelay.unseat s (s.rooms ri).members
  have hin : ∀ c, (s'.clients c).in_use = (s.clients c).in_use ∧
      (s'.clients c).dead = (s.clients c).dead ∧ (s'.clients c).gen = (s.clients c).gen ∧
      (s'.clients c).name = (s.clients c).name ∧ input (s'.clients c) = input (s.clients c) ∧
      ((s'.clients c).room = (s.clients c).room ∧ c ∉ (s.rooms ri).members ∨
        (s'.clients c).room = none) := fun c => by
    rw [hcl c]
    split
    · exact ⟨rfl, rfl, rfl, rfl, rfl, Or.inr rfl⟩
    · rename_i h
      exact ⟨rfl, rfl, rfl, rfl, rfl, Or.inl ⟨rfl, h⟩⟩
  have hup : ∀ c, alive s' c ↔ alive s c := fun c => by
    rw [alive, alive, (hin c).1, (hin c).2.1]
  have hlive : live s' = live s := Finset.filter_congr fun c _ => hup c
  have huse : inUse s' = inUse s := Finset.filter_congr fun c _ => by rw [(hin c).1]
  refine ⟨⟨?_, ?_⟩, hlive, hup⟩
  · refine
      { slot := fun c hc => ht.slot c ((hin c).1 ▸ hc), count := by rw [hn, huse, ht.count]
        leaving := fun c hc hd => ?_, seated := fun c r hc hs => ?_
        member := fun r hur hDr m hm => ?_, distinct := fun r hur hDr => ?_
        fits := fun r hur hDr => ?_, pairs := fun r hur hDr _ => ?_, empty := hr ▸ ht.empty
        serials := by rw [hr, hse]; exact ht.serials
        apart := hr ▸ ht.apart, listed := fun e he => ?_, named := fun c hc hnm => ?_, names := hb ▸ ht.names
        reached := hre.trans ht.reached }
    · have hroom := ht.leaving c ((hin c).1 ▸ hc) ((hin c).2.1 ▸ hd)
      rcases (hin c).2.2.2.2.2 with h | h
      · rw [h.1, hroom]
      · exact h
    · rcases (hin c).2.2.2.2.2 with ⟨h, hni⟩ | h
      · rw [h] at hs
        obtain ⟨h1, h2, h3, h4⟩ := ht.seated c r ((hup c).mp hc) hs
        rw [hr]
        refine ⟨h1, fun hmem => ?_, h3, h4⟩
        rcases Set.mem_insert_iff.mp hmem with rfl | hmem
        · exact hni h4
        · exact h2 hmem
      · rw [h] at hs
        cases hs
    · rw [hr] at hur hm
      obtain ⟨h1, h2⟩ := ht.member r hur (fun h => hDr (Set.mem_insert_of_mem ri h)) m hm
      have hni : m ∉ (s.rooms ri).members := fun hmi => by
        have heq := (ht.member ri hu hD m hmi).2
        rw [h2] at heq
        exact hDr (Option.some.inj heq ▸ Set.mem_insert ri D)
      refine ⟨(hup m).mpr h1, ?_⟩
      rw [hcl m, if_neg hni, h2]
    · rw [hr] at hur ⊢
      exact ht.distinct r hur fun h => hDr (Set.mem_insert_of_mem ri h)
    · rw [hr] at hur ⊢
      exact ht.fits r hur fun h => hDr (Set.mem_insert_of_mem ri h)
    · rw [hr] at hur ⊢
      exact ht.pairs r hur (fun h => hDr (Set.mem_insert_of_mem ri h)) fun h =>
        hDr (Set.mem_singleton_iff.mp h ▸ Set.mem_insert ri D)
    · rw [hb] at he
      rw [hup, (hin e.2).2.2.2.1]
      exact ht.listed e he
    · rw [(hin c).2.2.2.1] at hnm ⊢
      rw [hb]
      exact ht.named c ((hup c).mp hc) hnm
  · refine ⟨fun c hc => ?_, fun c hc hn => absurd ((hup c).mpr hc) hn, fun c hc => ?_,
      fun r hur => ?_, hse⟩
    · obtain ⟨-, -, h3, h4, h5, h6⟩ := hin c
      refine ⟨(hup c).mp hc, h3, h4, h5, h6.imp And.left id, ?_⟩
      rw [hcl c]
      split
      · exact Grows.of_eq rfl rfl rfl
      · exact Grows.refl ..
    · rw [hcl c, if_neg fun hm => hc (ht.member ri hu hD c hm).1]
    · rw [hr] at hur ⊢
      exact ⟨hur, rfl, rfl, List.Sublist.refl _, fun _ => rfl⟩

/-- Freeing a room nobody is in. -/
theorem Tables.free_room (ht : Tables cfg (insert ri D) ∅ s) :
    Kept cfg P D s (s.modifyRoom ri fun r => { r with members := [], used := false }) := by
  have hroom : ∀ r, (((s.modifyRoom ri fun r => { r with members := [], used := false }).rooms
      r).used = true) → r ≠ ri := fun r hu heq => by
    rw [heq, modifyRoom_self] at hu
    cases hu
  have hother : ∀ r, r ≠ ri →
      (s.modifyRoom ri fun r => { r with members := [], used := false }).rooms r = s.rooms r :=
    fun r h => modifyRoom_of_ne s _ h
  have hins : ∀ r, r ≠ ri → r ∉ D → r ∉ insert ri D := fun r hne hD h => by
    rcases Set.mem_insert_iff.mp h with h | h
    · exact hne h
    · exact hD h
  refine ⟨?_, ?_⟩
  · refine
      { slot := ht.slot, count := ht.count, leaving := ht.leaving, seated := fun c r hc hs => ?_
        member := fun r hu hD m hm => ?_, distinct := fun r hu hD => ?_, fits := fun r hu hD => ?_
        pairs := fun r hu hD _ => ?_, empty := fun r hu => ?_, serials := fun r hu => ?_
        apart := fun r r' hu hu' h => ?_, listed := ht.listed
        named := ht.named, names := ht.names, reached := ht.reached }
    · obtain ⟨h1, h2, h3, h4⟩ := ht.seated c r hc hs
      have hne : r ≠ ri := fun h => h2 (h ▸ Set.mem_insert ri D)
      rw [hother r hne]
      exact ⟨h1, fun h => h2 (Set.mem_insert_of_mem ri h), h3, h4⟩
    · have hne := hroom r hu
      rw [hother r hne] at hu hm
      exact ht.member r hu (hins r hne hD) m hm
    · have hne := hroom r hu
      rw [hother r hne] at hu ⊢
      exact ht.distinct r hu (hins r hne hD)
    · have hne := hroom r hu
      rw [hother r hne] at hu ⊢
      exact ht.fits r hu (hins r hne hD)
    · have hne := hroom r hu
      rw [hother r hne] at hu ⊢
      exact ht.pairs r hu (hins r hne hD) (Set.notMem_empty r)
    · by_cases hne : r = ri
      · rw [hne, modifyRoom_self]
      · rw [hother r hne] at hu ⊢
        exact ht.empty r hu
    · have hne := hroom r hu
      rw [hother r hne] at hu ⊢
      exact ht.serials r hu
    · have hne := hroom r hu
      have hne' := hroom r' hu'
      rw [hother r hne, hother r' hne'] at h
      rw [hother r hne] at hu
      rw [hother r' hne'] at hu'
      exact ht.apart r r' hu hu' h
  · refine ⟨fun c hc => ⟨hc, rfl, rfl, rfl, Or.inl rfl, Grows.refl ..⟩,
      fun c hc hn => absurd hc hn, fun _ _ => rfl, fun r hu => ?_, rfl⟩
    have hne := hroom r hu
    rw [hother r hne] at hu ⊢
    exact ⟨hu, rfl, rfl, List.Sublist.refl _, fun _ => rfl⟩

/-- Dissolving a room frees it. -/
theorem Sound.dissolve (hP : Tells cfg P) (hf : Sound cfg P drop n) (ht : Tables cfg D {ri} s)
    (hn : (live s).card ≤ n) (hu : (s.rooms ri).used = true) (hD : ri ∉ D) (notify : List ℕ)
    (hnot : ∀ m ∈ notify, m ∈ (s.rooms ri).members) :
    Kept cfg P D s (dissolve drop s ri notify) ∧
      ((dissolve drop s ri notify).rooms ri).used = false := by
  obtain ⟨hk, hlive, hup⟩ := ht.unseat (P := P) hu hD
  have hsent := hf.send_frames hk.tables (by rw [hlive]; exact hn) notify
    (fun m hm => Or.inl ((hup m).mpr (ht.member ri hu hD m (hnot m hm)).1)) T_ROOM
    (0 :: List.replicate (8 * ROSTER_SLOTS) 0) fun c => hP.room c _ rfl (Nat.zero_le _)
  have hfree := hsent.tables.free_room (P := P)
  refine ⟨⟨hfree.tables, (hk.shrinks.trans hsent.shrinks).trans hfree.shrinks⟩, ?_⟩
  simp only [Model.IntvRelay.dissolve, modifyRoom_self]

/-- The end of a departure under protocol 2.  A match is over. -/
theorem Sound.leave (hP : Tells cfg P) (hf : Sound cfg P drop n) (ht : Tables cfg D {ri} s)
    (hn : (live s).card ≤ n) (hu : (s.rooms ri).used = true) (hD : ri ∉ D) (hv : cfg.proto ≠ .v1)
    (ci : ℕ) (seat : Option ℕ) :
    Kept cfg P D s (leave drop s ri ci seat) ∧ ((s.rooms ri).started = true →
      ((leave drop s ri ci seat).rooms ri).used = false) := by
  have hall := fun m hm => (ht.member ri hu hD m hm).1
  simp only [Model.IntvRelay.leave]
  split
  · obtain ⟨hk, hfree⟩ := hf.dissolve hP ht hn hu hD [] nofun
    have hsent := hf.send_frames hk.tables (hk.card_le hn) (s.rooms ri).members
      (fun m hm => hk.shrinks.recipient (Or.inl (hall m hm))) T_PEER_LEFT
      (seat.getD 255 :: pad_name (s.clients ci).name) fun c => hP.left c _ (by
        simp only [hv, if_false, List.length_cons, length_pad_name])
    refine ⟨hk.trans hsent, fun _ => ?_⟩
    by_contra hne
    have hu' := (hsent.shrinks.rooms ri (Bool.eq_true_of_not_eq_false hne)).1
    rw [hfree] at hu'
    cases hu'
  · rename_i hst
    split
    · exact ⟨(hf.dissolve hP ht hn hu hD _ fun _ hm => hm).1, fun h => absurd h hst⟩
    · split
      · exact ⟨(hf.dissolve hP ht hn hu hD _ fun _ hm => hm).1, fun h => absurd h hst⟩
      · rename_i hlen
        have ht' : Tables cfg D ∅ s := { ht with
          pairs := fun r hur hDr _ => by
            by_cases hr : r = ri
            · rw [hr]
              omega
            · exact ht.pairs r hur hDr hr }
        exact ⟨hf.room_broadcast hP ht' hn hu hD, fun h => absurd h hst⟩

/-- The end of a departure under protocol 1. -/
theorem Sound.unpair (hP : Tells cfg P) (hf : Sound cfg P drop n) (ht : Tables cfg D {ri} s)
    (hn : (live s).card ≤ n) (hu : (s.rooms ri).used = true) (hD : ri ∉ D) (hv : cfg.proto = .v1)
    (hone : (s.rooms ri).members.length ≤ 1) :
    Kept cfg P D s (unpair drop s ri) ∧ ((unpair drop s ri).rooms ri).used = false := by
  obtain ⟨hk, hlive, hup⟩ := ht.unseat (P := P) hu hD
  have hfree := hk.tables.free_room (P := P)
  have hall := fun m hm => (ht.member ri hu hD m hm).1
  have hk' : Kept cfg P D s _ := ⟨hfree.tables, hk.shrinks.trans hfree.shrinks⟩
  simp only [Model.IntvRelay.unpair]
  match hm : (s.rooms ri).members with
  | [] =>
    rw [hm] at hk'
    exact ⟨hk', by simp only [List.head?_nil, modifyRoom_self]⟩
  | [p] =>
    rw [hm] at hk' hup
    have hp := hall p (hm ▸ List.mem_singleton_self p)
    have hsent := hf.send_raw hk'.tables (hk'.card_le hn) (Or.inl ((hup p).mpr hp)) .relay
      (frame T_PEER_LEFT []) (hP.left p _ (by rw [if_pos hv, List.length_nil]))
    refine ⟨hk'.trans hsent, ?_⟩
    by_contra hne
    have hu' := (hsent.shrinks.rooms ri (Bool.eq_true_of_not_eq_false hne)).1
    rw [modifyRoom_self] at hu'
    cases hu'
  | p :: q :: ms =>
    rw [hm] at hone
    simp only [List.length_cons] at hone
    omega

/-- What `drop` does, with a `drop` for one connection fewer. -/
theorem Sound.dropBody (hP : Tells cfg P) (hf : Sound cfg P drop n) :
    Sound cfg P (dropBody drop cfg) (n + 1) := by
  intro D s ci ht hn hc
  simp only [Model.IntvRelay.dropBody]
  split
  · rename_i hd
    exact ⟨Kept.refl ht, hd⟩
  · rename_i hd
    have hup : alive s ci := hc.resolve_right hd
    split
    · rename_i hroom
      obtain ⟨hl, ht'⟩ := ht.unlisted hup hroom
      refine ⟨⟨ht'.free hl.clients.1 hl.clients.2.1, hl.free (Shrinks.refl P _) fun r hr => ?_⟩, ?_⟩
      · rw [hroom] at hr
        cases hr
      · simp only [client_free, modify_self]
        exact hl.clients.2.1
    · rename_i ri hroom
      obtain ⟨hl, ht'⟩ := ht.vacated hup hroom
      obtain ⟨-, hD, hu, hmem⟩ := ht.seated ci ri hup hroom
      have hcard := hl.live_card ht
      have hu' := ((hl.rooms ri).1).trans hu
      obtain ⟨hk, hover⟩ : Kept cfg P D (vacate (unlist s ci) ri ci)
          (if cfg.proto = .v1 then Model.IntvRelay.unpair drop (vacate (unlist s ci) ri ci) ri
           else Model.IntvRelay.leave drop (vacate (unlist s ci) ri ci) ri ci
             (room_seat s ri ci)) ∧ ((s.rooms ri).started = true →
          ((if cfg.proto = .v1 then Model.IntvRelay.unpair drop (vacate (unlist s ci) ri ci) ri
            else Model.IntvRelay.leave drop (vacate (unlist s ci) ri ci) ri ci
              (room_seat s ri ci)).rooms ri).used = false) := by
        split
        · rename_i hv1
          have hfits := ht.fits ri hu hD
          rw [cfg.v1_pairs hv1] at hfits
          have hlen : (vacate (unlist s ci) ri ci).rooms ri =
              { s.rooms ri with members := (s.rooms ri).members.erase ci } := modifyRoom_self ..
          have h := hf.unpair hP ht' (by omega) hu' hD hv1 (by
            rw [hlen, List.length_erase_of_mem hmem]
            omega)
          exact ⟨h.1, fun _ => h.2⟩
        · rename_i hv
          have h := hf.leave hP ht' (by omega) hu' hD hv ci (room_seat s ri ci)
          exact ⟨h.1, fun hst => h.2 ((hl.rooms ri).2.1.trans hst)⟩
      have hself := hk.shrinks.rest ci fun h => by
        have hd' := hl.clients.2.1
        rw [h.2] at hd'
        cases hd'
      refine ⟨⟨hk.tables.free ?_ ?_, hl.free hk.shrinks fun r hr hst => ?_⟩, ?_⟩
      · rw [hself]
        exact hl.clients.1
      · rw [hself]
        exact hl.clients.2.1
      · rw [hroom] at hr
        obtain rfl := Option.some.inj hr
        exact hover hst
      · simp only [client_free, modify_self]
        rw [hself]
        exact hl.clients.2.1

/-- `drop` may be nested as often as there are connections up. -/
theorem sound_dropFuel (hP : Tells cfg P) (n : ℕ) : Sound cfg P (dropFuel cfg n) n := by
  induction n with
  | zero =>
    intro D s ci ht hn hc
    have hd : (s.clients ci).dead = true := by
      refine hc.resolve_left fun hup => ?_
      have hmem : ci ∈ live s := Finset.mem_filter.mpr
        ⟨Finset.mem_range.mpr (ht.slot ci hup.1), hup⟩
      rw [Finset.card_eq_zero.mp (Nat.le_zero.mp hn)] at hmem
      exact absurd hmem (Finset.notMem_empty ci)
    rw [dropFuel, if_pos hd]
    exact ⟨Kept.refl ht, hd⟩
  | succ n ih => exact ih.dropBody hP

/-- There are at most `MAX_CLIENTS`. -/
theorem live_card_le (s : Relay) : (live s).card ≤ MAX_CLIENTS :=
  Nat.le_trans (Finset.card_filter_le _ _) (Nat.le_of_eq (Finset.card_range _))

/-- `drop` itself may be relied on. -/
theorem sound_drop (hP : Tells cfg P) : Sound cfg P (Model.IntvRelay.drop cfg) MAX_CLIENTS :=
  sound_dropFuel hP MAX_CLIENTS

end Sending

end BoxingNetplay.Interface.IntvRelay
