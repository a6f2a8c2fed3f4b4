import BoxingNetplay.Library.Dict
import BoxingNetplay.Interface.RelayTables

/-!
# The events of the C relay

Every function that serves a connection keeps the tables consistent, whatever the sends it
makes come to, and takes none of the branches the source calls unreachable.
-/

set_option autoImplicit false

namespace BoxingNetplay.Interface.IntvRelay

open BoxingNetplay.Library
open BoxingNetplay.Model.Wire
open BoxingNetplay.Model.IntvRelay

/-! ### What serving a connection can do -/

/-- A kind of frames that has starts of matches. -/
def Starts (P : ℕ → Queued → Prop) : Prop := ∃ c k b, P c ⟨.start k, b⟩

/-- Connections go, and each slot is freed once; those that stay are sent frames of a kind; a room
is a new one, or as before but for the members that came or went before the start. -/
structure Turns (P : ℕ → Queued → Prop) (s s' : Relay) : Prop where
  stays : ∀ c, alive s' c → alive s c ∧ (s'.clients c).gen = (s.clients c).gen ∧
    Grows (P c) (s.clients c) (s'.clients c)
  gone : ∀ c, alive s c → ¬ alive s' c → (s'.clients c).dead = true ∧
    (s'.clients c).in_use = false ∧ (s'.clients c).gen = (s.clients c).gen + 1 ∧
    Grows (P c) (s.clients c) (s'.clients c)
  rest : ∀ c, ¬ alive s c → s'.clients c = s.clients c
  rooms : ∀ r, (s'.rooms r).used = true →
    ((s.rooms r).used = true ∧ (s'.rooms r).serial = (s.rooms r).serial ∧
      ((s.rooms r).started = true → (s'.rooms r).started = true ∧
        (s'.rooms r).members = (s.rooms r).members) ∧
      ((s'.rooms r).started = true → (s.rooms r).started = true ∨ Starts P)) ∨
    (s.serial ≤ (s'.rooms r).serial ∧ ((s'.rooms r).started = true → Starts P))
  serial : s.serial ≤ s'.serial

namespace Turns

variable {P : ℕ → Queued → Prop} {s s' s'' : Relay}

theorem refl (P : ℕ → Queued → Prop) (s : Relay) : Turns P s s where
  stays _ hc := ⟨hc, rfl, Grows.refl ..⟩
  gone _ hc hn := absurd hc hn
  rest _ _ := rfl
  rooms _ hu := Or.inl ⟨hu, rfl, fun h => ⟨h, rfl⟩, Or.inl⟩
  serial := Nat.le_refl _

/-- Who is gone stays gone. -/
theorem not_alive (h : Turns P s s') {c : ℕ} (hc : ¬ alive s c) : ¬ alive s' c :=
  fun hc' => hc (h.stays c hc').1

theorem trans (h : Turns P s s') (h' : Turns P s' s'') : Turns P s s'' where
  stays c hc := by
    obtain ⟨h1, h2, h3⟩ := h'.stays c hc
    obtain ⟨k1, k2, k3⟩ := h.stays c h1
    exact ⟨k1, h2.trans k2, k3.trans h3⟩
  gone c hc hn := by
    by_cases hm : alive s' c
    · obtain ⟨h1, h2, h3, h4⟩ := h'.gone c hm hn
      obtain ⟨-, k2, k3⟩ := h.stays c hm
      exact ⟨h1, h2, by rw [h3, k2], k3.trans h4⟩
    · rw [h'.rest c hm]
      exact h.gone c hc hm
  rest c hc := by rw [h'.rest c (h.not_alive hc), h.rest c hc]
  rooms r hu := by
    have hs := h.serial
    have hs' := h'.serial
    rcases h'.rooms r hu with ⟨h1, h2, h3, h4⟩ | ⟨h1, h4⟩
    · rcases h.rooms r h1 with ⟨k1, k2, k3, k4⟩ | ⟨k1, k4⟩
      · refine Or.inl ⟨k1, h2.trans k2, fun hst => ?_, fun hst => ?_⟩
        · obtain ⟨k5, k6⟩ := k3 hst
          obtain ⟨h5, h6⟩ := h3 k5
          exact ⟨h5, h6.trans k6⟩
        · exact (h4 hst).elim k4 Or.inr
      · refine Or.inr ⟨by omega, fun hst => ?_⟩
        exact (h4 hst).elim k4 id
    · exact Or.inr ⟨by omega, h4⟩
  serial := Nat.le_trans h.serial h'.serial

/-- A relay whose connections only go takes such turns. -/
theorem of_shrinks (h : Shrinks P s s') : Turns P s s' where
  stays c hc := by
    obtain ⟨h1, h2, -, -, -, h6⟩ := h.stays c hc
    exact ⟨h1, h2, h6⟩
  gone := h.gone
  rest := h.rest
  rooms r hu := by
    obtain ⟨h1, h2, h3, -, h5⟩ := h.rooms r hu
    exact Or.inl ⟨h1, h3, fun hs => ⟨h2.trans hs, h5 hs⟩, fun hs => Or.inl (h2.symm.trans hs)⟩
  serial := Nat.le_of_eq h.serial.symm

end Turns

/-- A kind of frames that has those the relay answers with. -/
structure Answers (cfg : Config) (P : ℕ → Queued → Prop) : Prop extends Tells cfg P where
  lobby : ∀ c n entries, n ≤ LOBBY_ENTRIES → entries.length = 9 * n →
    P c ⟨.relay, frame T_LOBBY (n :: entries)⟩
  pong : ∀ c, P c ⟨.relay, frame T_PONG []⟩

/-- What a START carries: under protocol 2, the number of players at its second byte. -/
def IsStart (cfg : Config) (payload : List ℕ) : Prop :=
  if cfg.proto = .v1 then payload.length = 12
  else payload.length = 37 ∧ payload.getD 1 0 ≤ ROSTER_SLOTS

/-- A kind of frames that has all those the relay makes itself. -/
structure Says (cfg : Config) (P : ℕ → Queued → Prop) : Prop extends Answers cfg P where
  start : ∀ c k payload, IsStart cfg payload → P c ⟨.start k, frame T_START payload⟩

/-- The tables are consistent again, and nothing was read from anyone. -/
structure Served (cfg : Config) (P : ℕ → Queued → Prop) (s s' : Relay) : Prop where
  tables : Tables cfg ∅ ∅ s'
  turns : Turns P s s'
  input : ∀ c, alive s' c → input (s'.clients c) = input (s.clients c)

section Serving

variable {cfg : Config} {P : ℕ → Queued → Prop} {s s' s'' : Relay} {ci ri : ℕ}

theorem Served.refl (ht : Tables cfg ∅ ∅ s) : Served cfg P s s :=
  ⟨ht, Turns.refl P s, fun _ _ => rfl⟩

theorem Served.trans (h : Served cfg P s s') (h' : Served cfg P s' s'') : Served cfg P s s'' :=
  ⟨h'.tables, h.turns.trans h'.turns, fun c hc =>
    (h'.input c hc).trans (h.input c (h'.turns.stays c hc).1)⟩

/-- A relay whose connections only go, and whose tables stay consistent, has served. -/
theorem Kept.served (h : Kept cfg P ∅ s s') : Served cfg P s s' :=
  ⟨h.tables, Turns.of_shrinks h.shrinks, fun c hc => (h.shrinks.stays c hc).2.2.2.1⟩

/-- Dropping a client that is up. -/
theorem served_drop (hP : Answers cfg P) (ht : Tables cfg ∅ ∅ s) (hc : alive s ci) :
    Served cfg P s (drop cfg s ci) ∧ ((drop cfg s ci).clients ci).dead = true := by
  obtain ⟨hk, hd⟩ := sound_drop hP.toTells ∅ s ci ht (live_card_le s) (Or.inl hc)
  exact ⟨hk.served, hd⟩

/-- Sending to a client. -/
theorem served_send (hP : Answers cfg P) (ht : Tables cfg ∅ ∅ s) (hc : Recipient s ci) (o : Origin)
    (data : List ℕ) (hq : P ci ⟨o, data⟩) :
    Served cfg P s (send_raw (drop cfg) s o ci data) :=
  ((sound_drop hP.toTells).send_raw ht (live_card_le s) hc o data hq).served

/-- At most eight entries of nine bytes. -/
theorem length_entries (l : List ℕ) (f : ℕ → List ℕ) (hf : ∀ c, (f c).length = 9) :
    ((l.map f).flatten).length = 9 * l.length := by
  induction l with
  | nil => rfl
  | cons c l ih =>
    rw [List.map_cons, List.flatten_cons, List.length_append, hf, ih, List.length_cons]
    omega

/-- The lobby. -/
theorem served_on_list (hP : Answers cfg P) (ht : Tables cfg ∅ ∅ s) (hc : Recipient s ci) :
    Served cfg P s (on_list cfg s ci) := by
  refine served_send hP ht hc .relay _ (hP.lobby ci _ _ (List.length_take_le _ _) ?_)
  refine length_entries _ _ fun c => ?_
  rw [List.length_append, length_pad_name, List.length_singleton]

end Serving

/-! ### Names -/

section Names

variable {cfg : Config} {P : ℕ → Queued → Prop} {s : Relay} {ci : ℕ} {name : List ℕ}

/-- The entry a name is found under. -/
theorem mem_of_name_find {c : ℕ} (h : name_find s name = some c) : (name, c) ∈ s.by_name :=
  Dict.mem_of_get h

/-- A name that is not found is no entry's. -/
theorem name_find_none (h : name_find s name = none) : ∀ e ∈ s.by_name, e.1 ≠ name :=
  Dict.ne_of_get_none h

/-- Names are distinct, so an entry is found. -/
theorem name_find_eq {c : ℕ} (hn : (s.by_name.map Prod.fst).Nodup) (h : (name, c) ∈ s.by_name) :
    name_find s name = some c := Dict.get_eq hn h

/-- Different names are different clients. -/
theorem Tables.clients_nodup {D E : Set ℕ} (ht : Tables cfg D E s) :
    (s.by_name.map Prod.snd).Nodup := by
  refine List.Nodup.of_map (fun c => (s.clients c).name) ?_
  have heq : (s.by_name.map Prod.snd).map (fun c => (s.clients c).name) = s.by_name.map Prod.fst := by
    rw [List.map_map]
    exact List.map_congr_left fun e he => (ht.listed e he).2.1
  rw [heq]
  exact ht.names

/-- There is room for the name of a client that has none. -/
theorem Tables.names_lt {D E : Set ℕ} (ht : Tables cfg D E s) (hc : alive s ci)
    {l : List (List ℕ × ℕ)} (hl : l.Sublist s.by_name) (hn : ∀ e ∈ l, e.2 ≠ ci) :
    l.length < MAX_CLIENTS := by
  have hsub : (l.map Prod.snd).toFinset ⊆ (live s).erase ci := by
    intro c hmem
    rw [List.mem_toFinset, List.mem_map] at hmem
    obtain ⟨e, he, rfl⟩ := hmem
    have hup := (ht.listed e (hl.subset he)).1
    exact Finset.mem_erase.mpr ⟨hn e he, Finset.mem_filter.mpr
      ⟨Finset.mem_range.mpr (ht.slot _ hup.1), hup⟩⟩
  have hcard := Finset.card_le_card hsub
  rw [List.toFinset_card_of_nodup ((hl.map Prod.snd).nodup ht.clients_nodup),
    List.length_map] at hcard
  have hmem : ci ∈ live s := Finset.mem_filter.mpr ⟨Finset.mem_range.mpr (ht.slot ci hc.1), hc⟩
  have hlt := Finset.card_erase_lt_of_mem hmem
  have hall := live_card_le s
  omega

/-- The list of names without the one `ci` had. -/
def unnamed (s : Relay) (ci : ℕ) (name : List ℕ) : Relay :=
  if (s.clients ci).name ≠ [] ∧ (s.clients ci).name ≠ name ∧
    name_find s (s.clients ci).name = some ci then name_del s (s.clients ci).name else s

/-- When nobody has the new name, the old one goes. -/
theorem mem_unnamed (ht : Tables cfg ∅ ∅ s) (hc : alive s ci) (hf : name_find s name = none)
    (e : List ℕ × ℕ) : e ∈ (unnamed s ci name).by_name ↔ e ∈ s.by_name ∧ e.2 ≠ ci := by
  simp only [unnamed]
  split
  · refine (Dict.mem_del ht.names _ e).trans (and_congr_right fun he => not_congr ?_)
    refine ⟨fun h => ?_, fun h => ?_⟩
    · have hmem : ((s.clients ci).name, ci) ∈ s.by_name := ht.named ci hc fun h0 =>
        (ht.listed e he).2.2 (h.trans h0)
      exact congrArg Prod.snd (List.inj_on_of_nodup_map ht.names he hmem h)
    · rw [← (ht.listed e he).2.1, h]
  · rename_i hno
    refine ⟨fun he => ⟨he, fun h => hno ?_⟩, And.left⟩
    have hname := (ht.listed e he).2.1
    rw [h] at hname
    have hmem : ((s.clients ci).name, ci) ∈ s.by_name := by
      rw [hname, ← h]
      exact he
    exact ⟨hname ▸ (ht.listed e he).2.2, hname ▸ name_find_none hf e he,
      name_find_eq ht.names hmem⟩

/-- Taking a name away touches nothing but the names, none of which is added. -/
theorem unnamed_rest (s : Relay) (ci : ℕ) (name : List ℕ) :
    (unnamed s ci name).clients = s.clients ∧ (unnamed s ci name).rooms = s.rooms ∧
      (unnamed s ci name).n_clients = s.n_clients ∧ (unnamed s ci name).serial = s.serial ∧
      (unnamed s ci name).reached = s.reached ∧
      (unnamed s ci name).by_name.Sublist s.by_name := by
  simp only [unnamed]
  split
  · exact ⟨rfl, rfl, rfl, rfl, rfl, List.eraseP_sublist⟩
  · exact ⟨rfl, rfl, rfl, rfl, rfl, List.Sublist.refl _⟩

/-- A client takes a name: the list of names has those of the others, and this one. -/
structure Renames (s s' : Relay) (ci : ℕ) (name : List ℕ) : Prop where
  self : s'.clients ci = { s.clients ci with name := name }
  others : ∀ c, c ≠ ci → s'.clients c = s.clients c
  rooms : s'.rooms = s.rooms
  n_clients : s'.n_clients = s.n_clients
  serial : s'.serial = s.serial
  reached : s'.reached = s.reached
  names : (s'.by_name.map Prod.fst).Nodup
  listed : ∀ e, e ∈ s'.by_name ↔ (e ∈ s.by_name ∧ e.2 ≠ ci) ∨ e = (name, ci)

/-- The relay in which `ci` has the name, before the lobby is told. -/
def named (s : Relay) (ci : ℕ) (name : List ℕ) : Relay :=
  name_set ((unnamed s ci name).modify ci fun c => { c with name := name }) name ci

/-- A name that nobody has is put at the end of the list. -/
theorem renames_new (ht : Tables cfg ∅ ∅ s) (hc : alive s ci) (hf : name_find s name = none) :
    Renames s (named s ci name) ci name := by
  obtain ⟨hcl, hr, hnc, hse, hre, hsub⟩ := unnamed_rest s ci name
  have hmem := mem_unnamed ht hc hf
  set s₁ := unnamed s ci name
  set s₂ := s₁.modify ci fun c => { c with name := name } with hs₂
  have hnew : ∀ e ∈ s₁.by_name, e.1 ≠ name := fun e he =>
    name_find_none hf e ((hmem e).mp he).1
  have hnone : name_find s₂ name = none := by
    simp only [name_find, Option.map_eq_none_iff, List.find?_eq_none, decide_eq_true_eq]
    exact hnew
  have hlen : ¬ s₂.by_name.length ≥ MAX_CLIENTS :=
    Nat.not_le.mpr (ht.names_lt hc hsub fun e he => ((hmem e).mp he).2)
  have heq : named s ci name = { s₂ with by_name := s₂.by_name ++ [(name, ci)] } := by
    change name_set s₂ name ci = _
    rw [name_set, hnone]
    simp only [Option.isSome_none, Bool.false_eq_true, if_false, if_neg hlen]
  rw [heq]
  refine ⟨?_, fun c h => ?_, hr, hnc, hse, hre, ?_, fun e => ?_⟩
  · rw [hs₂, modify_self, hcl]
  · rw [hs₂, modify_of_ne _ _ h, hcl]
  · rw [List.map_append, List.nodup_append]
    refine ⟨(hsub.map Prod.fst).nodup ht.names, List.nodup_singleton _, ?_⟩
    rintro k hk k' hk' rfl
    obtain ⟨e, he, rfl⟩ := List.mem_map.mp hk
    exact hnew e he (List.mem_singleton.mp hk')
  · rw [List.mem_append, List.mem_singleton]
    exact or_congr_left (hmem e)

/-- The name it has already changes nothing. -/
theorem renames_own (ht : Tables cfg ∅ ∅ s) (hf : name_find s name = some ci) :
    Renames s (named s ci name) ci name := by
  have hci := mem_of_name_find hf
  have hold : (s.clients ci).name = name := (ht.listed _ hci).2.1
  have hs : unnamed s ci name = s := by
    rw [unnamed, if_neg fun h => h.2.1 hold]
  set s₂ := s.modify ci fun c => { c with name := name } with hs₂
  have hmap : s.by_name.map (fun e => if e.1 = name then (name, ci) else e) = s.by_name := by
    refine (List.map_congr_left fun e he => ?_).trans (List.map_id _)
    split
    · rename_i h
      exact (List.inj_on_of_nodup_map ht.names he hci h).symm
    · rfl
  have heq : named s ci name = { s₂ with by_name := s.by_name } := by
    rw [named, hs, ← hs₂, name_set, show name_find s₂ name = some ci from hf]
    simp only [Option.isSome_some, if_true]
    exact congrArg (fun l => { s₂ with by_name := l }) hmap
  rw [heq]
  have hself : s₂.clients ci = { s.clients ci with name := name } := modify_self ..
  have hother : ∀ c, c ≠ ci → s₂.clients c = s.clients c := fun c h => modify_of_ne _ _ h
  refine ⟨hself, hother, rfl, rfl, rfl, rfl, ht.names, fun e => ⟨fun he => ?_, fun he => ?_⟩⟩
  · by_cases h : e.2 = ci
    · refine Or.inr (List.inj_on_of_nodup_map ht.names he hci ?_)
      rw [← (ht.listed e he).2.1, h, hold]
    · exact Or.inl ⟨he, h⟩
  · rcases he with he | rfl
    · exact he.1
    · exact hci

namespace Renames

variable {s' : Relay}

/-- Nothing but a name changes. -/
theorem same (h : Renames s s' ci name) (c : ℕ) : (s'.clients c).in_use = (s.clients c).in_use ∧
    (s'.clients c).dead = (s.clients c).dead ∧ (s'.clients c).gen = (s.clients c).gen ∧
    (s'.clients c).room = (s.clients c).room ∧ input (s'.clients c) = input (s.clients c) := by
  by_cases hc : c = ci
  · rw [hc, h.self]
    exact ⟨rfl, rfl, rfl, rfl, rfl⟩
  · rw [h.others c hc]
    exact ⟨rfl, rfl, rfl, rfl, rfl⟩

/-- Nobody comes or goes by it. -/
theorem alive_iff (h : Renames s s' ci name) (c : ℕ) : alive s' c ↔ alive s c := by
  rw [alive, alive, (h.same c).1, (h.same c).2.1]

/-- The tables stay consistent. -/
theorem tables (h : Renames s s' ci name) (ht : Tables cfg ∅ ∅ s) (hc : alive s ci)
    (hn : name ≠ []) : Tables cfg ∅ ∅ s' where
  slot c hu := ht.slot c ((h.same c).1 ▸ hu)
  count := by
    have huse : inUse s' = inUse s := Finset.filter_congr fun c _ => by rw [(h.same c).1]
    rw [h.n_clients, huse, ht.count]
  leaving c hu hd := by
    rw [(h.same c).2.2.2.1]
    exact ht.leaving c ((h.same c).1 ▸ hu) ((h.same c).2.1 ▸ hd)
  seated c r hl hs := by
    rw [(h.same c).2.2.2.1] at hs
    rw [h.rooms]
    exact ht.seated c r ((h.alive_iff c).mp hl) hs
  member r hu hD m hm := by
    rw [h.rooms] at hu hm
    rw [h.alive_iff, (h.same m).2.2.2.1]
    exact ht.member r hu hD m hm
  distinct := h.rooms ▸ ht.distinct
  fits := h.rooms ▸ ht.fits
  pairs := h.rooms ▸ ht.pairs
  empty := h.rooms ▸ ht.empty
  serials := by
    rw [h.rooms, h.serial]
    exact ht.serials
  apart := h.rooms ▸ ht.apart
  listed e he := by
    rw [h.alive_iff]
    rcases (h.listed e).mp he with ⟨he', hne⟩ | rfl
    · rw [h.others e.2 hne]
      exact ht.listed e he'
    · rw [h.self]
      exact ⟨hc, rfl, hn⟩
  named c hl hnm := by
    refine (h.listed _).mpr ?_
    by_cases hci : c = ci
    · subst hci
      rw [h.self]
      exact Or.inr rfl
    · rw [h.others c hci] at hnm ⊢
      exact Or.inl ⟨ht.named c ((h.alive_iff c).mp hl) hnm, hci⟩
  names := h.names
  reached := h.reached.trans ht.reached

/-- Nobody goes, and nothing is sent. -/
theorem turns (h : Renames s s' ci name) (hc : alive s ci) : Turns P s s' where
  stays c hl := by
    refine ⟨(h.alive_iff c).mp hl, (h.same c).2.2.1, ?_⟩
    by_cases hci : c = ci
    · rw [hci, h.self]
      exact Grows.of_eq rfl rfl rfl
    · rw [h.others c hci]
      exact Grows.refl ..
  gone c hl hd := absurd ((h.alive_iff c).mpr hl) hd
  rest c hl := h.others c fun hci => hl (hci ▸ hc)
  rooms r hu := by
    rw [h.rooms] at hu ⊢
    exact Or.inl ⟨hu, rfl, fun h => ⟨h, rfl⟩, Or.inl⟩
  serial := Nat.le_of_eq h.serial.symm

end Renames

/-- A client that is up takes a name that is its own or nobody's, and gets the list. -/
theorem served_rename (hP : Answers cfg P) (ht : Tables cfg ∅ ∅ s) (hc : alive s ci) (hn : name ≠ [])
    (hf : name_find s name = none ∨ name_find s name = some ci) :
    Served cfg P s (rename cfg s ci name) := by
  have h : Renames s (named s ci name) ci name :=
    hf.elim (renames_new ht hc) (renames_own ht)
  have htables := h.tables ht hc hn
  have hserved : Served cfg P s (named s ci name) :=
    ⟨htables, h.turns hc, fun c _ => (h.same c).2.2.2.2⟩
  exact hserved.trans (served_on_list hP htables (Or.inl ((h.alive_iff ci).mpr hc)))

/-- A HELLO. -/
theorem served_on_hello (hP : Answers cfg P) (ht : Tables cfg ∅ ∅ s) (hc : alive s ci) (payload : List ℕ) :
    Served cfg P s (on_hello cfg s ci payload) := by
  have hdrop := (served_drop hP ht hc).1
  simp only [on_hello]
  split
  · exact hdrop
  split
  · exact hdrop
  split
  · exact hdrop
  rename_i hlen
  split
  · exact hdrop
  have hne : rstrip payload.tail ≠ [] := fun h => hlen (Or.inl (by rw [h]; exact Nat.zero_lt_two))
  split
  · rename_i old hold
    split
    · rename_i hother
      have hmem := mem_of_name_find hold
      obtain ⟨hk, hd⟩ := sound_drop hP.toTells ∅ s old ht (live_card_le s) (Or.inl (ht.listed _ hmem).1)
      split
      · exact hk.served
      · rename_i hdead
        have hup : alive (drop cfg s old) ci := by
          by_contra h
          exact hdead (hk.shrinks.gone ci hc h).1
        refine hk.served.trans (served_rename hP hk.tables hup hne (Or.inl ?_))
        -- the previous holder is gone, and nobody else had the name
        cases hfind : name_find (drop cfg s old) (rstrip payload.tail) with
        | none => rfl
        | some c =>
          obtain ⟨hl, hn, -⟩ := hk.tables.listed _ (mem_of_name_find hfind)
          obtain ⟨hl', -, hn', -⟩ := hk.shrinks.stays c hl
          have hmem' := ht.named c hl' (by rw [← hn', hn]; exact hne)
          rw [← hn', hn] at hmem'
          have heq := List.inj_on_of_nodup_map ht.names hmem hmem' rfl
          obtain rfl : old = c := congrArg Prod.snd heq
          exact absurd (hl.2.symm.trans hd) Bool.false_ne_true
    · rename_i hself
      rw [not_not] at hself
      exact served_rename hP ht hc hne (Or.inr (hself ▸ hold))
  · rename_i hnone
    exact served_rename hP ht hc hne (Or.inl hnone)

end Names

/-! ### Rooms -/

section Rooms

variable {cfg : Config} {P : ℕ → Queued → Prop} {s : Relay} {ci ri : ℕ}

/-- Clients in no room enter a new one, or one that has not started: `new` go behind `old`. -/
structure Enters (cfg : Config) (s s' : Relay) (ri : ℕ) (old new : List ℕ) : Prop where
  free : ∀ m ∈ new, alive s m ∧ (s.clients m).room = none
  distinct : new.Nodup
  slot : ri < MAX_ROOMS
  seated : ∀ m ∈ new, s'.clients m = { s.clients m with room := some ri }
  others : ∀ c, c ∉ new → s'.clients c = s.clients c
  rooms : ∀ r, r ≠ ri → s'.rooms r = s.rooms r
  room : (s'.rooms ri).used = true ∧ (s'.rooms ri).members = old ++ new
  size : 2 ≤ old.length + new.length ∧ old.length + new.length ≤ cfg.max_seats
  origin : ((s.rooms ri).used = true ∧ (s.rooms ri).started = false ∧
      (s.rooms ri).members = old ∧ (s'.rooms ri).serial = (s.rooms ri).serial) ∨
    ((s.rooms ri).used = false ∧ old = [] ∧ s.serial ≤ (s'.rooms ri).serial ∧
      (s'.rooms ri).serial < s'.serial)
  by_name : s'.by_name = s.by_name
  n_clients : s'.n_clients = s.n_clients
  reached : s'.reached = s.reached
  serial : s.serial ≤ s'.serial

namespace Enters

variable {s' : Relay} {old new : List ℕ}

/-- Nothing of a client but its room changes. -/
theorem same (h : Enters cfg s s' ri old new) (c : ℕ) :
    (s'.clients c).in_use = (s.clients c).in_use ∧ (s'.clients c).dead = (s.clients c).dead ∧
      (s'.clients c).gen = (s.clients c).gen ∧ (s'.clients c).name = (s.clients c).name ∧
      input (s'.clients c) = input (s.clients c) := by
  by_cases hc : c ∈ new
  · rw [h.seated c hc]
    exact ⟨rfl, rfl, rfl, rfl, rfl⟩
  · rw [h.others c hc]
    exact ⟨rfl, rfl, rfl, rfl, rfl⟩

theorem alive_iff (h : Enters cfg s s' ri old new) (c : ℕ) : alive s' c ↔ alive s c := by
  rw [alive, alive, (h.same c).1, (h.same c).2.1]

/-- Who was in the room already. -/
theorem old_seated (h : Enters cfg s s' ri old new) (ht : Tables cfg ∅ ∅ s) :
    ∀ m ∈ old, alive s m ∧ (s.clients m).room = some ri := by
  intro m hm
  rcases h.origin with ⟨h1, -, h3, -⟩ | ⟨-, hnil, -⟩
  · exact ht.member ri h1 (Set.notMem_empty ri) m (h3.symm ▸ hm)
  · rw [hnil] at hm
    cases hm

/-- Everybody in it now. -/
theorem all_seated (h : Enters cfg s s' ri old new) (ht : Tables cfg ∅ ∅ s) :
    ∀ m ∈ old ++ new, alive s' m ∧ (s'.clients m).room = some ri := by
  intro m hm
  rw [h.alive_iff]
  by_cases hin : m ∈ new
  · rw [h.seated m hin]
    exact ⟨(h.free m hin).1, rfl⟩
  · rw [h.others m hin]
    exact h.old_seated ht m ((List.mem_append.mp hm).resolve_right hin)

/-- They are different clients. -/
theorem nodup (h : Enters cfg s s' ri old new) (ht : Tables cfg ∅ ∅ s) : (old ++ new).Nodup := by
  refine List.nodup_append.mpr ⟨?_, h.distinct, ?_⟩
  · rcases h.origin with ⟨h1, -, h3, -⟩ | ⟨-, hnil, -⟩
    · exact h3 ▸ ht.distinct ri h1 (Set.notMem_empty ri)
    · rw [hnil]
      exact List.nodup_nil
  · rintro m hm m' hm' rfl
    have hroom := (h.old_seated ht m hm).2
    rw [(h.free m hm').2] at hroom
    cases hroom

/-- The serial of the room is its own. -/
theorem apart (h : Enters cfg s s' ri old new) (ht : Tables cfg ∅ ∅ s) {r : ℕ} (hr : r ≠ ri)
    (hu : (s.rooms r).used = true) : (s.rooms r).serial ≠ (s'.rooms ri).serial := by
  intro heq
  rcases h.origin with ⟨h1, -, -, h4⟩ | ⟨-, -, h3, -⟩
  · exact hr (ht.apart r ri hu h1 (heq.trans h4))
  · have hlt := ht.serials r hu
    omega

/-- What holds of the room entered, and of the others in use, holds of all that are now in use. -/
theorem each {Q : ℕ → Room → Prop} (h : Enters cfg s s' ri old new) (hri : Q ri (s'.rooms ri))
    (hother : ∀ r, r ≠ ri → (s.rooms r).used = true → Q r (s.rooms r)) (r : ℕ)
    (hu : (s'.rooms r).used = true) : Q r (s'.rooms r) := by
  by_cases hr : r = ri
  · exact hr ▸ hri
  · rw [h.rooms r hr] at hu ⊢
    exact hother r hr hu

/-- The tables stay consistent. -/
theorem tables (h : Enters cfg s s' ri old new) (ht : Tables cfg ∅ ∅ s) : Tables cfg ∅ ∅ s' where
  slot c hu := ht.slot c ((h.same c).1 ▸ hu)
  count := by
    have huse : inUse s' = inUse s := Finset.filter_congr fun c _ => by rw [(h.same c).1]
    rw [h.n_clients, huse, ht.count]
  leaving c hu hd := by
    have hold := ht.leaving c ((h.same c).1 ▸ hu) ((h.same c).2.1 ▸ hd)
    rw [h.others c fun hin => ?_]
    · exact hold
    · have hup := (h.free c hin).1.2
      rw [← (h.same c).2.1, hd] at hup
      cases hup
  seated c r hl hs := by
    by_cases hin : c ∈ new
    · rw [h.seated c hin] at hs
      obtain rfl := Option.some.inj hs
      rw [h.room.2]
      exact ⟨h.slot, Set.notMem_empty _, h.room.1, List.mem_append_right old hin⟩
    · rw [h.others c hin] at hs
      obtain ⟨h1, h2, h3, h4⟩ := ht.seated c r ((h.alive_iff c).mp hl) hs
      refine ⟨h1, h2, ?_⟩
      by_cases hr : r = ri
      · subst hr
        rw [h.room.2]
        refine ⟨h.room.1, List.mem_append_left new ?_⟩
        rcases h.origin with ⟨-, -, h5, -⟩ | ⟨h5, -⟩
        · exact h5 ▸ h4
        · rw [h5] at h3
          cases h3
      · rw [h.rooms r hr]
        exact ⟨h3, h4⟩
  member r hu _ := by
    refine h.each (Q := fun r x => ∀ m ∈ x.members, alive s' m ∧ (s'.clients m).room = some r)
      (fun m hm => h.all_seated ht m (h.room.2 ▸ hm)) (fun r _ hu m hm => ?_) r hu
    obtain ⟨h1, h2⟩ := ht.member r hu (Set.notMem_empty r) m hm
    rw [h.alive_iff, h.others m fun hin => ?_]
    · exact ⟨h1, h2⟩
    · rw [(h.free m hin).2] at h2
      cases h2
  distinct r hu _ := h.each (Q := fun _ x => x.members.Nodup) (h.room.2 ▸ h.nodup ht)
    (fun r _ hu => ht.distinct r hu (Set.notMem_empty r)) r hu
  fits r hu _ := by
    refine h.each (Q := fun _ x => x.members.length ≤ cfg.max_seats) ?_
      (fun r _ hu => ht.fits r hu (Set.notMem_empty r)) r hu
    rw [h.room.2, List.length_append]
    exact h.size.2
  pairs r hu _ _ := by
    refine h.each (Q := fun _ x => 2 ≤ x.members.length) ?_
      (fun r _ hu => ht.pairs r hu (Set.notMem_empty r) (Set.notMem_empty r)) r hu
    rw [h.room.2, List.length_append]
    exact h.size.1
  empty r hu := by
    by_cases hr : r = ri
    · rw [hr, h.room.1] at hu
      cases hu
    · rw [h.rooms r hr] at hu ⊢
      exact ht.empty r hu
  serials r hu := by
    refine h.each (Q := fun _ x => x.serial < s'.serial) ?_
      (fun r _ hu => Nat.lt_of_lt_of_le (ht.serials r hu) h.serial) r hu
    rcases h.origin with ⟨h1, -, -, h4⟩ | ⟨-, -, -, h4⟩
    · rw [h4]
      exact Nat.lt_of_lt_of_le (ht.serials ri h1) h.serial
    · exact h4
  apart r r' hu hu' heq := by
    by_cases hr : r = ri
    · by_cases hr' : r' = ri
      · rw [hr, hr']
      · rw [h.rooms r' hr'] at hu' heq
        exact absurd (hr ▸ heq).symm (h.apart ht hr' hu')
    · by_cases hr' : r' = ri
      · rw [h.rooms r hr] at hu heq
        exact absurd (hr' ▸ heq) (h.apart ht hr hu)
      · rw [h.rooms r hr] at hu heq
        rw [h.rooms r' hr'] at hu' heq
        exact ht.apart r r' hu hu' heq
  listed e he := by
    rw [h.by_name] at he
    rw [h.alive_iff, (h.same e.2).2.2.2.1]
    exact ht.listed e he
  named c hl hn := by
    rw [(h.same c).2.2.2.1] at hn ⊢
    rw [h.by_name]
    exact ht.named c ((h.alive_iff c).mp hl) hn
  names := h.by_name ▸ ht.names
  reached := h.reached.trans ht.reached

/-- Nobody goes, and nothing is sent. -/
theorem turns (h : Enters cfg s s' ri old new) (hgo : (s'.rooms ri).started = true → Starts P) :
    Turns P s s' where
  stays c hl := by
    refine ⟨(h.alive_iff c).mp hl, (h.same c).2.2.1, ?_⟩
    by_cases hin : c ∈ new
    · rw [h.seated c hin]
      exact Grows.of_eq rfl rfl rfl
    · rw [h.others c hin]
      exact Grows.refl ..
  gone c hl hd := absurd ((h.alive_iff c).mpr hl) hd
  rest c hl := h.others c fun hin => hl (h.free c hin).1
  rooms r hu := by
    refine h.each (Q := fun r x => ((s.rooms r).used = true ∧ x.serial = (s.rooms r).serial ∧
        ((s.rooms r).started = true → x.started = true ∧ x.members = (s.rooms r).members) ∧
        (x.started = true → (s.rooms r).started = true ∨ Starts P)) ∨
      (s.serial ≤ x.serial ∧ (x.started = true → Starts P))) ?_
      (fun r _ hu => Or.inl ⟨hu, rfl, fun h => ⟨h, rfl⟩, Or.inl⟩) r hu
    rcases h.origin with ⟨h1, h2, -, h4⟩ | ⟨-, -, h3, -⟩
    · have hnot : (s.rooms ri).started ≠ true := fun hst => by
        rw [h2] at hst
        cases hst
      exact Or.inl ⟨h1, h4, fun hst => absurd hst hnot, fun hst => Or.inr (hgo hst)⟩
    · exact Or.inr ⟨h3, hgo⟩
  serial := h.serial

/-- So it is one more thing the relay may do. -/
theorem served (h : Enters cfg s s' ri old new) (ht : Tables cfg ∅ ∅ s)
    (hgo : (s'.rooms ri).started = true → Starts P) : Served cfg P s s' :=
  ⟨h.tables ht, h.turns hgo, fun c _ => (h.same c).2.2.2.2⟩

end Enters

/-- While two clients are in no room, a room is free. -/
theorem Tables.room_free {target : ℕ} (ht : Tables cfg ∅ ∅ s) (hc : alive s ci)
    (hr : (s.clients ci).room = none) (ht' : alive s target)
    (hr' : (s.clients target).room = none) (hne : target ≠ ci) :
    ∃ i, i < MAX_ROOMS ∧ (s.rooms i).used = false := by
  by_contra hall
  have hused : ∀ i, i < MAX_ROOMS → (s.rooms i).used = true := fun i hi => by
    cases h : (s.rooms i).used with
    | true => rfl
    | false => exact absurd ⟨i, hi, h⟩ hall
  have hsub : (Finset.range MAX_ROOMS).biUnion (fun i => (s.rooms i).members.toFinset) ⊆
      ((live s).erase ci).erase target := by
    intro m hm
    obtain ⟨i, hi, hmi⟩ := Finset.mem_biUnion.mp hm
    obtain ⟨h1, h2⟩ := ht.member i (hused i (Finset.mem_range.mp hi)) (Set.notMem_empty i) m
      (List.mem_toFinset.mp hmi)
    refine Finset.mem_erase.mpr ⟨fun h => ?_, Finset.mem_erase.mpr ⟨fun h => ?_,
      Finset.mem_filter.mpr ⟨Finset.mem_range.mpr (ht.slot m h1.1), h1⟩⟩⟩
    · rw [h, hr'] at h2
      cases h2
    · rw [h, hr] at h2
      cases h2
  have hdisj : ∀ i ∈ Finset.range MAX_ROOMS, ∀ j ∈ Finset.range MAX_ROOMS, i ≠ j →
      Disjoint (s.rooms i).members.toFinset (s.rooms j).members.toFinset := by
    intro i hi j hj hij
    refine Finset.disjoint_left.mpr fun m hmi hmj => hij ?_
    have h1 := (ht.member i (hused i (Finset.mem_range.mp hi)) (Set.notMem_empty i) m
      (List.mem_toFinset.mp hmi)).2
    have h2 := (ht.member j (hused j (Finset.mem_range.mp hj)) (Set.notMem_empty j) m
      (List.mem_toFinset.mp hmj)).2
    rw [h1] at h2
    exact Option.some.inj h2
  have hcard := Finset.card_le_card hsub
  rw [Finset.card_biUnion hdisj] at hcard
  have hsum := Finset.card_nsmul_le_sum (Finset.range MAX_ROOMS)
    (fun i => (s.rooms i).members.toFinset.card) 2 fun i hi => by
      have hu := hused i (Finset.mem_range.mp hi)
      rw [List.toFinset_card_of_nodup (ht.distinct i hu (Set.notMem_empty i))]
      exact ht.pairs i hu (Set.notMem_empty i) (Set.notMem_empty i)
  have hmem : ci ∈ live s := Finset.mem_filter.mpr ⟨Finset.mem_range.mpr (ht.slot ci hc.1), hc⟩
  have hmem' : target ∈ (live s).erase ci := Finset.mem_erase.mpr
    ⟨hne, Finset.mem_filter.mpr ⟨Finset.mem_range.mpr (ht.slot target ht'.1), ht'⟩⟩
  rw [Finset.card_erase_of_mem hmem', Finset.card_erase_of_mem hmem] at hcard
  rw [Finset.card_range, Nat.nsmul_eq_mul] at hsum
  have hlive := live_card_le s
  simp only [MAX_ROOMS, MAX_CLIENTS] at hcard hsum hlive
  omega

/-- So the host of a new room gets one. -/
theorem room_alloc_eq (h : ∃ i, i < MAX_ROOMS ∧ (s.rooms i).used = false) (host : ℕ) :
    ∃ i, i < MAX_ROOMS ∧ (s.rooms i).used = false ∧
      room_alloc s host = (some i,
        { s.modifyRoom i (fun _ => ⟨true, [host], false, 0, s.serial⟩) with
          serial := s.serial + 1 }) := by
  simp only [room_alloc]
  cases hf : (List.range MAX_ROOMS).find? (fun i => !(s.rooms i).used) with
  | none =>
    obtain ⟨i, hi, hu⟩ := h
    have hno := List.find?_eq_none.mp hf i (List.mem_range.mpr hi)
    rw [hu] at hno
    exact absurd rfl hno
  | some i =>
    refine ⟨i, List.mem_range.mp (List.mem_of_find?_eq_some hf), ?_, rfl⟩
    have hu := List.find?_some hf
    simpa using hu

/-- Two clients in no room make one. -/
theorem served_open {target : ℕ} {started : Bool} {seed : ℕ} (hgo : started = true → Starts P)
    (ht : Tables cfg ∅ ∅ s) (hc : alive s ci) (hr : (s.clients ci).room = none)
    (ht' : alive s target) (hr' : (s.clients target).room = none) (hne : target ≠ ci)
    (hri : ri < MAX_ROOMS) (hu : (s.rooms ri).used = false) {s' : Relay}
    (hclients : ∀ c, s'.clients c = if c = ci ∨ c = target then
      { s.clients c with room := some ri } else s.clients c)
    (hrooms : s'.rooms = Function.update s.rooms ri ⟨true, [target, ci], started, seed, s.serial⟩)
    (hrest : s'.by_name = s.by_name ∧ s'.n_clients = s.n_clients ∧ s'.reached = s.reached ∧
      s'.serial = s.serial + 1) : Served cfg P s s' := by
  have hroom : s'.rooms ri = ⟨true, [target, ci], started, seed, s.serial⟩ := by
    rw [hrooms, Function.update_self]
  have htwo := cfg.two_le
  have henters : Enters cfg s s' ri [] [target, ci] :=
    { free := fun m hm => by
        rcases List.mem_pair.mp hm with rfl | rfl
        · exact ⟨ht', hr'⟩
        · exact ⟨hc, hr⟩
      distinct := List.nodup_cons.mpr
        ⟨fun h => hne (List.mem_singleton.mp h), List.nodup_singleton ci⟩
      slot := hri
      seated := fun m hm => by rw [hclients m, if_pos (List.mem_pair.mp hm).symm]
      others := fun c h => by
        rw [hclients c, if_neg fun hor => h (List.mem_pair.mpr hor.symm)]
      rooms := fun r h => by rw [hrooms, Function.update_of_ne h]
      room := by
        rw [hroom]
        exact ⟨rfl, rfl⟩
      size := ⟨Nat.le_refl 2, htwo⟩
      origin := by
        rw [hroom, hrest.2.2.2]
        exact Or.inr ⟨hu, rfl, Nat.le_refl _, Nat.lt_succ_self _⟩
      by_name := hrest.1
      n_clients := hrest.2.1
      reached := hrest.2.2.1
      serial := by
        rw [hrest.2.2.2]
        exact Nat.le_succ _ }
  exact henters.served ht fun h => hgo (by rwa [hroom] at h)

/-! ### The start of a match -/

/-- A room starts, or a started one is made; nothing is sent yet. -/
structure Begins (cfg : Config) (s s' : Relay) (ri : ℕ) : Prop where
  served : ∀ P, Starts P → Served cfg P s s'
  clients : ∀ c, (alive s' c ↔ alive s c) ∧ input (s'.clients c) = input (s.clients c) ∧
    (s'.clients c).queued = (s.clients c).queued
  others : ∀ r, r ≠ ri → s'.rooms r = s.rooms r
  started : (s'.rooms ri).used = true ∧ (s'.rooms ri).started = true
  fresh : ((s.rooms ri).used = true ∧ (s.rooms ri).started = false ∧
      (s'.rooms ri).serial = (s.rooms ri).serial) ∨ s.serial ≤ (s'.rooms ri).serial

/-- Tell each player of its seat. -/
def tell (cfg : Config) (k : ℕ) (s : Relay) (msgs : List (ℕ × List ℕ)) : Relay :=
  msgs.foldl (fun s m => send_frame (drop cfg) s (.start k) m.1 T_START m.2) s

/-- All the members are told. -/
structure Seats (cfg : Config) (s : Relay) (ri : ℕ) (msgs : List (ℕ × List ℕ)) : Prop where
  members : msgs.map Prod.fst = (s.rooms ri).members
  starts : ∀ m ∈ msgs, IsStart cfg m.2

/-- What may be sent at the start of a match. -/
theorem Says.starts (hP : Says cfg P) : Starts P :=
  ⟨0, 0, _, hP.start 0 0 (List.replicate (if cfg.proto = .v1 then 12 else 37) 0) (by
    rw [IsStart]
    split
    · rw [List.length_replicate]
    · exact ⟨List.length_replicate, Nat.zero_le _⟩)⟩

/-- Telling the players keeps the tables. -/
theorem kept_tell (hP : Tells cfg P) (ht : Tables cfg ∅ ∅ s) (k : ℕ) {msgs : List (ℕ × List ℕ)}
    (hrec : ∀ m ∈ msgs, Recipient s m.1)
    (hq : ∀ m ∈ msgs, P m.1 ⟨.start k, frame T_START m.2⟩) :
    Kept cfg P ∅ s (tell cfg k s msgs) := by
  induction msgs generalizing s with
  | nil => exact Kept.refl ht
  | cons m msgs ih =>
    have hk := (sound_drop hP).send_raw ht (live_card_le s) (hrec m List.mem_cons_self)
      (.start k) (frame T_START m.2) (hq m List.mem_cons_self)
    refine hk.trans (ih hk.tables (fun x hx => ?_) fun x hx => hq x (List.mem_cons_of_mem m hx))
    exact hk.shrinks.recipient (hrec x (List.mem_cons_of_mem m hx))

/-- `start_room` starts the room and tells its members. -/
theorem start_room_eq (hv : cfg.proto ≠ .v1) (ht : Tables cfg ∅ ∅ s)
    (hu : (s.rooms ri).used = true) (hst : (s.rooms ri).started = false) :
    ∃ s₁ msgs, Begins cfg s s₁ ri ∧ Seats cfg s₁ ri msgs ∧
      start_room cfg s ri = tell cfg (s₁.rooms ri).serial s₁ msgs := by
  set s₁ := { s with seeds := s.seeds.tail }.modifyRoom ri
    fun r => { r with started := true, seed := s.seeds.headD 1 } with hs₁
  have hroom : ∀ r, (s₁.rooms r).used = (s.rooms r).used ∧
      (s₁.rooms r).members = (s.rooms r).members ∧ (s₁.rooms r).serial = (s.rooms r).serial ∧
      ((s.rooms r).started = true → (s₁.rooms r).started = true) := fun r => by
    by_cases h : r = ri
    · subst h
      rw [hs₁, modifyRoom_self]
      exact ⟨rfl, rfl, rfl, fun _ => rfl⟩
    · rw [hs₁, modifyRoom_of_ne _ _ h]
      exact ⟨rfl, rfl, rfl, id⟩
  have ht₁ : Tables cfg ∅ ∅ s₁ :=
    { ht with
      seated := fun c r hl hs => by
        rw [(hroom r).1, (hroom r).2.1]
        exact ht.seated c r hl hs
      member := fun r h hD m hm => by
        rw [(hroom r).1] at h
        rw [(hroom r).2.1] at hm
        exact ht.member r h hD m hm
      distinct := fun r h hD => by
        rw [(hroom r).1] at h
        rw [(hroom r).2.1]
        exact ht.distinct r h hD
      fits := fun r h hD => by
        rw [(hroom r).1] at h
        rw [(hroom r).2.1]
        exact ht.fits r h hD
      pairs := fun r h hD hE => by
        rw [(hroom r).1] at h
        rw [(hroom r).2.1]
        exact ht.pairs r h hD hE
      empty := fun r h => by
        rw [(hroom r).1] at h
        rw [(hroom r).2.1]
        exact ht.empty r h
      serials := fun r h => by
        rw [(hroom r).1] at h
        rw [(hroom r).2.2.1]
        exact ht.serials r h
      apart := fun r r' h h' heq => by
        rw [(hroom r).1] at h
        rw [(hroom r').1] at h'
        rw [(hroom r).2.2.1, (hroom r').2.2.1] at heq
        exact ht.apart r r' h h' heq }
  refine ⟨s₁, (s₁.rooms ri).members.zipIdx.map fun m => (m.1, m.2 % 256 ::
    ([(s₁.rooms ri).members.length % 256, s.seeds.headD 1 % 256, s.seeds.headD 1 / 256 % 256,
      cfg.delay % 256] ++ room_roster s₁ ri)), ⟨fun P hP => ⟨ht₁, ?_, fun _ _ => rfl⟩,
      fun _ => ⟨Iff.rfl, rfl, rfl⟩, fun r h => modifyRoom_of_ne _ _ h, ⟨(hroom ri).1.trans hu, ?_⟩,
      Or.inl ⟨hu, hst, (hroom ri).2.2.1⟩⟩, ⟨?_, fun m hm => ?_⟩, ?_⟩
  · exact { Turns.refl P s with
      rooms := fun r h => by
        rw [(hroom r).1] at h
        rw [(hroom r).2.1, (hroom r).2.2.1]
        exact Or.inl ⟨h, rfl, fun hs => ⟨(hroom r).2.2.2 hs, rfl⟩, fun _ => Or.inr hP⟩ }
  · rw [hs₁, modifyRoom_self]
  · rw [List.map_map]
    exact List.zipIdx_map_fst 0 _
  · obtain ⟨x, -, rfl⟩ := List.mem_map.mp hm
    rw [IsStart, if_neg hv, List.length_cons, List.length_append, room_roster, length_roster]
    refine ⟨rfl, (Nat.mod_le _ _).trans ?_⟩
    rw [(hroom ri).2.1]
    exact (ht.fits ri hu (Set.notMem_empty ri)).trans cfg.le_roster
  · rw [tell, List.foldl_map]
    rfl

/-- `start_pair` makes a started room of two and tells them. -/
theorem start_pair_eq {target : ℕ} (hv : cfg.proto = .v1) (ht : Tables cfg ∅ ∅ s)
    (hc : alive s ci) (hr : (s.clients ci).room = none) (ht' : alive s target)
    (hr' : (s.clients target).room = none) (hne : target ≠ ci) :
    ∃ s₁ ri msgs, Begins cfg s s₁ ri ∧ Seats cfg s₁ ri msgs ∧
      start_pair cfg s target ci = tell cfg (s₁.rooms ri).serial s₁ msgs := by
  obtain ⟨i, hi, hu, heq⟩ := room_alloc_eq (s := { s with seeds := s.seeds.tail })
    (ht.room_free hc hr ht' hr' hne) target
  simp only [start_pair, next_seed, heq]
  set s₂ := Relay.modify _ _ _ with hs₂
  have hcl : ∀ c, s₂.clients c = if c = ci ∨ c = target then
      { s.clients c with room := some i } else s.clients c := fun c => by
    rw [hs₂]
    by_cases h1 : c = ci
    · subst h1
      rw [modify_self, modify_of_ne _ _ (Ne.symm hne), if_pos (Or.inl rfl)]
      rfl
    · rw [modify_of_ne _ _ h1]
      by_cases h2 : c = target
      · subst h2
        rw [modify_self, if_pos (Or.inr rfl)]
        rfl
      · rw [modify_of_ne _ _ h2, if_neg (not_or.mpr ⟨h1, h2⟩)]
        rfl
  have hrooms : s₂.rooms = Function.update s.rooms i
      ⟨true, [target, ci], true, s.seeds.headD 1, s.serial⟩ := by
    rw [hs₂]
    simp only [Relay.modify, Relay.modifyRoom, Function.update_self, Function.update_idem,
      List.singleton_append]
  have hroom : s₂.rooms i = ⟨true, [target, ci], true, s.seeds.headD 1, s.serial⟩ := by
    rw [hrooms, Function.update_self]
  set common := [s.seeds.headD 1 % 256, s.seeds.headD 1 / 256 % 256, cfg.delay % 256] with hcom
  have hlen : ∀ (a : ℕ) (name : List ℕ), IsStart cfg (a :: common ++ pad_name name) :=
    fun a name => by
      rw [IsStart, if_pos hv, List.length_append, length_pad_name]
      rfl
  refine ⟨s₂, i, [(target, 0 :: common ++ pad_name (s₂.clients ci).name),
    (ci, 1 :: common ++ pad_name ((send_frame (drop cfg) s₂ (.start (s₂.rooms i).serial) target
      T_START (0 :: common ++ pad_name (s₂.clients ci).name)).clients target).name)],
    ⟨fun P hP => ?_, fun c => ?_, fun r h => ?_, ?_, Or.inr ?_⟩, ⟨?_, ?_⟩, rfl⟩
  · exact served_open (fun _ => hP) ht hc hr ht' hr' hne hi hu hcl hrooms ⟨rfl, rfl, rfl, rfl⟩
  · rw [alive, alive, hcl c]
    split
    · exact ⟨Iff.rfl, rfl, rfl⟩
    · exact ⟨Iff.rfl, rfl, rfl⟩
  · rw [hrooms, Function.update_of_ne h]
  · rw [hroom]
    exact ⟨rfl, rfl⟩
  · rw [hroom]
  · rw [hroom]
    rfl
  · intro m hm
    rcases List.mem_pair.mp hm with rfl | rfl
    · exact hlen _ _
    · exact hlen _ _

/-! ### What a frame does -/

/-- What handling a frame comes to: the relay answers, or a match starts, or the frame is fanned
out. -/
inductive Does (cfg : Config) (P : ℕ → Queued → Prop) (s : Relay) (ci ftype : ℕ)
    (payload : List ℕ) : Relay → Prop where
  | answers {s' : Relay} (h : Served cfg P s s') : Does cfg P s ci ftype payload s'
  | starts {s₀ s₁ : Relay} {ri : ℕ} {msgs : List (ℕ × List ℕ)} (h : Served cfg P s s₀)
      (hb : Begins cfg s₀ s₁ ri) (hm : Seats cfg s₁ ri msgs) :
      Does cfg P s ci ftype payload (tell cfg (s₁.rooms ri).serial s₁ msgs)
  | relays (h : relayed ftype = true) :
      Does cfg P s ci ftype payload (relay cfg s ci ftype payload)

/-- Starting a match. -/
theorem does_start_room {s₀ : Relay} {ftype : ℕ} {payload : List ℕ} (hv : cfg.proto ≠ .v1)
    (h : Served cfg P s s₀) (hu : (s₀.rooms ri).used = true)
    (hst : (s₀.rooms ri).started = false) :
    Does cfg P s ci ftype payload (start_room cfg s₀ ri) := by
  obtain ⟨s₁, msgs, hb, hm, heq⟩ := start_room_eq hv h.tables hu hst
  rw [heq]
  exact .starts h hb hm

/-- A client has joined a room, and the room is told. -/
theorem does_announce {s₀ : Relay} {ftype : ℕ} {payload : List ℕ} (hP : Answers cfg P)
    (hv : cfg.proto ≠ .v1) (h : Served cfg P s s₀) (hu : (s₀.rooms ri).used = true)
    (hst : (s₀.rooms ri).started = false) :
    Does cfg P s ci ftype payload (announce cfg s₀ ri) := by
  have hk := (sound_drop hP.toTells).room_broadcast hP.toTells h.tables (live_card_le s₀) hu
    (Set.notMem_empty ri)
  simp only [announce]
  split
  · rename_i hgo
    -- a room that was dissolved has no members left
    have hu' : ((room_broadcast (drop cfg) s₀ ri).rooms ri).used = true := by
      by_contra hne
      rw [hk.tables.empty ri (Bool.eq_false_of_not_eq_true hne), List.length_nil] at hgo
      omega
    exact does_start_room hv (h.trans hk.served) hu' ((hk.shrinks.rooms ri hu').2.1.trans hst)
  · exact .answers (h.trans hk.served)

/-- A client in no room joins one that has not started and is not full. -/
theorem does_join {ftype : ℕ} {payload : List ℕ} (hP : Answers cfg P) (hv : cfg.proto ≠ .v1)
    (ht : Tables cfg ∅ ∅ s) (hc : alive s ci) (hr : (s.clients ci).room = none)
    (hu : (s.rooms ri).used = true) (hst : (s.rooms ri).started = false) (hri : ri < MAX_ROOMS)
    (hlen : (s.rooms ri).members.length < cfg.max_seats) :
    Does cfg P s ci ftype payload (join cfg s ri ci) := by
  set s₁ := (s.modifyRoom ri fun r => { r with members := r.members ++ [ci] }).modify ci
    fun c => { c with room := some ri } with hs₁
  have hroom : s₁.rooms ri =
      { s.rooms ri with members := (s.rooms ri).members ++ [ci] } := Function.update_self ..
  have hpairs := ht.pairs ri hu (Set.notMem_empty ri) (Set.notMem_empty ri)
  have hjoined : Served cfg P s s₁ := by
    have henters : Enters cfg s s₁ ri (s.rooms ri).members [ci] :=
      { free := fun m hm => by
          rw [List.mem_singleton.mp hm]
          exact ⟨hc, hr⟩
        distinct := List.nodup_singleton ci
        slot := hri
        seated := fun m hm => by
          rw [List.mem_singleton.mp hm]
          exact modify_self ..
        others := fun c h => modify_of_ne _ _ fun heq => h (List.mem_singleton.mpr heq)
        rooms := fun r h => Function.update_of_ne h ..
        room := by
          rw [hroom]
          exact ⟨hu, rfl⟩
        size := by
          rw [List.length_singleton]
          omega
        origin := Or.inl ⟨hu, hst, rfl, by rw [hroom]⟩
        by_name := rfl
        n_clients := rfl
        reached := rfl
        serial := Nat.le_refl _ }
    refine henters.served ht fun h => ?_
    rw [hroom, hst] at h
    cases h
  exact does_announce hP hv hjoined (by rw [hroom]; exact hu) (by rw [hroom]; exact hst)

/-- A JOIN. -/
theorem does_on_join {ftype : ℕ} (hP : Answers cfg P) (ht : Tables cfg ∅ ∅ s) (hc : alive s ci)
    (payload : List ℕ) : Does cfg P s ci ftype payload (on_join cfg s ci payload) := by
  have hlist : Does cfg P s ci ftype payload (on_list cfg s ci) :=
    .answers (served_on_list hP ht (Or.inl hc))
  simp only [on_join]
  split
  · exact .answers (served_drop hP ht hc).1
  split
  · exact .answers (Served.refl ht)
  rename_i hroom
  have hr : (s.clients ci).room = none := by
    cases h : (s.clients ci).room with
    | none => rfl
    | some ri =>
      rw [h] at hroom
      exact absurd rfl hroom
  split
  · exact hlist
  split
  · exact hlist
  rename_i target hfind
  have ht' := (ht.listed _ (mem_of_name_find hfind)).1
  split
  · exact hlist
  rename_i hjoin
  simp only [unjoinable, Bool.or_eq_true, decide_eq_true_eq, not_or] at hjoin
  obtain ⟨⟨hne, -⟩, hfull⟩ := hjoin
  split
  · rename_i hv1
    have hr' : (s.clients target).room = none := by
      cases h : (s.clients target).room with
      | none => rfl
      | some ri =>
        rw [hv1, h] at hfull
        exact absurd rfl hfull
    obtain ⟨s₁, ri, msgs, hb, hm, heq⟩ := start_pair_eq hv1 ht hc hr ht' hr' hne
    rw [heq]
    exact .starts (Served.refl ht) hb hm
  rename_i hv
  split
  · rename_i ri hri
    obtain ⟨h1, -, h3, -⟩ := ht.seated target ri ht' hri
    have hv2 : cfg.proto = .v2 := by
      cases h : cfg.proto with
      | v1 => exact absurd h hv
      | v2 => rfl
    rw [hri, hv2] at hfull
    simp only [Bool.or_eq_true, decide_eq_true_eq, not_or, Bool.not_eq_true, ge_iff_le,
      Nat.not_le] at hfull
    exact does_join hP hv ht hc hr h3 hfull.1 h1 hfull.2
  · rename_i hr'
    obtain ⟨i, hi, hu, heq⟩ := room_alloc_eq (ht.room_free hc hr ht' hr' hne) target
    simp only [heq, join]
    set s₂ := Relay.modify _ _ _ with hs₂
    have hrooms : s₂.rooms = Function.update s.rooms i ⟨true, [target, ci], false, 0, s.serial⟩ := by
      rw [hs₂]
      simp only [Relay.modify, Relay.modifyRoom, Function.update_self, Function.update_idem,
        List.singleton_append]
    have hopen : Served cfg P s s₂ := by
      have hgo : false = true → Starts P := fun h => absurd h Bool.false_ne_true
      refine served_open hgo ht hc hr ht' hr' hne hi hu (fun c => ?_) hrooms ⟨rfl, rfl, rfl, rfl⟩
      rw [hs₂]
      by_cases h1 : c = ci
      · subst h1
        rw [modify_self, if_pos (Or.inl rfl)]
        simp only [Relay.modify, Relay.modifyRoom, Function.update_of_ne (Ne.symm hne)]
      · rw [modify_of_ne _ _ h1]
        by_cases h2 : c = target
        · subst h2
          rw [if_pos (Or.inr rfl)]
          simp only [Relay.modify, Relay.modifyRoom, Function.update_self]
        · rw [if_neg (not_or.mpr ⟨h1, h2⟩)]
          simp only [Relay.modify, Relay.modifyRoom, Function.update_of_ne h2]
    refine does_announce hP hv hopen ?_ ?_
    · rw [hrooms, Function.update_self]
    · rw [hrooms, Function.update_self]

/-- A GO. -/
theorem does_on_go {ftype : ℕ} {payload : List ℕ} (hv : cfg.proto ≠ .v1) (ht : Tables cfg ∅ ∅ s)
    (hc : alive s ci) : Does cfg P s ci ftype payload (on_go cfg s ci) := by
  have hrefl : Does cfg P s ci ftype payload s := .answers (Served.refl ht)
  simp only [on_go]
  split
  · exact hrefl
  · rename_i ri hri
    split
    · exact hrefl
    rename_i hst
    split
    · exact hrefl
    · refine does_start_room hv (Served.refl ht) (ht.seated ci ri hc hri).2.2.1 ?_
      exact Bool.eq_false_of_not_eq_true fun h => hst (Or.inl h)

/-- One frame. -/
theorem does_handle (hP : Answers cfg P) (ht : Tables cfg ∅ ∅ s) (hc : alive s ci) (ftype : ℕ)
    (payload : List ℕ) : Does cfg P s ci ftype payload (handle cfg s ci ftype payload) := by
  have hdrop : Does cfg P s ci ftype payload (drop cfg s ci) := .answers (served_drop hP ht hc).1
  simp only [handle]
  split
  · rename_i hr
    exact .relays hr
  split
  · exact .answers (served_on_hello hP ht hc payload)
  split
  · exact .answers (served_on_list hP ht (Or.inl hc))
  split
  · exact does_on_join hP ht hc payload
  split
  · split
    · exact hdrop
    · rename_i hv
      exact does_on_go hv ht hc
  split
  · exact hdrop
  split
  · exact .answers (served_send hP ht (Or.inl hc) .relay _ (hP.pong ci))
  · exact hdrop

/-- A relayed frame. -/
theorem served_relay (hP : Answers cfg P) (ht : Tables cfg ∅ ∅ s) (hc : alive s ci) (ftype : ℕ)
    (payload : List ℕ) (hq : ∀ c k, P c ⟨.member k ci, frame ftype payload⟩) :
    Served cfg P s (relay cfg s ci ftype payload) := by
  simp only [relay]
  split
  · exact Served.refl ht
  rename_i ri hri
  obtain ⟨-, -, hu, -⟩ := ht.seated ci ri hc hri
  split
  · refine (kept_foldl (P := P) (D := ∅) (n := MAX_CLIENTS) id _ (fun x m ht hn hm => ?_) _ s ht
      (live_card_le s) fun m hm => Or.inl (ht.member ri hu (Set.notMem_empty ri) m hm).1).served
    split
    · exact (sound_drop hP.toTells).send_raw ht hn hm _ _ (hq m _)
    · exact Kept.refl ht
  · exact Served.refl ht

/-- The members of a room that begins may be told. -/
theorem Seats.recipient {msgs : List (ℕ × List ℕ)} (hm : Seats cfg s ri msgs)
    (ht : Tables cfg ∅ ∅ s) (hu : (s.rooms ri).used = true) : ∀ m ∈ msgs, alive s m.1 := by
  intro m hmem
  refine (ht.member ri hu (Set.notMem_empty ri) m.1 ?_).1
  rw [← hm.members]
  exact List.mem_map_of_mem hmem

/-- All of it keeps the tables. -/
theorem served_handle (hP : Says cfg P) (ht : Tables cfg ∅ ∅ s) (hc : alive s ci) (ftype : ℕ)
    (payload : List ℕ)
    (hq : relayed ftype = true → ∀ c k, P c ⟨.member k ci, frame ftype payload⟩) :
    Served cfg P s (handle cfg s ci ftype payload) := by
  generalize hres : handle cfg s ci ftype payload = s'
  have hdoes := does_handle hP.toAnswers ht hc ftype payload
  rw [hres] at hdoes
  cases hdoes with
  | answers h => exact h
  | starts h hb hm =>
    have hs := hb.served P hP.starts
    exact (h.trans hs).trans (kept_tell hP.toTells hs.tables _
      (fun m hmem => Or.inl (hm.recipient hs.tables hb.started.1 m hmem))
      fun m hmem => hP.start m.1 _ m.2 (hm.starts m hmem)).served
  | relays h => exact served_relay hP.toAnswers ht hc ftype payload (hq h)

end Rooms

end BoxingNetplay.Interface.IntvRelay
