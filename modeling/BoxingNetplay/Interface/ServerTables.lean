import Mathlib.Data.Set.Insert
import BoxingNetplay.Model.RelayServer
import BoxingNetplay.Interface.RelayFraming

/-!
# The objects of the Python relay

What holds of the clients and rooms whenever a method sends, and what a send may do to them.
A send may drop its recipient, whose room then ends or closes up, which sends again; whatever comes
of it, clients only go, rooms only shrink, and nobody is told of the end of a match that it has not
been told the start of.
-/

set_option autoImplicit false

namespace BoxingNetplay.Interface.RelayServer

open BoxingNetplay.Model.Wire
open BoxingNetplay.Model.RelayServer

/-! ### Objects -/

@[simp]
theorem modify_self (s : Server) (ci : ℕ) (f : Client → Client) :
    (s.modify ci f).clients ci = f (s.clients ci) := Function.update_self ..

theorem modify_of_ne (s : Server) {ci c : ℕ} (f : Client → Client) (h : c ≠ ci) :
    (s.modify ci f).clients c = s.clients c := Function.update_of_ne h ..

@[simp]
theorem modifyRoom_self (s : Server) (ri : ℕ) (f : Room → Room) :
    (s.modifyRoom ri f).rooms ri = f (s.rooms ri) := Function.update_self ..

theorem modifyRoom_of_ne (s : Server) {ri r : ℕ} (f : Room → Room) (h : r ≠ ri) :
    (s.modifyRoom ri f).rooms r = s.rooms r := Function.update_of_ne h ..

/-- A client that has been made and not dropped. -/
def live (s : Server) (c : ℕ) : Prop := (s.clients c).dead = false

instance (s : Server) (c : ℕ) : Decidable (live s c) := inferInstanceAs (Decidable (_ = _))

/-- A client is not up exactly when it is dead. -/
theorem not_live_iff {s : Server} {c : ℕ} : ¬ live s c ↔ (s.clients c).dead = true := by
  rw [live, Bool.not_eq_false]

/-- The objects refer to each other as they should, but for the members of the rooms `D`, which are
being sent home. -/
structure Tables (cfg : Config) (D : Set ℕ) (s : Server) : Prop where
  connected : ∀ c, c ∈ s.connected ↔ live s c
  once : s.connected.Nodup
  unmade : ∀ c, s.next_client ≤ c → s.clients c = Client.unmade
  unopened : ∀ r, s.next_room ≤ r → (s.rooms r).members = [] ∧ (s.rooms r).started = false
  seated : ∀ c r, (s.clients c).room = some r → r ∉ D ∧ c ∈ (s.rooms r).members
  member : ∀ r, r ∉ D → ∀ c ∈ (s.rooms r).members, (s.clients c).room = some r
  distinct : ∀ r, r ∉ D → (s.rooms r).members.Nodup
  fits : ∀ r, r ∉ D → (s.rooms r).members.length ≤ cfg.max_seats
  sent : ∀ c, (s.clients c).wire ++ (s.clients c).tx = (s.clients c).queued.flatten

/-! ### Matches -/

/-- The type of a frame. -/
def typeOf (f : List ℕ) : ℕ := f.getD 1 0

/-- The last thing a client was told about a match is that it starts. -/
def InMatch (l : List (List ℕ)) : Prop :=
  ∃ before start after, l = before ++ start :: after ∧ typeOf start = T_START ∧
    ∀ f ∈ after, typeOf f ≠ T_PEER_LEFT

/-- A frame of a match, or the end of one. -/
def OfMatch (f : List ℕ) : Prop := typeOf f = T_PEER_LEFT ∨ relayed (typeOf f) = true

/-- Frames of a match, and the end of one, come while the match is on. -/
def Bracketed (l : List (List ℕ)) : Prop :=
  ∀ before f after, l = before ++ f :: after → OfMatch f → InMatch before

/-- What the clients have been told is in order, and the live members of a room that has
started know that it has. -/
structure Brackets (s : Server) : Prop where
  bracketed : ∀ c, Bracketed (s.clients c).queued
  playing : ∀ c r, live s c → (s.clients c).room = some r → (s.rooms r).started = true →
    InMatch (s.clients c).queued

/-- The tables are consistent, and the matches in order where `b` asks for it. -/
structure Sane (cfg : Config) (D : Set ℕ) (b : Prop) (s : Server) : Prop extends
    Tables cfg D s where
  brackets : b → Brackets s

/-- A frame a client may be sent as it is. -/
structure Allows (c : Client) (f : List ℕ) : Prop where
  bracketed : OfMatch f → InMatch c.queued
  stays : typeOf f = T_PEER_LEFT → c.room = none

/-- A frame that is of no match. -/
def Quiet (f : List ℕ) : Prop := ¬ OfMatch f

/-- Everybody may be sent such a frame. -/
theorem Quiet.allows {f : List ℕ} (h : Quiet f) (c : Client) : Allows c f :=
  ⟨fun ho => absurd ho h, fun ho => absurd (Or.inl ho) h⟩

/-- A match goes on with any frame but a PEER_LEFT. -/
theorem InMatch.append {l : List (List ℕ)} (h : InMatch l) {f : List ℕ}
    (hf : typeOf f ≠ T_PEER_LEFT) : InMatch (l ++ [f]) := by
  obtain ⟨before, start, after, rfl, h1, h2⟩ := h
  refine ⟨before, start, after ++ [f], by rw [List.append_assoc, List.cons_append], h1, ?_⟩
  intro x hx
  rcases List.mem_append.mp hx with hx | hx
  · exact h2 x hx
  · rw [List.mem_singleton.mp hx]
    exact hf

/-- A START begins one. -/
theorem inMatch_start (l : List (List ℕ)) {f : List ℕ} (hf : typeOf f = T_START) :
    InMatch (l ++ [f]) := ⟨l, f, [], rfl, hf, nofun⟩

/-- A frame that a client may be sent leaves what it was told in order. -/
theorem Bracketed.append {l : List (List ℕ)} (h : Bracketed l) {f : List ℕ}
    (hf : OfMatch f → InMatch l) : Bracketed (l ++ [f]) := by
  intro before x after heq hx
  rcases List.eq_nil_or_concat after with rfl | ⟨after', y, rfl⟩
  · obtain ⟨rfl, hlast⟩ := List.append_inj' heq rfl
    injection hlast with hlast
    exact hf (hlast ▸ hx)
  · rw [List.concat_eq_append, ← List.cons_append, ← List.append_assoc] at heq
    obtain ⟨hl, -⟩ := List.append_inj' heq rfl
    exact h before x after' hl hx

/-! ### What sending does -/

/-- Sending does this: clients go, rooms shrink, and frames of a kind are queued. -/
structure Shrinks (P : List ℕ → Prop) (s s' : Server) : Prop where
  stays : ∀ c, live s' c → live s c
  same : ∀ c, (s'.clients c).name = (s.clients c).name ∧ (s'.clients c).rx = (s.clients c).rx ∧
    (s'.clients c).received = (s.clients c).received
  room : ∀ c, (s'.clients c).room = (s.clients c).room ∨ (s'.clients c).room = none
  homed : ∀ c, live s c → ¬ live s' c → (s'.clients c).room = none
  grows : ∀ c, ∃ l, (s'.clients c).queued = (s.clients c).queued ++ l ∧ ∀ f ∈ l, P f
  rooms : ∀ r, (s'.rooms r).started = (s.rooms r).started ∧
    (s'.rooms r).members.Sublist (s.rooms r).members
  names : s'.by_name.Sublist s.by_name
  gone : ∀ e ∈ s'.by_name, live s e.2 → live s' e.2
  next : s'.next_client = s.next_client ∧ s'.next_room = s.next_room
  connected : s'.connected.length ≤ s.connected.length

/-- What a method that sends frames of a kind leaves behind. -/
structure Kept (cfg : Config) (D : Set ℕ) (b : Prop) (P : List ℕ → Prop) (s s' : Server) :
    Prop where
  sane : Sane cfg D b s'
  shrinks : Shrinks P s s'

namespace Shrinks

variable {P : List ℕ → Prop} {s s' s'' : Server}

theorem refl (P : List ℕ → Prop) (s : Server) : Shrinks P s s where
  stays _ h := h
  same _ := ⟨rfl, rfl, rfl⟩
  room _ := Or.inl rfl
  homed _ hl hn := absurd hl hn
  grows _ := ⟨[], (List.append_nil _).symm, nofun⟩
  rooms _ := ⟨rfl, List.Sublist.refl _⟩
  names := List.Sublist.refl _
  gone _ _ h := h
  next := ⟨rfl, rfl⟩
  connected := Nat.le_refl _

theorem trans (h : Shrinks P s s') (h' : Shrinks P s' s'') : Shrinks P s s'' where
  stays c hc := h.stays c (h'.stays c hc)
  same c := by
    obtain ⟨h1, h2, h3⟩ := h.same c
    obtain ⟨k1, k2, k3⟩ := h'.same c
    exact ⟨k1.trans h1, k2.trans h2, k3.trans h3⟩
  room c := by
    rcases h'.room c with hc | hc
    · rw [hc]
      exact h.room c
    · exact Or.inr hc
  homed c hl hn := by
    by_cases hm : live s' c
    · exact h'.homed c hm hn
    · have hroom := h.homed c hl hm
      rcases h'.room c with hc | hc
      · rw [hc, hroom]
      · exact hc
  grows c := by
    obtain ⟨l, h1, h2⟩ := h.grows c
    obtain ⟨l', k1, k2⟩ := h'.grows c
    refine ⟨l ++ l', by rw [k1, h1, List.append_assoc], fun f hf => ?_⟩
    exact (List.mem_append.mp hf).elim (h2 f) (k2 f)
  rooms r := ⟨(h'.rooms r).1.trans (h.rooms r).1, (h'.rooms r).2.trans (h.rooms r).2⟩
  names := h'.names.trans h.names
  gone e he hl := h'.gone e he (h.gone e (h'.names.subset he) hl)
  next := ⟨h'.next.1.trans h.next.1, h'.next.2.trans h.next.2⟩
  connected := Nat.le_trans h'.connected h.connected

/-- Whoever is dead stays so. -/
theorem dead (h : Shrinks P s s') {c : ℕ} (hc : (s.clients c).dead = true) :
    (s'.clients c).dead = true :=
  not_live_iff.mp fun hl => not_live_iff.mpr hc (h.stays c hl)

end Shrinks

section Kept

variable {cfg : Config} {D D' : Set ℕ} {b : Prop} {P : List ℕ → Prop} {s s' s'' : Server}

theorem Kept.refl (h : Sane cfg D b s) : Kept cfg D b P s s := ⟨h, Shrinks.refl P s⟩

theorem Kept.trans (h : Kept cfg D' b P s s') (h' : Kept cfg D b P s' s'') :
    Kept cfg D b P s s'' := ⟨h'.sane, h.shrinks.trans h'.shrinks⟩

/-- What keeps a server sane makes the connected clients no more. -/
theorem Kept.length_le {n : ℕ} (h : Kept cfg D b P s s') (hn : s.connected.length ≤ n) :
    s'.connected.length ≤ n := Nat.le_trans h.shrinks.connected hn

/-- A live client has been made. -/
theorem Tables.made (ht : Tables cfg D s) {c : ℕ} (hc : live s c) : c < s.next_client := by
  by_contra hle
  rw [live, ht.unmade c (Nat.not_lt.mp hle)] at hc
  cases hc

/-- A change of one client that leaves alone what the tables speak of. -/
theorem Tables.modify (ht : Tables cfg D s) {ci : ℕ} (hc : ci < s.next_client)
    (f : Client → Client)
    (hf : ∀ c, (f c).dead = c.dead ∧ (f c).room = c.room)
    (hsent : (f (s.clients ci)).wire ++ (f (s.clients ci)).tx =
      (f (s.clients ci)).queued.flatten) : Tables cfg D (s.modify ci f) where
  connected c := by
    by_cases h : c = ci
    · rw [h, live, modify_self, (hf _).1]
      exact ht.connected ci
    · rw [live, modify_of_ne s f h]
      exact ht.connected c
  once := ht.once
  unmade c hle := by
    have hne : c ≠ ci := fun heq => Nat.not_lt.mpr hle (heq ▸ hc)
    rw [modify_of_ne s f hne]
    exact ht.unmade c hle
  unopened := ht.unopened
  seated c r hr := by
    refine ht.seated c r ?_
    by_cases h : c = ci
    · subst h
      rw [modify_self, (hf _).2] at hr
      exact hr
    · rw [modify_of_ne s f h] at hr
      exact hr
  member r hD c hm := by
    by_cases h : c = ci
    · subst h
      rw [modify_self, (hf _).2]
      exact ht.member r hD c hm
    · rw [modify_of_ne s f h]
      exact ht.member r hD c hm
  distinct := ht.distinct
  fits := ht.fits
  sent c := by
    by_cases h : c = ci
    · rw [h, modify_self, hsent]
    · rw [modify_of_ne s f h, ht.sent c]

/-- Queueing a frame that its recipient may be sent. -/
theorem kept_queue (h : Sane cfg D b s) {ci : ℕ} (hc : live s ci) {f : List ℕ} (hP : P f)
    (hq : b → Allows (s.clients ci) f) :
    Kept cfg D b P s (s.modify ci fun c =>
      { c with tx := c.tx ++ f, queued := c.queued ++ [f] }) := by
  set g : Client → Client := fun c => { c with tx := c.tx ++ f, queued := c.queued ++ [f] } with hg
  have hlive : ∀ c, live (s.modify ci g) c ↔ live s c := fun c => by
    by_cases h : c = ci
    · rw [h, live, modify_self]
      rfl
    · rw [live, modify_of_ne s g h]
      rfl
  have hroom : ∀ c, ((s.modify ci g).clients c).room = (s.clients c).room := fun c => by
    by_cases h : c = ci
    · rw [h, modify_self]
    · rw [modify_of_ne s g h]
  refine ⟨⟨h.modify (h.made hc) g (fun _ => ⟨rfl, rfl⟩) ?_, fun hb => ?_⟩, ?_⟩
  · simp only [hg, List.flatten_append, List.flatten_cons, List.flatten_nil, List.append_nil]
    rw [← List.append_assoc, h.sent ci]
  · obtain ⟨h1, h2⟩ := hq hb
    have hbr := h.brackets hb
    refine ⟨fun c => ?_, fun c r hl hr hst => ?_⟩
    · by_cases h : c = ci
      · rw [h, modify_self]
        exact (hbr.bracketed ci).append h1
      · rw [modify_of_ne s g h]
        exact hbr.bracketed c
    · rw [hroom c] at hr
      have hin := hbr.playing c r ((hlive c).mp hl) hr hst
      by_cases h : c = ci
      · rw [h, modify_self]
        rw [h] at hin hr
        refine hin.append fun hleft => ?_
        rw [h2 hleft] at hr
        cases hr
      · rw [modify_of_ne s g h]
        exact hin
  · exact
      { Shrinks.refl P s with
        stays := fun c h => (hlive c).mp h
        same := fun c => by
          by_cases h : c = ci
          · rw [h, modify_self]
            exact ⟨rfl, rfl, rfl⟩
          · rw [modify_of_ne s g h]
            exact ⟨rfl, rfl, rfl⟩
        room := fun c => Or.inl (hroom c)
        homed := fun c hl hn => absurd ((hlive c).mpr hl) hn
        grows := fun c => by
          by_cases h : c = ci
          · rw [h, modify_self]
            exact ⟨[f], rfl, fun x hx => List.mem_singleton.mp hx ▸ hP⟩
          · rw [modify_of_ne s g h]
            exact ⟨[], (List.append_nil _).symm, nofun⟩
        gone := fun e _ h => (hlive e.2).mpr h }

/-- Handing bytes to the kernel. -/
theorem kept_transmit (h : Sane cfg D b s) {ci : ℕ} (hc : live s ci) {t : Transmit}
    (hsplit : t.taken ++ t.left = (s.clients ci).tx) :
    Kept cfg D b P s { s.modify ci (fun c => { c with tx := t.left, wire := c.wire ++ t.taken }) with
      kernel := t.rest } := by
  set g : Client → Client := fun c => { c with tx := t.left, wire := c.wire ++ t.taken } with hg
  have hsame : ∀ c, ((s.modify ci g).clients c).dead = (s.clients c).dead ∧
      ((s.modify ci g).clients c).room = (s.clients c).room ∧
      ((s.modify ci g).clients c).queued = (s.clients c).queued ∧
      ((s.modify ci g).clients c).name = (s.clients c).name ∧
      ((s.modify ci g).clients c).rx = (s.clients c).rx ∧
      ((s.modify ci g).clients c).received = (s.clients c).received := fun c => by
    by_cases h : c = ci
    · rw [h, modify_self]
      exact ⟨rfl, rfl, rfl, rfl, rfl, rfl⟩
    · rw [modify_of_ne s g h]
      exact ⟨rfl, rfl, rfl, rfl, rfl, rfl⟩
  have ht' : Tables cfg D (s.modify ci g) := h.modify (h.made hc) g (fun _ => ⟨rfl, rfl⟩) (by
    simp only [hg, List.append_assoc]
    rw [hsplit, h.sent ci])
  have hlive : ∀ c, live { s.modify ci g with kernel := t.rest } c ↔ live s c := fun c => by
    have h : ({ s.modify ci g with kernel := t.rest } : Server).clients c =
        (s.modify ci g).clients c := rfl
    rw [live, live, h, (hsame c).1]
  refine ⟨⟨{ ht' with }, fun hb => ⟨fun c => ?_, fun c r hl hr hst => ?_⟩⟩, ?_⟩
  · have hbr := (h.brackets hb).bracketed c
    rw [← (hsame c).2.2.1] at hbr
    exact hbr
  · have hbr := (h.brackets hb).playing c r ((hlive c).mp hl) ((hsame c).2.1 ▸ hr) hst
    rw [← (hsame c).2.2.1] at hbr
    exact hbr
  · exact
      { Shrinks.refl P s with
        stays := fun c h => (hlive c).mp h
        same := fun c => (hsame c).2.2.2
        room := fun c => Or.inl (hsame c).2.1
        homed := fun c hl hn => absurd ((hlive c).mpr hl) hn
        grows := fun c => ⟨[], by rw [List.append_nil]; exact (hsame c).2.2.1, nofun⟩
        gone := fun e _ h => (hlive e.2).mpr h }

end Kept

/-! ### Leaving -/

section Leaving

variable {cfg : Config} {D : Set ℕ} {b : Prop} {P : List ℕ → Prop} {s s' : Server} {ci ri : ℕ}

/-- Forgetting a client makes it dead and changes nothing else of anybody. -/
theorem forget_clients (s : Server) (ci c : ℕ) :
    ((forget s ci).clients c).dead = (decide (c = ci) || (s.clients c).dead) ∧
      ((forget s ci).clients c).room = (s.clients c).room ∧
      ((forget s ci).clients c).queued = (s.clients c).queued ∧
      ((forget s ci).clients c).wire = (s.clients c).wire ∧
      ((forget s ci).clients c).tx = (s.clients c).tx ∧
      ((forget s ci).clients c).name = (s.clients c).name ∧
      ((forget s ci).clients c).rx = (s.clients c).rx ∧
      ((forget s ci).clients c).received = (s.clients c).received := by
  by_cases h : c = ci
  · subst h
    simp only [forget, modify_self, decide_true, Bool.true_or]
    trivial
  · simp only [forget, modify_of_ne s _ h, h, decide_false, Bool.false_or]
    trivial

/-- Everyone else is up who was. -/
theorem live_forget {c : ℕ} : live (forget s ci) c ↔ c ≠ ci ∧ live s c := by
  rw [live, (forget_clients s ci c).1, Bool.or_eq_false_iff, decide_eq_false_iff_not]
  rfl

/-- A client that goes takes its names with it. -/
theorem kept_forget (h : Sane cfg D b s) (hc : live s ci) (hroom : (s.clients ci).room = none) :
    Kept cfg D b P s (forget s ci) := by
  have hcl := forget_clients s ci
  refine ⟨⟨?_, fun hb => ⟨fun c => ?_, fun c r hl hr hst => ?_⟩⟩, ?_⟩
  · exact
      { connected := fun c => by
          rw [live_forget, ← h.connected c]
          exact h.once.mem_erase_iff
        once := h.once.erase ci
        unmade := fun c hle => by
          have hne : c ≠ ci := fun heq => by
            rw [live, ← heq, h.unmade c hle] at hc
            cases hc
          have hsame : (forget s ci).clients c = s.clients c := Function.update_of_ne hne ..
          rw [hsame]
          exact h.unmade c hle
        unopened := h.unopened
        seated := fun c r hr => h.seated c r ((hcl c).2.1 ▸ hr)
        member := fun r hD c hm => by
          rw [(hcl c).2.1]
          exact h.member r hD c hm
        distinct := h.distinct
        fits := h.fits
        sent := fun c => by
          obtain ⟨-, -, h3, h4, h5, -⟩ := hcl c
          rw [h3, h4, h5]
          exact h.sent c }
  · rw [(hcl c).2.2.1]
    exact (h.brackets hb).bracketed c
  · rw [(hcl c).2.1] at hr
    rw [(hcl c).2.2.1]
    exact (h.brackets hb).playing c r (live_forget.mp hl).2 hr hst
  · exact
      { Shrinks.refl P s with
        stays := fun c hl => (live_forget.mp hl).2
        same := fun c => (hcl c).2.2.2.2.2
        room := fun c => Or.inl (hcl c).2.1
        homed := fun c hl hn => by
          rw [live_forget, not_and_or, not_not] at hn
          rcases hn with rfl | hn
          · exact (hcl c).2.1.trans hroom
          · exact absurd hl hn
        grows := fun c => ⟨[], by rw [List.append_nil, (hcl c).2.2.1], nofun⟩
        names := List.filter_sublist
        gone := fun e he hl => by
          refine live_forget.mpr ⟨?_, hl⟩
          simpa using (List.mem_filter.mp he).2
        connected := (List.erase_sublist ..).length_le }

/-- A client leaves its seat. -/
theorem kept_vacate (h : Sane cfg D b s) (hr : (s.clients ci).room = some ri) :
    Kept cfg D b P s (vacate s ri ci) := by
  obtain ⟨hD, hmem⟩ := h.seated ci ri hr
  have hroom : ∀ c, ((vacate s ri ci).clients c).room =
      if c = ci then none else (s.clients c).room := fun c => by
    by_cases heq : c = ci
    · subst heq
      rw [if_pos rfl]
      exact congrArg Client.room (modify_self s c fun c => { c with room := none })
    · rw [if_neg heq]
      exact congrArg Client.room (modify_of_ne s (fun c => { c with room := none }) heq)
  have hrest : ∀ c, ((vacate s ri ci).clients c).dead = (s.clients c).dead ∧
      ((vacate s ri ci).clients c).queued = (s.clients c).queued ∧
      ((vacate s ri ci).clients c).wire = (s.clients c).wire ∧
      ((vacate s ri ci).clients c).tx = (s.clients c).tx ∧
      ((vacate s ri ci).clients c).name = (s.clients c).name ∧
      ((vacate s ri ci).clients c).rx = (s.clients c).rx ∧
      ((vacate s ri ci).clients c).received = (s.clients c).received := fun c => by
    by_cases heq : c = ci
    · subst heq
      simp only [vacate, Server.modifyRoom, modify_self]
      trivial
    · simp only [vacate, Server.modifyRoom, modify_of_ne s _ heq]
      trivial
  have hrooms : ∀ r, ((vacate s ri ci).rooms r).started = (s.rooms r).started ∧
      ((vacate s ri ci).rooms r).members =
        if r = ri then (s.rooms r).members.erase ci else (s.rooms r).members := fun r => by
    by_cases heq : r = ri
    · subst heq
      rw [if_pos rfl]
      simp only [vacate, modifyRoom_self]
      exact ⟨rfl, rfl⟩
    · rw [if_neg heq]
      simp only [vacate, modifyRoom_of_ne _ _ heq]
      exact ⟨rfl, rfl⟩
  have hlive : ∀ c, live (vacate s ri ci) c ↔ live s c := fun c => by
    rw [live, live, (hrest c).1]
  have hsub : ∀ r, ((vacate s ri ci).rooms r).members.Sublist (s.rooms r).members := fun r => by
    rw [(hrooms r).2]
    split
    · exact List.erase_sublist ..
    · exact List.Sublist.refl _
  have hother : ∀ r, r ∉ D → ∀ c ∈ ((vacate s ri ci).rooms r).members, c ≠ ci := fun r hrD c hm => by
    rintro rfl
    have hin := h.member r hrD c ((hsub r).subset hm)
    rw [hr] at hin
    obtain rfl := Option.some.inj hin
    rw [(hrooms ri).2, if_pos rfl] at hm
    exact (h.distinct ri hD).not_mem_erase hm
  refine ⟨⟨?_, fun hb => ⟨fun c => ?_, fun c r hl hs hst => ?_⟩⟩, ?_⟩
  · exact
      { connected := fun c => (h.connected c).trans (hlive c).symm
        once := h.once
        unmade := fun c hle => by
          have hne : c ≠ ci := fun heq => by
            rw [← heq, h.unmade c hle] at hr
            cases hr
          have hsame : (vacate s ri ci).clients c = s.clients c := Function.update_of_ne hne ..
          rw [hsame]
          exact h.unmade c hle
        unopened := fun r hle => by
          obtain ⟨h1, h2⟩ := h.unopened r hle
          refine ⟨?_, (hrooms r).1.trans h2⟩
          have hs := hsub r
          rw [h1] at hs
          exact List.sublist_nil.mp hs
        seated := fun c r hs => by
          rw [hroom c] at hs
          split at hs
          · cases hs
          · rename_i hne
            obtain ⟨h1, h2⟩ := h.seated c r hs
            refine ⟨h1, ?_⟩
            rw [(hrooms r).2]
            split
            · exact (List.mem_erase_of_ne hne).mpr h2
            · exact h2
        member := fun r hrD c hm => by
          rw [hroom c, if_neg (hother r hrD c hm)]
          exact h.member r hrD c ((hsub r).subset hm)
        distinct := fun r hrD => (h.distinct r hrD).sublist (hsub r)
        fits := fun r hrD => Nat.le_trans (hsub r).length_le (h.fits r hrD)
        sent := fun c => by
          obtain ⟨-, h2, h3, h4, -⟩ := hrest c
          rw [h2, h3, h4]
          exact h.sent c }
  · rw [(hrest c).2.1]
    exact (h.brackets hb).bracketed c
  · rw [hroom c] at hs
    rw [(hrooms r).1] at hst
    rw [(hrest c).2.1]
    split at hs
    · cases hs
    · exact (h.brackets hb).playing c r ((hlive c).mp hl) hs hst
  · exact
      { stays := fun c => (hlive c).mp
        same := fun c => (hrest c).2.2.2.2
        room := fun c => by
          rw [hroom c]
          split
          · exact Or.inr rfl
          · exact Or.inl rfl
        homed := fun c hl hn => absurd ((hlive c).mpr hl) hn
        grows := fun c => ⟨[], by rw [List.append_nil, (hrest c).2.1], nofun⟩
        rooms := fun r => ⟨(hrooms r).1, hsub r⟩
        names := List.Sublist.refl _
        gone := fun e _ hl => (hlive e.2).mpr hl
        next := ⟨rfl, rfl⟩
        connected := Nat.le_refl _ }

/-- It does not matter in which order a client leaves its seat and its name. -/
theorem vacate_forget (s : Server) (ri ci : ℕ) :
    vacate (forget s ci) ri ci = forget (vacate s ri ci) ci := by
  simp only [vacate, forget, Server.modify, Server.modifyRoom, Function.update_self,
    Function.update_idem]

/-- A client goes, and its seat and its names with it. -/
theorem kept_go (h : Sane cfg D b s) (hc : live s ci) (hr : (s.clients ci).room = some ri) :
    Kept cfg D b P s (vacate (forget s ci) ri ci) ∧
      (vacate (forget s ci) ri ci).connected.length + 1 = s.connected.length ∧
      ((vacate (forget s ci) ri ci).clients ci).dead = true := by
  have hk := kept_vacate (P := P) h hr
  have hself : (vacate s ri ci).clients ci = { s.clients ci with room := none } :=
    Function.update_self ..
  have hc' : live (vacate s ri ci) ci := by
    rw [live, hself]
    exact hc
  have hk' := kept_forget (P := P) hk.sane hc' (by rw [hself])
  have hmem := (h.connected ci).mpr hc
  have hpos := List.length_pos_of_mem hmem
  refine ⟨?_, ?_, ?_⟩
  · rw [vacate_forget]
    exact hk.trans hk'
  · have herase : (vacate (forget s ci) ri ci).connected = s.connected.erase ci := rfl
    rw [herase, List.length_erase_of_mem hmem]
    omega
  · rw [vacate_forget]
    exact not_live_iff.mp fun hl => (live_forget.mp hl).1 rfl

/-- The members of a room are in it no longer. -/
def unseat (s : Server) (ms : List ℕ) : Server :=
  ms.foldl (fun s m => s.modify m fun c => { c with room := none }) s

/-- The members are in no room, and everyone else is as before. -/
theorem unseat_clients (ms : List ℕ) (s : Server) (c : ℕ) :
    (unseat s ms).clients c =
      if c ∈ ms then { s.clients c with room := none } else s.clients c := by
  induction ms generalizing s with
  | nil => rfl
  | cons m ms ih =>
    refine (ih (s.modify m fun c => { c with room := none })).trans ?_
    by_cases hc : c = m
    · subst hc
      simp only [modify_self, List.mem_cons_self, if_true]
      split <;> rfl
    · rw [modify_of_ne s _ hc]
      simp only [List.mem_cons, hc, false_or]

/-- Nothing but the clients changes. -/
theorem unseat_rest (ms : List ℕ) (s : Server) :
    (unseat s ms).rooms = s.rooms ∧ (unseat s ms).by_name = s.by_name ∧
      (unseat s ms).connected = s.connected ∧ (unseat s ms).next_client = s.next_client ∧
      (unseat s ms).next_room = s.next_room := by
  induction ms generalizing s with
  | nil => exact ⟨rfl, rfl, rfl, rfl, rfl⟩
  | cons m ms ih => exact ih (s.modify m fun c => { c with room := none })

/-- The kernel has no part in it. -/
theorem unseat_kernel (ms : List ℕ) (s : Server) : (unseat s ms).kernel = s.kernel := by
  induction ms generalizing s with
  | nil => rfl
  | cons m ms ih => exact ih (s.modify m fun c => { c with room := none })

/-- The members of a room are sent home, and the room is about to be cleared. -/
theorem kept_unseat (h : Sane cfg D b s) (hD : ri ∉ D) :
    Kept cfg (insert ri D) b P s (unseat s (s.rooms ri).members) ∧
      ∀ m ∈ (s.rooms ri).members,
        ((unseat s (s.rooms ri).members).clients m).room = none := by
  have hcl := unseat_clients (s.rooms ri).members s
  obtain ⟨h1, h2, h3, h4, h5⟩ := unseat_rest (s.rooms ri).members s
  set s' := unseat s (s.rooms ri).members
  have hrest : ∀ c, (s'.clients c).dead = (s.clients c).dead ∧
      (s'.clients c).queued = (s.clients c).queued ∧ (s'.clients c).wire = (s.clients c).wire ∧
      (s'.clients c).tx = (s.clients c).tx ∧ (s'.clients c).name = (s.clients c).name ∧
      (s'.clients c).rx = (s.clients c).rx ∧
      (s'.clients c).received = (s.clients c).received := fun c => by
    rw [hcl c]
    split
    · exact ⟨rfl, rfl, rfl, rfl, rfl, rfl, rfl⟩
    · exact ⟨rfl, rfl, rfl, rfl, rfl, rfl, rfl⟩
  have hroom : ∀ c r, (s'.clients c).room = some r →
      (s.clients c).room = some r ∧ c ∉ (s.rooms ri).members := fun c r hs => by
    rw [hcl c] at hs
    split at hs
    · cases hs
    · rename_i hni
      exact ⟨hs, hni⟩
  have hlive : ∀ c, live s' c ↔ live s c := fun c => by rw [live, live, (hrest c).1]
  have hins : ∀ r, r ∉ insert ri D → r ≠ ri ∧ r ∉ D := fun r hr =>
    ⟨fun heq => hr (heq ▸ Set.mem_insert ..), fun hin => hr (Set.mem_insert_of_mem ri hin)⟩
  refine ⟨⟨⟨?_, fun hb => ⟨fun c => ?_, fun c r hl hs hst => ?_⟩⟩, ?_⟩, fun m hm => ?_⟩
  · exact
      { connected := fun c => by rw [h3, hlive c]; exact h.connected c
        once := h3 ▸ h.once
        unmade := fun c hle => by
          rw [h4] at hle
          have hno : c ∉ (s.rooms ri).members := fun hm => by
            have hr := h.member ri hD c hm
            rw [h.unmade c hle] at hr
            cases hr
          rw [hcl c, if_neg hno]
          exact h.unmade c hle
        unopened := fun r hle => by
          rw [h1]
          exact h.unopened r (h5 ▸ hle)
        seated := fun c r hs => by
          obtain ⟨hs', hno⟩ := hroom c r hs
          obtain ⟨k1, k2⟩ := h.seated c r hs'
          rw [h1]
          refine ⟨fun hin => ?_, k2⟩
          rcases Set.mem_insert_iff.mp hin with rfl | hin
          · exact hno k2
          · exact k1 hin
        member := fun r hr c hm => by
          obtain ⟨hne, hrD⟩ := hins r hr
          rw [h1] at hm
          have hs := h.member r hrD c hm
          have hno : c ∉ (s.rooms ri).members := fun hin => by
            rw [h.member ri hD c hin] at hs
            exact hne (Option.some.inj hs).symm
          rw [hcl c, if_neg hno]
          exact hs
        distinct := fun r hr => by
          rw [h1]
          exact h.distinct r (hins r hr).2
        fits := fun r hr => by
          rw [h1]
          exact h.fits r (hins r hr).2
        sent := fun c => by
          obtain ⟨-, k2, k3, k4, -⟩ := hrest c
          rw [k2, k3, k4]
          exact h.sent c }
  · rw [(hrest c).2.1]
    exact (h.brackets hb).bracketed c
  · rw [h1] at hst
    rw [(hrest c).2.1]
    exact (h.brackets hb).playing c r ((hlive c).mp hl) (hroom c r hs).1 hst
  · exact
      { stays := fun c => (hlive c).mp
        same := fun c => (hrest c).2.2.2.2
        room := fun c => by
          rw [hcl c]
          split
          · exact Or.inr rfl
          · exact Or.inl rfl
        homed := fun c hl hn => absurd ((hlive c).mpr hl) hn
        grows := fun c => ⟨[], by rw [List.append_nil, (hrest c).2.1], nofun⟩
        rooms := fun r => by
          rw [h1]
          exact ⟨rfl, List.Sublist.refl _⟩
        names := h2 ▸ List.Sublist.refl _
        gone := fun e _ hl => (hlive e.2).mpr hl
        next := ⟨h4, h5⟩
        connected := h3 ▸ Nat.le_refl _ }
  · rw [hcl m, if_pos hm]

/-- A room whose members have gone home is cleared. -/
theorem kept_clear (h : Sane cfg (insert ri D) b s) :
    Kept cfg D b P s (s.modifyRoom ri fun r => { r with members := [] }) := by
  set s' := s.modifyRoom ri fun r => { r with members := [] } with hs'
  have hrooms : ∀ r, (s'.rooms r).started = (s.rooms r).started ∧
      (s'.rooms r).members = if r = ri then [] else (s.rooms r).members := fun r => by
    by_cases heq : r = ri
    · subst heq
      rw [hs', modifyRoom_self, if_pos rfl]
      exact ⟨rfl, rfl⟩
    · rw [hs', modifyRoom_of_ne _ _ heq, if_neg heq]
      exact ⟨rfl, rfl⟩
  have hins : ∀ r, r ≠ ri → r ∉ D → r ∉ insert ri D := fun r hne hD hin =>
    (Set.mem_insert_iff.mp hin).elim hne hD
  refine ⟨⟨?_, fun hb => ⟨(h.brackets hb).bracketed, fun c r hl hs hst => ?_⟩⟩, ?_⟩
  · exact
      { connected := h.connected
        once := h.once
        unmade := h.unmade
        unopened := fun r hle => by
          obtain ⟨h1, h2⟩ := h.unopened r hle
          refine ⟨?_, (hrooms r).1.trans h2⟩
          rw [(hrooms r).2, h1, ite_self]
        seated := fun c r hs => by
          obtain ⟨h1, h2⟩ := h.seated c r hs
          have hne : r ≠ ri := fun heq => h1 (heq ▸ Set.mem_insert ..)
          rw [(hrooms r).2, if_neg hne]
          exact ⟨fun hin => h1 (Set.mem_insert_of_mem ri hin), h2⟩
        member := fun r hD c hm => by
          rw [(hrooms r).2] at hm
          split at hm
          · exact absurd hm List.not_mem_nil
          · rename_i hne
            exact h.member r (hins r hne hD) c hm
        distinct := fun r hD => by
          rw [(hrooms r).2]
          split
          · exact List.nodup_nil
          · rename_i hne
            exact h.distinct r (hins r hne hD)
        fits := fun r hD => by
          rw [(hrooms r).2]
          split
          · exact Nat.zero_le _
          · rename_i hne
            exact h.fits r (hins r hne hD)
        sent := h.sent }
  · exact (h.brackets hb).playing c r hl hs ((hrooms r).1 ▸ hst)
  · exact
      { Shrinks.refl P s with
        rooms := fun r => by
          refine ⟨(hrooms r).1, ?_⟩
          rw [(hrooms r).2]
          split
          · exact List.nil_sublist _
          · exact List.Sublist.refl _ }

end Leaving

/-! ### Sending -/

/-- A kind of frames that has those a departure gives rise to. -/
structure Tells (P : List ℕ → Prop) : Prop where
  room : ∀ payload, payload.length = 33 → payload.headD 0 ≤ ROSTER_SLOTS → P (frame T_ROOM payload)
  left : ∀ payload, payload.length = 9 → P (frame T_PEER_LEFT payload)

/-- A `drop` that may be relied on while at most `n` clients are connected. -/
def Sound (cfg : Config) (P : List ℕ → Prop) (drop : Server → ℕ → Server) (n : ℕ) : Prop :=
  ∀ D b s ci, Sane cfg D b s → s.connected.length ≤ n →
    Kept cfg D b P s (drop s ci) ∧ ((drop s ci).clients ci).dead = true ∧
      (live s ci → (s.clients ci).room = none → drop s ci = forget s ci)

/-- A change of one client, and of what does not matter to the others. -/
structure Touches (ci : ℕ) (s s' : Server) : Prop where
  others : ∀ c, c ≠ ci → s'.clients c = s.clients c
  rooms : s'.rooms = s.rooms

/-- A ROOM is of no match. -/
theorem quiet_room (payload : List ℕ) : Quiet (frame T_ROOM payload) := by
  rintro (h | h)
  · exact absurd h (by decide : T_ROOM ≠ T_PEER_LEFT)
  · exact Bool.false_ne_true h

section Sending

variable {cfg : Config} {D : Set ℕ} {b : Prop} {P : List ℕ → Prop} {s s' : Server} {ci ri n : ℕ}
  {drop : Server → ℕ → Server}

/-- Handing a queue to the kernel keeps the server sane, and touches one client when that has no room. -/
theorem Sound.flush (hf : Sound cfg P drop n) (h : Sane cfg D b s) (hn : s.connected.length ≤ n)
    (hc : live s ci) : Kept cfg D b P s (flush drop s ci) ∧
      ((s.clients ci).room = none → Touches ci s (flush drop s ci)) := by
  have hk := kept_transmit (P := P) h hc (transmit_split s.kernel (s.clients ci).tx)
  simp only [Model.RelayServer.flush]
  set t := transmit s.kernel (s.clients ci).tx
  set s₁ : Server := { s.modify ci (fun c =>
    { c with tx := t.left, wire := c.wire ++ t.taken }) with kernel := t.rest } with hs₁
  have hsame : Touches ci s s₁ := ⟨fun c hne => Function.update_of_ne hne .., rfl⟩
  split
  · obtain ⟨hd, -, hsolo⟩ := hf D b s₁ ci hk.sane (hk.length_le hn)
    refine ⟨hk.trans hd, fun hroom => ?_⟩
    have hself : s₁.clients ci = { s.clients ci with
        tx := t.left, wire := (s.clients ci).wire ++ t.taken } := Function.update_self ..
    have hlive : live s₁ ci := by
      rw [live, hself]
      exact hc
    rw [hsolo hlive (by rw [hself]; exact hroom)]
    exact ⟨fun c hne => (Function.update_of_ne hne ..).trans (hsame.others c hne), rfl⟩
  · exact ⟨hk, fun _ => hsame⟩

/-- Sending a frame that its recipient may be sent. -/
theorem Sound.send (hf : Sound cfg P drop n) (h : Sane cfg D b s) (hn : s.connected.length ≤ n)
    (ci : ℕ) {f : List ℕ} (hP : P f) (hq : b → live s ci → Allows (s.clients ci) f) :
    Kept cfg D b P s (send drop s ci f) ∧
      ((s.clients ci).room = none → Touches ci s (send drop s ci f)) := by
  simp only [Model.RelayServer.send]
  split
  · exact ⟨Kept.refl h, fun _ => ⟨fun _ _ => rfl, rfl⟩⟩
  rename_i hd
  have hc : live s ci := Bool.eq_false_of_not_eq_true hd
  split
  · obtain ⟨hk, -, hsolo⟩ := hf D b s ci h hn
    refine ⟨hk, fun hroom => ?_⟩
    rw [hsolo hc hroom]
    exact ⟨fun c hne => Function.update_of_ne hne .., rfl⟩
  · have hk := kept_queue h hc hP fun hb => hq hb hc
    set s₁ := s.modify ci fun c => { c with tx := c.tx ++ f, queued := c.queued ++ [f] }
    have hself : s₁.clients ci = { s.clients ci with
      tx := (s.clients ci).tx ++ f, queued := (s.clients ci).queued ++ [f] } := modify_self ..
    obtain ⟨hk', hsolo⟩ := hf.flush hk.sane (hk.length_le hn) (show live s₁ ci by
      rw [live, hself]
      exact hc)
    refine ⟨hk.trans hk', fun hroom => ?_⟩
    obtain ⟨h1, h2⟩ := hsolo (by rw [hself]; exact hroom)
    exact ⟨fun c hne => (h1 c hne).trans (modify_of_ne s _ hne), h2⟩

/-- Sending a frame to clients that are in no room. -/
theorem Sound.send_home (hf : Sound cfg P drop n) {f : List ℕ} (hP : P f) (ms : List ℕ)
    (hnd : ms.Nodup) (h : Sane cfg D b s) (hn : s.connected.length ≤ n)
    (hhome : ∀ m ∈ ms, (s.clients m).room = none)
    (hq : b → ∀ m ∈ ms, live s m → Allows (s.clients m) f) :
    Kept cfg D b P s (ms.foldl (fun s m => Model.RelayServer.send drop s m f) s) := by
  induction ms generalizing s with
  | nil => exact Kept.refl h
  | cons m ms ih =>
    rw [List.nodup_cons] at hnd
    obtain ⟨hk, hsolo⟩ := hf.send h hn m hP fun hb => hq hb m List.mem_cons_self
    obtain ⟨hothers, -⟩ := hsolo (hhome m List.mem_cons_self)
    have hsame : ∀ x ∈ ms, (Model.RelayServer.send drop s m f).clients x = s.clients x :=
      fun x hx => hothers x fun heq => hnd.1 (heq ▸ hx)
    refine hk.trans (ih hnd.2 hk.sane (hk.length_le hn) (fun x hx => ?_) fun hb x hx hl => ?_)
    · rw [hsame x hx]
      exact hhome x (List.mem_cons_of_mem m hx)
    · rw [live, hsame x hx] at hl
      rw [hsame x hx]
      exact hq hb x (List.mem_cons_of_mem m hx) hl

/-- A loop over the members of a room, while something stays true. -/
theorem kept_eachMember {J : Server → Prop} {g : Server → ℕ → ℕ → Server}
    (hg : ∀ s i m, Sane cfg D b s → s.connected.length ≤ n → J s → m ∈ (s.rooms ri).members →
      Kept cfg D b P s (g s i m)) (hJ : ∀ s s', J s → Shrinks P s s' → J s') (fuel i : ℕ)
    (h : Sane cfg D b s) (hn : s.connected.length ≤ n) (hj : J s) :
    Kept cfg D b P s (eachMember g ri fuel i s) := by
  induction fuel generalizing i s with
  | zero => exact Kept.refl h
  | succ fuel ih =>
    simp only [eachMember]
    split
    · exact Kept.refl h
    · rename_i m hm
      have hk := hg s i m h hn hj (List.mem_of_getElem? hm)
      exact hk.trans (ih (i + 1) hk.sane (hk.length_le hn) (hJ _ _ hj hk.shrinks))

/-- Telling a room about itself keeps the server sane. -/
theorem Sound.room_broadcast (hP : Tells P) (hf : Sound cfg P drop n) (h : Sane cfg D b s)
    (hn : s.connected.length ≤ n) (hD : ri ∉ D) :
    Kept cfg D b P s (room_broadcast drop s ri) := by
  have hfits := (h.fits ri hD).trans cfg.le_roster
  simp only [Model.RelayServer.room_broadcast]
  refine kept_eachMember (J := fun _ => True) (fun s i m h hn _ _ => ?_) (fun _ _ _ _ => trivial)
    _ _ h hn trivial
  refine (hf.send h hn m (hP.room (_ :: _) ?_ hfits) fun _ _ => (quiet_room _).allows _).1
  rw [List.length_cons, roomRoster, length_roster]

theorem Sound.dissolve (hP : Tells P) (hf : Sound cfg P drop n) (h : Sane cfg D b s)
    (hn : s.connected.length ≤ n) (hD : ri ∉ D) {notify : List ℕ} (hnd : notify.Nodup)
    (hin : ∀ m ∈ notify, m ∈ (s.rooms ri).members) :
    Kept cfg D b P s (dissolve drop s ri notify) := by
  obtain ⟨hk, hhome⟩ := kept_unseat (P := P) h hD
  have hsent := hf.send_home (hP.room (0 :: List.replicate 32 0) rfl (Nat.zero_le _)) notify hnd hk.sane
    (hk.length_le hn) (fun m hm => hhome m (hin m hm)) fun _ _ _ _ => (quiet_room _).allows _
  exact (hk.trans hsent).trans (kept_clear hsent.sane)

/-- What becomes of a room that a client has left.  The survivors of a match know that it
is on when they are told that it is over. -/
theorem Sound.leave (hP : Tells P) (hf : Sound cfg P drop n) (h : Sane cfg D b s)
    (hn : s.connected.length ≤ n) (hD : ri ∉ D) (ci seat : ℕ) :
    Kept cfg D b P s (leave drop s ri ci seat) := by
  have hnd := h.distinct ri hD
  simp only [Model.RelayServer.leave]
  split
  · rename_i hst
    obtain ⟨hk, hhome⟩ := kept_unseat (P := P) h hD
    have hk' := hk.trans (kept_clear (P := P) hk.sane)
    have hcl := unseat_clients (s.rooms ri).members s
    refine hk'.trans (hf.send_home (hP.left _ ?_) _ hnd hk'.sane (hk'.length_le hn) hhome ?_)
    · rw [List.length_cons, length_pad_name]
    · intro hb m hm hl
      have hself : (unseat s (s.rooms ri).members).clients m =
          { s.clients m with room := none } := by rw [hcl m, if_pos hm]
      have hl' : live s m := by
        change live (unseat s (s.rooms ri).members) m at hl
        rw [live, hself] at hl
        exact hl
      change Allows ((unseat s (s.rooms ri).members).clients m) _
      rw [hself]
      exact ⟨fun _ => (h.brackets hb).playing m ri hl' (h.member ri hD m hm) hst, fun _ => rfl⟩
  · have hall := hf.dissolve hP h hn hD hnd fun _ hm => hm
    split
    · exact hall
    · split
      · exact hall
      · exact hf.room_broadcast hP h hn hD

/-- What `drop` does, with a `drop` for one client fewer. -/
theorem Sound.dropBody (hP : Tells P) (hf : Sound cfg P drop n) :
    Sound cfg P (dropBody drop) (n + 1) := by
  intro D b s ci h hn
  simp only [Model.RelayServer.dropBody]
  split
  · rename_i hd
    refine ⟨Kept.refl h, hd, fun hl => ?_⟩
    exact absurd hl (not_live_iff.mpr hd)
  rename_i hd
  have hc : live s ci := Bool.eq_false_of_not_eq_true hd
  have hdead : ∀ s : Server, ((forget s ci).clients ci).dead = true := fun s =>
    not_live_iff.mp fun hl => (live_forget.mp hl).1 rfl
  split
  · rename_i hroom
    exact ⟨kept_forget h hc hroom, hdead s, fun _ _ => rfl⟩
  · rename_i ri hroom
    obtain ⟨hD, -⟩ := h.seated ci ri hroom
    obtain ⟨hk, hlen, hv⟩ := kept_go (P := P) h hc hroom
    have hkl := hf.leave hP hk.sane (by omega) hD ci ((s.rooms ri).members.idxOf ci)
    refine ⟨hk.trans hkl, hkl.shrinks.dead hv, fun _ hnone => ?_⟩
    rw [hroom] at hnone
    cases hnone

/-- `drop` may be nested as often as there are clients connected. -/
theorem sound_dropFuel (hP : Tells P) (n : ℕ) : Sound cfg P (dropFuel n) n := by
  induction n with
  | zero =>
    intro D b s ci h hn
    have hnil := List.length_eq_zero_iff.mp (Nat.le_zero.mp hn)
    have hd : ¬ live s ci := fun hl => by
      have hmem := (h.connected ci).mpr hl
      rw [hnil] at hmem
      exact absurd hmem List.not_mem_nil
    exact ⟨Kept.refl h, not_live_iff.mp hd, fun hl => absurd hl hd⟩
  | succ n ih => exact ih.dropBody hP

/-- `drop` itself may be relied on. -/
theorem sound_drop (hP : Tells P) (n : ℕ) : Sound cfg P Model.RelayServer.drop n :=
  fun D b s ci h _ => sound_dropFuel hP (s.connected.length + 1) D b s ci h (Nat.le_succ _)

end Sending

end BoxingNetplay.Interface.RelayServer
