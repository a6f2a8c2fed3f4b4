import BoxingNetplay.Library.Dict
import BoxingNetplay.Interface.ServerTables

/-!
# Handling a frame in the Python relay

What every event keeps: the objects refer to each other as they should, and every frame queued is of
a given kind.  On two conditions it keeps more: the names are those of live clients, unless a
client is dropped while it takes the name of its room mate; and nobody is told of the end of a match
without its start, unless a START fails that is not the last.
-/

set_option autoImplicit false

namespace BoxingNetplay.Interface.RelayServer

open BoxingNetplay.Library
open BoxingNetplay.Model.Wire
open BoxingNetplay.Model.RelayServer

/-! ### What is kept -/

/-- Every name is that of a live client that has it, and the members of the rooms are live. -/
structure Listed (s : Server) : Prop where
  listed : ∀ e ∈ s.by_name, live s e.2 ∧ (s.clients e.2).name = some e.1
  keys : (s.by_name.map Prod.fst).Nodup
  present : ∀ r, ∀ c ∈ (s.rooms r).members, live s c

/-- A kind of frames that has all those the relay makes itself. -/
structure Says (P : List ℕ → Prop) : Prop extends Tells P where
  lobby : ∀ n entries, n ≤ LOBBY_ENTRIES → entries.length = 9 * n →
    P (frame T_LOBBY (n :: entries))
  pong : P (frame T_PONG [])
  start : ∀ payload, payload.length = 37 → payload.getD 1 0 ≤ ROSTER_SLOTS →
    P (frame T_START payload)

/-- What holds between events: the names where `a` asks for them, the matches where `b` does. -/
structure Good (cfg : Config) (a b : Prop) (P : List ℕ → Prop) (s : Server) : Prop extends
    Sane cfg ∅ b s where
  listed : a → Listed s
  said : ∀ c, ∀ f ∈ (s.clients c).queued, P f

/-- Serving a client keeps it, drops clients, and reads nothing. -/
structure Serves (cfg : Config) (a b : Prop) (P : List ℕ → Prop) (s s' : Server) : Prop where
  good : Good cfg a b P s'
  stays : ∀ c, live s' c → live s c
  same : ∀ c, (s'.clients c).rx = (s.clients c).rx ∧
    (s'.clients c).received = (s.clients c).received

section Kept

variable {cfg : Config} {a b : Prop} {P : List ℕ → Prop} {s s' s'' : Server} {ci ri : ℕ}

theorem Serves.refl (h : Good cfg a b P s) : Serves cfg a b P s s :=
  ⟨h, fun _ => id, fun _ => ⟨rfl, rfl⟩⟩

theorem Serves.trans (h : Serves cfg a b P s s') (h' : Serves cfg a b P s' s'') :
    Serves cfg a b P s s'' :=
  ⟨h'.good, fun c hc => h.stays c (h'.stays c hc), fun c =>
    ⟨(h'.same c).1.trans (h.same c).1, (h'.same c).2.trans (h.same c).2⟩⟩

/-- The names that are left are those of the clients that are left. -/
theorem Listed.kept (h : Listed s) (hk : Kept cfg ∅ b P s s') : Listed s' where
  listed e he := by
    obtain ⟨h1, h2⟩ := h.listed e (hk.shrinks.names.subset he)
    exact ⟨hk.shrinks.gone e he h1, (hk.shrinks.same e.2).1.trans h2⟩
  keys := h.keys.sublist (hk.shrinks.names.map Prod.fst)
  present r c hm := by
    have hl := h.present r c ((hk.shrinks.rooms r).2.subset hm)
    by_contra hn
    have hr := hk.sane.member r (Set.notMem_empty r) c hm
    rw [hk.shrinks.homed c hl hn] at hr
    cases hr

/-- Whatever only sends serves. -/
theorem Kept.serves (h : Good cfg a b P s) (hk : Kept cfg ∅ b P s s') : Serves cfg a b P s s' where
  good :=
    { hk.sane with
      listed := fun ha => (h.listed ha).kept hk
      said := fun c f hf => by
        obtain ⟨l, hl, hP⟩ := hk.shrinks.grows c
        rw [hl] at hf
        exact (List.mem_append.mp hf).elim (h.said c f) (hP f) }
  stays := hk.shrinks.stays
  same c := (hk.shrinks.same c).2

/-- Dropping a client. -/
theorem serves_drop (hP : Tells P) (h : Good cfg a b P s) (ci : ℕ) :
    Serves cfg a b P s (drop s ci) ∧ ((drop s ci).clients ci).dead = true := by
  obtain ⟨hk, hd, -⟩ := sound_drop hP s.connected.length ∅ b s ci h.toSane (Nat.le_refl _)
  exact ⟨hk.serves h, hd⟩

/-- Sending a frame that is of no match. -/
theorem serves_send (hP : Tells P) (h : Good cfg a b P s) (ci : ℕ) {f : List ℕ} (hf : P f)
    (hq : Quiet f) : Serves cfg a b P s (send drop s ci f) :=
  ((sound_drop hP s.connected.length).send h.toSane (Nat.le_refl _) ci hf fun _ _ =>
    hq.allows _).1.serves h

/-- Entries of nine bytes each make nine times as many. -/
theorem length_entries (l : List ℕ) (f : ℕ → List ℕ) (hf : ∀ c, (f c).length = 9) :
    ((l.map f).flatten).length = 9 * l.length := by
  induction l with
  | nil => rfl
  | cons c l ih =>
    rw [List.map_cons, List.flatten_cons, List.length_append, hf, ih, List.length_cons]
    omega

/-- A frame that is neither passed on nor a PEER_LEFT is of no match. -/
theorem quiet_frame {ftype : ℕ} (payload : List ℕ) (h1 : ftype ≠ T_PEER_LEFT)
    (h2 : relayed ftype = false) : Quiet (frame ftype payload) := by
  rintro (h | h)
  · exact h1 h
  · rw [show relayed (typeOf (frame ftype payload)) = relayed ftype from rfl, h2] at h
    cases h

/-- The lobby. -/
theorem serves_on_list (hP : Says P) (h : Good cfg a b P s) (ci : ℕ) :
    Serves cfg a b P s (on_list cfg s ci) := by
  refine serves_send hP.toTells h ci (hP.lobby _ _ (List.length_take_le _ _) ?_)
    (quiet_frame _ (by decide) rfl)
  refine length_entries _ _ fun c => ?_
  rw [List.length_append, length_pad_name, List.length_singleton]

/-! ### Names -/

/-- A change of one client's name and of the dictionary. -/
theorem Good.rename (h : Good cfg a b P s) (hc : ci < s.next_client) (name : Option (List ℕ))
    (names : List (List ℕ × ℕ))
    (hlist : a → live s ci ∧ (∀ e ∈ names, e.2 = ci ∧ name = some e.1 ∨ e.2 ≠ ci ∧ e ∈ s.by_name) ∧
      (names.map Prod.fst).Nodup) :
    Serves cfg a b P s { s.modify ci (fun c => { c with name := name }) with
      by_name := names } := by
  set s' : Server := { s.modify ci (fun c => { c with name := name }) with by_name := names }
  have ht := h.modify hc (fun c => { c with name := name }) (fun _ => ⟨rfl, rfl⟩) (h.sent ci)
  have hsame : ∀ c, (s'.clients c).dead = (s.clients c).dead ∧
      (s'.clients c).room = (s.clients c).room ∧ (s'.clients c).queued = (s.clients c).queued ∧
      (s'.clients c).rx = (s.clients c).rx ∧
      (s'.clients c).received = (s.clients c).received ∧
      (s'.clients c).name = if c = ci then name else (s.clients c).name := fun c => by
    by_cases heq : c = ci
    · subst heq
      rw [if_pos rfl, show s'.clients c = { s.clients c with name := name } from
        Function.update_self ..]
      exact ⟨rfl, rfl, rfl, rfl, rfl, rfl⟩
    · rw [if_neg heq, show s'.clients c = s.clients c from Function.update_of_ne heq ..]
      exact ⟨rfl, rfl, rfl, rfl, rfl, rfl⟩
  have hlive : ∀ c, live s' c ↔ live s c := fun c => by rw [live, live, (hsame c).1]
  refine ⟨⟨⟨{ ht with }, fun hb => ⟨fun c => ?_, fun c r hl hr hst => ?_⟩⟩, fun ha => ?_,
    fun c f hf => ?_⟩, fun c => (hlive c).mp, fun c => ⟨(hsame c).2.2.2.1, (hsame c).2.2.2.2.1⟩⟩
  · rw [(hsame c).2.2.1]
    exact (h.brackets hb).bracketed c
  · rw [(hsame c).2.2.1]
    exact (h.brackets hb).playing c r ((hlive c).mp hl) ((hsame c).2.1 ▸ hr) hst
  · obtain ⟨hl, h1, h2⟩ := hlist ha
    refine ⟨fun e he => ?_, h2, fun r c hm => (hlive c).mpr ((h.listed ha).present r c hm)⟩
    rw [hlive, (hsame e.2).2.2.2.2.2]
    rcases h1 e he with ⟨heq, hname⟩ | ⟨hne, hold⟩
    · rw [heq, if_pos rfl]
      exact ⟨hl, hname⟩
    · rw [if_neg hne]
      exact (h.listed ha).listed e hold
  · rw [(hsame c).2.2.1] at hf
    exact h.said c f hf

/-- Setting a name is setting it in the dictionary. -/
theorem by_name_set_eq (s : Server) (name : List ℕ) (ci : ℕ) :
    by_name_set s name ci = { s with by_name := Dict.set s.by_name name ci } := by
  have hget : by_name_get s name = Dict.get s.by_name name := rfl
  rw [by_name_set, Dict.set, hget]
  split
  · rfl
  · rfl

/-- The server without the name a client had, unless it is the new one or not its own. -/
def unnamed (s : Server) (ci : ℕ) (name : List ℕ) : Server :=
  match (s.clients ci).name with
  | none => s
  | some n => if n ≠ name ∧ by_name_get s n = some ci then by_name_del s n else s

/-- A client that takes a name loses its old one, gets the new one and is sent the list. -/
theorem rename_eq (cfg : Config) (s : Server) (ci : ℕ) (name : List ℕ) :
    rename cfg s ci name = on_list cfg (by_name_set ((unnamed s ci name).modify ci fun c =>
      { c with name := some name }) name ci) ci := rfl

/-- A client takes a name, whoever has it; the names stay those of live clients if it is live. -/
theorem serves_rename (hP : Says P) (h : Good cfg a b P s) (hc : ci < s.next_client)
    (hl : a → live s ci) (name : List ℕ) :
    Serves cfg a b P s (rename cfg s ci name) := by
  obtain ⟨names, hnames, hdel⟩ : ∃ names, unnamed s ci name = { s with by_name := names } ∧
      (a → names.Sublist s.by_name ∧ ∀ e ∈ names, e.2 = ci → e.1 = name) := by
    rw [unnamed]
    split
    · rename_i hnone
      refine ⟨s.by_name, rfl, fun ha => ⟨List.Sublist.refl _, fun e he heq => ?_⟩⟩
      have hown := ((h.listed ha).listed e he).2
      rw [heq, hnone] at hown
      cases hown
    · rename_i n hn
      split
      · refine ⟨Dict.del s.by_name n, rfl, fun ha => ⟨Dict.del_sublist .., fun e he heq => ?_⟩⟩
        obtain ⟨h1, h2⟩ := (Dict.mem_del (h.listed ha).keys n e).mp he
        have hown := ((h.listed ha).listed e h1).2
        rw [heq, hn] at hown
        exact absurd (Option.some.inj hown).symm h2
      · rename_i hno
        refine ⟨s.by_name, rfl, fun ha => ⟨List.Sublist.refl _, fun e he heq => ?_⟩⟩
        have hown := ((h.listed ha).listed e he).2
        rw [heq, hn] at hown
        have hkey := Option.some.inj hown
        by_contra hne
        refine hno ⟨fun h => hne (hkey.symm.trans h), Dict.get_eq (h.listed ha).keys ?_⟩
        rw [hkey, ← heq]
        exact he
  have hs := h.rename hc (some name) (Dict.set names name ci) fun ha => by
    obtain ⟨hsub, hown⟩ := hdel ha
    refine ⟨hl ha, fun e he => ?_, Dict.nodup_set ((h.listed ha).keys.sublist (hsub.map _)) name ci⟩
    rcases Dict.mem_set he with rfl | ⟨h1, h2⟩
    · exact Or.inl ⟨rfl, rfl⟩
    · exact Or.inr ⟨fun heq => h2 (hown e h1 heq), hsub.subset h1⟩
  rw [rename_eq, hnames, by_name_set_eq]
  exact hs.trans (serves_on_list hP hs.good ci)

/-! ### Sends that fail -/

/-- Sending a frame to a client that is up would end its connection: there is no space for it, or
the kernel reports an error. -/
def Stricken (s : Server) (ci : ℕ) (f : List ℕ) : Prop :=
  live s ci ∧ ((s.clients ci).tx.length + f.length > MAX_TX_BACKLOG ∨
    (transmit s.kernel ((s.clients ci).tx ++ f)).failed = true)

instance (s : Server) (ci : ℕ) (f : List ℕ) : Decidable (Stricken s ci f) :=
  inferInstanceAs (Decidable (_ ∧ _))

/-- Otherwise the frame is queued and handed to the kernel. -/
theorem send_eq (drop : Server → ℕ → Server) (hc : live s ci) {f : List ℕ}
    (hn : ¬ Stricken s ci f) :
    ∃ t : Transmit, send drop s ci f = { s.modify ci (fun c =>
      { c with tx := t.left, wire := c.wire ++ t.taken, queued := c.queued ++ [f] }) with
      kernel := t.rest } := by
  rw [Stricken, not_and, not_or, Bool.not_eq_true] at hn
  obtain ⟨h1, h2⟩ := hn hc
  have hd : ¬ (s.clients ci).dead = true := fun hd => not_live_iff.mpr hd hc
  refine ⟨transmit s.kernel ((s.clients ci).tx ++ f), ?_⟩
  simp only [send, if_neg hd, if_neg h1, flush, Server.modify, Function.update_self, h2,
    Bool.false_eq_true, if_false, Function.update_idem]

theorem stricken_congr {s' : Server} (h : (s'.clients ci).dead = (s.clients ci).dead ∧
    (s'.clients ci).tx = (s.clients ci).tx ∧ s'.kernel = s.kernel) (f : List ℕ) :
    Stricken s' ci f ↔ Stricken s ci f := by
  rw [Stricken, Stricken, live, live, h.1, h.2.1, h.2.2]

/-- A send to a client in no room spares another one, and itself if it does not fail. -/
theorem live_send_home {D : Set ℕ} {drop : Server → ℕ → Server} {n x : ℕ} {f : List ℕ}
    (hf : Sound cfg P drop n) (h : Sane cfg D False s) (hn : s.connected.length ≤ n) (hP : P f)
    (hx : (s.clients x).room = none) (hc : live s ci) (hs : x = ci → ¬ Stricken s ci f) :
    live (send drop s x f) ci := by
  by_cases heq : x = ci
  · subst heq
    obtain ⟨t, ht⟩ := send_eq drop hc (hs rfl)
    rw [ht, live]
    simp only [Server.modify, Function.update_self]
    exact hc
  · obtain ⟨-, htouch⟩ := hf.send h hn x hP False.elim
    rw [live, (htouch hx).others ci (Ne.symm heq)]
    exact hc

/-- What a client is sent when its room mate goes: the match is over, or the room is dissolved. -/
def farewell (s : Server) (ri old : ℕ) : List ℕ :=
  if (s.rooms ri).started then
    frame T_PEER_LEFT ((s.rooms ri).members.idxOf old ::
      pad_name ((s.clients old).name.getD []))
  else frame T_ROOM (0 :: List.replicate 32 0)

/-- Dropping a client spares another one, unless that is its room mate and cannot be told. -/
theorem live_drop_other (hP : Tells P) (h : Sane cfg ∅ b s) (htwo : cfg.max_seats = 2) {old : ℕ}
    (hc : live s ci) (hne : old ≠ ci)
    (hsafe : ∀ ri, (s.clients old).room = some ri → (s.clients ci).room = some ri →
      ¬ Stricken s ci (farewell s ri old)) : live (drop s old) ci := by
  by_cases hold : live s old
  swap
  · have heq : drop s old = s := by
      rw [drop, dropFuel, dropBody, if_pos (not_live_iff.mp hold)]
    rw [heq]
    exact hc
  cases hroom : (s.clients old).room with
  | none =>
    obtain ⟨-, -, hsolo⟩ := sound_drop hP s.connected.length ∅ b s old h (Nat.le_refl _)
    rw [hsolo hold hroom]
    exact live_forget.mpr ⟨hne.symm, hc⟩
  | some ri =>
    have hd : ¬ (s.clients old).dead = true := fun hd => not_live_iff.mpr hd hold
    have hbody : drop s old = leave (dropFuel s.connected.length)
        (vacate (forget s old) ri old) ri old ((s.rooms ri).members.idxOf old) := by
      rw [drop, dropFuel, dropBody, if_neg hd, hroom]
    obtain ⟨hk, hlen, -⟩ := kept_go (P := P) h hold hroom
    have hf : Sound cfg P (dropFuel s.connected.length) s.connected.length :=
      sound_dropFuel hP s.connected.length
    have hname : ((vacate (forget s old) ri old).clients old).name = (s.clients old).name := by
      simp only [vacate, forget, Server.modify, Server.modifyRoom, Function.update_self]
    have hself : (vacate (forget s old) ri old).clients ci = s.clients ci := by
      simp only [vacate, forget, Server.modify, Server.modifyRoom,
        Function.update_of_ne (Ne.symm hne)]
    have hrooms : (vacate (forget s old) ri old).rooms ri =
        { s.rooms ri with members := (s.rooms ri).members.erase old } := modifyRoom_self ..
    have hkernel : (vacate (forget s old) ri old).kernel = s.kernel := rfl
    have hin := (h.seated old ri hroom).2
    have hone : ((s.rooms ri).members.erase old).length ≤ 1 := by
      have hfits := h.fits ri (Set.notMem_empty ri)
      rw [List.length_erase_of_mem hin]
      omega
    set s₁ := vacate (forget s old) ri old
    have hbye : ∀ x, (s.rooms ri).members.erase old = [x] → x = ci →
        ¬ Stricken s ci (farewell s ri old) := fun x hx hxc => by
      refine hsafe ri hroom (h.member ri (Set.notMem_empty ri) ci ?_)
      refine (List.erase_sublist ..).subset (?_ : ci ∈ (s.rooms ri).members.erase old)
      rw [hx, hxc]
      exact List.mem_singleton_self ci
    rw [hbody]
    have hsane : Sane cfg ∅ False s₁ := ⟨hk.sane.toTables, False.elim⟩
    have hin : ri ∉ (∅ : Set ℕ) := Set.notMem_empty ri
    obtain ⟨hun, hhome⟩ := kept_unseat (P := P) hsane hin
    have hcl := unseat_clients (s₁.rooms ri).members s₁ ci
    set s₂ := unseat s₁ (s₁.rooms ri).members with hs₂
    have hsame : (s₂.clients ci).dead = (s.clients ci).dead ∧
        (s₂.clients ci).tx = (s.clients ci).tx ∧ s₂.kernel = s.kernel := by
      refine ⟨?_, ?_, unseat_kernel _ s₁⟩
      · rw [hcl, hself]
        split <;> rfl
      · rw [hcl, hself]
        split <;> rfl
    have hlen₂ : s₂.connected.length ≤ s.connected.length :=
      Nat.le_trans hun.shrinks.connected (by omega)
    have hc₂ : live s₂ ci := hsame.1.trans hc
    have hmem : (s₁.rooms ri).members = (s.rooms ri).members.erase old := by rw [hrooms]
    simp only [leave]
    split
    · rename_i hst
      rw [hrooms] at hst
      have hdis : dissolve (dropFuel s.connected.length) s₁ ri [] =
          s₂.modifyRoom ri fun r => { r with members := [] } := rfl
      have hclear := hun.trans (kept_clear (P := P) hun.sane)
      rw [hdis]
      rcases hms : (s₁.rooms ri).members with - | ⟨x, - | ⟨y, l⟩⟩
      · exact hc₂
      · refine live_send_home hf hclear.sane hlen₂ (hP.left _ ?_) (hhome x ?_) hc₂ fun hx => ?_
        · rw [List.length_cons, length_pad_name]
        · rw [hms]
          exact List.mem_singleton_self x
        · have hb := hbye x (hmem.symm.trans hms) hx
          rw [farewell, if_pos hst, ← hname] at hb
          exact (stricken_congr hsame _).not.mpr hb
      · rw [← hmem, hms, List.length_cons, List.length_cons] at hone
        omega
    · rename_i hst
      rw [hrooms] at hst
      have hdis : live (dissolve (dropFuel s.connected.length) s₁ ri (s₁.rooms ri).members) ci := by
        change live ((s₁.rooms ri).members.foldl (fun s m => send (dropFuel _) s m
          (frame T_ROOM (0 :: List.replicate 32 0))) s₂) ci
        rcases hms : (s₁.rooms ri).members with - | ⟨x, - | ⟨y, l⟩⟩
        · exact hc₂
        · refine live_send_home hf hun.sane hlen₂ (hP.room _ rfl (Nat.zero_le _)) (hhome x ?_) hc₂ fun hx => ?_
          · rw [hms]
            exact List.mem_singleton_self x
          · have hb := hbye x (hmem.symm.trans hms) hx
            rw [farewell, if_neg hst] at hb
            exact (stricken_congr hsame _).not.mpr hb
        · rw [← hmem, hms, List.length_cons, List.length_cons] at hone
          omega
      split
      · exact hdis
      · split
        · exact hdis
        · rename_i hlt
          rw [hmem] at hlt
          omega

/-! ### HELLO -/

/-- A HELLO does not take the name of the client's room mate while the client cannot be told that
the mate has gone. -/
def HelloSafe (s : Server) (ci : ℕ) (payload : List ℕ) : Prop :=
  3 ≤ payload.length → payload.headD 0 = PROTO_VER →
    ∀ old ∈ by_name_get s (rstrip (decode payload.tail)), old ≠ ci →
      ∀ ri ∈ (s.clients old).room, (s.clients ci).room = some ri →
        ¬ Stricken s ci (farewell s ri old)

instance (s : Server) (ci : ℕ) (payload : List ℕ) : Decidable (HelloSafe s ci payload) :=
  inferInstanceAs (Decidable (_ → _ → ∀ old ∈ by_name_get s _, _ → ∀ ri ∈ _, _ → ¬ _))

/-- A HELLO that is safe leaves the server in order. -/
theorem serves_on_hello (hP : Says P) (h : Good cfg a b P s) (hc : live s ci)
    (payload : List ℕ) (hsafe : a → cfg.max_seats = 2 ∧ HelloSafe s ci payload) :
    Serves cfg a b P s (on_hello cfg s ci payload) := by
  have hdrop := (serves_drop hP.toTells h ci).1
  have hown := serves_rename hP h (h.made hc) (fun _ => hc)
  simp only [on_hello]
  split
  · exact hdrop
  rename_i hlen
  split
  · exact hdrop
  rename_i hver
  split
  · exact hdrop
  split
  · rename_i old hold
    split
    · rename_i hne
      obtain ⟨hk, -, -⟩ := sound_drop hP.toTells s.connected.length ∅ b s old h.toSane (Nat.le_refl _)
      refine (hk.serves h).trans (serves_rename hP (hk.serves h).good ?_ (fun ha => ?_) _)
      · rw [hk.shrinks.next.1]
        exact h.made hc
      · obtain ⟨htwo, hs⟩ := hsafe ha
        exact live_drop_other hP.toTells h.toSane htwo hc hne fun ri =>
          hs (Nat.not_lt.mp hlen) (not_not.mp hver) old hold hne ri
    · exact hown _
  · exact hown _

/-! ### Rooms -/

/-- A client takes the last seat of a room. -/
def enter (s : Server) (ri ci : ℕ) : Server :=
  (s.modifyRoom ri fun r => { r with members := r.members ++ [ci] }).modify ci
    fun c => { c with room := some ri }

/-- A client in no room enters one that has not started and is not full. -/
theorem serves_enter (h : Good cfg a b P s) (hc : ci < s.next_client) (hl : a → live s ci)
    (hroom : (s.clients ci).room = none) (hri : ri < s.next_room)
    (hst : (s.rooms ri).started = false) (hlen : (s.rooms ri).members.length < cfg.max_seats) :
    Serves cfg a b P s (enter s ri ci) := by
  set s' := enter s ri ci with hs'
  have hsame : ∀ c, (s'.clients c).dead = (s.clients c).dead ∧
      (s'.clients c).name = (s.clients c).name ∧ (s'.clients c).queued = (s.clients c).queued ∧
      (s'.clients c).wire = (s.clients c).wire ∧ (s'.clients c).tx = (s.clients c).tx ∧
      (s'.clients c).rx = (s.clients c).rx ∧ (s'.clients c).received = (s.clients c).received ∧
      (s'.clients c).room = if c = ci then some ri else (s.clients c).room := fun c => by
    by_cases heq : c = ci
    · subst heq
      rw [if_pos rfl, show s'.clients c = { s.clients c with room := some ri } from
        Function.update_self ..]
      exact ⟨rfl, rfl, rfl, rfl, rfl, rfl, rfl, rfl⟩
    · rw [if_neg heq, show s'.clients c = s.clients c from Function.update_of_ne heq ..]
      exact ⟨rfl, rfl, rfl, rfl, rfl, rfl, rfl, rfl⟩
  have hrooms : ∀ r, (s'.rooms r).started = (s.rooms r).started ∧ (s'.rooms r).members =
      if r = ri then (s.rooms r).members ++ [ci] else (s.rooms r).members := fun r => by
    by_cases heq : r = ri
    · subst heq
      rw [if_pos rfl, show s'.rooms r = { s.rooms r with members := (s.rooms r).members ++ [ci] }
        from Function.update_self ..]
      exact ⟨rfl, rfl⟩
    · rw [if_neg heq, show s'.rooms r = s.rooms r from Function.update_of_ne heq ..]
      exact ⟨rfl, rfl⟩
  have hlive : ∀ c, live s' c ↔ live s c := fun c => by rw [live, live, (hsame c).1]
  have hmem : ∀ r c, c ∈ (s'.rooms r).members → c ∈ (s.rooms r).members ∨ r = ri ∧ c = ci := by
    intro r c hm
    rw [(hrooms r).2] at hm
    split at hm
    · rename_i heq
      exact (List.mem_append.mp hm).imp id fun h => ⟨heq, List.mem_singleton.mp h⟩
    · exact Or.inl hm
  have hout : ∀ r, ci ∉ (s.rooms r).members := fun r hm => by
    rw [h.member r (Set.notMem_empty r) ci hm] at hroom
    cases hroom
  refine ⟨⟨⟨?_, fun hb => ⟨fun c => ?_, fun c r hl hr hst' => ?_⟩⟩, fun ha => ?_, fun c f hf => ?_⟩,
    fun c => (hlive c).mp, fun c => ⟨(hsame c).2.2.2.2.2.1, (hsame c).2.2.2.2.2.2.1⟩⟩
  · exact
      { connected := fun c => (h.connected c).trans (hlive c).symm
        once := h.once
        unmade := fun c hle => by
          have hne : c ≠ ci := fun heq => Nat.not_lt.mpr hle (heq ▸ hc)
          rw [show s'.clients c = s.clients c from Function.update_of_ne hne ..]
          exact h.unmade c hle
        unopened := fun r hle => by
          have hne : r ≠ ri := fun heq => Nat.not_lt.mpr hle (heq ▸ hri)
          rw [(hrooms r).1, (hrooms r).2, if_neg hne]
          exact h.unopened r hle
        seated := fun c r hr => by
          refine ⟨Set.notMem_empty r, ?_⟩
          rw [(hsame c).2.2.2.2.2.2.2] at hr
          rw [(hrooms r).2]
          split at hr
          · rename_i heq
            rw [if_pos (Option.some.inj hr).symm, heq]
            exact List.mem_append_right _ (List.mem_singleton_self ci)
          · have hin := (h.seated c r hr).2
            split
            · exact List.mem_append_left _ hin
            · exact hin
        member := fun r _ c hm => by
          rw [(hsame c).2.2.2.2.2.2.2]
          rcases hmem r c hm with hm | ⟨rfl, rfl⟩
          · have hne : c ≠ ci := fun heq => hout r (heq ▸ hm)
            rw [if_neg hne]
            exact h.member r (Set.notMem_empty r) c hm
          · rw [if_pos rfl]
        distinct := fun r _ => by
          have hnd := h.distinct r (Set.notMem_empty r)
          rw [(hrooms r).2]
          split
          · refine List.nodup_append.mpr ⟨hnd, List.nodup_singleton ci, ?_⟩
            rintro x hx y hy rfl
            exact hout r (List.mem_singleton.mp hy ▸ hx)
          · exact hnd
        fits := fun r _ => by
          have hfits := h.fits r (Set.notMem_empty r)
          rw [(hrooms r).2]
          split
          · rename_i heq
            rw [heq, List.length_append, List.length_singleton]
            omega
          · exact hfits
        sent := fun c => by
          obtain ⟨-, -, h3, h4, h5, -⟩ := hsame c
          rw [h3, h4, h5]
          exact h.sent c }
  · rw [(hsame c).2.2.1]
    exact (h.brackets hb).bracketed c
  · rw [(hrooms r).1] at hst'
    rw [(hsame c).2.2.2.2.2.2.2] at hr
    rw [(hsame c).2.2.1]
    split at hr
    · rw [← Option.some.inj hr, hst] at hst'
      cases hst'
    · exact (h.brackets hb).playing c r ((hlive c).mp hl) hr hst'
  · have hls := h.listed ha
    refine ⟨fun e he => ?_, hls.keys, fun r c hm => (hlive c).mpr ?_⟩
    · rw [hlive, (hsame e.2).2.1]
      exact hls.listed e he
    · rcases hmem r c hm with hm | ⟨-, rfl⟩
      · exact hls.present r c hm
      · exact hl ha
  · rw [(hsame c).2.2.1] at hf
    exact h.said c f hf

/-- An empty room is made. -/
theorem serves_open (h : Good cfg a b P s) :
    Serves cfg a b P s { s.modifyRoom s.next_room (fun _ => ⟨[], false, 0⟩) with
      next_room := s.next_room + 1 } := by
  set s' : Server := { s.modifyRoom s.next_room (fun _ => ⟨[], false, 0⟩) with
    next_room := s.next_room + 1 }
  have hrooms : ∀ r, (s'.rooms r).started = (s.rooms r).started ∧
      (s'.rooms r).members = (s.rooms r).members := fun r => by
    by_cases heq : r = s.next_room
    · obtain ⟨h1, h2⟩ := h.unopened r (Nat.le_of_eq heq.symm)
      rw [h1, h2, show s'.rooms r = ⟨[], false, 0⟩ by
        rw [heq]
        exact Function.update_self ..]
      exact ⟨rfl, rfl⟩
    · rw [show s'.rooms r = s.rooms r from Function.update_of_ne heq ..]
      exact ⟨rfl, rfl⟩
  refine ⟨⟨⟨?_, fun hb => ⟨(h.brackets hb).bracketed, fun c r hl hr hst => ?_⟩⟩, fun ha => ?_,
    h.said⟩, fun _ => id, fun _ => ⟨rfl, rfl⟩⟩
  · exact
      { h.toTables with
        unopened := fun r hle => by
          rw [(hrooms r).1, (hrooms r).2]
          exact h.unopened r (Nat.le_of_succ_le hle)
        seated := fun c r hr => by
          rw [(hrooms r).2]
          exact h.seated c r hr
        member := fun r hD c hm => by
          rw [(hrooms r).2] at hm
          exact h.member r hD c hm
        distinct := fun r hD => by
          rw [(hrooms r).2]
          exact h.distinct r hD
        fits := fun r hD => by
          rw [(hrooms r).2]
          exact h.fits r hD }
  · rw [(hrooms r).1] at hst
    exact (h.brackets hb).playing c r hl hr hst
  · have hls := h.listed ha
    refine ⟨hls.listed, hls.keys, fun r c hm => ?_⟩
    rw [(hrooms r).2] at hm
    exact hls.present r c hm

/-- A room is made empty, with a fresh number, and then its host enters it. -/
theorem make_room_eq (s : Server) (target : ℕ) :
    make_room s target = enter { s.modifyRoom s.next_room (fun _ => ⟨[], false, 0⟩) with
      next_room := s.next_room + 1 } s.next_room target := by
  simp only [make_room, enter, Server.modify, Server.modifyRoom, Function.update_self,
    Function.update_idem, List.nil_append]

/-! ### The start of a match -/

/-- A room starts with no START failing that is not the last. -/
def StartSafe (cfg : Config) (s : Server) (ri : ℕ) : Prop :=
  cfg.delay ≤ 255 ∧ ((s.rooms ri).members.length = 2 → ∀ host ∈ (s.rooms ri).members.head?,
    ¬ Stricken (begin_room s ri) host (startFrame cfg (begin_room s ri) ri 0))

instance (cfg : Config) (s : Server) (ri : ℕ) : Decidable (StartSafe cfg s ri) :=
  inferInstanceAs (Decidable (_ ∧ (_ → ∀ host ∈ (s.rooms ri).members.head?, ¬ _)))

/-- The matches are in order, but some clients may not know that theirs has started. -/
structure BracketsBut (ms : List ℕ) (s : Server) : Prop where
  bracketed : ∀ c, Bracketed (s.clients c).queued
  playing : ∀ c, c ∉ ms → ∀ r, live s c → (s.clients c).room = some r →
    (s.rooms r).started = true → InMatch (s.clients c).queued

/-- A START is of no match itself. -/
theorem quiet_start {f : List ℕ} (hf : typeOf f = T_START) : Quiet f := by
  rintro (h | h)
  · rw [hf] at h
    cases h
  · rw [hf] at h
    cases h

/-- The payload of a START has 37 bytes. -/
theorem length_start (cfg : Config) (s : Server) (ri seat : ℕ) :
    (seat :: ([(s.rooms ri).members.length, (s.rooms ri).seed % 256, (s.rooms ri).seed / 256,
      cfg.delay] ++ roomRoster s ri)).length = 37 := by
  rw [List.length_cons, List.length_append, roomRoster, length_roster]
  rfl

/-- The beginning of a match changes no members. -/
theorem begin_members (s : Server) (ri r : ℕ) :
    ((begin_room s ri).rooms r).members = (s.rooms r).members := by
  by_cases heq : r = ri
  · subst heq
    rw [begin_room, modifyRoom_self]
  · rw [begin_room, modifyRoom_of_ne _ _ heq]

/-- A START counts at most four seats. -/
theorem start_count (ht : Tables cfg ∅ s) (ri seat : ℕ) :
    (seat :: ([((begin_room s ri).rooms ri).members.length,
      ((begin_room s ri).rooms ri).seed % 256, ((begin_room s ri).rooms ri).seed / 256,
      cfg.delay] ++ roomRoster (begin_room s ri) ri)).getD 1 0 ≤ ROSTER_SLOTS := by
  change ((begin_room s ri).rooms ri).members.length ≤ ROSTER_SLOTS
  rw [begin_members]
  exact (ht.fits ri (Set.notMem_empty ri)).trans cfg.le_roster

/-- Marking a room that has members leaves the tables alone. -/
theorem begin_sane (ht : Tables cfg ∅ s) (ri : ℕ) (hri : (s.rooms ri).members ≠ []) :
    Sane cfg ∅ False (begin_room s ri) where
  toTables :=
    { ht with
      unopened := fun r hle => by
        obtain ⟨h1, h2⟩ := ht.unopened r hle
        have hne : r ≠ ri := fun heq => hri (heq ▸ h1)
        rw [begin_room, modifyRoom_of_ne _ _ hne]
        exact ⟨h1, h2⟩
      seated := fun c r hr => by
        rw [begin_members]
        exact ht.seated c r hr
      member := fun r hD c hm => by
        rw [begin_members] at hm
        exact ht.member r hD c hm
      distinct := fun r hD => by
        rw [begin_members]
        exact ht.distinct r hD
      fits := fun r hD => by
        rw [begin_members]
        exact ht.fits r hD }
  brackets := nofun

/-- The last START may fail: its client goes without having been told. -/
theorem brackets_last (hP : Tells P) (h : Sane cfg ∅ False s) {m : ℕ} (hb : BracketsBut [m] s)
    {f : List ℕ} (hf : typeOf f = T_START) (hPf : P f) : Brackets (send drop s m f) := by
  have hother : ∀ c, c ≠ m → c ∉ [m] := fun c hne hmem => hne (List.mem_singleton.mp hmem)
  simp only [send]
  split
  · rename_i hd
    refine ⟨hb.bracketed, fun c r hl hr hst => hb.playing c (hother c fun heq => ?_) r hl hr hst⟩
    rw [heq] at hl
    exact not_live_iff.mpr hd hl
  rename_i hd
  have hc : live s m := Bool.eq_false_of_not_eq_true hd
  split
  · cases hroom : (s.clients m).room with
    | none =>
      have hall : Brackets s := ⟨hb.bracketed, fun c r hl hr hst =>
        hb.playing c (hother c fun heq => by rw [heq, hroom] at hr; cases hr) r hl hr hst⟩
      have hs : Sane cfg ∅ True s := ⟨h.toTables, fun _ => hall⟩
      exact (sound_drop hP s.connected.length ∅ True s m hs (Nat.le_refl _)).1.sane.brackets trivial
    | some ri =>
      obtain ⟨hk, hlen, -⟩ := kept_go (P := P) h hc hroom
      have hbody : drop s m = leave (dropFuel s.connected.length)
          (vacate (forget s m) ri m) ri m ((s.rooms ri).members.idxOf m) := by
        rw [drop, dropFuel, dropBody, if_neg hd, hroom]
      have hgone : ∀ c, c ≠ m → (vacate (forget s m) ri m).clients c = s.clients c :=
        fun c hne => by
          simp only [vacate, forget, Server.modify, Server.modifyRoom, Function.update_of_ne hne]
      have hself : (vacate (forget s m) ri m).clients m =
          { s.clients m with dead := true, room := none } := by
        simp only [vacate, forget, Server.modify, Server.modifyRoom, Function.update_self]
      have hst : ∀ r, ((vacate (forget s m) ri m).rooms r).started = (s.rooms r).started :=
        fun r => (hk.shrinks.rooms r).1
      have hall : Brackets (vacate (forget s m) ri m) := by
        refine ⟨fun c => ?_, fun c r hl hr hstr => ?_⟩
        · by_cases heq : c = m
          · rw [heq, hself]
            exact hb.bracketed m
          · rw [hgone c heq]
            exact hb.bracketed c
        · have hne : c ≠ m := fun heq => by
            rw [heq, live, hself] at hl
            cases hl
          rw [live, hgone c hne] at hl
          rw [hgone c hne] at hr ⊢
          rw [hst] at hstr
          exact hb.playing c (hother c hne) r hl hr hstr
      have hs : Sane cfg ∅ True (vacate (forget s m) ri m) := ⟨hk.sane.toTables, fun _ => hall⟩
      rw [hbody]
      exact ((sound_dropFuel hP s.connected.length).leave hP hs (by omega)
        (Set.notMem_empty ri) m _).sane.brackets trivial
  · have hk := kept_queue (P := P) h hc hPf False.elim
    set s₁ := s.modify m fun c => { c with tx := c.tx ++ f, queued := c.queued ++ [f] }
    have hself : s₁.clients m = { s.clients m with
      tx := (s.clients m).tx ++ f, queued := (s.clients m).queued ++ [f] } := modify_self ..
    have hsame : ∀ c, c ≠ m → s₁.clients c = s.clients c := fun c hne => modify_of_ne s _ hne
    have hall : Brackets s₁ := by
      refine ⟨fun c => ?_, fun c r hl hr hst => ?_⟩
      · by_cases heq : c = m
        · rw [heq, hself]
          exact (hb.bracketed m).append fun ho => absurd ho (quiet_start hf)
        · rw [hsame c heq]
          exact hb.bracketed c
      · by_cases heq : c = m
        · rw [heq, hself]
          exact inMatch_start _ hf
        · rw [live, hsame c heq] at hl
          rw [hsame c heq] at hr ⊢
          exact hb.playing c (hother c heq) r hl hr hst
    have hs : Sane cfg ∅ True s₁ := ⟨hk.sane.toTables, fun _ => hall⟩
    have hup : live s₁ m := by
      rw [live, hself]
      exact hc
    exact ((sound_drop hP s₁.connected.length).flush hs (Nat.le_refl _) hup).1.sane.brackets trivial

/-- A START that does not fail leaves one client fewer that does not know. -/
theorem bracketsBut_send {m : ℕ} {ms : List ℕ} (hb : BracketsBut (m :: ms) s) {f : List ℕ}
    (hf : typeOf f = T_START) (hn : ¬ Stricken s m f) :
    BracketsBut ms (send drop s m f) ∧ (send drop s m f).rooms = s.rooms := by
  by_cases hc : live s m
  · obtain ⟨t, ht⟩ := send_eq drop hc hn
    rw [ht]
    have hself : (s.modify m fun c => { c with
        tx := t.left, wire := c.wire ++ t.taken, queued := c.queued ++ [f] }).clients m =
      { s.clients m with tx := t.left, wire := (s.clients m).wire ++ t.taken,
                         queued := (s.clients m).queued ++ [f] } := modify_self ..
    have hsame : ∀ c, c ≠ m → (s.modify m fun c => { c with
        tx := t.left, wire := c.wire ++ t.taken, queued := c.queued ++ [f] }).clients c =
        s.clients c := fun c hne => modify_of_ne s _ hne
    refine ⟨⟨fun c => ?_, fun c hni r hl hr hst => ?_⟩, rfl⟩
    · by_cases heq : c = m
      · rw [heq, hself]
        exact (hb.bracketed m).append fun ho => absurd ho (quiet_start hf)
      · rw [hsame c heq]
        exact hb.bracketed c
    · by_cases heq : c = m
      · rw [heq, hself]
        exact inMatch_start _ hf
      · rw [live, hsame c heq] at hl
        rw [hsame c heq] at hr ⊢
        exact hb.playing c (fun hmem => (List.mem_cons.mp hmem).elim heq hni) r hl hr hst
  · have heq : send drop s m f = s := by rw [send, if_pos (not_live_iff.mp hc)]
    rw [heq]
    refine ⟨⟨hb.bracketed, fun c hni r hl hr hst => ?_⟩, rfl⟩
    refine hb.playing c (fun hmem => ?_) r hl hr hst
    rcases List.mem_cons.mp hmem with rfl | hmem
    · exact hc hl
    · exact hni hmem

/-- In a room of two the players know that their match has started when both have been told. -/
theorem brackets_start (hP : Says P) (h : Sane cfg ∅ True s) (htwo : cfg.max_seats = 2)
    (hri : (s.rooms ri).members ≠ []) (hsafe : StartSafe cfg s ri) : Brackets (start_room cfg s ri ci) := by
  obtain ⟨hdelay, hhost⟩ := hsafe
  have hrooms : ∀ r, ((begin_room s ri).rooms r).members = (s.rooms r).members ∧
      (((begin_room s ri).rooms r).started = true → r ≠ ri → (s.rooms r).started = true) :=
    fun r => by
      by_cases heq : r = ri
      · subst heq
        rw [begin_room, modifyRoom_self]
        exact ⟨rfl, fun _ hne => absurd rfl hne⟩
      · rw [begin_room, modifyRoom_of_ne _ _ heq]
        exact ⟨rfl, fun hst _ => hst⟩
  have hsane : Sane cfg ∅ False (begin_room s ri) := begin_sane h.toTables ri hri
  have hbut : BracketsBut (s.rooms ri).members (begin_room s ri) := by
    refine ⟨(h.brackets trivial).bracketed, fun c hni r hl hr hst => ?_⟩
    refine (h.brackets trivial).playing c r hl hr ((hrooms r).2 hst fun heq => hni ?_)
    rw [← heq]
    exact (h.seated c r hr).2
  have hstart : ∀ seat, typeOf (startFrame cfg (begin_room s ri) ri seat) = T_START := fun _ => rfl
  have hkind : ∀ seat, P (startFrame cfg (begin_room s ri) ri seat) := fun seat =>
    hP.start _ (length_start ..) (start_count h.toTables ri _)
  have hfits := h.fits ri (Set.notMem_empty ri)
  simp only [start_room, if_neg (Nat.not_lt.mpr hdelay), (hrooms ri).1]
  rcases hms : (s.rooms ri).members with - | ⟨m, - | ⟨guest, - | ⟨x, l⟩⟩⟩
  · exact absurd hms hri
  · rw [hms] at hbut
    have hfirst : ((begin_room s ri).rooms ri).members[0]? = some m := by
      rw [(hrooms ri).1, hms]
      rfl
    simp only [List.length_singleton, eachMember, hfirst]
    exact brackets_last hP.toTells hsane hbut (hstart 0) (hkind 0)
  · rw [hms] at hbut
    have hfirst : ((begin_room s ri).rooms ri).members[0]? = some m := by
      rw [(hrooms ri).1, hms]
      rfl
    obtain ⟨hbut', hsame⟩ := bracketsBut_send hbut (hstart 0) (hhost (by rw [hms]; rfl) m (by rw [hms]; rfl))
    have hsecond : ((send drop (begin_room s ri) m
        (startFrame cfg (begin_room s ri) ri 0)).rooms ri).members[1]? = some guest := by
      rw [hsame, (hrooms ri).1, hms]
      rfl
    have hsound : Sound cfg P drop (begin_room s ri).connected.length := sound_drop hP.toTells _
    have hk := (hsound.send hsane (Nat.le_refl _) m (hkind 0) False.elim).1
    simp only [List.length_cons, List.length_nil, eachMember, hfirst, hsecond]
    exact brackets_last hP.toTells hk.sane hbut' (hstart 1) (hkind 1)
  · rw [hms, htwo] at hfits
    simp only [List.length_cons] at hfits
    omega

/-- Starting a match that is safe leaves the server in order. -/
theorem serves_start_room (hP : Says P) (h : Good cfg a b P s) (ri ci : ℕ)
    (hri : (s.rooms ri).members ≠ [])
    (hsafe : b → cfg.max_seats = 2 ∧ StartSafe cfg s ri) :
    Serves cfg a b P s (start_room cfg s ri ci) := by
  have hb : b → Brackets (start_room cfg s ri ci) := fun hb =>
    brackets_start hP ⟨h.toTables, fun _ => h.brackets hb⟩ (hsafe hb).1 hri (hsafe hb).2
  have hbegin : Serves cfg a False P s (begin_room s ri) := by
    refine ⟨⟨begin_sane h.toTables ri hri, fun ha => ?_, h.said⟩, fun _ => id, fun _ => ⟨rfl, rfl⟩⟩
    have hls := h.listed ha
    refine ⟨hls.listed, hls.keys, fun r c hm => hls.present r c ?_⟩
    rw [begin_members] at hm
    exact hm
  have hall : Serves cfg a False P s (start_room cfg s ri ci) := by
    simp only [start_room]
    split
    · exact hbegin.trans (serves_drop hP.toTells hbegin.good ci).1
    · refine hbegin.trans (Kept.serves hbegin.good ?_)
      refine kept_eachMember (J := fun _ => True) (fun s i m hs hn _ _ => ?_)
        (fun _ _ _ _ => trivial) _ _ hbegin.good.toSane (Nat.le_refl _) trivial
      exact ((sound_drop hP.toTells _).send hs hn m (hP.start _ (length_start ..)
        (start_count h.toTables ri _)) nofun).1
  exact ⟨{ hall.good with brackets := hb }, hall.stays, hall.same⟩

/-! ### What a frame does -/

/-- A GO starts no match in which a START fails that is not the last. -/
def GoSafe (cfg : Config) (s : Server) (ci : ℕ) : Prop :=
  ∀ ri ∈ (s.clients ci).room, (s.rooms ri).started = false →
    (s.rooms ri).members.idxOf ci = 0 → 2 ≤ (s.rooms ri).members.length → StartSafe cfg s ri

instance (cfg : Config) (s : Server) (ci : ℕ) : Decidable (GoSafe cfg s ci) :=
  inferInstanceAs (Decidable (∀ ri ∈ (s.clients ci).room, _ → _ → _ → _))

/-- The server with the client of a JOIN in the room it asks for, and the room. -/
def joined (cfg : Config) (s : Server) (ci : ℕ) (payload : List ℕ) : Option (Server × ℕ) :=
  if (s.clients ci).name = none ∨ (s.clients ci).room.isSome then none
  else
    match by_name_get s (rstrip (decode payload)) with
    | none => none
    | some target =>
      if unjoinable cfg s ci target then none
      else
        match (s.clients target).room with
        | some ri => some (enter s ri ci, ri)
        | none => some (enter (make_room s target) s.next_room ci, s.next_room)

/-- Nor does a JOIN, where the rig has rooms start by themselves. -/
def JoinSafe (cfg : Config) (s : Server) (ci : ℕ) (payload : List ℕ) : Prop :=
  cfg.auto_go ≠ 0 → ∀ x ∈ joined cfg s ci payload,
    cfg.auto_go ≤ ((room_broadcast drop x.1 x.2).rooms x.2).members.length →
      StartSafe cfg (room_broadcast drop x.1 x.2) x.2

instance (cfg : Config) (s : Server) (ci : ℕ) (payload : List ℕ) :
    Decidable (JoinSafe cfg s ci payload) :=
  inferInstanceAs (Decidable (_ → ∀ x ∈ joined cfg s ci payload, _ → _))

/-- A JOIN that is safe starts a match that is. -/
theorem JoinSafe.start {cfg : Config} {s s' : Server} {ci ri : ℕ} {payload : List ℕ}
    (h : JoinSafe cfg s ci payload) (hj : joined cfg s ci payload = some (s', ri))
    (hgo : cfg.auto_go ≠ 0) (hlen : cfg.auto_go ≤ ((room_broadcast drop s' ri).rooms ri).members.length) :
    StartSafe cfg (room_broadcast drop s' ri) ri :=
  h hgo (s', ri) hj hlen

/-- A frame that leaves the names in order where `a` asks for it, and the matches where `b`
does. -/
structure FrameSafe (cfg : Config) (a b : Prop) (s : Server) (ci ftype : ℕ) (payload : List ℕ) :
    Prop where
  hello : a → ftype = T_HELLO → HelloSafe s ci payload
  go : b → ftype = T_GO → GoSafe cfg s ci
  join : b → ftype = T_JOIN → JoinSafe cfg s ci payload

/-- A GO that is safe leaves the server in order. -/
theorem serves_on_go (hP : Says P) (h : Good cfg a b P s) (ci : ℕ) (htwo : b → cfg.max_seats = 2)
    (hsafe : b → GoSafe cfg s ci) : Serves cfg a b P s (on_go cfg s ci) := by
  simp only [on_go]
  split
  · exact Serves.refl h
  rename_i ri hroom
  split
  · exact Serves.refl h
  rename_i hst
  rw [not_or, Bool.not_eq_true, not_not] at hst
  split
  · exact Serves.refl h
  rename_i hlen
  rw [not_not] at hlen
  refine serves_start_room hP h ri ci (fun hnil => ?_) fun hb =>
    ⟨htwo hb, hsafe hb ri hroom hst.1 hst.2 hlen.1⟩
  rw [hnil, List.length_nil] at hlen
  omega

/-- A room that a client has entered is told, and may start. -/
theorem serves_join (hP : Says P) (h : Good cfg a b P s) (hc : live s ci)
    (hroom : (s.clients ci).room = none) (hri : ri < s.next_room)
    (hst : (s.rooms ri).started = false) (hlen : (s.rooms ri).members.length < cfg.max_seats)
    (hsafe : b → cfg.max_seats = 2 ∧ (cfg.auto_go ≠ 0 →
      cfg.auto_go ≤ ((room_broadcast drop (enter s ri ci) ri).rooms ri).members.length →
        StartSafe cfg (room_broadcast drop (enter s ri ci) ri) ri)) :
    Serves cfg a b P s (join cfg s ri ci) := by
  have henter := serves_enter h (h.made hc) (fun _ => hc) hroom hri hst hlen
  have hk := (sound_drop hP.toTells (enter s ri ci).connected.length).room_broadcast hP.toTells
    henter.good.toSane (Nat.le_refl _) (Set.notMem_empty ri)
  have htold := henter.trans (hk.serves henter.good)
  have heq : join cfg s ri ci =
      if cfg.auto_go ≠ 0 ∧
        ((room_broadcast drop (enter s ri ci) ri).rooms ri).members.length ≥ cfg.auto_go then
        start_room cfg (room_broadcast drop (enter s ri ci) ri) ri ci
      else room_broadcast drop (enter s ri ci) ri := rfl
  rw [heq]
  split
  · rename_i hgo
    refine htold.trans (serves_start_room hP htold.good ri ci (fun hnil => ?_) fun hb =>
      ⟨(hsafe hb).1, (hsafe hb).2 hgo.1 hgo.2⟩)
    rw [hnil, List.length_nil] at hgo
    omega
  · exact htold

theorem serves_on_join (hP : Says P) (h : Good cfg a b P s) (hc : live s ci) (payload : List ℕ)
    (hsafe : b → cfg.max_seats = 2 ∧ JoinSafe cfg s ci payload) :
    Serves cfg a b P s (on_join cfg s ci payload) := by
  have hlist := serves_on_list hP h ci
  simp only [on_join]
  split
  · exact (serves_drop hP.toTells h ci).1
  rename_i hname
  split
  · exact Serves.refl h
  rename_i hroom
  rw [Option.not_isSome_iff_eq_none] at hroom
  split
  · exact hlist
  rename_i target hget
  split
  · exact hlist
  rename_i hfree
  have hjoined : joined cfg s ci payload = match (s.clients target).room with
      | some ri => some (enter s ri ci, ri)
      | none => some (enter (make_room s target) s.next_room ci, s.next_room) := by
    have hno : ¬ ((s.clients ci).name = none ∨ (s.clients ci).room.isSome) := by
      rw [hroom]
      simpa using hname
    rw [joined, if_neg hno, hget]
    exact if_neg hfree
  simp only [unjoinable, Bool.or_eq_true, decide_eq_true_eq, not_or] at hfree
  obtain ⟨⟨hne, htname⟩, hbusy⟩ := hfree
  split
  · rename_i ri htroom
    rw [htroom] at hbusy hjoined
    simp only [Bool.or_eq_true, decide_eq_true_eq, not_or, Bool.not_eq_true, ge_iff_le,
      Nat.not_le] at hbusy
    have hri : ri < s.next_room := by
      by_contra hle
      have hin := (h.seated target ri htroom).2
      rw [(h.unopened ri (Nat.not_lt.mp hle)).1] at hin
      exact absurd hin List.not_mem_nil
    refine serves_join hP h hc hroom hri hbusy.1 hbusy.2 fun hb => ⟨(hsafe hb).1, fun hgo hlen => ?_⟩
    exact (hsafe hb).2.start hjoined hgo hlen
  · rename_i htroom
    rw [htroom] at hjoined
    have hopen := serves_open h
    set s₁ : Server := { s.modifyRoom s.next_room (fun _ => ⟨[], false, 0⟩) with
      next_room := s.next_room + 1 } with hs₁
    have hnew : s₁.rooms s.next_room = ⟨[], false, 0⟩ := Function.update_self ..
    have htwo := cfg.two_le
    have htmade : target < s.next_client := by
      by_contra hle
      rw [h.unmade target (Nat.not_lt.mp hle)] at htname
      exact htname rfl
    have htake : Serves cfg a b P s₁ (enter s₁ s.next_room target) := serves_enter hopen.good htmade
      (fun ha => ((h.listed ha).listed _ (Dict.mem_of_get hget)).1) htroom (Nat.lt_succ_self _)
      (by rw [hnew]) (by rw [hnew]; exact Nat.lt_of_lt_of_le Nat.zero_lt_two htwo)
    have hmade : make_room s target = enter s₁ s.next_room target := make_room_eq s target
    rw [hmade] at hjoined ⊢
    have hself : (enter s₁ s.next_room target).clients ci = s.clients ci :=
      Function.update_of_ne (Ne.symm hne) ..
    have hroom₁ : (enter s₁ s.next_room target).rooms s.next_room = ⟨[target], false, 0⟩ := by
      rw [show (enter s₁ s.next_room target).rooms s.next_room = _ from Function.update_self .., hnew]
      rfl
    refine (hopen.trans htake).trans (serves_join hP htake.good ?_ ?_ ?_ ?_ ?_ fun hb =>
      ⟨(hsafe hb).1, fun hgo hlen => (hsafe hb).2.start hjoined hgo hlen⟩)
    · rw [live, hself]
      exact hc
    · rw [hself]
      exact hroom
    · exact Nat.lt_succ_self _
    · rw [hroom₁]
    · rw [hroom₁]
      exact htwo

/-- A frame that is fanned out: the members of a match that is on know that it is. -/
theorem serves_relay (hP : Says P) (h : Good cfg a b P s) (ci : ℕ) {ftype : ℕ}
    {payload : List ℕ} (hr : relayed ftype = true) (hf : P (frame ftype payload)) :
    Serves cfg a b P s (relay s ci ftype payload) := by
  have hty : typeOf (frame ftype payload) = ftype := rfl
  simp only [relay]
  split
  · exact Serves.refl h
  rename_i ri hroom
  split
  · rename_i hst
    refine Kept.serves h (kept_eachMember (J := fun s => (s.rooms ri).started = true)
      (fun s i m hs hn hj hm => ?_) (fun s s' hj hsh => (hsh.rooms ri).1.trans hj) _ _ h.toSane
      (Nat.le_refl _) hst)
    split
    · refine ((sound_drop hP.toTells _).send hs hn m hf fun hb hl => ⟨fun _ => ?_, fun ho => ?_⟩).1
      · exact (hs.brackets hb).playing m ri hl (hs.member ri (Set.notMem_empty ri) m hm) hj
      · rw [← ho.symm.trans hty] at hr
        cases hr
    · exact Kept.refl hs
  · exact Serves.refl h

/-- One frame. -/
theorem serves_handle (hP : Says P) (h : Good cfg a b P s) (hc : live s ci)
    (htwo : a ∨ b → cfg.max_seats = 2) (ftype : ℕ) (payload : List ℕ)
    (hf : relayed ftype = true → P (frame ftype payload))
    (hsafe : FrameSafe cfg a b s ci ftype payload) :
    Serves cfg a b P s (handle cfg s ci ftype payload) := by
  have hdrop := (serves_drop hP.toTells h ci).1
  simp only [handle]
  split
  · rename_i hr
    exact serves_relay hP h ci hr (hf hr)
  split
  · rename_i hty
    exact serves_on_hello hP h hc payload fun ha => ⟨htwo (Or.inl ha), hsafe.hello ha hty⟩
  split
  · exact serves_on_list hP h ci
  split
  · rename_i hty
    exact serves_on_join hP h hc payload fun hb => ⟨htwo (Or.inr hb), hsafe.join hb hty⟩
  split
  · rename_i hty
    exact serves_on_go hP h ci (fun hb => htwo (Or.inr hb)) fun hb => hsafe.go hb hty
  split
  · exact hdrop
  split
  · exact serves_send hP.toTells h ci hP.pong (quiet_frame _ (by decide) rfl)
  · exact hdrop

end Kept

end BoxingNetplay.Interface.RelayServer
