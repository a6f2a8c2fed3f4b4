import BoxingNetplay.Interface.RelayLoop

/-!
# What the clients of the C relay are sent

The frames queued to the clients, by where they come from.  A send that does not drop its recipient
appends its frame and touches nobody else; so while all the members of a started room stay, telling
them of the start and fanning a frame out reach each of them once.
-/

set_option autoImplicit false

namespace BoxingNetplay.Interface.IntvRelay

open BoxingNetplay.Library
open BoxingNetplay.Model.Wire
open BoxingNetplay.Model.IntvRelay

/-! ### Kinds of frames -/

/-- The type of a frame. -/
def typeOf (f : List ℕ) : ℕ := f.getD 1 0

/-- The match a frame belongs to. -/
def serialOf : Origin → Option ℕ
  | .relay => none
  | .start k => some k
  | .member k _ => some k

/-- A whole frame, of a type that fits where it comes from. -/
def Kind (q : Queued) : Prop :=
  IsWhole q.bytes ∧ match q.origin with
    | .relay => relayed (typeOf q.bytes) = false ∧ typeOf q.bytes ≠ T_START
    | .start _ => typeOf q.bytes = T_START
    | .member _ _ => relayed (typeOf q.bytes) = true

/-- Frames that belong to no match. -/
def Quiet (_ : ℕ) (q : Queued) : Prop := Kind q ∧ serialOf q.origin = none

/-- Frames that belong to no match, or to one, in a way `Q` says. -/
def During (k : ℕ) (Q : ℕ → Queued → Prop) (c : ℕ) (q : Queued) : Prop :=
  Quiet c q ∨ Kind q ∧ serialOf q.origin = some k ∧ Q c q

/-- A frame of the relay that is neither passed on nor a START is such a frame. -/
theorem quiet_frame (c : ℕ) {ftype : ℕ} {payload : List ℕ} (hlen : payload.length ≤ 199)
    (hr : relayed ftype = false) (hs : ftype ≠ T_START) :
    Quiet c ⟨.relay, frame ftype payload⟩ :=
  ⟨⟨isWhole_frame ftype hlen, hr, hs⟩, rfl⟩

/-- The answers of the relay belong to no match. -/
theorem answers_quiet (cfg : Config) : Answers cfg Quiet where
  room c payload h _ := quiet_frame c (by omega) rfl (by decide)
  left c payload h := by
    refine quiet_frame c ?_ rfl (by decide)
    split at h <;> omega
  lobby c n entries hn h := by
    refine quiet_frame c ?_ rfl (by decide)
    rw [List.length_cons]
    simp only [LOBBY_ENTRIES] at hn
    omega
  pong c := quiet_frame c (Nat.zero_le _) rfl (by decide)

/-- Such frames start no match. -/
theorem not_starts_quiet : ¬ Starts Quiet := fun ⟨_, _, _, h⟩ => nomatch h.2

/-- During a match the relay tells its clients quiet things alone. -/
theorem tells_during (cfg : Config) (k : ℕ) (Q : ℕ → Queued → Prop) : Tells cfg (During k Q) where
  room c payload h hn := Or.inl ((answers_quiet cfg).room c payload h hn)
  left c payload h := Or.inl ((answers_quiet cfg).left c payload h)

/-! ### Sends that reach their recipient -/

section Sends

variable {cfg : Config} {P : ℕ → Queued → Prop} {s s' : Relay} {ci : ℕ}

/-- If the recipient is still up, its frame has been queued and nothing else has changed but what
the kernel has of it. -/
structure Delivers (s : Relay) (ci : ℕ) (q : Queued) (s' : Relay) : Prop where
  queued : (s'.clients ci).queued = (s.clients ci).queued ++ [q]
  others : ∀ c, c ≠ ci → s'.clients c = s.clients c
  rooms : s'.rooms = s.rooms

/-- A send delivers where its recipient stays. -/
theorem send_raw_delivers (ht : Tables cfg ∅ ∅ s) (hc : Recipient s ci) (o : Origin)
    (data : List ℕ) (hup : alive (send_raw (drop cfg) s o ci data) ci) :
    Delivers s ci ⟨o, data⟩ (send_raw (drop cfg) s o ci data) := by
  have hdead : ∀ {s₁ : Relay}, Tables cfg ∅ ∅ s₁ → alive s₁ ci →
      ¬ alive (drop cfg s₁ ci) ci := fun ht₁ hc₁ hl => by
    have hd := (served_drop (says_any cfg).toAnswers ht₁ hc₁).2
    rw [hl.2] at hd
    cases hd
  revert hup
  simp only [send_raw]
  split
  · rename_i hd
    intro hup
    rw [hup.2] at hd
    cases hd
  · rename_i hd
    have hc' : alive s ci := hc.resolve_right hd
    split
    · exact fun hup => absurd hup (hdead ht hc')
    · obtain ⟨hk, -, hup₁⟩ := kept_modify (P := fun _ _ => True)
        (fun c => { c with tx := c.tx ++ data, queued := c.queued ++ [⟨o, data⟩] })
        hc' ht (fun _ => ⟨rfl, rfl, rfl, rfl, rfl⟩) (fun _ => rfl)
        ⟨[⟨o, data⟩], rfl, by simp, fun _ _ => trivial⟩
      set s₁ := s.modify ci fun c =>
        { c with tx := c.tx ++ data, queued := c.queued ++ [⟨o, data⟩] } with hs₁
      simp only [flush]
      obtain ⟨hk₂, -, hup₂⟩ := kept_modify (P := fun _ _ => True)
        (fun c => { c with
          tx := (transmit s₁.kernel (s₁.clients ci).tx).left
          wire := c.wire ++ (transmit s₁.kernel (s₁.clients ci).tx).taken })
        hup₁ hk.tables (fun _ => ⟨rfl, rfl, rfl, rfl, rfl⟩) (fun _ => rfl)
        ⟨[], (List.append_nil _).symm, by
          rw [List.append_assoc, transmit_split]
          exact (List.append_nil _).symm, List.forall_mem_nil _⟩
      obtain ⟨hk₃, -⟩ := kept_kernel (P := fun _ _ => True) hk₂.tables
        (transmit s₁.kernel (s₁.clients ci).tx).rest
      split
      · exact fun hup => absurd hup (hdead hk₃.tables hup₂)
      · intro _
        refine ⟨?_, fun c hne => ?_, rfl⟩
        · simp only [Relay.modify, Function.update_self, hs₁]
        · simp only [Relay.modify, Function.update_of_ne hne, hs₁]

/-- Different frames to different clients, one after another. -/
theorem sends_deliver (hP : Tells cfg P) (o : Origin) (ms : List (ℕ × List ℕ))
    (hnd : (ms.map Prod.fst).Nodup) (ht : Tables cfg ∅ ∅ s)
    (hrec : ∀ m ∈ ms, Recipient s m.1) (hq : ∀ m ∈ ms, P m.1 ⟨o, m.2⟩) :
    Kept cfg P ∅ s (ms.foldl (fun s m => send_raw (drop cfg) s o m.1 m.2) s) ∧
      ((∀ m ∈ ms, alive (ms.foldl (fun s m => send_raw (drop cfg) s o m.1 m.2) s) m.1) →
        (∀ m ∈ ms, ((ms.foldl (fun s m => send_raw (drop cfg) s o m.1 m.2) s).clients m.1).queued =
          (s.clients m.1).queued ++ [⟨o, m.2⟩]) ∧
        ∀ c, c ∉ ms.map Prod.fst →
          (ms.foldl (fun s m => send_raw (drop cfg) s o m.1 m.2) s).clients c = s.clients c) := by
  induction ms generalizing s with
  | nil => exact ⟨Kept.refl ht, fun _ => ⟨nofun, fun _ _ => rfl⟩⟩
  | cons m ms ih =>
    rw [List.map_cons, List.nodup_cons] at hnd
    have hm := hrec m List.mem_cons_self
    have hk := (sound_drop hP).send_raw ht (live_card_le s) hm o m.2 (hq m List.mem_cons_self)
    obtain ⟨hk', hall⟩ := ih hnd.2 hk.tables
      (fun x hx => hk.shrinks.recipient (hrec x (List.mem_cons_of_mem m hx)))
      fun x hx => hq x (List.mem_cons_of_mem m hx)
    refine ⟨hk.trans hk', fun hup => ?_⟩
    obtain ⟨h1, h2⟩ := hall fun x hx => hup x (List.mem_cons_of_mem m hx)
    have hd := send_raw_delivers ht hm o m.2
      (hk'.shrinks.stays m.1 (hup m List.mem_cons_self)).1
    refine ⟨fun x hx => ?_, fun c hc => ?_⟩
    · rcases List.mem_cons.mp hx with rfl | hx
      · rw [List.foldl_cons, h2 x.1 hnd.1]
        exact hd.queued
      · have hne : x.1 ≠ m.1 := fun heq => hnd.1 (heq ▸ List.mem_map_of_mem hx)
        rw [List.foldl_cons, h1 x hx, hd.others x.1 hne]
    · rw [List.map_cons, List.mem_cons, not_or] at hc
      rw [List.foldl_cons, h2 c hc.2, hd.others c hc.1]

end Sends

/-! ### Frames and the matches they belong to -/

/-- Nobody has been sent a frame of a match, and nobody has sent one. -/
def Untouched (s : Relay) (k : ℕ) : Prop :=
  ∀ c, alive s c → (∀ q ∈ (s.clients c).queued, serialOf q.origin ≠ some k) ∧
    ∀ h ∈ (s.clients c).handled, h.serial ≠ some k

/-- Every frame is of its kind and belongs to a match that began; a frame of a match that is on was
sent to a player of it, by another one. -/
structure Tagged (s : Relay) : Prop where
  sent : ∀ c, alive s c → (s.clients c).wire ++ (s.clients c).tx =
    ((s.clients c).queued.map Queued.bytes).flatten
  kinds : ∀ c, alive s c → ∀ q ∈ (s.clients c).queued, Kind q
  own : ∀ c, alive s c → ∀ q ∈ (s.clients c).queued, ∀ k a, q.origin = .member k a → a ≠ c
  fresh : ∀ k, s.serial ≤ k → Untouched s k
  waiting : ∀ r, (s.rooms r).used = true → (s.rooms r).started = false →
    Untouched s (s.rooms r).serial
  inside : ∀ r, (s.rooms r).used = true → (s.rooms r).started = true → ∀ c, alive s c →
    ∀ q ∈ (s.clients c).queued, serialOf q.origin = some (s.rooms r).serial →
      c ∈ (s.rooms r).members ∧ ∀ k a, q.origin = .member k a → a ∈ (s.rooms r).members

/-- A kind of frames that belong to matches that are on. -/
def Allowed (s : Relay) (P : ℕ → Queued → Prop) : Prop :=
  ∀ c q, P c q → Kind q ∧ (∀ k a, q.origin = .member k a → a ≠ c) ∧
    ∀ k, serialOf q.origin = some k → ∃ r, (s.rooms r).used = true ∧ (s.rooms r).started = true ∧
      (s.rooms r).serial = k ∧ c ∈ (s.rooms r).members ∧
      ∀ k' a, q.origin = .member k' a → a ∈ (s.rooms r).members

/-- Clients are sent frames of a kind, and no match begins. -/
structure Grown (P : ℕ → Queued → Prop) (s s' : Relay) : Prop where
  stays : ∀ c, alive s' c → alive s c ∧ (s'.clients c).handled = (s.clients c).handled ∧
    Grows (P c) (s.clients c) (s'.clients c)
  rooms : ∀ r, (s'.rooms r).used = true →
    ((s.rooms r).used = true ∧ (s'.rooms r).serial = (s.rooms r).serial ∧
      (s'.rooms r).started = (s.rooms r).started ∧
      ((s.rooms r).started = true → (s'.rooms r).members = (s.rooms r).members)) ∨
    (s.serial ≤ (s'.rooms r).serial ∧ (s'.rooms r).started = false)
  serial : s.serial ≤ s'.serial

section Matches

variable {cfg : Config} {P : ℕ → Queued → Prop} {s s' : Relay} {r : ℕ}

/-- Where clients only go, no match begins. -/
theorem Kept.grown (h : Kept cfg P ∅ s s') : Grown P s s' where
  stays c hc := by
    obtain ⟨h1, -, -, h4, -, h6⟩ := h.shrinks.stays c hc
    simp only [input, Prod.mk.injEq] at h4
    exact ⟨h1, h4.2.2, h6⟩
  rooms r hu := by
    obtain ⟨h1, h2, h3, -, h5⟩ := h.shrinks.rooms r hu
    exact Or.inl ⟨h1, h3, h2, h5⟩
  serial := Nat.le_of_eq h.shrinks.serial.symm

theorem Served.grown (h : Served cfg P s s') (hP : ¬ Starts P) : Grown P s s' where
  stays c hc := by
    obtain ⟨h1, -, h3⟩ := h.turns.stays c hc
    have h4 := h.input c hc
    simp only [IntvRelay.input, Prod.mk.injEq] at h4
    exact ⟨h1, h4.2.2, h3⟩
  rooms r hu := by
    rcases h.turns.rooms r hu with ⟨h1, h2, h3, h4⟩ | ⟨h1, h2⟩
    · refine Or.inl ⟨h1, h2, ?_, fun hs => (h3 hs).2⟩
      rw [Bool.eq_iff_iff]
      exact ⟨fun hs => (h4 hs).resolve_right hP, fun hs => (h3 hs).1⟩
    · exact Or.inr ⟨h1, Bool.eq_false_of_not_eq_true fun hs => hP (h2 hs)⟩
  serial := h.turns.serial

/-- What was sent to a client, or is sent to it now. -/
theorem Grown.mem (h : Grown P s s') {c : ℕ} (hc : alive s' c) {q : Queued}
    (hq : q ∈ (s'.clients c).queued) : q ∈ (s.clients c).queued ∨ P c q := by
  obtain ⟨-, -, l, hl, -, hP⟩ := h.stays c hc
  rw [hl] at hq
  exact (List.mem_append.mp hq).imp id (hP q)

/-- A match nobody has been sent anything of, and that no frame belongs to. -/
theorem Untouched.grown {k : ℕ} (h : Untouched s k) (hg : Grown P s s')
    (hP : ∀ c q, P c q → serialOf q.origin ≠ some k) : Untouched s' k := by
  intro c hc
  obtain ⟨h1, h2, -⟩ := hg.stays c hc
  refine ⟨fun q hq => ?_, fun x hx => ?_⟩
  · rcases hg.mem hc hq with hq | hq
    · exact (h c h1).1 q hq
    · exact hP c q hq
  · rw [h2] at hx
    exact (h c h1).2 x hx

/-- Frames of matches that are on leave everything in order. -/
theorem Tagged.grown (h : Tagged s) (ht : Tables cfg ∅ ∅ s) (hg : Grown P s s')
    (hP : Allowed s P) : Tagged s' where
  sent c hc := by
    obtain ⟨h1, -, l, hl, hw, -⟩ := hg.stays c hc
    rw [hw, hl, List.map_append, List.flatten_append, h.sent c h1]
  kinds c hc q hq := by
    rcases hg.mem hc hq with hq | hq
    · exact h.kinds c (hg.stays c hc).1 q hq
    · exact (hP c q hq).1
  own c hc q hq := by
    rcases hg.mem hc hq with hq | hq
    · exact h.own c (hg.stays c hc).1 q hq
    · exact (hP c q hq).2.1
  fresh k hk := by
    refine (h.fresh k (Nat.le_trans hg.serial hk)).grown hg fun c q hq hs => ?_
    obtain ⟨r, hu, -, hr, -⟩ := (hP c q hq).2.2 k hs
    have hlt := ht.serials r hu
    have hle := hg.serial
    omega
  waiting r hu hst := by
    rcases hg.rooms r hu with ⟨h1, h2, h3, -⟩ | ⟨h1, -⟩
    · rw [h2]
      rw [h3] at hst
      refine (h.waiting r h1 hst).grown hg fun c q hq hs => ?_
      obtain ⟨r', hu', hst', hr', -⟩ := (hP c q hq).2.2 _ hs
      rw [ht.apart r' r hu' h1 hr', hst] at hst'
      cases hst'
    · refine (h.fresh _ h1).grown hg fun c q hq hs => ?_
      obtain ⟨r', hu', -, hr', -⟩ := (hP c q hq).2.2 _ hs
      have hlt := ht.serials r' hu'
      omega
  inside r hu hst c hc q hq hs := by
    rcases hg.rooms r hu with ⟨h1, h2, h3, h4⟩ | ⟨-, h2⟩
    · rw [h3] at hst
      rw [h2] at hs
      rw [h4 hst]
      rcases hg.mem hc hq with hq | hq
      · exact h.inside r h1 hst c (hg.stays c hc).1 q hq hs
      · obtain ⟨r', hu', -, hr', hin⟩ := (hP c q hq).2.2 _ hs
        rw [← ht.apart r' r hu' h1 hr']
        exact hin
    · rw [h2] at hst
      cases hst

end Matches

/-! ### What the players have heard -/

/-- The frames a member of a match has sent to the others. -/
def sentIn (k : ℕ) (hs : List Handled) : List (List ℕ) :=
  (hs.filter fun h => h.serial = some k && relayed (typeOf h.bytes)).map Handled.bytes

/-- The frames of a member of a match among those a client was sent. -/
def heard (k a : ℕ) (qs : List Queued) : List (List ℕ) :=
  (qs.filter fun q => q.origin = .member k a).map Queued.bytes

/-- A match has begun for a client: it was sent its START before any frame of another member. -/
def Begun (k : ℕ) (qs : List Queued) : Prop :=
  ∃ before start after, qs = before ++ start :: after ∧ start.origin = .start k ∧
    ∀ q ∈ before, ∀ a, q.origin ≠ .member k a

/-- In a match each player has heard each of the others, in full and in order. -/
def Fanned (s : Relay) (r : ℕ) : Prop :=
  ∀ b ∈ (s.rooms r).members, Begun (s.rooms r).serial (s.clients b).queued ∧
    ∀ a ∈ (s.rooms r).members, a ≠ b →
      heard (s.rooms r).serial a (s.clients b).queued =
        sentIn (s.rooms r).serial (s.clients a).handled

section Heard

variable {cfg : Config} {P : ℕ → Queued → Prop} {s s' : Relay} {r k a : ℕ}

/-- What follows in a queue changes nothing about the beginning of a match in it. -/
theorem Begun.append {qs : List Queued} (h : Begun k qs) (l : List Queued) : Begun k (qs ++ l) := by
  obtain ⟨before, start, after, rfl, h1, h2⟩ := h
  exact ⟨before, start, after ++ l, by rw [List.append_assoc, List.cons_append], h1, h2⟩

/-- What a client has heard of another adds up. -/
theorem heard_append (qs l : List Queued) : heard k a (qs ++ l) = heard k a qs ++ heard k a l := by
  rw [heard, List.filter_append, List.map_append]
  rfl

theorem heard_nil {l : List Queued} (h : ∀ q ∈ l, q.origin ≠ .member k a) : heard k a l = [] := by
  rw [heard, List.filter_eq_nil_iff.mpr fun q hq => by simpa using h q hq, List.map_nil]

theorem sentIn_nil {l : List Handled} (h : ∀ x ∈ l, x.serial ≠ some k) : sentIn k l = [] := by
  rw [sentIn, List.filter_eq_nil_iff.mpr fun x hx => by simp [h x hx], List.map_nil]

/-- What was sent in a match adds up. -/
theorem sentIn_append (l l' : List Handled) : sentIn k (l ++ l') = sentIn k l ++ sentIn k l' := by
  rw [sentIn, List.filter_append, List.map_append]
  rfl

/-- Frames that are not of a member of the match leave the players where they are. -/
theorem Fanned.grown (h : Fanned s r) (ht : Tables cfg ∅ ∅ s') (hg : Grown P s s')
    (hu : (s'.rooms r).used = true) (hsame : (s'.rooms r).serial = (s.rooms r).serial ∧
      (s'.rooms r).members = (s.rooms r).members)
    (hP : ∀ c q, P c q → ∀ a, q.origin ≠ .member (s.rooms r).serial a) : Fanned s' r := by
  intro b hb
  have hup := (ht.member r hu (Set.notMem_empty r) b hb).1
  obtain ⟨-, -, l, hl, -, hl'⟩ := hg.stays b hup
  have hin := hsame.2 ▸ hb
  rw [hsame.1, hsame.2, hl]
  refine ⟨(h b hin).1.append l, fun a ha hne => ?_⟩
  have hup' := (ht.member r hu (Set.notMem_empty r) a (hsame.2 ▸ ha)).1
  rw [heard_append, (h b hin).2 a ha hne, heard_nil fun q hq => hP b q (hl' q hq) a,
    List.append_nil, (hg.stays a hup').2.1]

end Heard

end BoxingNetplay.Interface.IntvRelay
