import BoxingNetplay.Interface.RelayFanOut
import BoxingNetplay.Analysis.RelayTables

/-!
# Match traffic of the C relay

Whatever the clients send, however it is cut into reads and however the kernel takes what they
are sent: while a match is on, each player has been sent its START and then every frame of the
others, each once and in order.
-/

set_option autoImplicit false

namespace BoxingNetplay.Analysis.IntvRelay

open BoxingNetplay.Library
open BoxingNetplay.Model.Wire
open BoxingNetplay.Model.IntvRelay
open BoxingNetplay.Interface
open BoxingNetplay.Interface.IntvRelay

variable {cfg : Config} {P : ℕ → Queued → Prop} {s s' : Relay} {ci ri : ℕ}

/-- In every match that is on, the players have heard each other. -/
structure Fan (s : Relay) : Prop extends Tagged s where
  fanned : ∀ r, (s.rooms r).used = true → (s.rooms r).started = true → Fanned s r

/-! ### Frames from one state to the next -/

/-- As long as nothing is sent on behalf of a member, everything stays fanned out. -/
theorem Fan.grown (h : Fan s) (ht : Tables cfg ∅ ∅ s) (ht' : Tables cfg ∅ ∅ s')
    (hg : Grown P s s') (hP : Allowed s P)
    (hother : ∀ c q, P c q → ∀ k a, q.origin ≠ .member k a) : Fan s' where
  toTagged := h.toTagged.grown ht hg hP
  fanned r hu hst := by
    rcases hg.rooms r hu with ⟨h1, h2, h3, h4⟩ | ⟨-, h2⟩
    · rw [h3] at hst
      exact (h.fanned r h1 hst).grown ht' hg hu ⟨h2, h4 hst⟩ fun c q hq a =>
        hother c q hq _ a
    · rw [h2] at hst
      cases hst

/-- Frames that belong to no match are always allowed. -/
theorem allowed_quiet (s : Relay) : Allowed s Quiet := fun c q hq => by
  refine ⟨hq.1, fun k a ho => ?_, fun k hk => ?_⟩
  · have hs := hq.2
    rw [ho] at hs
    cases hs
  · rw [hq.2] at hk
    cases hk

/-- The relay's answers leave the matches alone. -/
theorem Fan.quiet (h : Fan s) (ht : Tables cfg ∅ ∅ s) (hs : Served cfg Quiet s s') : Fan s' := by
  refine h.grown ht hs.tables (hs.grown not_starts_quiet) (allowed_quiet s) fun c q hq k a ho => ?_
  have hs := hq.2
  rw [ho] at hs
  cases hs

/-- A change of a client that touches neither what it was sent nor what it has sent. -/
theorem Fan.modify (h : Fan s) (ht : Tables cfg ∅ ∅ s) (hc : alive s ci) (f : Client → Client)
    (hf : ∀ c, (f c).in_use = c.in_use ∧ (f c).dead = c.dead ∧ (f c).gen = c.gen ∧
      (f c).name = c.name ∧ (f c).room = c.room)
    (hout : ∀ c, (f c).queued = c.queued ∧ (f c).wire = c.wire ∧ (f c).tx = c.tx)
    (hin : ∀ c, (f c).handled = c.handled) : Fan (s.modify ci f) := by
  have hr := (read_modify (P := Quiet) ht hc f hf hout).1
  refine h.grown ht hr.tables (P := Quiet) ⟨fun c hl => ?_, fun r hu => ?_, Nat.le_refl _⟩
    (allowed_quiet s) fun c q hq k a ho => ?_
  · obtain ⟨h1, -, h3⟩ := hr.turns.stays c hl
    refine ⟨h1, ?_, h3⟩
    by_cases hne : c = ci
    · rw [hne, modify_self, hin]
    · rw [modify_of_ne s f hne]
  · exact Or.inl ⟨hu, rfl, rfl, fun _ => rfl⟩
  · have hs := hq.2
    rw [ho] at hs
    cases hs

/-! ### The start of a match -/

/-- When a room starts nobody has been sent anything of its match. -/
theorem Fan.begins (h : Fan s) (hb : Begins cfg s s' ri) :
    Tagged s' ∧ Untouched s' (s'.rooms ri).serial ∧
      ∀ r, r ≠ ri → (s'.rooms r).used = true → (s'.rooms r).started = true → Fanned s' r := by
  have hserved := hb.served (fun _ _ => True) ⟨0, 0, [], trivial⟩
  have hsame : ∀ c, (s'.clients c).queued = (s.clients c).queued ∧
      (s'.clients c).handled = (s.clients c).handled := fun c => by
    obtain ⟨-, h2, h3⟩ := hb.clients c
    simp only [input, Prod.mk.injEq] at h2
    exact ⟨h3, h2.2.2⟩
  have hmove : ∀ k, Untouched s k → Untouched s' k := fun k hk c hc => by
    rw [(hsame c).1, (hsame c).2]
    exact hk c ((hb.clients c).1.mp hc)
  have hun : Untouched s' (s'.rooms ri).serial := by
    rcases hb.fresh with ⟨h1, h2, h3⟩ | h1
    · rw [h3]
      exact hmove _ (h.waiting ri h1 h2)
    · exact hmove _ (h.fresh _ h1)
  refine ⟨?_, hun, fun r hne hu hst => ?_⟩
  · exact
      { sent := fun c hc => by
          obtain ⟨-, -, l, h1, h2, -⟩ := hserved.turns.stays c hc
          rw [(hsame c).1, eq_comm, List.append_right_eq_self] at h1
          rw [h2, h1, (hsame c).1, List.map_nil, List.flatten_nil, List.append_nil]
          exact h.sent c ((hb.clients c).1.mp hc)
        kinds := fun c hc => by
          rw [(hsame c).1]
          exact h.kinds c ((hb.clients c).1.mp hc)
        own := fun c hc => by
          rw [(hsame c).1]
          exact h.own c ((hb.clients c).1.mp hc)
        fresh := fun k hk => hmove k (h.fresh k (Nat.le_trans hserved.turns.serial hk))
        waiting := fun r hu hst => by
          have hne : r ≠ ri := fun heq => by
            rw [heq, hb.started.2] at hst
            cases hst
          rw [hb.others r hne] at hu hst ⊢
          exact hmove _ (h.waiting r hu hst)
        inside := fun r hu hst c hc q hq hs => by
          by_cases hne : r = ri
          · rw [hne] at hs
            exact absurd hs ((hun c hc).1 q hq)
          · rw [hb.others r hne] at hu hst hs ⊢
            rw [(hsame c).1] at hq
            exact h.inside r hu hst c ((hb.clients c).1.mp hc) q hq hs }
  · rw [hb.others r hne] at hu hst
    intro b hmem
    rw [hb.others r hne] at hmem ⊢
    rw [(hsame b).1]
    obtain ⟨h1, h2⟩ := h.fanned r hu hst b hmem
    refine ⟨h1, fun a ha hab => ?_⟩
    rw [(hsame a).2]
    exact h2 a ha hab

/-- Frames to the players of one match are allowed while it is on. -/
theorem allowed_during {Q : ℕ → Queued → Prop} (hu : (s.rooms ri).used = true)
    (hst : (s.rooms ri).started = true)
    (hQ : ∀ c q, Q c q → c ∈ (s.rooms ri).members ∧
      ∀ k a, q.origin = .member k a → a ≠ c ∧ a ∈ (s.rooms ri).members) :
    Allowed s (During (s.rooms ri).serial Q) := by
  rintro c q (hq | ⟨hkind, hk, hq⟩)
  · exact allowed_quiet s c q hq
  · obtain ⟨h1, h2⟩ := hQ c q hq
    refine ⟨hkind, fun k a ho => (h2 k a ho).1, fun k hs => ?_⟩
    rw [hk] at hs
    exact ⟨ri, hu, hst, Option.some.inj hs, h1, fun k' a ho => (h2 k' a ho).2⟩

/-- The players are told: a match begins for each of them. -/
theorem Fan.tell {s₁ : Relay} (h : Fan s) (hb : Begins cfg s s₁ ri) {msgs : List (ℕ × List ℕ)}
    (hm : Seats cfg s₁ ri msgs) : Fan (tell cfg (s₁.rooms ri).serial s₁ msgs) := by
  obtain ⟨htag, hun, hother⟩ := h.begins hb
  have ht := (hb.served (fun _ _ => True) ⟨0, 0, [], trivial⟩).tables
  obtain ⟨hu, hst⟩ := hb.started
  set k := (s₁.rooms ri).serial with hk
  let Q : ℕ → Queued → Prop := fun c q => c ∈ (s₁.rooms ri).members ∧ q.origin = .start k
  let ms := msgs.map fun m => (m.1, frame T_START m.2)
  have hfst : ms.map Prod.fst = (s₁.rooms ri).members := by
    rw [List.map_map]
    exact hm.members
  have heq : Interface.IntvRelay.tell cfg k s₁ msgs =
      ms.foldl (fun s m => send_raw (drop cfg) s (.start k) m.1 m.2) s₁ := by
    rw [List.foldl_map]
    rfl
  have hlen : ∀ m ∈ msgs, m.2.length ≤ 199 := fun m hmem => by
    have hlen := hm.starts m hmem
    rw [IsStart] at hlen
    split at hlen <;> omega
  obtain ⟨hkept, hall⟩ := sends_deliver (tells_during cfg k Q) (.start k) ms
    (by rw [hfst]; exact ht.distinct ri hu (Set.notMem_empty ri)) ht
    (fun m hmem => Or.inl (ht.member ri hu (Set.notMem_empty ri) m.1
      (hfst ▸ List.mem_map_of_mem hmem)).1)
    fun m hmem => by
      obtain ⟨x, hx, rfl⟩ := List.mem_map.mp hmem
      have hmem' : x.1 ∈ msgs.map Prod.fst := List.mem_map_of_mem hx
      rw [hm.members] at hmem'
      exact Or.inr ⟨⟨isWhole_frame T_START (hlen x hx), rfl⟩, rfl, hmem', rfl⟩
  rw [← heq] at hkept hall
  set s' := Interface.IntvRelay.tell cfg k s₁ msgs
  have hg := hkept.grown
  have hP : Allowed s₁ (During k Q) := allowed_during hu hst fun c q hq =>
    ⟨hq.1, fun k' a ho => by rw [hq.2] at ho; cases ho⟩
  have hnot : ∀ c q, During k Q c q → ∀ k' a, q.origin ≠ .member k' a := fun c q hq k' a ho => by
    rcases hq with ⟨-, hq⟩ | ⟨-, -, -, hq⟩
    · rw [ho] at hq
      cases hq
    · rw [ho] at hq
      cases hq
  refine ⟨htag.grown ht hg hP, fun r hu' hst' => ?_⟩
  obtain ⟨h1, h2, h3, -, h5⟩ := hkept.shrinks.rooms r hu'
  have hst₁ := h2.symm.trans hst'
  by_cases hne : r = ri
  · subst hne
    have hup : ∀ b ∈ (s₁.rooms r).members, alive s' b := fun b hb' =>
      (hkept.tables.member r hu' (Set.notMem_empty r) b (h5 hst₁ ▸ hb')).1
    obtain ⟨hq, -⟩ := hall fun m hmem => hup m.1 (hfst ▸ List.mem_map_of_mem hmem)
    intro b hb'
    rw [h5 hst₁] at hb' ⊢
    rw [h3]
    have hb₁ := (ht.member r hu (Set.notMem_empty r) b hb').1
    obtain ⟨m, hmem, rfl⟩ := List.mem_map.mp (hfst.symm ▸ hb')
    have hno : ∀ q ∈ (s₁.clients m.1).queued, ∀ a, q.origin ≠ .member k a := fun q hq' a ho => by
      refine (hun m.1 hb₁).1 q hq' ?_
      rw [ho]
      rfl
    rw [hq m hmem]
    refine ⟨⟨_, _, [], rfl, rfl, hno⟩, fun a ha _ => ?_⟩
    have ha₁ := (ht.member r hu (Set.notMem_empty r) a ha).1
    rw [heard_append, heard_nil fun q hq' => hno q hq' a, (hg.stays a (hup a ha)).2.1,
      sentIn_nil (hun a ha₁).2]
    rfl
  · exact (hother r hne h1 hst₁).grown hkept.tables hg hu' ⟨h3, h5 hst₁⟩
      fun c q hq a => hnot c q hq _ a

/-! ### Fanning a frame out -/

/-- The match a client is in is on. -/
theorem matchOf_eq {k : ℕ} (h : matchOf s ci = some k) : ∃ r, (s.clients ci).room = some r ∧
    (s.rooms r).started = true ∧ (s.rooms r).serial = k := by
  simp only [matchOf] at h
  split at h
  · rename_i r hr
    split at h
    · rename_i hst
      exact ⟨r, hr, hst, Option.some.inj h⟩
    · cases h
  · cases h

/-- A frame has been taken off a client's buffer, and nothing has come of it yet. -/
def taken (s : Relay) (ci : ℕ) (f : List ℕ) (n : ℕ) : Relay :=
  s.modify ci fun c => { c with rx := c.rx.drop n, handled := c.handled ++ [⟨matchOf s ci, f⟩] }

/-- Taking a frame off changes nothing but what was handled, and the buffer. -/
theorem taken_same (s : Relay) (ci : ℕ) (f : List ℕ) (n : ℕ) :
    (∀ c, (alive (taken s ci f n) c ↔ alive s c) ∧
      ((taken s ci f n).clients c).queued = (s.clients c).queued ∧
      ((taken s ci f n).clients c).wire = (s.clients c).wire ∧
      ((taken s ci f n).clients c).tx = (s.clients c).tx ∧
      ((taken s ci f n).clients c).room = (s.clients c).room ∧
      ((taken s ci f n).clients c).handled = (s.clients c).handled ++
        if c = ci then [⟨matchOf s ci, f⟩] else []) ∧ (taken s ci f n).rooms = s.rooms := by
  refine ⟨fun c => ?_, rfl⟩
  by_cases hne : c = ci
  · subst hne
    rw [alive, alive, taken, modify_self, if_pos rfl]
    exact ⟨Iff.rfl, rfl, rfl, rfl, rfl, rfl⟩
  · rw [alive, alive, taken, modify_of_ne _ _ hne, if_neg hne, List.append_nil]
    exact ⟨Iff.rfl, rfl, rfl, rfl, rfl, rfl⟩

/-- Taking a frame off the buffer is no match traffic yet. -/
theorem tagged_taken (h : Tagged s) (ht : Tables cfg ∅ ∅ s) (hc : alive s ci) (f : List ℕ)
    (n : ℕ) : Tagged (taken s ci f n) := by
  obtain ⟨hcl, hrooms⟩ := taken_same s ci f n
  have hmove : ∀ k, Untouched s k → matchOf s ci ≠ some k →
      Untouched (IntvRelay.taken s ci f n) k := fun k hk hne c hup => by
    obtain ⟨h1, h2, -, -, -, h6⟩ := hcl c
    rw [h2, h6]
    obtain ⟨h7, h8⟩ := hk c (h1.mp hup)
    refine ⟨h7, fun x hx => ?_⟩
    rcases List.mem_append.mp hx with hx | hx
    · exact h8 x hx
    · split at hx
      · rw [List.mem_singleton.mp hx]
        exact hne
      · exact absurd hx List.not_mem_nil
  have hon : ∀ k, matchOf s ci = some k → ∃ r, (s.rooms r).used = true ∧
      (s.rooms r).started = true ∧ (s.rooms r).serial = k := fun k hk => by
    obtain ⟨r, h1, h2, h3⟩ := matchOf_eq hk
    exact ⟨r, (ht.seated ci r hc h1).2.2.1, h2, h3⟩
  exact
    { sent := fun c hup => by
        obtain ⟨h1, h2, h3, h4, -⟩ := hcl c
        rw [h2, h3, h4]
        exact h.sent c (h1.mp hup)
      kinds := fun c hup => by
        rw [(hcl c).2.1]
        exact h.kinds c ((hcl c).1.mp hup)
      own := fun c hup => by
        rw [(hcl c).2.1]
        exact h.own c ((hcl c).1.mp hup)
      fresh := fun k hk => hmove k (h.fresh k hk) fun heq => by
        obtain ⟨r, hu, -, hr⟩ := hon k heq
        have hlt := ht.serials r hu
        have hk' : s.serial ≤ k := hk
        omega
      waiting := fun r hu hst => by
        rw [hrooms] at hu hst ⊢
        refine hmove _ (h.waiting r hu hst) fun heq => ?_
        obtain ⟨r', hu', hst', hr'⟩ := hon _ heq
        rw [ht.apart r' r hu' hu hr', hst] at hst'
        cases hst'
      inside := fun r hu hst c hup => by
        rw [hrooms] at hu hst ⊢
        rw [(hcl c).2.1]
        exact h.inside r hu hst c ((hcl c).1.mp hup) }

/-- A frame that is not of a match leaves it where it is. -/
theorem fanned_taken (h : Fanned s ri) (f : List ℕ) (n : ℕ)
    (hf : sentIn (s.rooms ri).serial [⟨matchOf s ci, f⟩] = []) : Fanned (taken s ci f n) ri := by
  obtain ⟨hcl, hrooms⟩ := taken_same s ci f n
  intro b hb
  rw [hrooms] at hb ⊢
  rw [(hcl b).2.1]
  refine ⟨(h b hb).1, fun a ha hne => ?_⟩
  rw [(hcl a).2.2.2.2.2, sentIn_append, (h b hb).2 a ha hne]
  split
  · rw [hf, List.append_nil]
  · exact (List.append_nil _).symm

/-- A member's frame is fanned out: each of the other players has it at the end of what it was
sent, and it is the last one the member has sent. -/
theorem Fan.relay (h : Fan s) (ht : Tables cfg ∅ ∅ s) (hc : alive s ci)
    (hroom : (s.clients ci).room = some ri) (hst : (s.rooms ri).started = true) {ftype : ℕ}
    {payload : List ℕ} (hr : relayed ftype = true) (hlen : payload.length ≤ 199) {n : ℕ}
    (ht₁ : Tables cfg ∅ ∅ (taken s ci (frame ftype payload) n)) :
    Fan (relay cfg (taken s ci (frame ftype payload) n) ci ftype payload) := by
  set f := frame ftype payload with hf
  have hrf : relayed (typeOf f) = true := hr
  obtain ⟨hcl, hrooms⟩ := taken_same s ci f n
  have htag := tagged_taken h.toTagged ht hc f n
  obtain ⟨-, -, hu, hmem⟩ := ht.seated ci ri hc hroom
  set s₁ := taken s ci f n
  set k := (s.rooms ri).serial with hk
  have hmatch : matchOf s ci = some k := by
    rw [matchOf, hroom]
    exact if_pos hst
  have hall := fun m hm => ht₁.member ri (hrooms ▸ hu) (Set.notMem_empty ri) m (hrooms ▸ hm)
  let Q : ℕ → Queued → Prop := fun c q =>
    (c ∈ (s.rooms ri).members ∧ c ≠ ci) ∧ q.origin = .member k ci
  let ms := ((s.rooms ri).members.filter fun m => m ≠ ci).map fun m => (m, f)
  have heq : Model.IntvRelay.relay cfg s₁ ci ftype payload =
      ms.foldl (fun s m => send_raw (drop cfg) s (.member k ci) m.1 m.2) s₁ := by
    simp only [Model.IntvRelay.relay, (hcl ci).2.2.2.2.1, hroom, hrooms, hst, if_true, ms]
    rw [List.foldl_map, List.foldl_filter]
    simp only [decide_eq_true_eq, hk, hf]
  have hfst : ms.map Prod.fst = (s.rooms ri).members.filter fun m => m ≠ ci := by
    rw [List.map_map]
    exact List.map_id _
  have hin : ∀ m ∈ ms, m.1 ∈ (s.rooms ri).members ∧ m.1 ≠ ci := fun m hm => by
    have hm' : m.1 ∈ ms.map Prod.fst := List.mem_map_of_mem hm
    rw [hfst, List.mem_filter, decide_eq_true_eq] at hm'
    exact hm'
  obtain ⟨hkept, hsent⟩ := sends_deliver (tells_during cfg k Q) (.member k ci) ms
    (by rw [hfst]; exact (ht.distinct ri hu (Set.notMem_empty ri)).filter _) ht₁
    (fun m hm => Or.inl (hall m.1 (hin m hm).1).1) fun m hm => by
      have hm2 : m.2 = f := by
        obtain ⟨x, -, rfl⟩ := List.mem_map.mp hm
        rfl
      refine Or.inr ⟨⟨?_, ?_⟩, rfl, hin m hm, rfl⟩
      · rw [hm2]
        exact isWhole_frame ftype hlen
      · rw [hm2]
        exact hrf
  rw [← heq] at hkept hsent
  set s' := Model.IntvRelay.relay cfg s₁ ci ftype payload
  have hg := hkept.grown
  have hP : Allowed s₁ (During k Q) := by
    have hu₁ : (s₁.rooms ri).used = true := hrooms ▸ hu
    refine allowed_during hu₁ (hrooms ▸ hst) fun c q hq => ?_
    rw [hrooms]
    refine ⟨hq.1.1, fun k' a ho => ?_⟩
    rw [hq.2] at ho
    injection ho with _ ho
    exact ⟨fun hca => hq.1.2 (hca.symm.trans ho.symm), ho ▸ hmem⟩
  refine ⟨htag.grown ht₁ hg hP, fun r hu' hst' => ?_⟩
  obtain ⟨h1, h2, h3, -, h5⟩ := hkept.shrinks.rooms r hu'
  rw [hrooms] at h1 h2 h3 h5
  have hst₁ := h2.symm.trans hst'
  by_cases hne : r = ri
  · subst hne
    have hup : ∀ b ∈ (s.rooms r).members, alive s' b := fun b hb =>
      (hkept.tables.member r hu' (Set.notMem_empty r) b (h5 hst₁ ▸ hb)).1
    obtain ⟨hq, hsame⟩ := hsent fun m hm => hup m.1 (hin m hm).1
    have hhandled : ∀ a ∈ (s.rooms r).members, sentIn k (s'.clients a).handled =
        sentIn k (s.clients a).handled ++ if a = ci then [f] else [] := fun a ha => by
      rw [(hg.stays a (hup a ha)).2.1, (hcl a).2.2.2.2.2, sentIn_append]
      split
      · rw [hmatch]
        simp [sentIn, hrf]
      · rfl
    intro b hb
    rw [h5 hst₁] at hb ⊢
    rw [h3]
    obtain ⟨h6, h7⟩ := h.fanned r hu hst b hb
    by_cases hbc : b = ci
    · subst hbc
      rw [hsame b (by rw [hfst, List.mem_filter]; simp), (hcl b).2.1]
      refine ⟨h6, fun a ha hab => ?_⟩
      rw [hhandled a ha, if_neg hab, List.append_nil]
      exact h7 a ha hab
    · have hbm : (b, f) ∈ ms := List.mem_map_of_mem (List.mem_filter.mpr ⟨hb, by simpa using hbc⟩)
      rw [hq (b, f) hbm, (hcl b).2.1]
      refine ⟨h6.append _, fun a ha hab => ?_⟩
      rw [hhandled a ha, heard_append, h7 a ha hab]
      by_cases hac : a = ci
      · rw [if_pos hac, hac]
        simp [heard, hk]
      · rw [if_neg hac, heard_nil fun q hq ho => ?_]
        rw [List.mem_singleton.mp hq] at ho
        injection ho with _ ho
        exact hac ho.symm
  · have hserial : k ≠ (s.rooms r).serial := fun heq => hne (ht.apart ri r hu h1 heq).symm
    refine Fanned.grown (fanned_taken (h.fanned r h1 hst₁) f n ?_) hkept.tables hg hu'
      ⟨h3.trans (by rw [hrooms]), (h5 hst₁).trans (by rw [hrooms])⟩ fun c q hq a ho => ?_
    · refine sentIn_nil fun x hx => ?_
      rw [List.mem_singleton.mp hx, hmatch]
      exact fun heq => hserial (Option.some.inj heq)
    · rcases hq with ⟨-, hq⟩ | ⟨-, -, -, hq⟩
      · rw [ho] at hq
        cases hq
      · rw [ho] at hq
        injection hq with hq _
        exact hserial (hq.symm.trans (by rw [hrooms]))

/-! ### Runs -/

/-- One frame, whatever it is. -/
theorem fan_takeFrame (h : Fan s) (ht : Tables cfg ∅ ∅ s) (hc : alive s ci) {lenb : ℕ}
    {rest : List ℕ} (hrx : (s.clients ci).rx = lenb :: rest)
    (hlen : 1 ≤ lenb ∧ lenb ≤ 200 ∧ lenb ≤ rest.length) : Fan (takeFrame cfg s ci) := by
  have hpay : (rest.take lenb).tail.length ≤ 199 := by
    rw [List.length_tail, List.length_take]
    omega
  rw [takeFrame_eq hrx, frame_of_take hlen]
  generalize (rest.take lenb).headD 0 = ftype
  generalize (rest.take lenb).tail = payload at hpay
  obtain ⟨hread, hup⟩ := read_modify (P := Quiet) ht hc
    (fun c => { c with
      rx := c.rx.drop (lenb + 1), handled := c.handled ++ [⟨matchOf s ci, frame ftype payload⟩] })
    (fun _ => ⟨rfl, rfl, rfl, rfl, rfl⟩) fun _ => ⟨rfl, rfl, rfl⟩
  have ht₁ : Tables cfg ∅ ∅ (taken s ci (frame ftype payload) (lenb + 1)) := hread.tables
  have hup₁ : alive (taken s ci (frame ftype payload) (lenb + 1)) ci := hup
  obtain ⟨hcl, hrooms⟩ := taken_same s ci (frame ftype payload) (lenb + 1)
  change Fan (handle cfg (taken s ci (frame ftype payload) (lenb + 1)) ci ftype payload)
  -- a frame that belongs to no match leaves the players where they are
  have hidle : (matchOf s ci = none ∨ relayed ftype = false) →
      Fan (taken s ci (frame ftype payload) (lenb + 1)) := fun hor => by
    refine ⟨tagged_taken h.toTagged ht hc _ _, fun r hu hst => ?_⟩
    rw [hrooms] at hu hst
    refine fanned_taken (h.fanned r hu hst) _ _ ?_
    rcases hor with hnone | hnot
    · refine sentIn_nil fun x hx => ?_
      rw [List.mem_singleton.mp hx, hnone]
      exact nofun
    · have hty : relayed (typeOf (frame ftype payload)) = false := hnot
      simp [sentIn, hty]
  by_cases hr : relayed ftype = true
  · have heq : handle cfg (taken s ci (frame ftype payload) (lenb + 1)) ci ftype payload =
        relay cfg (taken s ci (frame ftype payload) (lenb + 1)) ci ftype payload := by
      rw [handle, if_pos hr]
    rw [heq]
    cases hroom : (s.clients ci).room with
    | none =>
      have hsame : relay cfg (taken s ci (frame ftype payload) (lenb + 1)) ci ftype payload =
          taken s ci (frame ftype payload) (lenb + 1) := by
        simp only [relay, (hcl ci).2.2.2.2.1, hroom]
      rw [hsame]
      exact hidle (Or.inl (by rw [matchOf, hroom]))
    | some r =>
      by_cases hst : (s.rooms r).started = true
      · exact h.relay ht hc hroom hst hr hpay ht₁
      · have hsame : relay cfg (taken s ci (frame ftype payload) (lenb + 1)) ci ftype payload =
            taken s ci (frame ftype payload) (lenb + 1) := by
          simp only [relay, (hcl ci).2.2.2.2.1, hroom, hrooms, if_neg hst]
        rw [hsame]
        exact hidle (Or.inl (by rw [matchOf, hroom]; exact if_neg hst))
  · have hfan := hidle (Or.inr (Bool.eq_false_of_not_eq_true hr))
    generalize hres : handle cfg (taken s ci (frame ftype payload) (lenb + 1)) ci ftype payload = s'
    have hdoes := does_handle (answers_quiet cfg) ht₁ hup₁ ftype payload
    rw [hres] at hdoes
    cases hdoes with
    | answers hs => exact hfan.quiet ht₁ hs
    | starts hs hb hm => exact (hfan.quiet ht₁ hs).tell hb hm
    | relays h' => exact absurd h' hr

/-- A new connection has been sent nothing. -/
theorem fan_accept (h : Fan s) (hset : Settled cfg s) (ip now : ℕ) (added : Bool) :
    Fan (accept_client s ip now added) := by
  rcases accept_client_eq hset ip now added with heq | ⟨i, x, hi, hu, hb, heq⟩
  · rw [heq]
    exact h
  rw [heq]
  set s' : Relay := { s with
    clients := Function.update s.clients i x, n_clients := s.n_clients + x.in_use.toNat }
  have hin := hb.input
  simp only [input, Prod.mk.injEq] at hin
  have hnew : s'.clients i = x := Function.update_self ..
  have hold : ∀ c, c ≠ i → s'.clients c = s.clients c := fun c hne => Function.update_of_ne hne ..
  have hwas : ∀ c, c ≠ i → alive s' c → alive s c := fun c hne hc => by
    rw [alive, hold c hne] at hc
    exact hc
  have hmove : ∀ k, Untouched s k → Untouched s' k := fun k hk c hc => by
    by_cases hne : c = i
    · rw [hne, hnew, hb.output.1, hin.2.2]
      exact ⟨List.forall_mem_nil _, List.forall_mem_nil _⟩
    · rw [hold c hne]
      exact hk c (hwas c hne hc)
  have hq : ∀ c, alive s' c → ∀ q ∈ (s'.clients c).queued,
      alive s c ∧ q ∈ (s.clients c).queued := fun c hc q hq => by
    by_cases hne : c = i
    · rw [hne, hnew, hb.output.1] at hq
      cases hq
    · rw [hold c hne] at hq
      exact ⟨hwas c hne hc, hq⟩
  refine ⟨?_, fun r hur hst b hmem => ?_⟩
  · exact
      { sent := fun c hc => by
          by_cases hne : c = i
          · rw [hne, hnew, hb.output.1, hb.output.2.1, hb.output.2.2]
            rfl
          · rw [hold c hne]
            exact h.sent c (hwas c hne hc)
        kinds := fun c hc q hmem => h.kinds c (hq c hc q hmem).1 q (hq c hc q hmem).2
        own := fun c hc q hmem => h.own c (hq c hc q hmem).1 q (hq c hc q hmem).2
        fresh := fun k hk => hmove k (h.fresh k hk)
        waiting := fun r hur hst => hmove _ (h.waiting r hur hst)
        inside := fun r hur hst c hc q hmem =>
          h.inside r hur hst c (hq c hc q hmem).1 q (hq c hc q hmem).2 }
  · have hne : ∀ m ∈ (s.rooms r).members, m ≠ i := fun m hm heq => by
      have hup := (hset.tables.member r hur (Set.notMem_empty r) m hm).1
      rw [heq, alive, hu] at hup
      cases hup.1
    obtain ⟨h1, h2⟩ := h.fanned r hur hst b hmem
    rw [hold b (hne b hmem)]
    refine ⟨h1, fun a ha hab => ?_⟩
    rw [hold a (hne a ha)]
    exact h2 a ha hab

/-- In the relay's first state nothing has been sent or handled. -/
theorem fan_start : Fan start where
  sent _ _ := rfl
  kinds _ hc := (nomatch hc.1)
  own _ hc := (nomatch hc.1)
  fresh _ _ _ hc := (nomatch hc.1)
  waiting _ hu := (nomatch hu)
  inside _ hu := (nomatch hu)
  fanned _ hu := (nomatch hu)

/-- Every event keeps the matches in order. -/
theorem fan_step (h : Fan s) (hset : Settled cfg s) (i : Input) : Fan (step cfg s i) := by
  have hw := settled_world hset i.kernel i.seeds
  have hf : Fan { s with kernel := i.kernel, seeds := i.seeds } := ⟨{ h.toTagged with }, h.fanned⟩
  have hquiet := answers_quiet cfg
  simp only [step]
  cases i.event with
  | accept ip now added => exact fan_accept hf hw ip now added
  | writable ci =>
    simp only [serve]
    split
    · rename_i hc
      exact hf.quiet hw.tables (served_flush hquiet hw.tables (show alive _ ci from hc))
    · exact hf
  | readable ci r =>
    simp only [serve]
    split
    · rename_i hc
      refine service_rule (Q := Fan) (fun s ht hc hq => hq.quiet ht (served_drop hquiet ht hc).1)
        (fun s p ht hc hq => hq.modify ht hc _ (fun _ => ⟨rfl, rfl, rfl, rfl, rfl⟩)
          (fun _ => ⟨rfl, rfl, rfl⟩) fun _ => rfl)
        (fun s lenb rest ht hc hrx hlen hq => fan_takeFrame hq ht hc hrx hlen) r hw.tables
        (show alive _ ci from hc) (hw.decoded ci hc) hf
    · exact hf
  | sweep now => exact hf.quiet hw.tables (served_sweep hquiet hw.tables now)

/-- And so do any number of them. -/
theorem fan_run (cfg : Config) (is : List Input) : Fan (run cfg is) := by
  have hboth : ∀ s, Settled cfg s ∧ Fan s → Settled cfg (is.foldl (step cfg) s) ∧
      Fan (is.foldl (step cfg) s) := by
    induction is with
    | nil => exact fun s h => h
    | cons i is ih => exact fun s h => ih _ ⟨(settled_step h.1 i).1, fan_step h.2 h.1 i⟩
  exact (hboth start ⟨settled_start cfg, fan_start⟩).2

/-- After any sequence of events, whatever each send comes to.  For a client that is up, what the
kernel took and what waits are the frames queued to it, all of them whole; those of the relayed
types are the ones members sent; and the frames handled are what the framing makes of the bytes
received from it.  In a match that is on, every player was sent its START, and after it the frames
of each other player, each once, as they were and in order; nobody else was sent
any of them, nor a player its own. -/
theorem match_traffic (cfg : Config) (is : List Input) :
    (∀ c, alive (run cfg is) c →
      ((run cfg is).clients c).wire ++ ((run cfg is).clients c).tx =
        (((run cfg is).clients c).queued.map Queued.bytes).flatten ∧
      (∀ q ∈ ((run cfg is).clients c).queued, IsWhole q.bytes ∧
        (relayed (typeOf q.bytes) = true ↔ ∃ k a, q.origin = .member k a)) ∧
      relayFraming.scan ((run cfg is).clients c).received =
        (((run cfg is).clients c).handled.map fun h => Item.frame h.bytes,
          ((run cfg is).clients c).rx)) ∧
    ∀ r, ((run cfg is).rooms r).used = true → ((run cfg is).rooms r).started = true →
      Fanned (run cfg is) r ∧
      ∀ c, alive (run cfg is) c → ∀ q ∈ ((run cfg is).clients c).queued, ∀ a,
        q.origin = .member ((run cfg is).rooms r).serial a →
          a ≠ c ∧ a ∈ ((run cfg is).rooms r).members ∧ c ∈ ((run cfg is).rooms r).members := by
  have h := fan_run cfg is
  refine ⟨fun c hc => ⟨h.sent c hc, fun q hq => ?_, (settled_run cfg is).decoded c hc⟩,
    fun r hu hst => ⟨h.fanned r hu hst, fun c hc q hq a ho => ?_⟩⟩
  · obtain ⟨h1, h2⟩ := h.kinds c hc q hq
    refine ⟨h1, ?_⟩
    cases ho : q.origin with
    | relay =>
      rw [ho] at h2
      simp [h2.1]
    | start k =>
      rw [ho] at h2
      have h3 : typeOf q.bytes = T_START := h2
      have h4 : relayed (typeOf q.bytes) = false := by
        rw [h3]
        rfl
      simp [h4]
    | member k a =>
      rw [ho] at h2
      have h3 : relayed (typeOf q.bytes) = true := h2
      simp [h3]
  · obtain ⟨h1, h2⟩ := h.inside r hu hst c hc q hq (by rw [ho]; rfl)
    exact ⟨h.own c hc q hq _ a ho, h2 _ a ho, h1⟩

end BoxingNetplay.Analysis.IntvRelay
