import BoxingNetplay.Interface.RelayEvents
import BoxingNetplay.Interface.RelayFraming

/-!
# The loop of the C relay

Reading from a client handles the frames of its stream, as the framing has them, however the
stream is cut.  Between events the tables are consistent, every slot in use is up, and what is
left in a buffer is the beginning of a frame.
-/

set_option autoImplicit false

namespace BoxingNetplay.Interface.IntvRelay

open BoxingNetplay.Library
open BoxingNetplay.Model.Wire
open BoxingNetplay.Model.IntvRelay

/-! ### The stream -/

/-- The tables are consistent after reading from a client, and nothing was read from others. -/
structure Read (cfg : Config) (P : ℕ → Queued → Prop) (ci : ℕ) (s s' : Relay) : Prop where
  tables : Tables cfg ∅ ∅ s'
  turns : Turns P s s'
  others : ∀ c, c ≠ ci → alive s' c → input (s'.clients c) = input (s.clients c)

/-- What was received is what was handled, frame by frame, and the beginning of one more. -/
def Decoded (c : Client) : Prop :=
  relayFraming.scan c.received = (c.handled.map fun h => Item.frame h.bytes, c.rx)

/-- The frames at the front of a stream may be relayed. -/
def Passes (P : ℕ → Queued → Prop) (ci : ℕ) (xs : List ℕ) : Prop :=
  ∀ f, Item.frame f ∈ (relayFraming.scan xs).1 → relayed (f.getD 1 0) = true →
    ∀ c k, P c ⟨.member k ci, f⟩

/-- Frames of any kind. -/
theorem says_any (cfg : Config) : Says cfg fun _ _ => True where
  room _ _ _ _ := trivial
  left _ _ _ := trivial
  lobby _ _ _ _ _ := trivial
  pong _ := trivial
  start _ _ _ _ := trivial

theorem passes_any (ci : ℕ) (xs : List ℕ) : Passes (fun _ _ => True) ci xs :=
  fun _ _ _ _ _ => trivial

section Stream

variable {cfg : Config} {P : ℕ → Queued → Prop} {s s' s'' : Relay} {ci : ℕ}

/-- What is served leaves what is read as it was. -/
theorem Served.read (h : Served cfg P s s') : Read cfg P ci s s' :=
  ⟨h.tables, h.turns, fun c _ hc => h.input c hc⟩

theorem Read.refl (ht : Tables cfg ∅ ∅ s) : Read cfg P ci s s := (Served.refl ht).read

theorem Read.trans (h : Read cfg P ci s s') (h' : Read cfg P ci s' s'') : Read cfg P ci s s'' :=
  ⟨h'.tables, h.turns.trans h'.turns, fun c hne hc =>
    (h'.others c hne hc).trans (h.others c hne (h'.turns.stays c hc).1)⟩

/-- Who is not dead after all is up. -/
theorem Turns.alive (h : Turns P s s') (hc : alive s ci) (hd : ¬ (s'.clients ci).dead = true) :
    alive s' ci := by
  by_contra hl
  exact hd (h.gone ci hc hl).1

/-- Changing what was read from a client that is up. -/
theorem read_modify (ht : Tables cfg ∅ ∅ s) (hc : alive s ci) (f : Client → Client)
    (hf : ∀ c, (f c).in_use = c.in_use ∧ (f c).dead = c.dead ∧ (f c).gen = c.gen ∧
      (f c).name = c.name ∧ (f c).room = c.room)
    (hg : ∀ c, (f c).queued = c.queued ∧ (f c).wire = c.wire ∧ (f c).tx = c.tx) :
    Read cfg P ci s (s.modify ci f) ∧ IntvRelay.alive (s.modify ci f) ci := by
  have h := same_modify s ci f hf
  refine ⟨⟨h.tables ht, ?_, fun c hne _ => by rw [modify_of_ne s f hne]⟩,
    (h.alive_iff ci).mpr hc⟩
  exact
    { stays := fun c hc => ⟨(h.alive_iff c).mp hc, (h.clients c).2.2.1, by
        by_cases hne : c = ci
        · rw [hne, modify_self]
          exact Grows.of_eq (hg _).1 (hg _).2.1 (hg _).2.2
        · rw [modify_of_ne s f hne]
          exact Grows.refl ..⟩
      gone := fun c hc hn => absurd ((h.alive_iff c).mpr hc) hn
      rest := fun c hn => modify_of_ne s f fun heq => hn (heq ▸ hc)
      rooms := fun r hu => Or.inl ⟨hu, rfl, fun hs => ⟨hs, rfl⟩, Or.inl⟩
      serial := Nat.le_refl _ }

/-- The frame at the front of the buffer is handled as one of its type with its payload. -/
theorem takeFrame_eq {lenb : ℕ} {rest : List ℕ} (hrx : (s.clients ci).rx = lenb :: rest) :
    takeFrame cfg s ci = handle cfg (s.modify ci fun c =>
      { c with
        rx := c.rx.drop (lenb + 1)
        handled := c.handled ++ [⟨matchOf s ci, lenb :: rest.take lenb⟩] })
      ci ((rest.take lenb).headD 0) (rest.take lenb).tail := by
  simp only [takeFrame, hrx, List.headD_cons, List.drop_succ_cons, List.drop_zero]

/-- One frame, at the front of the buffer. -/
theorem read_takeFrame (hP : Says cfg P) (ht : Tables cfg ∅ ∅ s) (hc : alive s ci) {lenb : ℕ}
    {rest : List ℕ} (hrx : (s.clients ci).rx = lenb :: rest) (h1 : ¬ (lenb = 0 ∨ lenb > 200))
    (h2 : ¬ rest.length < lenb) (hq : Passes P ci (s.clients ci).rx) :
    Read cfg P ci s (takeFrame cfg s ci) ∧ (alive (takeFrame cfg s ci) ci →
      input ((takeFrame cfg s ci).clients ci) =
        (rest.drop lenb, (s.clients ci).received,
          (s.clients ci).handled ++ [⟨matchOf s ci, lenb :: rest.take lenb⟩])) := by
  obtain ⟨h3, hup⟩ := read_modify (P := P) ht hc
    (fun c => { c with
      rx := c.rx.drop (lenb + 1), handled := c.handled ++ [⟨matchOf s ci, lenb :: rest.take lenb⟩] })
    (fun _ => ⟨rfl, rfl, rfl, rfl, rfl⟩) fun _ => ⟨rfl, rfl, rfl⟩
  have hlen : 1 ≤ lenb ∧ lenb ≤ 200 ∧ lenb ≤ rest.length := ⟨by omega, by omega, by omega⟩
  have hbody := frame_of_take hlen
  have hmem : Item.frame (lenb :: rest.take lenb) ∈
      (relayFraming.scan (s.clients ci).rx).1 := by
    have hv : relayFraming.verdict (lenb :: rest) = .take (lenb + 1) := by
      change relayVerdict (lenb :: rest) = _
      rw [relayVerdict, if_neg h1, if_neg h2]
    rw [hrx, relayFraming.scan_take _ _ hv, List.take_succ_cons]
    exact List.mem_cons_self
  have h4 := served_handle hP h3.tables hup ((rest.take lenb).headD 0) (rest.take lenb).tail
    fun hr c k => by
      rw [hbody] at hmem
      exact hq _ hmem hr c k
  rw [takeFrame_eq hrx]
  refine ⟨h3.trans h4.read, fun hl => ?_⟩
  rw [h4.input ci hl, IntvRelay.input, modify_self, hrx, List.drop_succ_cons]

/-- The complete frames of a buffer. -/
theorem read_drain (hP : Says cfg P) (fuel : ℕ) (ht : Tables cfg ∅ ∅ s) (hc : alive s ci)
    (hlen : (s.clients ci).rx.length ≤ fuel) (hq : Passes P ci (s.clients ci).rx) :
    Read cfg P ci s (drain cfg fuel s ci) ∧ (alive (drain cfg fuel s ci) ci →
      ∃ fs : List Handled,
        relayFraming.scan (s.clients ci).rx = (fs.map fun h => Item.frame h.bytes,
          ((drain cfg fuel s ci).clients ci).rx) ∧
        ((drain cfg fuel s ci).clients ci).received = (s.clients ci).received ∧
        ((drain cfg fuel s ci).clients ci).handled = (s.clients ci).handled ++ fs) := by
  induction fuel generalizing s with
  | zero =>
    have hnil := List.length_eq_zero_iff.mp (Nat.le_zero.mp hlen)
    refine ⟨Read.refl ht, fun _ => ⟨[], ?_, rfl, (List.append_nil _).symm⟩⟩
    simp only [drain]
    rw [hnil]
    rfl
  | succ fuel ih =>
    simp only [drain]
    split
    · rename_i hrx
      refine ⟨Read.refl ht, fun _ => ⟨[], ?_, rfl, (List.append_nil _).symm⟩⟩
      rw [hrx]
      rfl
    rename_i lenb rest hrx
    split
    · have hd := served_drop hP.toAnswers ht hc
      exact ⟨hd.1.read, fun hl => absurd (hl.2.symm.trans hd.2) Bool.false_ne_true⟩
    rename_i h1
    split
    · rename_i h2
      have hv : relayFraming.verdict (lenb :: rest) = .wait := by
        change relayVerdict (lenb :: rest) = _
        rw [relayVerdict, if_neg h1, if_pos h2]
      refine ⟨Read.refl ht, fun _ => ⟨[], ?_, rfl, (List.append_nil _).symm⟩⟩
      rw [hrx, relayFraming.scan_wait _ hv]
      rfl
    rename_i h2
    have hv : relayFraming.verdict (lenb :: rest) = .take (lenb + 1) := by
      change relayVerdict (lenb :: rest) = _
      rw [relayVerdict, if_neg h1, if_neg h2]
    obtain ⟨hk, hrest⟩ := read_takeFrame hP ht hc hrx h1 h2 hq
    split
    · rename_i hd
      exact ⟨hk, fun hl => absurd (hl.2.symm.trans hd) Bool.false_ne_true⟩
    · rename_i hd
      have hup := hk.turns.alive hc hd
      have hin := hrest hup
      simp only [IntvRelay.input, Prod.mk.injEq] at hin
      obtain ⟨hrx', hrec', hh'⟩ := hin
      rw [hrx] at hlen
      obtain ⟨h3, h4⟩ := ih hk.tables hup (by
        rw [hrx', List.length_drop]
        simp only [List.length_cons] at hlen
        omega) (fun f hf => by
        refine hq f ?_
        rw [hrx, relayFraming.scan_take _ _ hv, List.drop_succ_cons, ← hrx']
        exact List.mem_cons_of_mem _ hf)
      refine ⟨hk.trans h3, fun hl => ?_⟩
      obtain ⟨fs, h5, h6, h7⟩ := h4 hl
      refine ⟨⟨matchOf s ci, lenb :: rest.take lenb⟩ :: fs, ?_, h6.trans hrec', ?_⟩
      · rw [hrx, relayFraming.scan_take _ _ hv, List.drop_succ_cons, ← hrx', h5,
          List.take_succ_cons]
        rfl
      · rw [h7, hh', List.append_assoc]
        rfl

/-- Its buffer waits for more. -/
theorem Decoded.waits {c : Client} (h : Decoded c) : relayFraming.verdict c.rx = .wait := by
  have hv := relayFraming.verdict_scan_rest c.received
  rw [h] at hv
  exact hv

/-- Bytes are appended to the buffer. -/
theorem read_chunk (ht : Tables cfg ∅ ∅ s) (hc : alive s ci) (p : List ℕ) :
    Read cfg P ci s (s.modify ci fun c =>
        { c with rx := c.rx ++ p, received := c.received ++ p }) ∧
      alive (s.modify ci fun c => { c with rx := c.rx ++ p, received := c.received ++ p }) ci :=
  read_modify ht hc _ (fun _ => ⟨rfl, rfl, rfl, rfl, rfl⟩) fun _ => ⟨rfl, rfl, rfl⟩

/-- As many bytes as there is space for, and the frames they complete. -/
theorem read_space (hP : Says cfg P) (p : List ℕ) (ht : Tables cfg ∅ ∅ s) (hc : alive s ci)
    (hdec : Decoded (s.clients ci)) {space : ℕ} (hspace : space = RX_CAP - (s.clients ci).rx.length)
    (hq : Passes P ci ((s.clients ci).rx ++ p)) {s' : Relay}
    (hs' : s' = drain cfg RX_CAP (s.modify ci fun c =>
      { c with rx := c.rx ++ p.take space, received := c.received ++ p.take space }) ci) :
    Read cfg P ci s s' ∧ (alive s' ci → Decoded (s'.clients ci) ∧
      (s'.clients ci).received = (s.clients ci).received ++ p.take space ∧
      Passes P ci ((s'.clients ci).rx ++ p.drop space)) := by
  have hlen := length_le_of_relay_wait hdec.waits
  obtain ⟨h1, hup⟩ := read_chunk (P := P) ht hc (p.take space)
  have hsplit : (s.clients ci).rx ++ p = ((s.clients ci).rx ++ p.take space) ++ p.drop space := by
    rw [List.append_assoc, List.take_append_drop]
  obtain ⟨h2, hrx⟩ := read_drain hP RX_CAP h1.tables hup (by
    simp only [modify_self, List.length_append, List.length_take, hspace, RX_CAP]
    omega) (fun f hf => by
    refine hq f ?_
    rw [hsplit, relayFraming.scan_append]
    rw [modify_self] at hf
    exact List.mem_append_left _ hf)
  rw [← hs'] at h2 hrx
  refine ⟨h1.trans h2, fun hl => ?_⟩
  obtain ⟨fs, h3, h4, h5⟩ := hrx hl
  rw [modify_self] at h3 h4 h5
  refine ⟨?_, h4, fun f hf => ?_⟩
  · simp only [Decoded]
    rw [h4, relayFraming.scan_append, hdec, h3, h5, List.map_append]
  · refine hq f ?_
    rw [hsplit, relayFraming.scan_append, h3]
    exact List.mem_append_right _ hf

/-- The bytes of one `recv()`.  There is always space for some of them. -/
theorem read_feed (hP : Says cfg P) (fuel : ℕ) (p : List ℕ) (hfuel : p.length ≤ fuel)
    (ht : Tables cfg ∅ ∅ s) (hc : alive s ci) (hdec : Decoded (s.clients ci))
    (hq : Passes P ci ((s.clients ci).rx ++ p)) :
    Read cfg P ci s (feed cfg fuel s ci p) ∧ (alive (feed cfg fuel s ci p) ci →
      Decoded ((feed cfg fuel s ci p).clients ci) ∧
      ((feed cfg fuel s ci p).clients ci).received = (s.clients ci).received ++ p) := by
  induction fuel generalizing s p with
  | zero =>
    rw [List.length_eq_zero_iff.mp (Nat.le_zero.mp hfuel)]
    exact ⟨Read.refl ht, fun _ => ⟨hdec, (List.append_nil _).symm⟩⟩
  | succ fuel ih =>
    have hlen := length_le_of_relay_wait hdec.waits
    simp only [feed]
    split
    · rename_i hp
      rw [hp]
      exact ⟨Read.refl ht, fun _ => ⟨hdec, (List.append_nil _).symm⟩⟩
    rename_i hp
    split
    · simp only [RX_CAP] at *
      omega
    rename_i hspace
    have hplen : 0 < p.length := List.length_pos_iff.mpr hp
    obtain ⟨h1, hrx⟩ := read_space hP p ht hc hdec rfl hq rfl
    split
    · rename_i hd
      exact ⟨h1, fun hl => absurd (hl.2.symm.trans hd) Bool.false_ne_true⟩
    · rename_i hd
      have hup := h1.turns.alive hc hd
      obtain ⟨hdec', hrec, hq'⟩ := hrx hup
      obtain ⟨h6, h7⟩ := ih _ (by rw [List.length_drop]; omega) h1.tables hup hdec' hq'
      refine ⟨h1.trans h6, fun hl => ?_⟩
      obtain ⟨h8, h9⟩ := h7 hl
      refine ⟨h8, ?_⟩
      rw [h9, hrec, List.append_assoc, List.take_append_drop]

/-- What a client sends in one `recv()`. -/
def Recv.bytes : Recv → List ℕ
  | .got data => data
  | .blocked => []
  | .failed => []

/-- One `recv()`. -/
theorem read_service (hP : Says cfg P) (r : Recv) (ht : Tables cfg ∅ ∅ s) (hc : alive s ci)
    (hdec : Decoded (s.clients ci)) (hq : Passes P ci ((s.clients ci).rx ++ Recv.bytes r)) :
    Read cfg P ci s (service cfg s ci r) ∧ (alive (service cfg s ci r) ci →
      Decoded ((service cfg s ci r).clients ci) ∧
      ((service cfg s ci r).clients ci).received = (s.clients ci).received ++ Recv.bytes r) := by
  have hd := served_drop hP.toAnswers ht hc
  have hdrop : Read cfg P ci s (drop cfg s ci) ∧ ¬ alive (drop cfg s ci) ci :=
    ⟨hd.1.read, fun hl => absurd (hl.2.symm.trans hd.2) Bool.false_ne_true⟩
  cases r with
  | blocked => exact ⟨Read.refl ht, fun _ => ⟨hdec, (List.append_nil _).symm⟩⟩
  | failed => exact ⟨hdrop.1, fun hl => absurd hl hdrop.2⟩
  | got data =>
    simp only [service]
    split
    · exact ⟨hdrop.1, fun hl => absurd hl hdrop.2⟩
    · exact read_feed hP data.length data (Nat.le_refl _) ht hc hdec hq

/-- What every frame and every chunk keeps, reading keeps. -/
theorem service_rule {Q : Relay → Prop}
    (hdrop : ∀ s, Tables cfg ∅ ∅ s → alive s ci → Q s → Q (drop cfg s ci))
    (hchunk : ∀ s p, Tables cfg ∅ ∅ s → alive s ci → Q s →
      Q (s.modify ci fun c => { c with rx := c.rx ++ p, received := c.received ++ p }))
    (hframe : ∀ s lenb rest, Tables cfg ∅ ∅ s → alive s ci →
      (s.clients ci).rx = lenb :: rest → 1 ≤ lenb ∧ lenb ≤ 200 ∧ lenb ≤ rest.length → Q s →
      Q (takeFrame cfg s ci))
    (r : Recv) (ht : Tables cfg ∅ ∅ s) (hc : alive s ci) (hdec : Decoded (s.clients ci))
    (hq : Q s) : Q (service cfg s ci r) := by
  have hdrain : ∀ fuel s, Tables cfg ∅ ∅ s → alive s ci → Q s → Q (drain cfg fuel s ci) := by
    intro fuel
    induction fuel with
    | zero => exact fun s _ _ hq => hq
    | succ fuel ih =>
      intro s ht hc hq
      simp only [drain]
      split
      · exact hq
      rename_i lenb rest hrx
      split
      · exact hdrop s ht hc hq
      rename_i h1
      split
      · exact hq
      rename_i h2
      have hk := (read_takeFrame (says_any cfg) ht hc hrx h1 h2 (passes_any ci _)).1
      have hq' := hframe s lenb rest ht hc hrx ⟨by omega, by omega, by omega⟩ hq
      split
      · exact hq'
      · rename_i hd
        exact ih _ hk.tables (hk.turns.alive hc hd) hq'
  have hfeed : ∀ fuel p s, p.length ≤ fuel → Tables cfg ∅ ∅ s → alive s ci →
      Decoded (s.clients ci) → Q s → Q (feed cfg fuel s ci p) := by
    intro fuel
    induction fuel with
    | zero => exact fun p s _ _ _ _ hq => hq
    | succ fuel ih =>
      intro p s hfuel ht hc hdec hq
      simp only [feed]
      split
      · exact hq
      rename_i hp
      split
      · rename_i hspace
        have hlen := length_le_of_relay_wait hdec.waits
        simp only [RX_CAP] at hspace
        omega
      rename_i hspace
      obtain ⟨h1, hup⟩ := read_chunk (P := fun _ _ => True) ht hc
        (p.take (RX_CAP - (s.clients ci).rx.length))
      have hq' := hdrain RX_CAP _ h1.tables hup
        (hchunk s (p.take (RX_CAP - (s.clients ci).rx.length)) ht hc hq)
      split
      · exact hq'
      · rename_i hd
        obtain ⟨h2, hrx⟩ := read_space (says_any cfg) p ht hc hdec rfl (passes_any ci _) rfl
        have hup' := h2.turns.alive hc hd
        refine ih _ _ ?_ h2.tables hup' (hrx hup').1 hq'
        have hplen := List.length_pos_iff.mpr hp
        rw [List.length_drop]
        omega
  cases r with
  | blocked => exact hq
  | failed => exact hdrop s ht hc hq
  | got data =>
    simp only [service]
    split
    · exact hdrop s ht hc hq
    · exact hfeed data.length data s (Nat.le_refl _) ht hc hdec hq

end Stream

/-! ### The main loop -/

/-- What holds between events: also, every slot in use is up, and what was received from it was
handled up to the beginning of a frame. -/
structure Settled (cfg : Config) (s : Relay) : Prop where
  tables : Tables cfg ∅ ∅ s
  up : ∀ c, (s.clients c).in_use = true → (s.clients c).dead = false
  decoded : ∀ c, alive s c → Decoded (s.clients c)

section Loop

variable {cfg : Config} {P : ℕ → Queued → Prop} {s s' : Relay} {ci : ℕ}

/-- After an event about a connection that is up. -/
theorem Settled.of_read (h : Settled cfg s) (hk : Read cfg P ci s s')
    (hdec : alive s' ci → Decoded (s'.clients ci)) : Settled cfg s' where
  tables := hk.tables
  up c hu := by
    by_cases hl : alive s' c
    · exact hl.2
    · by_cases hl' : alive s c
      · rw [(hk.turns.gone c hl' hl).2.1] at hu
        cases hu
      · rw [hk.turns.rest c hl'] at hu ⊢
        exact h.up c hu
  decoded c hc := by
    by_cases hne : c = ci
    · exact hne ▸ hdec (hne ▸ hc)
    · have hin := hk.others c hne hc
      simp only [input, Prod.mk.injEq] at hin
      rw [Decoded, hin.1, hin.2.1, hin.2.2]
      exact h.decoded c (hk.turns.stays c hc).1

/-- Serving keeps a relay settled. -/
theorem Settled.of_served (h : Settled cfg s) (hk : Served cfg P s s') : Settled cfg s' := by
  have hr : Read cfg P 0 s s' := hk.read
  refine h.of_read hr fun hc => ?_
  have hin := hk.input 0 hc
  simp only [input, Prod.mk.injEq] at hin
  rw [Decoded, hin.1, hin.2.1, hin.2.2]
  exact h.decoded 0 (hk.turns.stays 0 hc).1

/-- Hanging up on those who do not say who they are. -/
theorem served_sweep (hP : Answers cfg P) (ht : Tables cfg ∅ ∅ s) (now : ℕ) :
    Served cfg P s (sweepClients cfg s now) := by
  simp only [sweepClients]
  generalize List.range MAX_CLIENTS = l
  induction l generalizing s with
  | nil => exact Served.refl ht
  | cons i l ih =>
    rw [List.foldl_cons]
    split
    · rename_i hi
      have hd := (served_drop hP ht ⟨hi.1, hi.2.1⟩).1
      exact hd.trans (ih hd.tables)
    · exact ih ht

/-- A writable socket. -/
theorem served_flush (hP : Answers cfg P) (ht : Tables cfg ∅ ∅ s) (hc : alive s ci) :
    Served cfg P s (flush (drop cfg) s ci) :=
  ((sound_drop hP.toTells).flush ht (live_card_le s) hc).served

/-- While not all slots are in use, one is free. -/
theorem Tables.slot_free {D E : Set ℕ} (ht : Tables cfg D E s) (hn : s.n_clients < MAX_CLIENTS) :
    ∃ i, i < MAX_CLIENTS ∧ (s.clients i).in_use = false := by
  by_contra hall
  have hsub : Finset.range MAX_CLIENTS ⊆ inUse s := fun i hi => by
    refine Finset.mem_filter.mpr ⟨hi, ?_⟩
    cases h : (s.clients i).in_use with
    | true => rfl
    | false => exact absurd ⟨i, Finset.mem_range.mp hi, h⟩ hall
  have hcard := Finset.card_le_card hsub
  rw [Finset.card_range, ← ht.count] at hcard
  omega

/-- A slot that is not in use may hold anything that is not, or a connection without a name or a
room. -/
theorem Settled.replace (h : Settled cfg s) (hci : ci < MAX_CLIENTS)
    (hfree : (s.clients ci).in_use = false) (hother : ∀ c, c ≠ ci → s'.clients c = s.clients c)
    (hnew : (s'.clients ci).in_use = true → (s'.clients ci).dead = false ∧
      (s'.clients ci).room = none ∧ (s'.clients ci).name = [] ∧ Decoded (s'.clients ci))
    (hcount : s'.n_clients = s.n_clients + (s'.clients ci).in_use.toNat)
    (hrest : s'.rooms = s.rooms ∧ s'.by_name = s.by_name ∧ s'.serial = s.serial ∧
      s'.reached = s.reached) : Settled cfg s' := by
  have ht := h.tables
  have hdown : ¬ alive s ci := fun hl => by
    rw [hl.1] at hfree
    cases hfree
  have hold : ∀ c, alive s c → c ≠ ci := fun c hl heq => hdown (heq ▸ hl)
  have hkeep : ∀ c, alive s c → alive s' c := fun c hl => by
    rw [alive, hother c (hold c hl)]
    exact hl
  have hwas : ∀ c, c ≠ ci → alive s' c → alive s c := fun c hne hl => by
    rw [alive, hother c hne] at hl
    exact hl
  have huse : s'.n_clients = (inUse s').card := by
    rw [hcount, ht.count]
    cases hu : (s'.clients ci).in_use with
    | false =>
      have heq : inUse s' = inUse s := Finset.filter_congr fun c _ => by
        by_cases hne : c = ci
        · rw [hne, hu, hfree]
        · rw [hother c hne]
      rw [heq, Bool.toNat_false, Nat.add_zero]
    | true =>
      have heq : inUse s' = insert ci (inUse s) := by
        ext c
        rw [Finset.mem_insert, inUse, inUse, Finset.mem_filter, Finset.mem_filter,
          Finset.mem_range]
        by_cases hne : c = ci
        · subst hne
          tauto
        · rw [hother c hne]
          tauto
      have hni : ci ∉ inUse s := fun hm => by
        rw [(Finset.mem_filter.mp hm).2] at hfree
        cases hfree
      rw [heq, Finset.card_insert_of_notMem hni, Bool.toNat_true]
  refine ⟨?_, fun c hu => ?_, fun c hl => ?_⟩
  · exact
      { slot := fun c hu => by
          by_cases hne : c = ci
          · exact hne ▸ hci
          · rw [hother c hne] at hu
            exact ht.slot c hu
        count := huse
        leaving := fun c hu hd => by
          by_cases hne : c = ci
          · subst hne
            exact (hnew hu).2.1
          · rw [hother c hne] at hu hd ⊢
            exact ht.leaving c hu hd
        seated := fun c r hl hs => by
          by_cases hne : c = ci
          · subst hne
            rw [(hnew hl.1).2.1] at hs
            cases hs
          · rw [hother c hne] at hs
            rw [hrest.1]
            exact ht.seated c r (hwas c hne hl) hs
        member := fun r hu hD m hm => by
          rw [hrest.1] at hu hm
          obtain ⟨h1, h2⟩ := ht.member r hu hD m hm
          exact ⟨hkeep m h1, by rw [hother m (hold m h1), h2]⟩
        distinct := hrest.1 ▸ ht.distinct
        fits := hrest.1 ▸ ht.fits
        pairs := hrest.1 ▸ ht.pairs
        empty := hrest.1 ▸ ht.empty
        serials := by rw [hrest.1, hrest.2.2.1]; exact ht.serials
        apart := hrest.1 ▸ ht.apart
        listed := fun e he => by
          rw [hrest.2.1] at he
          obtain ⟨h1, h2⟩ := ht.listed e he
          exact ⟨hkeep e.2 h1, by rw [hother e.2 (hold e.2 h1)]; exact h2⟩
        named := fun c hl hn => by
          by_cases hne : c = ci
          · subst hne
            exact absurd (hnew hl.1).2.2.1 hn
          · rw [hother c hne] at hn ⊢
            rw [hrest.2.1]
            exact ht.named c (hwas c hne hl) hn
        names := hrest.2.1 ▸ ht.names
        reached := hrest.2.2.2.trans ht.reached }
  · by_cases hne : c = ci
    · subst hne
      exact (hnew hu).1
    · rw [hother c hne] at hu ⊢
      exact h.up c hu
  · by_cases hne : c = ci
    · subst hne
      exact (hnew hl.1).2.2.2
    · rw [hother c hne]
      exact h.decoded c (hwas c hne hl)

/-- A connection nothing has been read from or sent to, without a name or a room. -/
structure Blank (c : Client) : Prop where
  up : c.dead = false
  apart : c.room = none ∧ c.name = []
  input : IntvRelay.input c = ([], [], [])
  output : c.queued = [] ∧ c.wire = [] ∧ c.tx = []

/-- A connection takes a slot that is not in use, or none. -/
theorem accept_client_eq (h : Settled cfg s) (ip now : ℕ) (added : Bool) :
    accept_client s ip now added = s ∨ ∃ i c, i < MAX_CLIENTS ∧ (s.clients i).in_use = false ∧
      Blank c ∧ accept_client s ip now added = { s with
        clients := Function.update s.clients i c, n_clients := s.n_clients + c.in_use.toNat } := by
  simp only [accept_client]
  split
  · exact Or.inl rfl
  rename_i hn
  split
  · exact Or.inl rfl
  simp only [client_alloc]
  cases hf : (List.range MAX_CLIENTS).find? (fun i => !(s.clients i).in_use) with
  | none =>
    obtain ⟨i, hi, hu⟩ := h.tables.slot_free (Nat.not_le.mp hn)
    have hno := List.find?_eq_none.mp hf i (List.mem_range.mpr hi)
    rw [hu] at hno
    exact absurd rfl hno
  | some i =>
    have hi := List.mem_range.mp (List.mem_of_find?_eq_some hf)
    have hu : (s.clients i).in_use = false := by simpa using List.find?_some hf
    refine Or.inr ⟨i, ⟨added, (s.clients i).gen + if added then 0 else 1, ip, [], [], [], none, now,
      false, [], [], [], []⟩, hi, hu, ⟨rfl, ⟨rfl, rfl⟩, rfl, rfl, rfl, rfl⟩, ?_⟩
    cases added with
    | true => rfl
    | false =>
      simp only [Bool.false_eq_true, if_false, client_free, Relay.modify, Function.update_self,
        Function.update_idem, Nat.add_sub_cancel, Bool.toNat_false, Nat.add_zero]

/-- So the tables stay consistent, and every other connection stays as it is. -/
theorem settled_accept (h : Settled cfg s) (ip now : ℕ) (added : Bool) :
    Settled cfg (accept_client s ip now added) ∧
      (∀ c, (s.clients c).in_use = true →
        (accept_client s ip now added).clients c = s.clients c) ∧
      (accept_client s ip now added).rooms = s.rooms := by
  rcases accept_client_eq h ip now added with heq | ⟨i, c, hi, hu, hb, heq⟩
  · rw [heq]
    exact ⟨h, fun _ _ => rfl, rfl⟩
  · rw [heq]
    refine ⟨h.replace hi hu (fun x hx => Function.update_of_ne hx ..) (fun _ => ?_) ?_
      ⟨rfl, rfl, rfl, rfl⟩, fun x hx => Function.update_of_ne (fun hxi => ?_) .., rfl⟩
    · simp only [Function.update_self]
      have hin := hb.input
      simp only [IntvRelay.input, Prod.mk.injEq] at hin
      refine ⟨hb.up, hb.apart.1, hb.apart.2, ?_⟩
      rw [Decoded, hin.1, hin.2.1, hin.2.2]
      rfl
    · simp only [Function.update_self]
    · rw [hxi, hu] at hx
      cases hx

end Loop

end BoxingNetplay.Interface.IntvRelay
