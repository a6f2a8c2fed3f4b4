import BoxingNetplay.Interface.ServerEvents

/-!
# The loop of the Python relay

Reading from a client handles the frames of its stream, as the framing has them, however the
stream is cut.  What one event keeps is what every frame of it keeps.
-/

set_option autoImplicit false

namespace BoxingNetplay.Interface.RelayServer

open BoxingNetplay.Library
open BoxingNetplay.Model.Wire
open BoxingNetplay.Model.RelayServer

/-! ### The stream -/

/-- Every frame handled while a client's buffer is worked off is as `Q` says, in the state it is
handled in. -/
def EachFrame (cfg : Config) (Q : Server → ℕ → ℕ → List ℕ → Prop) : ℕ → Server → ℕ → Prop
  | 0, _, _ => True
  | fuel + 1, s, ci => ∀ x ∈ frontFrame s ci, Q (takeFront s ci) ci x.1 x.2 ∧
    (live (handle cfg (takeFront s ci) ci x.1 x.2) ci →
      EachFrame cfg Q fuel (handle cfg (takeFront s ci) ci x.1 x.2) ci)

/-- The frames of a stream that would be relayed are of a kind. -/
def Passes (P : List ℕ → Prop) (xs : List ℕ) : Prop :=
  ∀ f, Item.frame f ∈ (relayFraming.scan xs).1 → relayed (typeOf f) = true → P f

/-- A client's buffer is what is left of the bytes received from it. -/
def Decoded (c : Client) : Prop := (relayFraming.scan c.received).2 = c.rx

/-- Reading from a client: the others are not read from, and what is left of its buffer is what
the framing leaves. -/
structure Reads (cfg : Config) (a b : Prop) (P : List ℕ → Prop) (ci : ℕ) (s s' : Server) :
    Prop where
  good : Good cfg a b P s'
  stays : ∀ c, live s' c → live s c
  others : ∀ c, c ≠ ci → (s'.clients c).rx = (s.clients c).rx ∧
    (s'.clients c).received = (s.clients c).received
  own : live s' ci → (relayFraming.scan (s.clients ci).rx).2 = (s'.clients ci).rx ∧
    (s'.clients ci).received = (s.clients ci).received

section Stream

variable {cfg : Config} {a b : Prop} {P : List ℕ → Prop} {s s' : Server} {ci : ℕ}

/-- Changing what was read from a client. -/
theorem good_read (h : Good cfg a b P s) (hc : live s ci) (f : Client → Client)
    (hf : ∀ c, (f c).dead = c.dead ∧ (f c).room = c.room ∧ (f c).name = c.name ∧
      (f c).queued = c.queued ∧ (f c).wire = c.wire ∧ (f c).tx = c.tx) :
    Good cfg a b P (s.modify ci f) ∧ live (s.modify ci f) ci := by
  have hsame : ∀ c, ((s.modify ci f).clients c).dead = (s.clients c).dead ∧
      ((s.modify ci f).clients c).room = (s.clients c).room ∧
      ((s.modify ci f).clients c).name = (s.clients c).name ∧
      ((s.modify ci f).clients c).queued = (s.clients c).queued := fun c => by
    by_cases heq : c = ci
    · subst heq
      rw [modify_self]
      exact ⟨(hf _).1, (hf _).2.1, (hf _).2.2.1, (hf _).2.2.2.1⟩
    · rw [modify_of_ne s f heq]
      exact ⟨rfl, rfl, rfl, rfl⟩
  have hlive : ∀ c, live (s.modify ci f) c ↔ live s c := fun c => by rw [live, live, (hsame c).1]
  refine ⟨⟨⟨?_, fun hb => ⟨fun c => ?_, fun c r hl hr hst => ?_⟩⟩, fun ha => ?_, fun c g hg => ?_⟩,
    (hlive ci).mpr hc⟩
  · refine h.modify (h.made hc) f (fun c => ⟨(hf c).1, (hf c).2.1⟩) ?_
    obtain ⟨-, -, -, h4, h5, h6⟩ := hf (s.clients ci)
    rw [h4, h5, h6]
    exact h.sent ci
  · rw [(hsame c).2.2.2]
    exact (h.brackets hb).bracketed c
  · rw [(hsame c).2.2.2]
    exact (h.brackets hb).playing c r ((hlive c).mp hl) ((hsame c).2.1 ▸ hr) hst
  · have hls := h.listed ha
    refine ⟨fun e he => ?_, hls.keys, fun r c hm => (hlive c).mpr (hls.present r c hm)⟩
    rw [hlive, (hsame e.2).2.2.1]
    exact hls.listed e he
  · rw [(hsame c).2.2.2] at hg
    exact h.said c g hg

/-- The frames that are complete. -/
theorem reads_serviceLoop (hP : Says P) (htwo : a ∨ b → cfg.max_seats = 2) (fuel : ℕ)
    (h : Good cfg a b P s) (hc : live s ci) (hlen : (s.clients ci).rx.length ≤ fuel)
    (hq : Passes P (s.clients ci).rx) (hsafe : EachFrame cfg (FrameSafe cfg a b) fuel s ci) :
    Reads cfg a b P ci s (serviceLoop cfg fuel s ci) := by
  induction fuel generalizing s with
  | zero =>
    refine ⟨h, fun _ => id, fun _ _ => ⟨rfl, rfl⟩, fun _ => ⟨?_, rfl⟩⟩
    rw [serviceLoop, List.length_eq_zero_iff.mp (Nat.le_zero.mp hlen)]
    rfl
  | succ fuel ih =>
    simp only [serviceLoop]
    split
    · rename_i hrx
      refine ⟨h, fun _ => id, fun _ _ => ⟨rfl, rfl⟩, fun _ => ⟨?_, rfl⟩⟩
      rw [hrx]
      rfl
    rename_i lenb rest hrx
    split
    · obtain ⟨hd, hdead⟩ := serves_drop hP.toTells h ci
      exact ⟨hd.good, hd.stays, fun c _ => hd.same c, fun hl => absurd hdead (by rw [hl]; exact Bool.false_ne_true)⟩
    rename_i h1
    split
    · rename_i h2
      have hv : relayFraming.verdict (lenb :: rest) = .wait := by
        change relayVerdict (lenb :: rest) = _
        rw [relayVerdict, if_neg h1, if_pos h2]
      refine ⟨h, fun _ => id, fun _ _ => ⟨rfl, rfl⟩, fun _ => ⟨?_, rfl⟩⟩
      rw [hrx, relayFraming.scan_wait _ hv]
    rename_i h2
    have hv : relayFraming.verdict (lenb :: rest) = .take (lenb + 1) := by
      change relayVerdict (lenb :: rest) = _
      rw [relayVerdict, if_neg h1, if_neg h2]
    have hbody : lenb :: rest.take lenb =
        frame ((rest.take lenb).headD 0) (rest.take lenb).tail :=
      frame_of_take ⟨by omega, by omega, by omega⟩
    have hscan := relayFraming.scan_take _ _ hv
    rw [List.drop_succ_cons, List.take_succ_cons] at hscan
    have hfront : frontFrame s ci = some ((rest.take lenb).headD 0, (rest.take lenb).tail) := by
      have hno : ¬ (lenb = 0 ∨ lenb > 200 ∨ rest.length < lenb) := by omega
      simp only [frontFrame, hrx, if_neg hno]
    obtain ⟨hframe, hnext⟩ := hsafe _ hfront
    obtain ⟨hg, hup⟩ : Good cfg a b P (takeFront s ci) ∧ live (takeFront s ci) ci :=
      good_read h hc _ fun _ => ⟨rfl, rfl, rfl, rfl, rfl, rfl⟩
    have htake : ∀ c, ((takeFront s ci).clients c).received = (s.clients c).received ∧
        ((takeFront s ci).clients c).rx = if c = ci then rest.drop lenb else (s.clients c).rx :=
      fun c => by
        by_cases heq : c = ci
        · subst heq
          rw [takeFront, modify_self, if_pos rfl, hrx]
          exact ⟨rfl, rfl⟩
        · rw [takeFront, modify_of_ne s _ heq, if_neg heq]
          exact ⟨rfl, rfl⟩
    have hs := serves_handle hP hg hup htwo ((rest.take lenb).headD 0) (rest.take lenb).tail
      (fun hr => by
        rw [← hbody]
        refine hq _ ?_ (by rw [hbody]; exact hr)
        rw [hrx, hscan]
        exact List.mem_cons_self) hframe
    have hstays : ∀ c, live (takeFront s ci) c → live s c := fun c hl => by
      by_cases heq : c = ci
      · rw [heq]
        exact hc
      · rw [live, takeFront, modify_of_ne s _ heq] at hl
        exact hl
    set s₁ := handle cfg (takeFront s ci) ci ((rest.take lenb).headD 0) (rest.take lenb).tail
    split
    · rename_i hd
      refine ⟨hs.good, fun c hl => hstays c (hs.stays c hl), fun c hne => ?_, fun hl => ?_⟩
      · rw [(hs.same c).1, (hs.same c).2, (htake c).1, (htake c).2, if_neg hne]
        exact ⟨rfl, rfl⟩
      · exact absurd hd (by rw [hl]; exact Bool.false_ne_true)
    · rename_i hd
      have hl₁ : live s₁ ci := Bool.eq_false_of_not_eq_true hd
      have hrx₁ : (s₁.clients ci).rx = rest.drop lenb := by
        rw [(hs.same ci).1, (htake ci).2, if_pos rfl]
      rw [hrx, List.length_cons] at hlen
      have hrest := ih hs.good hl₁ (by rw [hrx₁, List.length_drop]; omega) (fun f hf => by
        refine hq f ?_
        rw [hrx, hscan]
        rw [hrx₁] at hf
        exact List.mem_cons_of_mem _ hf) (hnext hl₁)
      refine ⟨hrest.good, fun c hl => hstays c (hs.stays c (hrest.stays c hl)), fun c hne => ?_,
        fun hl => ?_⟩
      · obtain ⟨k1, k2⟩ := hrest.others c hne
        rw [k1, k2, (hs.same c).1, (hs.same c).2, (htake c).1, (htake c).2, if_neg hne]
        exact ⟨rfl, rfl⟩
      · obtain ⟨k1, k2⟩ := hrest.own hl
        rw [hrx₁] at k1
        rw [hrx, hscan, k2, (hs.same ci).2, (htake ci).1]
        exact ⟨k1, rfl⟩

end Stream

/-! ### The main loop -/

/-- What holds between events. -/
structure Settled (cfg : Config) (a b : Prop) (P : List ℕ → Prop) (s : Server) : Prop extends
    Good cfg a b P s where
  decoded : ∀ c, live s c → Decoded (s.clients c)

/-- The frames an event has handled are as `Q` says, each in the state it is handled in. -/
def EventSafe (cfg : Config) (Q : Server → ℕ → ℕ → List ℕ → Prop) (s : Server) : Event → Prop
  | .ready ci writable (some (.got data)) =>
    live (serveWrite s ci writable) ci → data ≠ [] →
      EachFrame cfg Q (((serveWrite s ci writable).clients ci).rx.length + data.length)
        (receive (serveWrite s ci writable) ci data) ci
  | _ => True

/-- The frames an event completes and that would be relayed are of a kind. -/
def EventPasses (P : List ℕ → Prop) (s : Server) : Event → Prop
  | .ready ci _ (some (.got data)) => Passes P ((s.clients ci).received ++ data)
  | _ => True

/-- Every event of a run is safe. -/
def RunSafe (cfg : Config) (Q : Server → ℕ → ℕ → List ℕ → Prop) : Server → List Input → Prop
  | _, [] => True
  | s, i :: is => EventSafe cfg Q (i.world s) i.event ∧ RunSafe cfg Q (step cfg s i) is

/-- Every event of a run passes on frames of a kind. -/
def RunPasses (cfg : Config) (P : List ℕ → Prop) : Server → List Input → Prop
  | _, [] => True
  | s, i :: is => EventPasses P s i.event ∧ RunPasses cfg P (step cfg s i) is

section Safe

variable (cfg : Config) {Q Q' : Server → ℕ → ℕ → List ℕ → Prop}

theorem EachFrame.mono {cfg : Config} (hQ : ∀ s ci ftype payload, Q s ci ftype payload →
    Q' s ci ftype payload) : ∀ {fuel s ci}, EachFrame cfg Q fuel s ci → EachFrame cfg Q' fuel s ci
  | 0, _, _, _ => trivial
  | _ + 1, _, _, h => fun x hx =>
    ⟨hQ _ _ _ _ (h x hx).1, fun hl => EachFrame.mono hQ ((h x hx).2 hl)⟩

theorem RunSafe.mono {cfg : Config} (hQ : ∀ s ci ftype payload, Q s ci ftype payload →
    Q' s ci ftype payload) : ∀ {is s}, RunSafe cfg Q s is → RunSafe cfg Q' s is
  | [], _, _ => trivial
  | i :: is, s, ⟨h, hs⟩ => by
    refine ⟨?_, RunSafe.mono hQ hs⟩
    match i.event, h with
    | .accept .., _ => trivial
    | .sweep .., _ => trivial
    | .ready _ _ none, _ => trivial
    | .ready _ _ (some .blocked), _ => trivial
    | .ready _ _ (some .failed), _ => trivial
    | .ready _ _ (some (.got _)), h => exact fun hl hne => (h hl hne).mono hQ

/-- Frames that are all safe on their own. -/
theorem eachFrame_any {cfg : Config} (hQ : ∀ s ci ftype payload, Q s ci ftype payload) :
    ∀ fuel s ci, EachFrame cfg Q fuel s ci := by
  intro fuel
  induction fuel with
  | zero => exact fun _ _ => trivial
  | succ fuel ih => exact fun s ci x _ => ⟨hQ _ _ _ _, fun _ => ih _ _⟩

/-- A run in which every frame is safe on its own. -/
theorem runSafe_of_forall {cfg : Config} (hQ : ∀ s ci ftype payload, Q s ci ftype payload) :
    ∀ is s, RunSafe cfg Q s is := by
  intro is
  induction is with
  | nil => exact fun _ => trivial
  | cons i is ih =>
    refine fun s => ⟨?_, ih _⟩
    match i.event with
    | .accept .. => trivial
    | .sweep .. => trivial
    | .ready _ _ none => trivial
    | .ready _ _ (some .blocked) => trivial
    | .ready _ _ (some .failed) => trivial
    | .ready _ _ (some (.got _)) => exact fun _ _ => eachFrame_any hQ _ _ _

theorem says_any : Says fun _ => True where
  room _ _ _ := trivial
  left _ _ := trivial
  lobby _ _ _ _ := trivial
  pong := trivial
  start _ _ _ := trivial

/-- Any frames at all are passed on. -/
theorem runPasses_any (is : List Input) (s : Server) : RunPasses cfg (fun _ => True) s is := by
  induction is generalizing s with
  | nil => trivial
  | cons i is ih =>
    refine ⟨?_, ih _⟩
    match i.event with
    | .accept .. => trivial
    | .sweep .. => trivial
    | .ready _ _ none => trivial
    | .ready _ _ (some .blocked) => trivial
    | .ready _ _ (some .failed) => trivial
    | .ready _ _ (some (.got _)) => exact fun _ _ _ => trivial

variable [∀ s ci ftype payload, Decidable (Q s ci ftype payload)]

instance decidableEachFrame : ∀ fuel s ci, Decidable (EachFrame cfg Q fuel s ci)
  | 0, _, _ => isTrue trivial
  | fuel + 1, s, ci =>
    have := decidableEachFrame fuel
    inferInstanceAs (Decidable (∀ x ∈ frontFrame s ci, _ ∧ (_ → EachFrame cfg Q fuel _ ci)))

instance decidableEventSafe (s : Server) : ∀ e, Decidable (EventSafe cfg Q s e)
  | .accept _ _ => isTrue trivial
  | .sweep _ _ => isTrue trivial
  | .ready _ _ none => isTrue trivial
  | .ready _ _ (some .blocked) => isTrue trivial
  | .ready _ _ (some .failed) => isTrue trivial
  | .ready ci _ (some (.got _)) =>
    inferInstanceAs (Decidable (_ → _ → EachFrame cfg Q _ _ ci))

instance decidableRunSafe : ∀ is s, Decidable (RunSafe cfg Q s is)
  | [], _ => isTrue trivial
  | i :: is, s =>
    have := decidableRunSafe is
    inferInstanceAs (Decidable (EventSafe cfg Q (i.world s) i.event ∧ RunSafe cfg Q _ is))

end Safe

section Loop

variable {cfg : Config} {a b : Prop} {P : List ℕ → Prop} {s s' : Server} {ci : ℕ}

/-- A server that has just been started is in order. -/
theorem settled_start (cfg : Config) (a b : Prop) (P : List ℕ → Prop) :
    Settled cfg a b P start where
  connected _ := ⟨nofun, nofun⟩
  once := List.nodup_nil
  unmade _ _ := rfl
  unopened _ _ := ⟨rfl, rfl⟩
  seated _ _ := nofun
  member _ _ _ := nofun
  distinct _ _ := List.nodup_nil
  fits _ _ := Nat.zero_le _
  sent _ := rfl
  brackets _ := by
    refine ⟨fun _ before f after h => ?_, fun _ _ h => (nomatch h)⟩
    exact absurd h.symm (List.append_ne_nil_of_right_ne_nil _ (List.cons_ne_nil f after))
  listed _ := ⟨nofun, List.nodup_nil, fun _ _ => nofun⟩
  said _ := nofun
  decoded _ h := (nomatch h)

/-- Serving keeps it so. -/
theorem Settled.of_serves (h : Settled cfg a b P s) (hs : Serves cfg a b P s s') :
    Settled cfg a b P s' where
  toGood := hs.good
  decoded c hl := by
    rw [Decoded, (hs.same c).1, (hs.same c).2]
    exact h.decoded c (hs.stays c hl)

theorem Settled.world (h : Settled cfg a b P s) (i : Input) : Settled cfg a b P (i.world s) where
  toGood :=
    { h.toGood with
      brackets := fun hb => ⟨(h.brackets hb).bracketed, (h.brackets hb).playing⟩
      listed := fun ha => ⟨(h.listed ha).listed, (h.listed ha).keys, (h.listed ha).present⟩ }
  decoded := h.decoded

/-- One `recv()`. -/
theorem settled_service (hP : Says P) (htwo : a ∨ b → cfg.max_seats = 2)
    (h : Settled cfg a b P s) (hc : live s ci) (r : Recv)
    (hq : ∀ data, r = .got data → Passes P ((s.clients ci).received ++ data))
    (hsafe : ∀ data, r = .got data → data ≠ [] → EachFrame cfg (FrameSafe cfg a b)
      ((s.clients ci).rx.length + data.length) (receive s ci data) ci) :
    Settled cfg a b P (service cfg s ci r) := by
  have hdrop := h.of_serves (serves_drop hP.toTells h.toGood ci).1
  cases r with
  | blocked => exact h
  | failed => exact hdrop
  | got data =>
    simp only [service]
    split
    · exact hdrop
    rename_i hne
    obtain ⟨hg, hup⟩ : Good cfg a b P (receive s ci data) ∧ live (receive s ci data) ci :=
      good_read h.toGood hc _ fun _ => ⟨rfl, rfl, rfl, rfl, rfl, rfl⟩
    have hself : (receive s ci data).clients ci = { s.clients ci with
      rx := (s.clients ci).rx ++ data, received := (s.clients ci).received ++ data } :=
      modify_self ..
    have hscan := relayFraming.scan_append (s.clients ci).received data
    rw [h.decoded ci hc] at hscan
    have hr := reads_serviceLoop hP htwo ((s.clients ci).rx.length + data.length) hg hup
      (by rw [hself, List.length_append]) (fun f hf => by
        refine hq data rfl f ?_
        rw [hself] at hf
        rw [hscan]
        exact List.mem_append_right _ hf) (hsafe data rfl hne)
    refine ⟨hr.good, fun c hl => ?_⟩
    by_cases heq : c = ci
    · subst heq
      obtain ⟨k1, k2⟩ := hr.own hl
      rw [Decoded, k2, hself, hscan, ← k1, hself]
    · obtain ⟨k1, k2⟩ := hr.others c heq
      have hsame : (receive s ci data).clients c = s.clients c := modify_of_ne s _ heq
      rw [Decoded, k1, k2, hsame]
      refine h.decoded c ?_
      have hl' := hr.stays c hl
      rw [live, hsame] at hl'
      exact hl'

/-- A new connection has been sent nothing, and nothing was read from it. -/
theorem settled_accept (h : Settled cfg a b P s) (addr now : ℕ) :
    Settled cfg a b P (accept s addr now) := by
  simp only [accept]
  split
  · exact h
  split
  · exact h
  set x : Client := ⟨addr, [], [], none, none, now, false, [], [], []⟩
  set s' : Server := { s.modify s.next_client (fun _ => x) with
    connected := s.connected ++ [s.next_client], next_client := s.next_client + 1 }
  have hold := h.unmade s.next_client (Nat.le_refl _)
  have hnew : s'.clients s.next_client = x := Function.update_self ..
  have hsame : ∀ c, c ≠ s.next_client → s'.clients c = s.clients c :=
    fun c hne => Function.update_of_ne hne ..
  have hfields : ∀ c, (s'.clients c).room = (s.clients c).room ∧
      (s'.clients c).queued = (s.clients c).queued ∧ (s'.clients c).wire = (s.clients c).wire ∧
      (s'.clients c).tx = (s.clients c).tx ∧
      (s'.clients c).received = (s.clients c).received ∧
      (s'.clients c).rx = (s.clients c).rx := fun c => by
    by_cases heq : c = s.next_client
    · rw [heq, hnew, hold]
      exact ⟨rfl, rfl, rfl, rfl, rfl, rfl⟩
    · rw [hsame c heq]
      exact ⟨rfl, rfl, rfl, rfl, rfl, rfl⟩
  have hlive : ∀ c, live s' c ↔ c = s.next_client ∨ live s c := fun c => by
    by_cases heq : c = s.next_client
    · rw [heq, live, hnew]
      exact ⟨fun _ => Or.inl rfl, fun _ => rfl⟩
    · rw [live, hsame c heq]
      exact ⟨Or.inr, fun hor => hor.resolve_left heq⟩
  refine ⟨⟨⟨?_, fun hb => ⟨fun c => ?_, fun c r hl hr hst => ?_⟩⟩, fun ha => ?_, fun c f hf => ?_⟩,
    fun c hl => ?_⟩
  · exact
      { connected := fun c => by
          rw [hlive c, ← h.connected c]
          change c ∈ s.connected ++ [s.next_client] ↔ _
          rw [List.mem_append, List.mem_singleton]
          exact or_comm
        once := by
          refine List.nodup_append.mpr ⟨h.once, List.nodup_singleton _, ?_⟩
          rintro y hy z hz rfl
          have hmade := h.made ((h.connected y).mp hy)
          exact Nat.lt_irrefl _ (List.mem_singleton.mp hz ▸ hmade)
        unmade := fun c hle => by
          rw [hsame c (Nat.ne_of_gt hle)]
          exact h.unmade c (Nat.le_of_succ_le hle)
        unopened := h.unopened
        seated := fun c r hr => h.seated c r ((hfields c).1 ▸ hr)
        member := fun r hD c hm => by
          rw [(hfields c).1]
          exact h.member r hD c hm
        distinct := h.distinct
        fits := h.fits
        sent := fun c => by
          obtain ⟨-, h2, h3, h4, -⟩ := hfields c
          rw [h2, h3, h4]
          exact h.sent c }
  · rw [(hfields c).2.1]
    exact (h.brackets hb).bracketed c
  · rw [(hfields c).1] at hr
    rw [(hfields c).2.1]
    rcases (hlive c).mp hl with heq | hl
    · rw [heq, hold] at hr
      cases hr
    · exact (h.brackets hb).playing c r hl hr hst
  · have hls := h.listed ha
    refine ⟨fun e he => ?_, hls.keys, fun r c hm => (hlive c).mpr (Or.inr (hls.present r c hm))⟩
    obtain ⟨h1, h2⟩ := hls.listed e he
    have hne : e.2 ≠ s.next_client := Nat.ne_of_lt (h.made h1)
    rw [hsame e.2 hne]
    exact ⟨(hlive e.2).mpr (Or.inr h1), h2⟩
  · rw [(hfields c).2.1] at hf
    exact h.said c f hf
  · rw [Decoded, (hfields c).2.2.2.2.1, (hfields c).2.2.2.2.2]
    rcases (hlive c).mp hl with heq | hl
    · rw [heq, hold]
      rfl
    · exact h.decoded c hl

/-- Hanging up on those who do not say who they are. -/
theorem serves_sweep (hP : Tells P) (h : Good cfg a b P s) (now : ℕ) (order : List ℕ) :
    Serves cfg a b P s (sweep s now order) := by
  simp only [sweep]
  generalize order.filter (fun c => c ∈ s.connected) = l
  induction l generalizing s with
  | nil => exact Serves.refl h
  | cons c l ih =>
    rw [List.foldl_cons]
    split
    · have hd := (serves_drop hP h c).1
      exact hd.trans (ih hd.good)
    · exact ih h

/-- One event. -/
theorem settled_step (hP : Says P) (htwo : a ∨ b → cfg.max_seats = 2) (h : Settled cfg a b P s)
    (i : Input) (hq : EventPasses P s i.event)
    (hsafe : EventSafe cfg (FrameSafe cfg a b) (i.world s) i.event) :
    Settled cfg a b P (step cfg s i) := by
  have hw := h.world i
  simp only [step]
  cases hev : i.event with
  | accept addr now => exact settled_accept hw addr now
  | sweep now order => exact hw.of_serves (serves_sweep hP.toTells hw.toGood now order)
  | ready ci writable readable =>
    rw [hev] at hq hsafe
    have hwrite : Serves cfg a b P (i.world s) (serveWrite (i.world s) ci writable) := by
      simp only [serveWrite]
      split
      · rename_i hc
        exact Kept.serves hw.toGood ((sound_drop hP.toTells _).flush hw.toSane (Nat.le_refl _)
          (show live _ ci from hc.2)).1
      · exact Serves.refl hw.toGood
    have hs := hw.of_serves hwrite
    simp only [serve, serveRead]
    split
    · rename_i r
      split
      · rename_i hc
        refine settled_service hP htwo hs (show live _ ci from hc) r (fun data hr => ?_)
          fun data hr hne => ?_
        · subst hr
          rw [(hwrite.same ci).2]
          exact hq
        · subst hr
          exact hsafe hc hne
      · exact hs
    · exact hs

/-- Any number of them. -/
theorem settled_run (hP : Says P) (htwo : a ∨ b → cfg.max_seats = 2) (is : List Input)
    (hq : RunPasses cfg P start is) (hsafe : RunSafe cfg (FrameSafe cfg a b) start is) :
    Settled cfg a b P (run cfg is) := by
  simp only [run]
  generalize hs : start = s at hq hsafe ⊢
  have h : Settled cfg a b P s := hs ▸ settled_start cfg a b P
  clear hs
  induction is generalizing s with
  | nil => exact h
  | cons i is ih => exact ih _ hq.2 hsafe.2 (settled_step hP htwo h i hq.1 hsafe.1)

end Loop

end BoxingNetplay.Interface.RelayServer
