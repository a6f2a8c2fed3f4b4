import BoxingNetplay.Interface.Emission
import BoxingNetplay.Interface.ServerLoop
import BoxingNetplay.Analysis.RelayTables

/-!
# The length table and the relays

Fed by consoles, both relays under protocol 2 queue only frames that the length table of the console
admits and its handlers take, so a console slips no byte of what its relay sends it.  Under protocol
1 the C relay takes the HELLO of a console all the same, and its START is too short.
-/

set_option autoImplicit false

namespace BoxingNetplay.Analysis

open BoxingNetplay.Library
open BoxingNetplay.Model
open BoxingNetplay.Model.Wire
open BoxingNetplay.Interface

/-! ### The C relay -/

section Relay

open BoxingNetplay.Model.IntvRelay
open BoxingNetplay.Interface.IntvRelay
open BoxingNetplay.Analysis.IntvRelay

variable {cfg : IntvRelay.Config} {s s' : IntvRelay.Relay}

/-- What an event reads from a client comes from a console. -/
def relayHears (s : IntvRelay.Relay) : IntvRelay.Event → Prop
  | .readable ci (.got data) => FromConsole ((s.clients ci).received ++ data)
  | _ => True

/-- All that is read in a run comes from consoles. -/
def relayFed (cfg : IntvRelay.Config) : IntvRelay.Relay → List IntvRelay.Input → Prop
  | _, [] => True
  | s, i :: is => relayHears s i.event ∧ relayFed cfg (IntvRelay.step cfg s i) is

/-- The frames for a client fit a console. -/
def FitsQueued (_ : ℕ) (q : Queued) : Prop := Fits q.bytes

/-- All that the C relay itself says under protocol 2 fits. -/
theorem says_fits_relay (hv : cfg.proto ≠ .v1) : IntvRelay.Says cfg FitsQueued where
  room _ _ h hn := fits_room h hn
  left _ _ h := fits_left (h.trans (if_neg hv))
  lobby _ _ _ hn h := fits_lobby hn h
  pong _ := fits_pong
  start _ _ _ h := by
    rw [IsStart, if_neg hv] at h
    exact fits_start h.1 h.2

/-- What a client has been sent: frames that fit, and no other bytes. -/
structure SentFits (c : IntvRelay.Client) : Prop where
  fits : ∀ q ∈ c.queued, Fits q.bytes
  bytes : c.wire ++ c.tx = (c.queued.map Queued.bytes).flatten

theorem SentFits.grows {ci : ℕ} {c c' : IntvRelay.Client} (h : SentFits c)
    (hg : Grows (FitsQueued ci) c c') : SentFits c' := by
  obtain ⟨l, h1, h2, h3⟩ := hg
  refine ⟨fun q hq => ?_, ?_⟩
  · rw [h1] at hq
    exact (List.mem_append.mp hq).elim (h.fits q) (h3 q)
  · rw [h2, h1, h.bytes, List.map_append, List.flatten_append]

theorem sentFits_of_turns (h : ∀ c, SentFits (s.clients c)) (ht : Turns FitsQueued s s') (c : ℕ) :
    SentFits (s'.clients c) := by
  by_cases hc : IntvRelay.alive s c
  · by_cases hl : IntvRelay.alive s' c
    · exact (h c).grows (ht.stays c hl).2.2
    · exact (h c).grows (ht.gone c hc hl).2.2.2
  · rw [ht.rest c hc]
    exact h c

/-- One event. -/
theorem sentFits_step (hv : cfg.proto ≠ .v1) (hs : IntvRelay.Settled cfg s)
    (h : ∀ c, SentFits (s.clients c)) (i : IntvRelay.Input) (hf : relayHears s i.event) (c : ℕ) :
    SentFits ((IntvRelay.step cfg s i).clients c) := by
  have hw := settled_world hs i.kernel i.seeds
  have hP := says_fits_relay hv
  have h₀ : ∀ c, SentFits
      (IntvRelay.Relay.clients { s with kernel := i.kernel, seeds := i.seeds } c) := h
  simp only [IntvRelay.step]
  cases hev : i.event with
  | accept ip now added =>
    simp only [IntvRelay.serve]
    rcases accept_client_eq hw ip now added with heq | ⟨j, x, -, -, hb, heq⟩
    · rw [heq]
      exact h c
    · rw [heq]
      by_cases hne : c = j
      · simp only [hne, Function.update_self]
        obtain ⟨h1, h2, h3⟩ := hb.output
        exact ⟨by rw [h1]; exact List.forall_mem_nil _, by rw [h1, h2, h3]; rfl⟩
      · simp only [Function.update_of_ne hne]
        exact h c
  | writable ci =>
    simp only [IntvRelay.serve]
    split
    · rename_i hc
      exact sentFits_of_turns h₀
        (served_flush hP.toAnswers hw.tables (show IntvRelay.alive _ ci from hc)).turns c
    · exact h c
  | readable ci r =>
    simp only [IntvRelay.serve]
    split
    · rename_i hc
      refine sentFits_of_turns h₀ (read_service hP r hw.tables (show IntvRelay.alive _ ci from hc)
        (hw.decoded ci hc) fun f hmem hr _ _ => ?_).1.turns c
      -- the frames completed now are frames of the whole stream
      cases r with
      | got data =>
        rw [hev] at hf
        refine (built_of_scan hf ?_).fits hr
        rw [relayFraming.scan_append, hs.decoded ci hc]
        exact List.mem_append_right _ hmem
      | blocked =>
        rw [IntvRelay.Recv.bytes, List.append_nil,
          relayFraming.scan_wait _ (Decoded.waits (hs.decoded ci hc))] at hmem
        cases hmem
      | failed =>
        rw [IntvRelay.Recv.bytes, List.append_nil,
          relayFraming.scan_wait _ (Decoded.waits (hs.decoded ci hc))] at hmem
        cases hmem
    · exact h c
  | sweep now =>
    simp only [IntvRelay.serve]
    exact sentFits_of_turns h₀ (served_sweep hP.toAnswers hw.tables now).turns c

/-- Any number of them. -/
theorem sentFits_run (hv : cfg.proto ≠ .v1) (is : List IntvRelay.Input)
    (hf : relayFed cfg IntvRelay.start is) (c : ℕ) : SentFits ((IntvRelay.run cfg is).clients c) := by
  simp only [IntvRelay.run]
  generalize hs : IntvRelay.start = s at hf ⊢
  have h : IntvRelay.Settled cfg s ∧ ∀ c, SentFits (s.clients c) :=
    hs ▸ ⟨Analysis.IntvRelay.settled_start cfg, fun _ => ⟨List.forall_mem_nil _, rfl⟩⟩
  clear hs
  induction is generalizing s with
  | nil => exact h.2 c
  | cons i is ih =>
    exact ih _ hf.2 ⟨(settled_step h.1 i).1, sentFits_step hv h.1 h.2 i hf.1⟩

end Relay

/-! ### The Python relay -/

section Server

open BoxingNetplay.Model.RelayServer
open BoxingNetplay.Interface.RelayServer

variable {cfg : RelayServer.Config} {s : RelayServer.Server}

/-- What an event reads from a client comes from a console. -/
def serverHears (s : RelayServer.Server) : RelayServer.Event → Prop
  | .ready ci _ (some (.got data)) => FromConsole ((s.clients ci).received ++ data)
  | _ => True

/-- All that is read in a run comes from consoles. -/
def serverFed (cfg : RelayServer.Config) : RelayServer.Server → List RelayServer.Input → Prop
  | _, [] => True
  | s, i :: is => serverHears s i.event ∧ serverFed cfg (RelayServer.step cfg s i) is

/-- All that the Python relay itself says fits. -/
theorem says_fits_server : RelayServer.Says Fits where
  room _ h hn := fits_room h hn
  left _ h := fits_left h
  lobby _ _ hn h := fits_lobby hn h
  pong := fits_pong
  start _ h hn := fits_start h hn

/-- What consoles have built and is relayed fits a console. -/
theorem runPasses_of_fed {is : List RelayServer.Input} (h : serverFed cfg s is) :
    RelayServer.RunPasses cfg Fits s is := by
  induction is generalizing s with
  | nil => trivial
  | cons i is ih =>
    refine ⟨?_, ih h.2⟩
    match i.event, h.1 with
    | .accept .., _ => trivial
    | .sweep .., _ => trivial
    | .ready _ _ none, _ => trivial
    | .ready _ _ (some .blocked), _ => trivial
    | .ready _ _ (some .failed), _ => trivial
    | .ready _ _ (some (.got _)), hf => exact fun f hmem hr => (built_of_scan hf hmem).fits hr

/-- What consoles have fed to the Python relay leaves it as frames that fit. -/
theorem fits_run (is : List RelayServer.Input) (hf : serverFed cfg RelayServer.start is) (c : ℕ) :
    (∀ f ∈ ((RelayServer.run cfg is).clients c).queued, Fits f) ∧
    ((RelayServer.run cfg is).clients c).wire ++ ((RelayServer.run cfg is).clients c).tx =
      ((RelayServer.run cfg is).clients c).queued.flatten := by
  have h := settled_run (a := False) (b := False) says_fits_server (fun h => h.elim False.elim False.elim) is
    (runPasses_of_fed hf) (runSafe_of_forall (fun _ _ _ _ => ⟨nofun, nofun, nofun⟩) is _)
  exact ⟨h.said c, h.sent c⟩

end Server

/-! ### Both -/

/-- What the C relay sends under protocol 2 is taken in. -/
theorem relay_accepted {cfg : IntvRelay.Config} {is : List IntvRelay.Input} (hv : cfg.proto = .v2)
    (hf : relayFed cfg IntvRelay.start is) (c : ℕ) :
    (∀ q ∈ ((IntvRelay.run cfg is).clients c).queued, Accepted q.bytes) ∧
      NeverSlips ((IntvRelay.run cfg is).clients c).wire := by
  have h := sentFits_run (by rw [hv]; decide) is hf c
  refine ⟨fun q hq => (h.fits q hq).accepted, neverSlips (fun f hmem => ?_) h.bytes⟩
  obtain ⟨q, hq, rfl⟩ := List.mem_map.mp hmem
  exact h.fits q hq

/-- And so is what the Python relay sends. -/
theorem server_accepted {cfg : RelayServer.Config} {is : List RelayServer.Input}
    (hf : serverFed cfg RelayServer.start is) (c : ℕ) :
    (∀ f ∈ ((RelayServer.run cfg is).clients c).queued, Accepted f) ∧
      NeverSlips ((RelayServer.run cfg is).clients c).wire := by
  obtain ⟨h1, h2⟩ := fits_run is hf c
  exact ⟨fun f hf => (h1 f hf).accepted, neverSlips h1 h2⟩

/-- Fed by consoles, the C relay under protocol 2 and the Python relay, with two to four seats, queue
to each client only frames the console's length table admits and its handlers take; so a console
that is fed what the kernel took for it slips no byte. -/
theorem relay_frames_accepted :
    (∀ (cfg : IntvRelay.Config) (is : List IntvRelay.Input) (c : ℕ), cfg.proto = .v2 →
      relayFed cfg IntvRelay.start is →
      (∀ q ∈ ((IntvRelay.run cfg is).clients c).queued, Accepted q.bytes) ∧
        NeverSlips ((IntvRelay.run cfg is).clients c).wire) ∧
    ∀ (cfg : RelayServer.Config) (is : List RelayServer.Input) (c : ℕ),
      serverFed cfg RelayServer.start is →
      (∀ f ∈ ((RelayServer.run cfg is).clients c).queued, Accepted f) ∧
        NeverSlips ((RelayServer.run cfg is).clients c).wire :=
  ⟨fun _ _ c hv hf => relay_accepted hv hf c, fun _ _ c hf => server_accepted hf c⟩

/-- Bytes that are the frames of a console. -/
theorem fromConsole_flatten {xs : List ℕ} (fs : List (List ℕ)) (h : ∀ f ∈ fs, Built f)
    (hxs : xs = fs.flatten) : FromConsole xs :=
  ⟨fs, [], h, by rw [List.append_nil, hxs]⟩

/-- A connection to the C relay, and a HELLO. -/
def relayGreeting : List IntvRelay.Input :=
  [⟨.accept 1 0 true, [], []⟩,
    ⟨.readable 0 (.got (frame T_HELLO [2, 65, 65])), [.took 99], []⟩]

/-- The same to the Python relay. -/
def serverGreeting : List RelayServer.Input :=
  [⟨.accept 1 0, [], []⟩,
    ⟨.ready 0 false (some (.got (frame T_HELLO [2, 65, 65]))), [.took 99], []⟩]

/-- The client is sent a LOBBY, and its console takes it. -/
theorem greeting_accepted :
    (∃ q, q ∈ ((IntvRelay.run ⟨.v2, 2, 3, 0, by decide, by decide, nofun, by decide, nofun⟩
        relayGreeting).clients 0).queued ∧ q.bytes.getD 1 0 = T_LOBBY ∧ Accepted q.bytes) ∧
      ∃ f, f ∈ ((RelayServer.run (.ofSource 3 0) serverGreeting).clients 0).queued ∧
        f.getD 1 0 = T_LOBBY ∧ Accepted f := by
  have hbuilt : ∀ f ∈ [frame T_HELLO [2, 65, 65]], Built f := fun f hf => by
    rw [List.mem_singleton.mp hf]
    exact Built.hello [65, 65] (by decide)
  refine ⟨⟨_, List.mem_cons_self, rfl, ?_⟩, _, List.mem_cons_self, rfl, ?_⟩
  · refine (relay_frames_accepted.1 ⟨.v2, 2, 3, 0, by decide, by decide, nofun, by decide, nofun⟩
      relayGreeting 0 rfl ⟨trivial, ?_, trivial⟩).1 _ List.mem_cons_self
    exact fromConsole_flatten _ hbuilt rfl
  · refine (relay_frames_accepted.2 (.ofSource 3 0) serverGreeting 0
      ⟨trivial, ?_, trivial⟩).1 _ List.mem_cons_self
    exact fromConsole_flatten _ hbuilt rfl

/-- Two consoles of protocol 2 are paired by a C relay that serves protocol 1. -/
def mixedVersions : List IntvRelay.Input :=
  [⟨.accept 1 0 true, [], []⟩, ⟨.accept 2 0 true, [], []⟩,
    ⟨.readable 0 (.got (frame T_HELLO [2, 65, 65])), [.took 99], []⟩,
    ⟨.readable 1 (.got (frame T_HELLO [2, 66, 66])), [.took 99], []⟩,
    ⟨.readable 1 (.got (frame T_JOIN [65, 65, 0, 0, 0, 0, 0, 0])), [.took 99, .took 99], [7, 7]⟩]

/-- The START it queues to the host has thirteen body bytes, and the length table wants 38. -/
theorem start_of_v1_refused :
    relayFed ⟨.v1, 2, 3, 0, by decide, by decide, fun _ => rfl, by decide, fun _ => rfl⟩
        IntvRelay.start mixedVersions ∧
      ∃ q, q ∈ ((IntvRelay.run
          ⟨.v1, 2, 3, 0, by decide, by decide, fun _ => rfl, by decide, fun _ => rfl⟩
          mixedVersions).clients 0).queued ∧
        q.bytes.headD 0 = 13 ∧ q.bytes.getD 1 0 = T_START ∧ ¬ Accepted q.bytes := by
  refine ⟨⟨trivial, trivial, ?_, ?_, ?_, trivial⟩, ?_⟩
  · refine fromConsole_flatten [frame T_HELLO [2, 65, 65]] (fun f hf => ?_) rfl
    rw [List.mem_singleton.mp hf]
    exact Built.hello [65, 65] (by decide)
  · refine fromConsole_flatten [frame T_HELLO [2, 66, 66]] (fun f hf => ?_) rfl
    rw [List.mem_singleton.mp hf]
    exact Built.hello [66, 66] (by decide)
  · refine fromConsole_flatten
      [frame T_HELLO [2, 66, 66], frame T_JOIN [65, 65, 0, 0, 0, 0, 0, 0]] (fun f hf => ?_) rfl
    rcases List.mem_pair.mp hf with rfl | rfl
    · exact Built.hello [66, 66] (by decide)
    · exact Built.join [65, 65, 0, 0, 0, 0, 0, 0] rfl
  · refine ⟨_, List.mem_cons_of_mem _ List.mem_cons_self, rfl, rfl, fun h => ?_⟩
    exact absurd h.2.1 (by decide)

/-! ### Between consoles -/

/-- When every client is a console, whatever was read from it is what it has sent since power-up. -/
theorem relayFed_of_sessions {cfg : IntvRelay.Config} (is : List IntvRelay.Input)
    (s : IntvRelay.Relay) (h : ∀ pre i post ci data, is = pre ++ i :: post →
      i.event = .readable ci (.got data) →
      Session (((pre.foldl (IntvRelay.step cfg) s).clients ci).received ++ data)) :
    relayFed cfg s is := by
  induction is generalizing s with
  | nil => trivial
  | cons i is ih =>
    constructor
    · match hev : i.event with
      | .readable ci (.got data) => exact (h [] i is ci data rfl hev).fromConsole
      | .readable _ .blocked | .readable _ .failed | .writable .. | .accept .. | .sweep .. => trivial
    · exact ih _ fun pre j post ci data heq hj =>
        h (i :: pre) j post ci data (by rw [heq, List.cons_append]) hj

/-- A stream of such sessions is what consoles feed to the Python relay, too. -/
theorem serverFed_of_sessions {cfg : RelayServer.Config} (is : List RelayServer.Input)
    (s : RelayServer.Server) (h : ∀ pre i post ci writable data, is = pre ++ i :: post →
      i.event = .ready ci writable (some (.got data)) →
      Session (((pre.foldl (RelayServer.step cfg) s).clients ci).received ++ data)) :
    serverFed cfg s is := by
  induction is generalizing s with
  | nil => trivial
  | cons i is ih =>
    constructor
    · match hev : i.event with
      | .ready ci writable (some (.got data)) => exact (h [] i is ci writable data rfl hev).fromConsole
      | .ready _ _ none | .ready _ _ (some .blocked) | .ready _ _ (some .failed) | .accept .. |
        .sweep .. => trivial
    · exact ih _ fun pre j post ci writable data heq hj =>
        h (i :: pre) j post ci writable data (by rw [heq, List.cons_append]) hj

/-- So in a run in which every client is a console from power-up on, each relay queues to each of them
only frames it takes in. -/
theorem sessions_accepted :
    (∀ (cfg : IntvRelay.Config) (is : List IntvRelay.Input) (c : ℕ), cfg.proto = .v2 →
      (∀ pre i post ci data, is = pre ++ i :: post → i.event = .readable ci (.got data) →
        Session (((IntvRelay.run cfg pre).clients ci).received ++ data)) →
      (∀ q ∈ ((IntvRelay.run cfg is).clients c).queued, Accepted q.bytes) ∧
        NeverSlips ((IntvRelay.run cfg is).clients c).wire) ∧
    ∀ (cfg : RelayServer.Config) (is : List RelayServer.Input) (c : ℕ),
      (∀ pre i post ci writable data, is = pre ++ i :: post →
        i.event = .ready ci writable (some (.got data)) →
        Session (((RelayServer.run cfg pre).clients ci).received ++ data)) →
      (∀ f ∈ ((RelayServer.run cfg is).clients c).queued, Accepted f) ∧
        NeverSlips ((RelayServer.run cfg is).clients c).wire :=
  ⟨fun _ is c hv h => relay_accepted hv (relayFed_of_sessions is _ h) c,
    fun _ is c h => server_accepted (serverFed_of_sessions is _ h) c⟩

end BoxingNetplay.Analysis
