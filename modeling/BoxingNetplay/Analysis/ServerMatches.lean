import BoxingNetplay.Interface.ServerLoop

/-!
# The matches of the Python relay

What each client is told about matches is bracketed: a PEER_LEFT ends a match that a START began,
and the frames of a match lie between the two.  It holds as long as no room starts without
its host being told: `start_room` marks the room before it sends anything, and when the START of
the host fails, the guest is told of the end of a match it has not been told the start of.
-/

set_option autoImplicit false

namespace BoxingNetplay.Analysis.RelayServer

open BoxingNetplay.Model.Wire
open BoxingNetplay.Model.RelayServer
open BoxingNetplay.Interface.RelayServer

/-- When a GO, or a JOIN where rooms start by themselves, starts a room of two, its host can be
sent the START. -/
def HostHears (cfg : Config) (s : Server) (ci ftype : ℕ) (payload : List ℕ) : Prop :=
  (ftype = T_GO → GoSafe cfg s ci) ∧ (ftype = T_JOIN → JoinSafe cfg s ci payload)

instance (cfg : Config) (s : Server) (ci ftype : ℕ) (payload : List ℕ) :
    Decidable (HostHears cfg s ci ftype payload) := inferInstanceAs (Decidable ((_ → _) ∧ (_ → _)))

/-- Such a frame leaves the matches in order, whatever becomes of the names. -/
theorem frameSafe_of_hostHears {cfg : Config} {s : Server} {ci ftype : ℕ} {payload : List ℕ}
    (h : HostHears cfg s ci ftype payload) : FrameSafe cfg False True s ci ftype payload :=
  ⟨nofun, fun _ => h.1, fun _ => h.2⟩

/-- In a run in which the host of every room that starts can be told, the frames queued to each
client are bracketed: each PEER_LEFT, and each INPUT, CRC, STATE and RESYNC, comes after a START
with no PEER_LEFT in between. -/
theorem matches_are_bracketed (delay auto_go : ℕ) (is : List Input)
    (hsafe : RunSafe (.ofSource delay auto_go) (HostHears (.ofSource delay auto_go)) start is)
    (c : ℕ) (before : List (List ℕ)) (f : List ℕ) (after : List (List ℕ))
    (hf : ((run (.ofSource delay auto_go) is).clients c).queued = before ++ f :: after)
    (hmatch : typeOf f = T_PEER_LEFT ∨ relayed (typeOf f) = true) :
    ∃ earlier begun between, before = earlier ++ begun :: between ∧ typeOf begun = T_START ∧
      ∀ g ∈ between, typeOf g ≠ T_PEER_LEFT := by
  have h := settled_run says_any (fun _ => rfl) is (runPasses_any _ is start)
    (hsafe.mono fun _ _ _ _ => frameSafe_of_hostHears)
  exact (h.brackets trivial).bracketed c before f after hf hmatch

/-- Two clients meet and the first starts the match; `last` is what becomes of the sends of the
START.  Then the host leaves. -/
def kickoff (last : List SendResult) : List Input :=
  [⟨.accept 1 0, [], []⟩, ⟨.accept 2 0, [], []⟩,
    ⟨.ready 0 false (some (.got (frame T_HELLO [2, 65, 65]))), [.took 99], []⟩,
    ⟨.ready 1 false (some (.got (frame T_HELLO [2, 66, 66]))), [.took 99], []⟩,
    ⟨.ready 1 false (some (.got (frame T_JOIN [65, 65]))), [.took 99, .took 99], []⟩,
    ⟨.ready 0 false (some (.got (frame T_GO []))), last, [7]⟩,
    ⟨.ready 0 false (some (.got [])), [], []⟩]

/-- Where both are told of the start, the PEER_LEFT that the guest is sent comes after it. -/
theorem kickoff_is_bracketed :
    ∃ earlier begun between, ((run (.ofSource 3 0) (kickoff [])).clients 1).queued.take 3 =
        earlier ++ begun :: between ∧ typeOf begun = T_START ∧
      ∀ g ∈ between, typeOf g ≠ T_PEER_LEFT :=
  matches_are_bracketed 3 0 (kickoff []) (by decide +kernel) 1
    (((run (.ofSource 3 0) (kickoff [])).clients 1).queued.take 3)
    (frame T_PEER_LEFT (0 :: pad_name [65, 65])) []
    (by decide +kernel) (Or.inl rfl)

/-- Where the host is not, the guest is sent a PEER_LEFT without ever having been sent a START. -/
theorem left_before_start :
    (∃ f ∈ ((run (.ofSource 3 0) (kickoff [.failed])).clients 1).queued,
      typeOf f = T_PEER_LEFT) ∧
    ∀ f ∈ ((run (.ofSource 3 0) (kickoff [.failed])).clients 1).queued, typeOf f ≠ T_START := by
  decide +kernel

end BoxingNetplay.Analysis.RelayServer
