import BoxingNetplay.Interface.ServerLoop

/-!
# The names of the Python relay

`by_name` holds live clients under their names, and rooms hold live clients, as long as no HELLO
takes the name of the sender's own room mate at a moment when the sender cannot be told that the
mate has gone.  `on_hello` drops the mate, which drops the sender, and then registers it all
the same.
-/

set_option autoImplicit false

namespace BoxingNetplay.Analysis.RelayServer

open BoxingNetplay.Library
open BoxingNetplay.Model.Wire
open BoxingNetplay.Model.RelayServer
open BoxingNetplay.Interface.RelayServer

/-- No HELLO drops its own sender by way of the room mate whose name it takes. -/
def TakesNoMate (s : Server) (ci ftype : ℕ) (payload : List ℕ) : Prop :=
  ftype = T_HELLO → HelloSafe s ci payload

instance (s : Server) (ci ftype : ℕ) (payload : List ℕ) :
    Decidable (TakesNoMate s ci ftype payload) := inferInstanceAs (Decidable (_ → _))

/-- Such a frame leaves the names in order, whatever becomes of the matches. -/
theorem frameSafe_of_takesNoMate {cfg : Config} {s : Server} {ci ftype : ℕ} {payload : List ℕ}
    (h : TakesNoMate s ci ftype payload) : FrameSafe cfg True False s ci ftype payload :=
  ⟨fun _ => h, nofun, nofun⟩

/-- In a run in which no HELLO does so, every name belongs to a live client that has
it, no two to the same one, and every member of a room is a live client with that room; so the lobby
lists, and a JOIN finds, only connections that exist. -/
theorem names_are_live (delay auto_go : ℕ) (is : List Input)
    (hsafe : RunSafe (.ofSource delay auto_go) TakesNoMate start is) :
    (∀ e ∈ (run (.ofSource delay auto_go) is).by_name,
      live (run (.ofSource delay auto_go) is) e.2 ∧
      e.2 ∈ (run (.ofSource delay auto_go) is).connected ∧
      ((run (.ofSource delay auto_go) is).clients e.2).name = some e.1) ∧
    ((run (.ofSource delay auto_go) is).by_name.map Prod.fst).Nodup ∧
    ((run (.ofSource delay auto_go) is).by_name.map Prod.snd).Nodup ∧
    (∀ r, ∀ c ∈ ((run (.ofSource delay auto_go) is).rooms r).members,
      live (run (.ofSource delay auto_go) is) c ∧
      ((run (.ofSource delay auto_go) is).clients c).room = some r) ∧
    (∀ ci, ∀ c ∈ others (run (.ofSource delay auto_go) is) ci,
      live (run (.ofSource delay auto_go) is) c) ∧
    ∀ name c, by_name_get (run (.ofSource delay auto_go) is) name = some c →
      live (run (.ofSource delay auto_go) is) c := by
  have h := settled_run says_any (fun _ => rfl) is (runPasses_any _ is start)
    (hsafe.mono fun _ _ _ _ => frameSafe_of_takesNoMate)
  generalize run (.ofSource delay auto_go) is = s at h ⊢
  have hls := h.listed trivial
  refine ⟨fun e he => ?_, hls.keys, ?_, fun r c hm => ?_, fun ci c hc => ?_, fun name c hget => ?_⟩
  · obtain ⟨h1, h2⟩ := hls.listed e he
    exact ⟨h1, (h.connected e.2).mpr h1, h2⟩
  · -- two entries of one client would have the same key, its name
    have hpairs := List.Nodup.of_map _ hls.keys
    refine hpairs.map_on fun e he e' he' heq => Prod.ext ?_ heq
    have h1 := (hls.listed e he).2
    rw [heq, (hls.listed e' he').2] at h1
    exact (Option.some.inj h1).symm
  · exact ⟨hls.present r c hm, h.member r (Set.notMem_empty r) c hm⟩
  · obtain ⟨hin, -⟩ := List.mem_filter.mp (List.mem_of_mem_take hc)
    obtain ⟨e, he, rfl⟩ := List.mem_map.mp hin
    exact (hls.listed e he).1
  · exact (hls.listed _ (Dict.mem_of_get hget)).1

/-- Two clients say who they are, the second joins the first, and then takes its name; `last` is
what becomes of the send that tells it that the first has gone. -/
def takeover (last : List SendResult) : List Input :=
  [⟨.accept 1 0, [], []⟩, ⟨.accept 2 0, [], []⟩,
    ⟨.ready 0 false (some (.got (frame T_HELLO [2, 65, 65]))), [.took 99], []⟩,
    ⟨.ready 1 false (some (.got (frame T_HELLO [2, 66, 66]))), [.took 99], []⟩,
    ⟨.ready 1 false (some (.got (frame T_JOIN [65, 65]))), [.took 99, .took 99], []⟩,
    ⟨.ready 1 false (some (.got (frame T_HELLO [2, 65, 65]))), last, []⟩]

/-- Where that send succeeds, the one name left belongs to a live client. -/
theorem takeover_is_live :
    live (run (.ofSource 3 0) (takeover [.took 99, .took 99])) 1 ∧
      (run (.ofSource 3 0) (takeover [.took 99, .took 99])).by_name = [([65, 65], 1)] := by
  have hrun : (run (.ofSource 3 0) (takeover [.took 99, .took 99])).by_name = [([65, 65], 1)] := by
    decide +kernel
  have h := (names_are_live 3 0 (takeover [.took 99, .took 99]) (by decide +kernel)).1
  exact ⟨(h ([65, 65], 1) (by rw [hrun]; exact List.mem_cons_self)).1, hrun⟩

/-- Where it fails, the name belongs to a connection that is gone. -/
theorem dead_client_registered :
    (run (.ofSource 3 0) (takeover [.failed])).by_name = [([65, 65], 1)] ∧
      ((run (.ofSource 3 0) (takeover [.failed])).clients 1).dead = true ∧
      (run (.ofSource 3 0) (takeover [.failed])).connected = [] := by
  decide +kernel

end BoxingNetplay.Analysis.RelayServer
