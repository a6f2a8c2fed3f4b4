import BoxingNetplay.Analysis.PairRuns

/-!
# Matches by a schedule

A match of two consoles that play is determined by the order of their turns, what each pump delivers and
what the cartridges do.  Following such a schedule is a function on nets (`Net.follow`), which fails when a
pump is to deliver what is not on its link, and what it leads to is a run (`PairRun.follow`).
-/

set_option autoImplicit false

namespace BoxingNetplay.Analysis

open BoxingNetplay.Library
open BoxingNetplay.Model
open BoxingNetplay.Interface

/-! ### Following a schedule -/

/-- A poll that delivers the first of some bytes. -/
def pollWith (bytes : List ℕ) : Poll where
  status := .ack 1
  avail := bytes.length
  devStatus := 1
  read := .ack 1
  data := (bytes.take 64).map (· % 256)
  short := by
    rw [List.length_map, List.length_take]
    omega
  bytes := by
    intro b hb
    obtain ⟨x, -, rfl⟩ := List.mem_map.mp hb
    exact Nat.mod_lt _ (by decide)

/-- A turn of a schedule: whose it is, what its pump delivers, and the cartridge. -/
structure Entry where
  host : Bool
  bytes : List ℕ
  game : Game

/-- The next step of a console that plays, and what it writes. -/
def Side.advance (a : Side) (e : Entry) : Option (Side × List ℕ) :=
  match a.party with
  | .playing k =>
    let o : Outside := ⟨pollWith e.bytes, e.game⟩
    let n := (takes k o).length
    if takes k o = a.inbound.take n then
      some (⟨.playing (k.step o), a.inbound.drop n, a.seen.step k o⟩, written k.cpu (k.step o).cpu)
    else none
  | _ => none

/-- The next turn. -/
def Net.advance (net : Net) (e : Entry) : Option Net :=
  if e.host then (net.host.advance e).map fun r => ⟨r.1, net.guest.post r.2⟩
  else (net.guest.advance e).map fun r => ⟨net.host.post r.2, r.1⟩

/-- The side that has just had its turn. -/
def Net.moved (net : Net) (e : Entry) : Side := if e.host then net.host else net.guest

/-- All turns, as long as `ok` holds of the console whose turn it was. -/
def Net.follow (ok : Side → Bool) (net : Net) : List Entry → Option Net
  | [] => some net
  | e :: es => (net.advance e).bind fun net' =>
      if ok (net'.moved e) then net'.follow ok es else none

section Follow

variable {d : ℕ} {P : Side → Prop} {net net' : Net}

/-- An entry of a schedule that is taken is a turn. -/
theorem Side.advance_turn {a : Side} {e : Entry} {r : Side × List ℕ} (h : a.advance e = some r)
    (seat : ℕ) : SideTurn d seat a r.1 r.2 := by
  obtain ⟨party, inbound, seen⟩ := a
  unfold Side.advance at h
  cases party with
  | lobby => cases h
  | roster c => cases h
  | playing k =>
    simp only at h
    split at h
    · next heq =>
      cases h
      exact .step _ _ ((congrArg (· ++ _) heq).trans (List.take_append_drop _ _))
    · cases h

/-- What a schedule leads to is a run. -/
theorem PairRun.follow {ok : Side → Bool} (h : PairRun d P net) (hok : ∀ a, ok a = true → P a)
    {es : List Entry} (hf : net.follow ok es = some net') : PairRun d P net' := by
  induction es generalizing net with
  | nil =>
    cases hf
    exact h
  | cons e es ih =>
    unfold Net.follow at hf
    obtain ⟨mid, hmid, hf⟩ := Option.bind_eq_some_iff.mp hf
    split at hf
    · next hmoved =>
      refine ih ?_ hf
      unfold Net.advance at hmid
      unfold Net.moved at hmoved
      split at hmid
      · next hhost =>
        rw [if_pos hhost] at hmoved
        obtain ⟨r, hr, rfl⟩ := Option.map_eq_some_iff.mp hmid
        exact .host h (Side.advance_turn hr 0) (hok _ hmoved)
      · next hguest =>
        rw [if_neg hguest] at hmoved
        obtain ⟨r, hr, rfl⟩ := Option.map_eq_some_iff.mp hmid
        exact .guest h (Side.advance_turn hr 1) (hok _ hmoved)
    · cases hf

end Follow

/-! ### A match to follow -/

/-- What is asked of a side here: nobody has left or re-baselined, or shows the roster with a push wanted. -/
def steady (a : Side) : Bool :=
  match a.party with
  | .lobby => decide (a.seen.epoch = 0)
  | .roster c => decide (c.cell NET_DROPPED = 0 ∧ c.cell RS_PEND = 0 ∧ a.seen.epoch = 0)
  | .playing k => decide (k.cpu.cell NET_DROPPED = 0 ∧ a.seen.epoch = 0)

/-- The check decides it. -/
theorem steady_spec {a : Side} (h : steady a = true) : Unpushed a ∧ Unasked a := by
  obtain ⟨party, inbound, seen⟩ := a
  unfold steady at h
  refine ⟨⟨fun c hc => ?_, ?_⟩, fun c hc => ?_⟩
  · cases party with
    | lobby => cases hc
    | roster c' =>
      cases hc
      exact (of_decide_eq_true h).1
    | playing k =>
      cases hc
      exact (of_decide_eq_true h).1
  · cases party with
    | lobby => exact of_decide_eq_true h
    | roster c' => exact (of_decide_eq_true h).2.2
    | playing k => exact (of_decide_eq_true h).2
  · cases party with
    | lobby => cases hc
    | roster c' =>
      cases hc
      exact (of_decide_eq_true h).2.1
    | playing k => cases hc

/-- A console that has just had its START. -/
theorem steady_start {c : Cpu} (hd : c.cell NET_DROPPED = 0) (hp : c.cell RS_PEND = 0) :
    steady ⟨.roster c, [], .fresh⟩ = true ∧ steady ⟨.playing ⟨c, .pass⟩, [], .fresh⟩ = true :=
  ⟨decide_eq_true ⟨hd, hp, rfl⟩, decide_eq_true ⟨hd, rfl⟩⟩

/-- A console with a START in its frame buffer, for a match of two with a delay of one, and a value of the
seat in its controller cell. -/
def opening (seat : Fin 2) : Cpu :=
  let c := (((default : Cpu).sto FRMBUF 38).sto (FRMBUF + 1) FT_START).sto (FRMBUF + 2) seat
  ((c.sto (FRMBUF + 3) 2).sto (FRMBUF + 6) 1).sto EXEC_IN_L (5 + 4 * seat)

/-- The console once it has handled it. -/
def opened (seat : Fin 2) : Cpu := (parseLoop SES_ONFRAME 256 (of_start (opening seat))).cpu

/-- The two consoles as they enter the game. -/
def entered : Net :=
  ⟨⟨.playing ⟨opened 0, .pass⟩, [], .fresh⟩, ⟨.playing ⟨opened 1, .pass⟩, [], .fresh⟩⟩

/-- Nothing but START comes to them before. -/
theorem opened_quiet : ∀ seat : Fin 2, unread (opening seat) = [] ∧
    (handed SES_ONFRAME 256 (of_start (opening seat))).isEmpty = true ∧
    written (opening seat) (opened seat) = [] ∧ (opened seat).cell NET_DROPPED = 0 ∧
    (opened seat).cell RS_PEND = 0 := by decide +kernel

/-- The opening opens the match for both seats. -/
theorem opening_opens (seat : Fin 2) : OpensFor 1 seat (opening seat) := by
  refine ⟨?_, ?_, ?_, ?_, ?_, ?_, fun r hr => absurd hr (List.not_mem_nil)⟩ <;> revert seat <;> decide

/-- The turn that is. -/
theorem opened_turn (seat : Fin 2) :
    SideTurn 1 seat ⟨.lobby, [], .fresh⟩ ⟨.roster (opened seat), [], .fresh⟩ [] := by
  obtain ⟨hunread, hhanded, hwritten, -, -⟩ := opened_quiet seat
  have hturn : SideTurn 1 seat ⟨.lobby, [], .fresh⟩ _ _ :=
    .start _ [] (opening_opens seat) (by rw [hunread, List.append_nil])
  have hnone := List.isEmpty_iff.mp hhanded
  rw [hnone] at hturn
  unfold opened at hwritten ⊢
  rw [hwritten] at hturn
  exact hturn

/-- What is asked of the two then. -/
theorem opened_steady {P : Side → Prop} (hok : ∀ a, steady a = true → P a) (seat : Fin 2) :
    P ⟨.roster (opened seat), [], .fresh⟩ ∧ P ⟨.playing ⟨opened seat, .pass⟩, [], .fresh⟩ := by
  obtain ⟨-, -, -, hdropped, hpend⟩ := opened_quiet seat
  have hsteady := steady_start hdropped hpend
  exact ⟨hok _ hsteady.1, hok _ hsteady.2⟩

/-- They are in a run. -/
theorem entered_run {P : Side → Prop} (hok : ∀ a, steady a = true → P a) : PairRun 1 P entered := by
  have hfirst : ∀ {c c' : Cpu}, SideTurn 1 0 ⟨.lobby, [], .fresh⟩ ⟨.roster c, [], .fresh⟩ [] →
      SideTurn 1 1 ⟨.lobby, [], .fresh⟩ ⟨.roster c', [], .fresh⟩ [] → P ⟨.roster c, [], .fresh⟩ →
      P ⟨.roster c', [], .fresh⟩ → P ⟨.playing ⟨c, .pass⟩, [], .fresh⟩ →
      P ⟨.playing ⟨c', .pass⟩, [], .fresh⟩ →
      PairRun 1 P ⟨⟨.playing ⟨c, .pass⟩, [], .fresh⟩, ⟨.playing ⟨c', .pass⟩, [], .fresh⟩⟩ :=
    fun ht ht' hp hp' hq hq' =>
      (((PairRun.lobby.host ht hp).guest ht' hp').host .enter hq).guest .enter hq'
  have hsteady := fun seat => opened_steady hok seat
  exact hfirst (opened_turn 0) (opened_turn 1) (hsteady 0).1 (hsteady 1).1 (hsteady 0).2
    (hsteady 1).2

/-- Whatever follows is a run too. -/
theorem entered_follow {P : Side → Prop} (hok : ∀ a, steady a = true → P a) {es : List Entry}
    {net : Net} (h : entered.follow steady es = some net) : PairRun 1 P net :=
  (entered_run hok).follow hok h

/-! ### The cartridge -/

/-- Most cells of the game are left with one value; the match goes on. -/
def paint (v : ℕ) (c : Cpu) : Cpu :=
  { c with
    mem :=
      { cell := fun a =>
          if 0x15D ≤ a ∧ a < 0x1F0 then (if a = BX_MATCHOVER then 0 else v) % 2 ^ cellWidth a
          else c.mem.cell a
        bounded := fun a => by
          split
          · exact Nat.mod_lt _ (Nat.two_pow_pos _)
          · exact c.mem.bounded a
        stores := List.range' 0x15D 147 ++ c.mem.stores } }

/-- It stores to the game alone. -/
theorem paint_frame (v : ℕ) (c : Cpu) : GameFrame c (paint v c) := by
  refine ⟨⟨List.range' 0x15D 147, rfl, fun a ha => ?_, fun a ha => if_neg fun h => ha ?_⟩, rfl, rfl,
    rfl⟩
  · rw [List.mem_range'_1] at ha
    exact Or.inl (by omega)
  · rw [List.mem_range'_1]
    omega

/-- A cartridge whose tick does that. -/
def painter (v : ℕ) : Game :=
  { (default : Game) with tick1 := paint v, tick1_frame := paint_frame v }

/-- Some turns of one console whose pumps deliver nothing. -/
def alone (host : Bool) (n : ℕ) (g : Game) : List Entry := List.replicate n ⟨host, [], g⟩

end BoxingNetplay.Analysis
