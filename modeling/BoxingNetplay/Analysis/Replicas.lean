import BoxingNetplay.Analysis.Detection
import BoxingNetplay.Interface.LocalGame

/-!
# Two consoles play one game

Both consoles of a match have the same cartridge and enter the game on machines that are alike in the cells
it computes with, while their pads do what they like (`GameRun`).  As long as there is no push each of them
is, at every point of its passes, where a game without a network is that gets the captures of both seats `d`
ticks late (`consoles_play_one_game`).  When the checksum is of such cells only, the reports agree, so that
there never is a push (`replicas_never_push`).
-/

set_option autoImplicit false

namespace BoxingNetplay.Analysis

open BoxingNetplay.Library
open BoxingNetplay.Library.Delay (Node Letter Sys Inv Requests put)
open BoxingNetplay.Model
open BoxingNetplay.Interface
open BoxingNetplay.Analysis.KeyPairs (tickEnd pumping_waits)

/-! ### Matches of one cartridge -/

/-- A turn of a console whose cartridge acts as `g` does, which enters the game on a machine that is like `c₀` in the
cells of `S` and shows no terminal screen. -/
inductive GameTurn (g : Game) (S : Set ℕ) (c₀ : Cpu) (d seat : ℕ) : Side → Side → List ℕ → Prop where
  | before {a a' : Side} {bytes : List ℕ} (h : SideTurn d seat a a' bytes)
      (hp : ∀ k, a'.party ≠ .playing k) : GameTurn g S c₀ d seat a a' bytes
  | enter {wire : List ℕ} {v : Seen} {c : Cpu} (h : Alike S c₀ c) (hs : c.cell PEER_SCR = 0) :
      GameTurn g S c₀ d seat ⟨.roster c, wire, v⟩ ⟨.playing ⟨c, .pass⟩, wire, v⟩ []
  | step {wire : List ℕ} {v : Seen} {k : Console} (o : Outside) (rest : List ℕ)
      (hw : takes k o ++ rest = wire) (ha : ActsAs S g o.game) :
      GameTurn g S c₀ d seat ⟨.playing k, wire, v⟩
        ⟨.playing (k.step o), rest, v.step k o⟩ (written k.cpu (k.step o).cpu)

/-- A match of two consoles with that cartridge. -/
inductive GameRun (g : Game) (S : Set ℕ) (c₀ : Cpu) (d : ℕ) (P : Side → Prop) : Net → Prop where
  | lobby : GameRun g S c₀ d P ⟨⟨.lobby, [], .fresh⟩, ⟨.lobby, [], .fresh⟩⟩
  | host {net : Net} {a : Side} {bytes : List ℕ} (h : GameRun g S c₀ d P net)
      (ht : GameTurn g S c₀ d 0 net.host a bytes) (hp : P a) :
      GameRun g S c₀ d P ⟨a, net.guest.post bytes⟩
  | guest {net : Net} {a : Side} {bytes : List ℕ} (h : GameRun g S c₀ d P net)
      (ht : GameTurn g S c₀ d 1 net.guest a bytes) (hp : P a) :
      GameRun g S c₀ d P ⟨net.host.post bytes, a⟩

section Runs

variable {g : Game} {S : Set ℕ} {c₀ : Cpu} {d seat : ℕ} {P Q : Side → Prop} {net : Net} {a a' : Side}
  {bytes : List ℕ}

/-- A turn with that cartridge is a turn. -/
theorem GameTurn.turn (h : GameTurn g S c₀ d seat a a' bytes) : SideTurn d seat a a' bytes := by
  cases h with
  | before h _ => exact h
  | enter _ _ => exact .enter
  | step o rest hw _ => exact .step o rest hw

/-- It is a match of two consoles. -/
theorem GameRun.pair (h : GameRun g S c₀ d P net) : PairRun d P net := by
  induction h with
  | lobby => exact .lobby
  | host _ ht hp ih => exact ih.host ht.turn hp
  | guest _ ht hp ih => exact ih.guest ht.turn hp

/-- Of what each turn leaves a run may say less. -/
theorem GameRun.weaken (h : GameRun g S c₀ d P net) (hpq : ∀ a, P a → Q a) :
    GameRun g S c₀ d Q net := by
  induction h with
  | lobby => exact .lobby
  | host _ ht hp ih => exact ih.host ht (hpq _ hp)
  | guest _ ht hp ih => exact ih.guest ht (hpq _ hp)

/-- A schedule in which everybody has the cartridge leads to such a match. -/
theorem GameRun.follow {ok : Side → Bool} {net' : Net} (h : GameRun g S c₀ d P net)
    (hok : ∀ a, ok a = true → P a) {es : List Entry} (hes : ∀ e ∈ es, ActsAs S g e.game)
    (hf : net.follow ok es = some net') : GameRun g S c₀ d P net' := by
  have hturn : ∀ {a : Side} {e : Entry} {r : Side × List ℕ}, ActsAs S g e.game →
      a.advance e = some r → ∀ seat, GameTurn g S c₀ d seat a r.1 r.2 := by
    intro a e r he hr seat
    obtain ⟨party, inbound, seen⟩ := a
    unfold Side.advance at hr
    cases party with
    | lobby => cases hr
    | roster c => cases hr
    | playing k =>
      simp only at hr
      split at hr
      · next heq =>
        cases hr
        exact .step _ _ ((congrArg (· ++ _) heq).trans (List.take_append_drop _ _)) he
      · cases hr
  induction es generalizing net with
  | nil =>
    cases hf
    exact h
  | cons e es ih =>
    have he := hes e List.mem_cons_self
    unfold Net.follow at hf
    obtain ⟨mid, hmid, hf⟩ := Option.bind_eq_some_iff.mp hf
    split at hf
    · next hmoved =>
      refine ih ?_ (fun x hx => hes x (List.mem_cons_of_mem _ hx)) hf
      unfold Net.advance at hmid
      unfold Net.moved at hmoved
      split at hmid
      · next hhost =>
        rw [if_pos hhost] at hmoved
        obtain ⟨r, hr, rfl⟩ := Option.map_eq_some_iff.mp hmid
        exact .host h (hturn he hr 0) (hok _ hmoved)
      · next hguest =>
        rw [if_neg hguest] at hmoved
        obtain ⟨r, hr, rfl⟩ := Option.map_eq_some_iff.mp hmid
        exact .guest h (hturn he hr 1) (hok _ hmoved)
    · cases hf

end Runs

/-! ### A console in the game -/

/-- The machine of a game without a network where a console is that has run `n` ticks. -/
def localAt (g : Game) (c : Cpu) (xs : ℕ → Cells × Cells) : Phase → ℕ → Cpu
  | .native, n => localTick g (xs (n - 1)) (localGame g c xs (n - 1))
  | .scan, n => g.native (localTick g (xs (n - 1)) (localGame g c xs (n - 1)))
  | _, n => localGame g c xs n

/-- What a console has dispatched at each tick since START. -/
def playedOn (v : Seen) (n : ℕ) : Cells × Cells :=
  (v.played 0 n).getD (cellsAt (fun _ => none) n, cellsAt (fun _ => none) n)

/-- The console is where the local game is that plays what it has dispatched, and what it has reported are
the checksums of that game. -/
structure InGame (g : Game) (S : Set ℕ) (c₀ : Cpu) (k : Console) (v : Seen) : Prop where
  alike : Alike S (localAt g c₀ (playedOn v) k.phase v.age) k.cpu
  screen : k.cpu.cell PEER_SCR = 0
  begun : k.phase = .native ∨ k.phase = .scan → 0 < v.age
  noted : ∀ n < v.age, v.played 0 n ≠ none
  sums : (∀ a ∈ cksumCells, a ∈ S) → ∀ n w, v.summed 0 n = some w → n < v.age ∧
    w = LS_CKSUM (localTick g (playedOn v n) (localGame g c₀ (playedOn v) n))

section Console

variable {g g' : Game} {S : Set ℕ} {c₀ c' : Cpu} {k : Console} {v v' : Seen} {xs ys : ℕ → Cells × Cells}
  {n : ℕ} {q : Phase}

/-- Before its timer entries the game has had the tick and nothing more. -/
theorem localAt_native (g : Game) (c : Cpu) (xs : ℕ → Cells × Cells) (n : ℕ) :
    localAt g c xs .native n = localTick g (xs (n - 1)) (localGame g c xs (n - 1)) := rfl

/-- Before the scan it has had the tick and its timer entries. -/
theorem localAt_scan (g : Game) (c : Cpu) (xs : ℕ → Cells × Cells) (n : ℕ) :
    localAt g c xs .scan n = g.native (localTick g (xs (n - 1)) (localGame g c xs (n - 1))) := rfl

/-- In the other phases of a pass it has had as many whole ticks as have run. -/
theorem localAt_pass (g : Game) (c : Cpu) (xs : ℕ → Cells × Cells) (n : ℕ) (h1 : q ≠ .native)
    (h2 : q ≠ .scan) : localAt g c xs q n = localGame g c xs n := by
  cases q with
  | native => exact absurd rfl h1
  | scan => exact absurd rfl h2
  | _ => rfl

/-- It depends on the inputs of the ticks that have run. -/
theorem localAt_congr (hq : q = .native ∨ q = .scan → 0 < n) (h : ∀ k < n, ys k = xs k) :
    localAt g c' ys q n = localAt g c' xs q n := by
  have hlast : 0 < n → ys (n - 1) = xs (n - 1) ∧
      localGame g c' ys (n - 1) = localGame g c' xs (n - 1) := by
    intro hpos
    exact ⟨h _ (by omega), localGame_congr g c' fun k hk => h k (by omega)⟩
  cases q with
  | native =>
    obtain ⟨h1, h2⟩ := hlast (hq (Or.inl rfl))
    rw [localAt_native, localAt_native, h1, h2]
  | scan =>
    obtain ⟨h1, h2⟩ := hlast (hq (Or.inr rfl))
    rw [localAt_scan, localAt_scan, h1, h2]
  | _ => exact localGame_congr g c' h

namespace InGame

/-- A step that leaves the game alone. -/
theorem keep (h : InGame g S c₀ k v) (hs : SharedCells S) (hf : Frame NetcodeArea k.cpu c')
    (hk : k.phase ≠ .native ∧ k.phase ≠ .scan) (hq : q ≠ .native ∧ q ≠ .scan) (ha : v'.age = v.age)
    (hp : v'.played = v.played) (hsum : v'.summed = v.summed) : InGame g S c₀ ⟨c', q⟩ v' := by
  have hsame : playedOn v' = playedOn v := by
    unfold playedOn
    rw [hp]
  have halike := h.alike
  rw [localAt_pass _ _ _ _ hk.1 hk.2] at halike
  refine ⟨?_, ?_, fun hn => ?_, fun n hn => ?_, fun hck n w hw => ?_⟩
  · rw [localAt_pass _ _ _ _ hq.1 hq.2, hsame, ha]
    exact halike.frame hs hf
  · rw [hf.cell_eq]
    · exact h.screen
    · exact screen_not_netcode
  · exact (hn.elim hq.1 hq.2).elim
  · rw [hp]
    exact h.noted n (ha ▸ hn)
  · rw [hsame, ha]
    exact h.sums hck n w (hsum ▸ hw)

/-- A tick. -/
theorem tick (h : InGame g S c₀ k v) (hg : Replicates g S) (ha : ActsAs S g g') (hs : SharedCells S)
    (ht : Tabled S c₀) (hph : k.phase = .run) (he : v.epoch = 0) (hn : ¬ Pushes (tickEnd g' k.cpu)) :
    InGame g S c₀ ⟨(runTick g' k.cpu).cpu, .native⟩ (v.ran g' k.cpu) := by
  have hcur := h.alike
  rw [hph] at hcur
  have htick : Alike S (localTick g (dispatchedCells g' k.cpu) (localGame g c₀ (playedOn v) v.age))
      (reportMachine g' k.cpu) := alike_tick hcur hg ha hs (ht.ran hg hs _ _)
  have hend : Frame NetcodeArea (reportMachine g' k.cpu) (runTick g' k.cpu).cpu := by
    refine ((report_netcode _).trans (count_netcode _)).trans ((RS_PENDING_waits hn).mono ?_)
    rintro a rfl
    exact Or.inr (by simp)
  have hplayed : (v.ran g' k.cpu).played = put v.played 0 v.age (dispatchedCells g' k.cpu) := by
    rw [← he]
    rfl
  have hnew : playedOn (v.ran g' k.cpu) v.age = dispatchedCells g' k.cpu := by
    unfold playedOn
    rw [hplayed, Delay.put_self]
    rfl
  have hold : ∀ n < v.age, playedOn (v.ran g' k.cpu) n = playedOn v n := by
    intro n hn
    unfold playedOn
    rw [hplayed, Delay.put_of_ne _ _ fun _ => by omega]
  have hgame : ∀ n ≤ v.age, localGame g c₀ (playedOn (v.ran g' k.cpu)) n =
      localGame g c₀ (playedOn v) n := fun n hn => localGame_congr g c₀ fun j hj => hold j (by omega)
  refine ⟨?_, ?_, fun _ => Nat.succ_pos _, fun n hn => ?_, fun hck n w hw => ?_⟩
  · have hat : localAt g c₀ (playedOn (v.ran g' k.cpu)) .native (v.age + 1) =
        localTick g (dispatchedCells g' k.cpu) (localGame g c₀ (playedOn v) v.age) := by
      rw [localAt_native, Nat.add_sub_cancel, hnew, hgame _ (Nat.le_refl _)]
    change Alike S (localAt g c₀ (playedOn (v.ran g' k.cpu)) .native (v.age + 1)) _
    rw [hat]
    exact htick.frame hs hend
  · have hscreen := tickEnd_kept g' k.cpu (a := PEER_SCR) (Or.inl (Or.inl (Or.inl (by simp))))
      (by decide) (by decide)
    have hwait : (runTick g' k.cpu).cpu.cell PEER_SCR = (tickEnd g' k.cpu).cell PEER_SCR :=
      (RS_PENDING_waits hn).cell_eq (by simp)
    rw [hwait, hscreen]
    exact h.screen
  · rw [hplayed]
    by_cases heq : n = v.age
    · rw [heq, Delay.put_self]
      exact Option.some_ne_none _
    · rw [Delay.put_of_ne _ _ fun _ => heq]
      change n < v.age + 1 at hn
      exact h.noted n (by omega)
  · have hcase : (n = v.age ∧ w = reportSum (reportMachine g' k.cpu)) ∨ v.summed 0 n = some w := by
      unfold Seen.ran at hw
      simp only at hw
      split at hw
      · rw [he] at hw
        by_cases heq : n = v.age
        · rw [heq, Delay.put_self] at hw
          exact Or.inl ⟨heq, (Option.some.inj hw).symm⟩
        · rw [Delay.put_of_ne _ _ fun _ => heq] at hw
          exact Or.inr hw
      · exact Or.inr hw
    change n < v.age + 1 ∧ _
    rcases hcase with ⟨rfl, rfl⟩ | hw
    · refine ⟨Nat.lt_succ_self _, ?_⟩
      rw [hnew, hgame _ (Nat.le_refl _)]
      exact (htick.frame hs (reset_netcode _)).sum hck
    · obtain ⟨hlt, heq⟩ := h.sums hck n w hw
      rw [hold n hlt, hgame n (by omega)]
      exact ⟨by omega, heq⟩

/-- The timer entries. -/
theorem native (h : InGame g S c₀ k v) (hg : Replicates g S) (ha : ActsAs S g g')
    (hph : k.phase = .native) : InGame g S c₀ ⟨g'.native k.cpu, .scan⟩ v := by
  have hcur := h.alike
  have hbegun := h.begun (Or.inl hph)
  rw [hph] at hcur
  refine ⟨(hg.native _ _ hcur).trans (ha.native _), ?_, fun _ => hbegun, h.noted, h.sums⟩
  rw [kept_game (g'.native_frame _) (by simp)]
  exact h.screen

/-- The scan, which the null table keeps from the handlers. -/
theorem scan (h : InGame g S c₀ k v) (hg : Replicates g S) (ha : ActsAs S g g') (hs : SharedCells S)
    (hph : k.phase = .scan) : InGame g S c₀ ⟨g'.scan k.cpu, .pass⟩ v := by
  have hcur := h.alike
  obtain ⟨n, hn⟩ := Nat.exists_eq_succ_of_ne_zero (Nat.pos_iff_ne_zero.mp (h.begun (Or.inr hph)))
  rw [hph, hn] at hcur
  refine ⟨?_, ?_, fun hq => ?_, h.noted, h.sums⟩
  · -- the null table is among the cells
    have hnull := hg.native_null _
      (localTick_null g (playedOn v n) (localGame g c₀ (playedOn v) n))
    rw [hn]
    exact (hg.scan _ _ hnull hcur).trans (ha.scan _ ((hcur _ hs.table).trans hnull))
  · rw [kept_game (g'.scan_frame _) (by simp)]
    exact h.screen
  · rcases hq with hq | hq <;> cases hq

end InGame

/-- The inputs of a tick that has run are those it dispatched. -/
theorem InGame.inputs (h : InGame g S c₀ k v) (hxs : ∀ n x, v.played 0 n = some x → x = xs n) {n : ℕ}
    (hn : n < v.age) : playedOn v n = xs n := by
  obtain ⟨x, hx⟩ := Option.ne_none_iff_exists'.mp (h.noted n hn)
  unfold playedOn
  rw [hx]
  exact hxs n x hx

/-- A step of a match without a push: nobody has left, the console is in no resync, and it is handed inputs,
reports and requests only. -/
structure Ordinary (k : Console) (o : Outside) : Prop where
  up : k.cpu.cell NET_DROPPED = 0
  hold : k.cpu.cell RESYNC_HOLD = 0
  on : k.phase ≠ .parked
  seat : k.cpu.cell NET_SEAT ≤ 3
  frames : ∀ x ∈ dispatched k o, PlainFrame x
  stays : (k.step o).cpu.cell NET_DROPPED = 0

/-- What an observer notes of such frames. -/
theorem noted_plain {ds : List Cpu} (h : ∀ x ∈ ds, PlainFrame x) (v : Seen) :
    (ds.foldl Seen.note v).age = v.age ∧ (ds.foldl Seen.note v).played = v.played ∧
      (ds.foldl Seen.note v).summed = v.summed := by
  induction ds generalizing v with
  | nil => exact ⟨rfl, rfl, rfl⟩
  | cons x ds ih =>
    have hstate : ¬ Rebases x := by
      intro hr
      have hty := hr.1
      rcases h x List.mem_cons_self with ⟨hx, -⟩ | hx | hx
      · rw [hx] at hty
        cases hty
      · rw [hx] at hty
        cases hty
      · rw [hx] at hty
        cases hty
    have hnote : v.note x = v.hear x := if_neg hstate
    have hhear : (v.hear x).age = v.age ∧ (v.hear x).played = v.played ∧
        (v.hear x).summed = v.summed := by
      unfold Seen.hear
      split <;> exact ⟨rfl, rfl, rfl⟩
    obtain ⟨h1, h2, h3⟩ := ih (fun y hy => h y (List.mem_cons_of_mem _ hy)) (v.note x)
    rw [hnote] at h1 h2 h3
    rw [List.foldl_cons, hnote]
    exact ⟨h1.trans hhear.1, h2.trans hhear.2.1, h3.trans hhear.2.2⟩

/-- Every such step keeps the console where the local game is. -/
theorem InGame.step {o : Outside} (h : InGame g S c₀ k v) (hg : Replicates g S)
    (ha : ActsAs S g o.game) (hs : SharedCells S) (ht : Tabled S c₀) (hc : Ordinary k o)
    (he : v.epoch = 0) (he' : (v.step k o).epoch = 0) : InGame g S c₀ (k.step o) (v.step k o) := by
  have hstep := stepped k o
  have hstays := hc.stays
  have hframes := hc.frames
  generalize k.step o = k' at hstep hstays ⊢
  have hpump : ∀ {c : Cpu}, Frame NetcodeArea k.cpu c → pumping k = some c →
      Frame NetcodeArea k.cpu (SES_PUMP SES_ONFRAME c o.poll).cpu := by
    intro c hf hp
    rw [dispatched_eq hp] at hframes
    exact hf.trans ((handles_pump c o.poll).netcode hframes)
  have hnoted := noted_plain hframes v
  have hquiet : ∀ {q : Phase}, k.phase = q → q ≠ .due → q ≠ .run →
      v.step k o = (dispatched k o).foldl Seen.note v := by
    intro q hq h1 h2
    unfold Seen.step
    rw [hq]
    cases q with
    | due => exact absurd rfl h1
    | run => exact absurd rfl h2
    | _ => rfl
  cases hstep with
  | shown hph hshown => exact absurd h.screen hshown
  | left hph hdrop => exact absurd hc.up hdrop
  | hold hph _ hheld => exact absurd hc.hold hheld
  | pass hph _ _ hp =>
    rw [hquiet hph (by decide) (by decide)]
    exact h.keep hs (hpump (Frame.refl _ _) hp) (by rw [hph]; decide) (by decide) hnoted.1 hnoted.2.1
      hnoted.2.2
  | due hph =>
    rw [noted_due _ v hph]
    exact h.keep hs (capture_netcode hc.seat) (by rw [hph]; decide) (by decide) rfl rfl rfl
  | opened hph ho =>
    rw [hquiet hph (by decide) (by decide)]
    exact h.keep hs (Frame.refl _ _) (by rw [hph]; decide) (by decide) hnoted.1 hnoted.2.1 hnoted.2.2
  | stall hph ho hp c' hwait =>
    rw [hquiet hph (by decide) (by decide)]
    have hfreeze := hpump ((frame_freeze k.cpu).mono wait_netcode) hp
    cases hwait with
    | on hf _ =>
      exact h.keep hs (hfreeze.trans (hf.mono wait_netcode)) (by rw [hph]; decide) (by decide)
        hnoted.1 hnoted.2.1 hnoted.2.2
    | gaveUp hgave => exact absurd hstays hgave.dropped
  | tick hph =>
    rw [noted_run _ v hph] at he' ⊢
    have hn : ¬ Pushes (tickEnd o.game k.cpu) := by
      intro hp
      have hpush : v.ticked o.game k.cpu = { v.ran o.game k.cpu with epoch := v.epoch + 1, age := 0 } := if_pos hp
      rw [hpush] at he'
      cases he'
    have hran : v.ticked o.game k.cpu = v.ran o.game k.cpu := if_neg hn
    rw [hran]
    exact h.tick hg ha hs ht hph he hn
  | native hph =>
    have hp := pumping_eq_none (k := k) (by rw [hph]; decide) (by rw [hph]; decide)
    rw [noted_none _ v (by rw [hph]; decide) (by rw [hph]; decide) hp]
    exact h.native hg ha hph
  | scan hph =>
    have hp := pumping_eq_none (k := k) (by rw [hph]; decide) (by rw [hph]; decide)
    rw [noted_none _ v (by rw [hph]; decide) (by rw [hph]; decide) hp]
    exact h.scan hg ha hs hph
  | parked hph => exact absurd hph hc.on

end Console

/-! ### The frames of a match without a push -/

section Frames

variable {d seat : ℕ} {ls : List Post} {sums : ℕ → ℕ → Option ℕ} {s : Line} {k : Console}
  {wire rest : List ℕ} {v : Seen} {o : Outside}

/-- A letter that is no part of a push, or that the guest has written. -/
def Plain (seat : ℕ) (l : Post) : Prop :=
  seat = 1 ∨ (∃ v, l.body = .input v) ∨ ∃ w, l.body = .report w

/-- Its frame is one of a match without a push. -/
theorem Spells.plainFrame {l : Post} {f : List ℕ} {x : Cpu} (h : Spells d seat l f) (hc : Carries x f)
    (hs : seat ≤ 3) (hl : Plain seat l) : PlainFrame x := by
  have hpush : seat = 0 → (∀ w, l.body ≠ .input w) → (∀ w, l.body ≠ .report w) → False := by
    intro h0 hin hrep
    rcases hl with h1 | ⟨w, hw⟩ | ⟨w, hw⟩
    · omega
    · exact hin w hw
    · exact hrep w hw
  cases h with
  | input e t w =>
    have hty := hc.cell (i := 1) (by simp)
    have hseat := hc.cell (i := 2) (by simp)
    exact Or.inl ⟨hty, Nat.le_trans (Nat.le_of_eq hseat) hs⟩
  | report e t w => exact Or.inr (Or.inl (hc.cell (i := 1) (by simp)))
  | ask e t lo hi => exact Or.inr (Or.inr (hc.cell (i := 1) (by simp)))
  | opening e t r H h0 =>
    exact (hpush h0 (fun w hw => by cases hw) fun w hw => by cases hw).elim
  | part e t H p h0 =>
    exact (hpush h0 (fun w hw => by cases hw) fun w hw => by cases hw).elim
  | closing e t r h0 =>
    exact (hpush h0 (fun w hw => by cases hw) fun w hw => by cases hw).elim

/-- All frames of such letters. -/
theorem plain_all {fs : List (List ℕ)} {ds : List Cpu} (hs : seat ≤ 3)
    (hfs : List.Forall₂ (Spells d seat) ls fs) (hcs : List.Forall₂ Carries ds fs)
    (hls : ∀ l ∈ ls, Plain seat l) : ∀ x ∈ ds, PlainFrame x := by
  induction hfs generalizing ds with
  | nil =>
    cases hcs
    exact List.forall_mem_nil _
  | cons h _ ih =>
    cases hcs with
    | cons hc hcs =>
      intro x hx
      rcases List.mem_cons.mp hx with rfl | hx
      · exact h.plainFrame hc hs (hls _ List.mem_cons_self)
      · exact ih hcs (fun l hl => hls l (List.mem_cons_of_mem _ hl)) x hx

/-- What a console is handed when all letters to it are such. -/
theorem Feeds.plainFrame (h : Feeds d seat ls k.cpu wire) (hs : seat ≤ 3) (hls : ∀ l ∈ ls, Plain seat l)
    (hw : takes k o ++ rest = wire) : ∀ x ∈ dispatched k o, PlainFrame x := by
  cases hp : pumping k with
  | none =>
    unfold dispatched
    rw [hp]
    exact List.forall_mem_nil _
  | some c =>
    obtain ⟨-, -, hf⟩ := pumping_waits hp
    rw [takes_pump o hp] at hw
    have hfeeds := h.congr fun a ha => hf.cell_eq (kept_not_wait (ring_kept ha))
    obtain ⟨read, q, hdel, -⟩ := hfeeds.pump o.poll hw
    obtain ⟨fs, hfs, hcs⟩ := hdel.frames
    rw [dispatched_eq hp]
    apply plain_all hs hfs hcs
    intro l hl
    apply hls
    rw [hdel.split]
    exact List.mem_append_left _ hl

/-- The guest does not push. -/
theorem HostPlays.ordinary (h : HostPlays d sums s k wire v) (hw : takes k o ++ rest = wire)
    (hup : (k.step o).cpu.cell NET_DROPPED = 0) : Ordinary k o := by
  refine ⟨h.up, h.host.hold, h.on, ?_, h.feeds.plainFrame (by decide) (fun _ _ => Or.inl rfl) hw, hup⟩
  rw [h.host.node.mine]
  decide

/-- Nor has the host in its first epoch. -/
theorem GuestPlays.ordinary (h : GuestPlays d sums s k wire v) (he : s.host.epoch = 0)
    (hw : takes k o ++ rest = wire) (hup : (k.step o).cpu.cell NET_DROPPED = 0) : Ordinary k o := by
  have hle := h.guest.inv.epoch_le
  obtain ⟨hhold, hplain⟩ := h.guest.inv.down.level (by omega)
  refine ⟨h.up, h.guest.free hhold, h.on, ?_,
    h.feeds.plainFrame (by decide) (fun l hl => Or.inr (hplain l hl)) hw, hup⟩
  rw [h.guest.node.mine]
  decide

end Frames

/-! ### Both consoles -/

/-- A console that has not entered the game has run no tick, and one that has is where the local game is. -/
inductive Mirrors (g : Game) (S : Set ℕ) (c₀ : Cpu) : Side → Prop where
  | before {a : Side} (hp : ∀ k, a.party ≠ .playing k) (age : a.seen.age = 0)
      (summed : a.seen.summed 0 = fun _ => none) : Mirrors g S c₀ a
  | playing {k : Console} {wire : List ℕ} {v : Seen} (h : InGame g S c₀ k v) :
      Mirrors g S c₀ ⟨.playing k, wire, v⟩

section Both

variable {g : Game} {S : Set ℕ} {c₀ : Cpu} {d seat : ℕ} {P : Side → Prop} {net : Net} {a a' : Side}
  {bytes : List ℕ}

/-- Before a console plays it notes no tick. -/
theorem noted_before (ds : List Cpu) (v : Seen) (h : v.age = 0) :
    (ds.foldl Seen.note v).age = 0 ∧ (ds.foldl Seen.note v).summed = v.summed := by
  induction ds generalizing v with
  | nil => exact ⟨h, rfl⟩
  | cons x ds ih =>
    have hnote : (v.note x).age = 0 ∧ (v.note x).summed = v.summed := by
      unfold Seen.note
      split
      · exact ⟨rfl, rfl⟩
      · unfold Seen.hear
        split <;> exact ⟨h, rfl⟩
    obtain ⟨h1, h2⟩ := ih (v.note x) hnote.1
    exact ⟨h1, h2.trans hnote.2⟩

namespace Mirrors

/-- More bytes on the way. -/
theorem post (h : Mirrors g S c₀ a) (bytes : List ℕ) : Mirrors g S c₀ (a.post bytes) := by
  cases h with
  | before hp age summed => exact .before hp age summed
  | playing h => exact .playing h

/-- Entering the game. -/
theorem enter {wire : List ℕ} {v : Seen} {c : Cpu} (h : Mirrors g S c₀ ⟨.roster c, wire, v⟩)
    (hc : Alike S c₀ c) (hscreen : c.cell PEER_SCR = 0) :
    Mirrors g S c₀ ⟨.playing ⟨c, .pass⟩, wire, v⟩ := by
  cases h with
  | before hp age summed =>
    simp only at age summed
    refine .playing ⟨?_, hscreen, fun hq => ?_, fun n hn => ?_, fun _ n w hw => ?_⟩
    · rw [localAt_pass _ _ _ _ (fun hq => by cases hq) (fun hq => by cases hq), age]
      exact hc
    · rcases hq with hq | hq <;> cases hq
    · omega
    · rw [summed] at hw
      cases hw

/-- A turn. -/
theorem turn (h : Mirrors g S c₀ a) (hg : Replicates g S) (hs : SharedCells S) (ht : Tabled S c₀)
    (hturn : GameTurn g S c₀ d seat a a' bytes)
    (hord : ∀ k o rest, a.party = .playing k → takes k o ++ rest = a.inbound →
      (k.step o).cpu.cell NET_DROPPED = 0 → Ordinary k o)
    (hup : Up a') (he : a.seen.epoch = 0) (he' : a'.seen.epoch = 0) : Mirrors g S c₀ a' := by
  cases hturn with
  | before hside hp =>
    have hold : (∀ k, a.party ≠ .playing k) → a.seen.age = 0 ∧ a.seen.summed 0 = fun _ => none := by
      intro hno
      cases h with
      | before _ age summed => exact ⟨age, summed⟩
      | playing h => exact absurd rfl (hno _)
    cases hside with
    | start c rest ho hw =>
      obtain ⟨hage, hsum⟩ := hold fun k hk => by cases hk
      obtain ⟨h1, h2⟩ := noted_before (handed SES_ONFRAME 256 (of_start c)) _ hage
      exact .before hp h1 ((congrFun h2 0).trans hsum)
    | pump p rest hw =>
      obtain ⟨hage, hsum⟩ := hold fun k hk => by cases hk
      obtain ⟨h1, h2⟩ := noted_before (pumpHanded SES_ONFRAME _ p) _ hage
      exact .before hp h1 ((congrFun h2 0).trans hsum)
    | quiet heq hs =>
      obtain ⟨hage, hsum⟩ := hold fun k hk => by cases hk
      exact .before hp hage hsum
    | enter => exact absurd rfl (hp _)
    | step o rest hw => exact absurd rfl (hp _)
  | enter hc hscreen => exact h.enter hc hscreen
  | step o rest hw ha =>
    cases h with
    | before hp _ _ => exact absurd rfl (hp _)
    | playing h => exact .playing (h.step hg ha hs ht (hord _ o rest rfl hw (hup _ rfl)) he he')

/-- It is where the local game is on any inputs that begin with those it has dispatched. -/
theorem plays {xs : ℕ → Cells × Cells} {k : Console} (h : Mirrors g S c₀ a)
    (hk : a.party = .playing k) (hxs : ∀ n x, a.seen.played 0 n = some x → x = xs n) :
    Alike S (localAt g c₀ xs k.phase a.seen.age) k.cpu := by
  cases h with
  | before hp _ _ => exact absurd hk (hp k)
  | playing h =>
    cases hk
    rw [localAt_congr h.begun fun n hn => (h.inputs hxs hn).symm]
    exact h.alike

/-- And it has reported the checksums of that game. -/
theorem sums {xs : ℕ → Cells × Cells} (h : Mirrors g S c₀ a) (hc : ∀ b ∈ cksumCells, b ∈ S)
    (hxs : ∀ n x, a.seen.played 0 n = some x → x = xs n) {n w : ℕ}
    (hw : a.seen.summed 0 n = some w) :
    w = LS_CKSUM (localTick g (xs n) (localGame g c₀ xs n)) := by
  cases h with
  | before _ _ summed =>
    rw [summed] at hw
    cases hw
  | playing h =>
    obtain ⟨hlt, heq⟩ := h.sums hc n w hw
    rw [heq, h.inputs hxs hlt]
    rw [localGame_congr g c₀ fun j hj => (h.inputs hxs (Nat.lt_trans hj hlt)).symm]

end Mirrors

/-- The inputs of the two seats for each tick, when there is no push: their captures, `d` ticks late. -/
def sharedInputs (d : ℕ) (net : Net) (n : ℕ) : Cells × Cells :=
  (cellsAt (delayed d (net.host.seen.captured 0)) n, cellsAt (delayed d (net.guest.seen.captured 0)) n)

/-- Nobody has a push behind him in a run without one. -/
theorem GameRun.unpushed (h : GameRun g S c₀ d Unpushed net) :
    net.host.seen.epoch = 0 ∧ net.guest.seen.epoch = 0 :=
  h.pair.both (Q := fun a => a.seen.epoch = 0) rfl (fun _ ha => ha.2) fun _ _ => id

/-- Neither console loses the local game. -/
theorem GameRun.mirrors (h : GameRun g S c₀ d Unpushed net) (hd : 1 ≤ d ∧ d ≤ 127)
    (hg : Replicates g S) (hs : SharedCells S) (ht : Tabled S c₀) :
    Mirrors g S c₀ net.host ∧ Mirrors g S c₀ net.guest := by
  induction h with
  | lobby =>
    have hlobby : Mirrors g S c₀ ⟨.lobby, [], .fresh⟩ :=
      .before (fun k hk => by cases hk) rfl rfl
    exact ⟨hlobby, hlobby⟩
  | @host net a bytes h hturn hp ih =>
    obtain ⟨s, sumsH, sumsG, hj⟩ := h.pair.joined hd fun _ => Unpushed.regular
    refine ⟨ih.1.turn hg hs ht hturn (fun k o rest hk hw hup => ?_) hp.1 h.unpushed.1 hp.2,
      ih.2.post bytes⟩
    have hside := hj.host
    generalize net.host = b at hside hk hw
    cases hside with
    | lobby => cases hk
    | roster _ => cases hk
    | playing hplays =>
      cases hk
      exact hplays.ordinary hw hup
  | @guest net a bytes h hturn hp ih =>
    obtain ⟨s, sumsH, sumsG, hj⟩ := h.pair.joined hd fun _ => Unpushed.regular
    have hzero : s.host.epoch = 0 := hj.hostSeen.epoch.symm.trans h.unpushed.1
    refine ⟨ih.1.post bytes,
      ih.2.turn hg hs ht hturn (fun k o rest hk hw hup => ?_) hp.1 h.unpushed.2 hp.2⟩
    have hside := hj.guest
    generalize net.guest = b at hside hk hw
    cases hside with
    | lobby => cases hk
    | roster _ => cases hk
    | playing hplays =>
      cases hk
      exact hplays.ordinary hzero hw hup

/-- What either console has dispatched is what both seats captured. -/
theorem GameRun.dispatched (h : GameRun g S c₀ d Unpushed net) (hd : 1 ≤ d ∧ d ≤ 127) :
    (∀ n x, net.host.seen.played 0 n = some x → x = sharedInputs d net n) ∧
      ∀ n x, net.guest.seen.played 0 n = some x → x = sharedInputs d net n := by
  obtain ⟨s, sumsH, sumsG, hj⟩ := h.pair.joined hd fun _ => Unpushed.regular
  exact ⟨fun n x hx => hj.played hj.hostTold hx, fun n x hx => hj.played hj.guestTold hx⟩

/-! ### A match of one cartridge -/

/-- The cells the sample cartridge computes with: those of the checksum, the handler table with its parked
copy and its pointers, and the countdowns. -/
def paintedCells : List ℕ :=
  cksumCells ++ [EXEC_HTBL, GAME_TBL_LO, GAME_TBL_HI] ++ List.range' BX_CNT2_LO 6 ++
    List.range' NULL_TBL 10

/-- Those cells by address. -/
theorem painted_cases {a : ℕ} (h : a ∈ paintedCells) : (0x129 ≤ a ∧ a ≤ 0x12E) ∨
    (0x15D ≤ a ∧ a < 0x1F0) ∨ a = 0x35D ∨ (0x6037 ≤ a ∧ a < 0x6041) ∨ a = 0x80C0 ∨ a = 0x80C1 ∨
      a = 0x8102 ∨ a = 0x8106 ∨ a = 0x8107 ∨ a = 0x810F ∨ (0x8196 ≤ a ∧ a ≤ 0x819B) ∨ a = 0x819F := by
  simp only [paintedCells, cksumCells, List.mem_append, List.mem_range'_1, List.mem_cons,
    List.not_mem_nil, or_false, RNG_LO, RNG_HI, RS_SPARE0, RS_SPARE1, SC_CNT2, SC_CNT3, SC_CNT4,
    SC_CNT5, SC_CNT6, SC_CNT7, RS_SPARE5, EXEC_HTBL, GAME_TBL_LO, GAME_TBL_HI, BX_CNT2_LO,
    NULL_TBL] at h
  omega

/-- The netcode has none of them. -/
theorem painted_shared : SharedCells {a | a ∈ paintedCells} where
  table := by simp [paintedCells]
  parked := by simp [paintedCells]
  countdowns a h1 h2 := by
    simp only [BX_CNT4_HI] at h2
    simp only [paintedCells, Set.mem_ofPred_eq, List.mem_append, List.mem_range'_1]
    exact Or.inl (Or.inr ⟨h1, by simp only [BX_CNT2_LO]; omega⟩)
  null := by
    refine Or.inr fun k hk => ?_
    simp only [paintedCells, Set.mem_ofPred_eq, List.mem_append, List.mem_range'_1, NULL_TBL]
    exact Or.inr (by omega)
  apart a h hn := by
    have hpainted := painted_cases h
    have hnetcode := netcode_cases hn
    omega

/-- It does compute with them alone. -/
theorem painted_replicates (v : ℕ) : Replicates (painter v) {a | a ∈ paintedCells} where
  handler _ _ _ _ _ h := h
  tick1 c c' h a ha := by
    change (if _ then _ else _) = (if _ then _ else _)
    split
    · rfl
    · exact h a ha
  native _ _ h := h
  scan _ _ _ h := h
  handler_table _ _ _ _ h := h
  tick1_table c h := h
  native_null _ h := h

/-- START has left them blank, and nothing else has come. -/
theorem opened_blank (seat : Fin 2) {a : ℕ} (h : a ∈ paintedCells ∨ a = PEER_SCR) :
    (opened seat).cell a = 0 := by
  have hnone := List.isEmpty_iff.mp (opened_quiet seat).2.1
  have hstart := started (opening seat) (opening_opens seat).length
  have hparse := handles_parseLoop (f := SES_ONFRAME) 256 (of_start (opening seat))
  rw [hnone] at hparse
  have hcases : _ ∨ a = 0x8185 := h.imp_left painted_cases
  have hapart : a ∉ NetcodeArea := by
    intro hn
    have := netcode_cases hn
    omega
  have hkept : (opened seat).cell a = (of_start (opening seat)).cell a :=
    (hparse.netcode (List.forall_mem_nil _)).cell_eq hapart
  have hzero : ∀ b, b ≠ 0x11F → b ≠ 0x8300 → b ≠ 0x8301 → b ≠ 0x8302 → b ≠ 0x8303 → b ≠ 0x8306 →
      (opening seat).cell b = 0 := by
    intro b h1 h2 h3 h4 h5 h6
    unfold opening
    simp only [Cpu.sto_cell]
    rw [if_neg h1, if_neg h6, if_neg h5, if_neg h4, if_neg h3, if_neg h2]
    rfl
  rw [hkept]
  by_cases hlo : a = RNG_LO
  · rw [hlo, hstart.seed_lo]
    apply hzero <;> decide
  by_cases hhi : a = RNG_HI
  · rw [hhi, hstart.seed_hi]
    apply hzero <;> decide
  have hkeep : a ∉ StartArea := by
    simp only [RNG_LO, RNG_HI] at hlo hhi
    rintro ((((hv | hr) | hp) | hw) | hc)
    · have : a = 0x8160 ∨ a = 0x819D ∨ a = 0x8106 ∨ a = 0x8107 ∨ a = 0x8161 ∨ a = 0x8108 ∨
        a = 0x8109 ∨ a = 0x8162 := hv
      omega
    · have : 0x81C0 ≤ a ∧ a < 0x81C0 + 36 := hr
      omega
    · have : 0x8400 ≤ a ∧ a < 0x8C00 := hp
      omega
    · have : 0x81A0 ≤ a ∧ a < 0x81A8 := hw
      omega
    · have : 0x8C00 ≤ a ∧ a < 0x8C20 := hc
      omega
  rw [hstart.frame.cell_eq hkeep]
  apply hzero <;> omega

/-- Both consoles enter the game on machines that are alike in them. -/
theorem opened_alike : Alike {a | a ∈ paintedCells} (opened 0) (opened 1) ∧
    Tabled {a | a ∈ paintedCells} (opened 0) ∧ ∀ seat : Fin 2, (opened seat).cell PEER_SCR = 0 := by
  have htable : (opened 0).cell EXEC_HTBL = 0 := opened_blank 0 (Or.inl painted_shared.table)
  have hparked : word (opened 0) GAME_TBL_LO GAME_TBL_HI = 0 := by
    unfold word
    rw [opened_blank 0 (Or.inl painted_shared.parked.1), opened_blank 0 (Or.inl painted_shared.parked.2)]
  refine ⟨fun a ha => ?_, ⟨Or.inl htable, Or.inl hparked⟩, fun seat => opened_blank seat (Or.inr rfl)⟩
  rw [opened_blank 1 (Or.inl ha), opened_blank 0 (Or.inl ha)]

/-- They are in a match of the cartridge. -/
theorem entered_game {P : Side → Prop} (hok : ∀ a, steady a = true → P a) (g : Game) :
    GameRun g {a | a ∈ paintedCells} (opened 0) 1 P entered := by
  obtain ⟨halike, -, hscreen⟩ := opened_alike
  have henter : ∀ {c c' : Cpu}, SideTurn 1 0 ⟨.lobby, [], .fresh⟩ ⟨.roster c, [], .fresh⟩ [] →
      SideTurn 1 1 ⟨.lobby, [], .fresh⟩ ⟨.roster c', [], .fresh⟩ [] →
      P ⟨.roster c, [], .fresh⟩ ∧ P ⟨.playing ⟨c, .pass⟩, [], .fresh⟩ →
      P ⟨.roster c', [], .fresh⟩ ∧ P ⟨.playing ⟨c', .pass⟩, [], .fresh⟩ →
      Alike {a | a ∈ paintedCells} c c' → c.cell PEER_SCR = 0 → c'.cell PEER_SCR = 0 →
      GameRun g {a | a ∈ paintedCells} c 1 P
        ⟨⟨.playing ⟨c, .pass⟩, [], .fresh⟩, ⟨.playing ⟨c', .pass⟩, [], .fresh⟩⟩ := by
    intro c c' ht ht' hp hp' hc hs hs'
    have hhost : GameRun g {a | a ∈ paintedCells} c 1 P _ :=
      .host .lobby (.before ht fun k hk => by cases hk) hp.1
    have hguest := hhost.guest (.before ht' fun k hk => by cases hk) hp'.1
    exact (hguest.host (.enter (fun _ _ => rfl) hs) hp.2).guest (.enter hc hs') hp'.2
  exact henter (opened_turn 0) (opened_turn 1) (opened_steady hok 0) (opened_steady hok 1) halike
    (hscreen 0) (hscreen 1)

/-- The schedule of two ticks has the one cartridge. -/
theorem toGates_painter : ∀ e ∈ toGates, ActsAs {a | a ∈ paintedCells} (painter 0) e.game := by
  intro e he
  simp only [toGates, alone, List.mem_append, List.mem_replicate, List.mem_cons, List.not_mem_nil,
    or_false] at he
  rcases he with (⟨-, rfl⟩ | ⟨-, rfl⟩) | rfl | rfl <;> exact .refl _ _

theorem secondTick_painter : ∀ e ∈ secondTick, ActsAs {a | a ∈ paintedCells} (painter 0) e.game := by
  intro e he
  simp only [secondTick, alone, List.mem_append, List.mem_replicate] at he
  rcases he with ⟨-, rfl⟩ | ⟨-, rfl⟩ <;> exact .refl _ _

/-! ### One game -/

/-- As long as nobody pushes, each console that plays is where a game without a network is after as many ticks
on the captures of both seats, whatever order the turns of the two come in and however late their frames are.
SOURCE: lockstep.asm:8-349, vdispatch.asm:379-541, hook.asm:233-262, session.asm:488-636 -/
theorem consoles_play_one_game (h : GameRun g S c₀ d Unpushed net) (hd : 1 ≤ d ∧ d ≤ 127)
    (hg : Replicates g S) (hs : SharedCells S) (ht : Tabled S c₀) {k : Console}
    (hk : a = net.host ∨ a = net.guest) (hp : a.party = .playing k) :
    Alike S (localAt g c₀ (sharedInputs d net) k.phase a.seen.age) k.cpu := by
  obtain ⟨hhost, hguest⟩ := h.mirrors hd hg hs ht
  obtain ⟨hhost', hguest'⟩ := h.dispatched hd
  rcases hk with rfl | rfl
  · exact hhost.plays hp hhost'
  · exact hguest.plays hp hguest'

/-- Both are at the gate of their second tick. -/
theorem consoles_play_one_game_second : ∃ net k, GameRun (painter 0) {a | a ∈ paintedCells} (opened 0) 1
    Unpushed net ∧ net.guest.party = .playing k ∧ k.phase = .gate ∧
      Alike {a | a ∈ paintedCells}
        (localAt (painter 0) (opened 0) (sharedInputs 1 net) k.phase net.guest.seen.age) k.cpu := by
  obtain ⟨net, hnet, -, hguest, -⟩ := second_tick
  obtain ⟨k, hk, hphase⟩ := atGate_playing hguest
  have hok : ∀ a, steady a = true → Unpushed a := fun a ha => (steady_spec ha).1
  have hrun := (entered_game hok (painter 0)).follow hok toGates_painter hnet
  exact ⟨net, k, hrun, hk, hphase, consoles_play_one_game hrun ⟨Nat.le_refl 1, by decide⟩
    (painted_replicates 0) painted_shared opened_alike.2.1 (Or.inr rfl) hk⟩

/-! ### No push -/

/-- The reports of two consoles in one game agree. -/
theorem GameRun.agree (h : GameRun g S c₀ d Unpushed net) (hd : 1 ≤ d ∧ d ≤ 127)
    (hg : Replicates g S) (hs : SharedCells S) (ht : Tabled S c₀) (hc : ∀ b ∈ cksumCells, b ∈ S) :
    ¬ Desynced net := by
  obtain ⟨hhost, hguest⟩ := h.mirrors hd hg hs ht
  obtain ⟨hhost', hguest'⟩ := h.dispatched hd
  obtain ⟨s, sumsH, sumsG, hj⟩ := h.pair.joined hd fun _ => Unpushed.regular
  rintro ⟨e, n, w, w', hw, hw', hne⟩
  have hzero : e = 0 := by
    have hsum := hw
    rw [hj.hostSeen.summed] at hsum
    have hpast := (hj.hostSeen.past e _ (by rw [hsum]; exact Option.some_ne_none w)).1
    rw [← hj.hostSeen.epoch, h.unpushed.1] at hpast
    omega
  subst hzero
  exact hne ((hhost.sums hc hhost' hw).trans (hguest.sums hc hguest' hw').symm)

/-- A match in which the checksum is of the shared cells has no push. -/
theorem GameRun.quiet (h : GameRun g S c₀ d (fun a => Up a ∧ Unasked a) net) (hd : 1 ≤ d ∧ d ≤ 127)
    (hg : Replicates g S) (hs : SharedCells S) (ht : Tabled S c₀) (hc : ∀ b ∈ cksumCells, b ∈ S) :
    GameRun g S c₀ d (fun a => Unpushed a ∧ Unasked a) net := by
  induction h with
  | lobby => exact .lobby
  | @host net a bytes h hturn hp ih =>
    refine ih.host hturn ⟨⟨hp.1, ?_⟩, hp.2⟩
    have hrun := ih.weaken fun _ ha => ha.1
    obtain ⟨s, sumsH, sumsG, hj⟩ := ih.pair.joined hd fun _ ha => ha.1.regular
    obtain ⟨sumsH', s', ls, read, hm⟩ := hj.host.turn hj.inv hj.requests hj.origin hd hj.short
      hj.guestOn hturn.turn hp.1
    have hcaused := hj.caused fun _ ha => ha.2
    have hzero : s.host.epoch = 0 := hj.hostSeen.epoch.symm.trans hrun.unpushed.1
    have hseen := hm.side.seen ((hm.turn.base 0 (Nat.zero_le _)).trans hj.origin)
    rw [hseen.epoch]
    rcases hm.turn.ahead with hlt | ⟨heq, -⟩
    · rcases hm.took with htook | ⟨⟨c, hroster, hwanted⟩, -⟩
      · -- only a disagreement makes a push pending
        obtain ⟨e, hdiff⟩ := hcaused.pend (htook.pushes hlt)
        exact absurd (hj.desynced hdiff) (hrun.agree hd hg hs ht hc)
      · exact absurd (hp.2 c hroster) hwanted
    · exact heq.trans hzero
  | @guest net a bytes h hturn hp ih =>
    refine ih.guest hturn ⟨⟨hp.1, ?_⟩, hp.2⟩
    have hrun := ih.weaken fun _ ha => ha.1
    obtain ⟨s, sumsH, sumsG, hj⟩ := ih.pair.joined hd fun _ ha => ha.1.regular
    obtain ⟨sumsG', s', ls, read, hm⟩ := hj.guest.turn hj.inv hj.requests hj.origin hd hj.short
      hj.hostOn hturn.turn hp.1
    have hzero : s.host.epoch = 0 := hj.hostSeen.epoch.symm.trans hrun.unpushed.1
    have hseen := hm.side.seen ((congrFun hm.turn.base 0).trans hj.origin)
    have hle := hm.inv.epoch_le
    rw [hm.turn.host] at hle
    rw [hseen.epoch]
    omega

/-- When the checksum is of the cells the cartridge computes with, the reports of the two consoles agree as
long as the match lasts, and nobody ever wants or makes a push.
SOURCE: lockstep.asm:295-349, 456-501, resync.asm:50-158, 438-478 -/
theorem replicas_never_push (h : GameRun g S c₀ d (fun a => Up a ∧ Unasked a) net)
    (hd : 1 ≤ d ∧ d ≤ 127) (hg : Replicates g S) (hs : SharedCells S) (ht : Tabled S c₀)
    (hc : ∀ b ∈ cksumCells, b ∈ S) : ¬ Desynced net ∧ ¬ Wants net.host ∧ ¬ Wants net.guest ∧
      net.host.seen.epoch = 0 ∧ net.guest.seen.epoch = 0 := by
  have hquiet := h.quiet hd hg hs ht hc
  have hrun := hquiet.weaken fun _ ha => ha.1
  have hagree := hrun.agree hd hg hs ht hc
  obtain ⟨s, sumsH, sumsG, hj⟩ := hquiet.pair.joined hd fun _ ha => ha.1.regular
  have hcaused := hj.caused fun _ ha => ha.2
  refine ⟨hagree, fun hwants => ?_, fun hwants => ?_, hrun.unpushed⟩
  · obtain ⟨e, hdiff⟩ := hcaused.pend (hj.host.wants.mp hwants)
    exact hagree (hj.desynced hdiff)
  · exact hagree (hj.desynced (hcaused.asked (hj.guest.wants.mp hwants)))

/-- The checksum is of the cells the sample cartridge computes with. -/
theorem replicas_never_push_second : ∃ net, GameRun (painter 0) {a | a ∈ paintedCells} (opened 0) 1
    (fun a => Up a ∧ Unasked a) net ∧ net.host.seen.age = 2 ∧ ¬ Desynced net ∧ ¬ Wants net.host := by
  obtain ⟨net, hnet, -, -, -, -, net', x, y, hnet', -, -, -, -, -, hage, -⟩ := second_tick
  have hok : ∀ a, steady a = true → Up a ∧ Unasked a := fun a ha =>
    ⟨(steady_spec ha).1.1, (steady_spec ha).2⟩
  have hgates := (entered_game hok (painter 0)).follow hok toGates_painter hnet
  have hrun := hgates.follow hok secondTick_painter hnet'
  have hcells : ∀ b ∈ cksumCells, b ∈ {a | a ∈ paintedCells} := fun b hb =>
    List.mem_append_left _ (List.mem_append_left _ (List.mem_append_left _ hb))
  obtain ⟨hagree, hhost, -⟩ := replicas_never_push hrun ⟨Nat.le_refl 1, by decide⟩
    (painted_replicates 0) painted_shared opened_alike.2.1 hcells
  exact ⟨net', hrun, hage, hagree, hhost⟩

end Both

end BoxingNetplay.Analysis
