import BoxingNetplay.Analysis.Schedules

/-!
# Two consoles that agree on their inputs

What runs of two consoles on the delay line (`joined`) say about the consoles themselves, in terms of what
their observers have noted.

* Whichever console runs a tick, its dispatches read the captures of both seats of `d` ticks before
  (`dispatches_agree`); without a push these captures were all made (`unpushed_agree`).
* The consoles are at most two baselines and within one `d + 1` ticks apart (`consoles_apart`).
* With nothing under way, they do not both wait (`quiet_links`).
* An INPUT frame is stored exactly if its reader is in the baseline it was written in
  (`inputs_in_their_baseline`).

Each is an invariant of `Joined`, read off in the observers' terms through `Watches`, `Told` and `Mail`.
-/

set_option autoImplicit false

namespace BoxingNetplay.Analysis

open BoxingNetplay.Library
open BoxingNetplay.Library.Delay (Node Letter Sys Inv Requests put)
open BoxingNetplay.Model
open BoxingNetplay.Interface

/-! ### Captures and inputs -/

/-- The inputs for the ticks of a baseline, when those are the captures made in it: there are none for the
first `d` ticks. -/
def delayed (d : ℕ) (captured : ℕ → Option (ℕ × ℕ)) (n : ℕ) : Option (ℕ × ℕ) :=
  if n < d then none else captured (n - d)

/-- A line that begins at `b` replays the captures since. -/
theorem cellsAt_delayed {d b : ℕ} {ins captured : ℕ → Option (ℕ × ℕ)}
    (hcap : ∀ k, captured k = ins (b + k + d)) (hnew : ∀ n, ins n ≠ none → b + d ≤ n) (a : ℕ) :
    cellsAt ins (b + a) = cellsAt (delayed d captured) a := by
  have hnone : ∀ n < b + d, ins n = none := by
    intro n hn
    by_contra hne
    exact absurd (hnew n hne) (by omega)
  have hreplay : ∀ n, replay ins (b + n) = replay (delayed d captured) n := by
    intro n
    unfold replay delayed
    by_cases hlt : n < d
    · rw [if_pos hlt, hnone _ (by omega)]
    · rw [if_neg hlt, hcap, show b + (n - d) + d = b + n by omega]
  have hprev : ago idleInput (replay ins) (b + a) 1 = ago idleInput (replay (delayed d captured)) a 1 := by
    cases a with
    | zero =>
      have hidle : ∀ k ≤ b + 0, k < b → replay ins k = idleInput := fun k _ hk =>
        replay_none (hnone k (by omega))
      unfold ago
      rw [if_neg (by omega : ¬ 1 ≤ 0)]
      split
      · exact hidle _ (Nat.sub_le _ _) (by omega)
      · rfl
    | succ a =>
      unfold ago
      rw [if_pos (by omega : 1 ≤ b + (a + 1)), if_pos (by omega : 1 ≤ a + 1), Nat.add_sub_cancel,
        show b + (a + 1) - 1 = b + a by omega]
      exact hreplay a
  unfold cellsAt
  rw [hreplay a, hprev]

/-! ### What holds of both sides -/

/-- What holds in the lobby, after each turn and whatever is posted holds of both sides. -/
theorem PairRun.both {d : ℕ} {P Q : Side → Prop} {net : Net} (h : PairRun d P net)
    (hlobby : Q ⟨.lobby, [], .fresh⟩) (hturn : ∀ a, P a → Q a)
    (hpost : ∀ a bytes, Q a → Q (Side.post a bytes)) : Q net.host ∧ Q net.guest := by
  induction h with
  | lobby => exact ⟨hlobby, hlobby⟩
  | host _ _ hp ih => exact ⟨hturn _ hp, hpost _ _ ih.2⟩
  | guest _ _ hp ih => exact ⟨hpost _ _ ih.1, hturn _ hp⟩

/-- Of what each turn leaves a run may say less. -/
theorem PairRun.weaken {d : ℕ} {P Q : Side → Prop} {net : Net} (h : PairRun d P net)
    (hpq : ∀ a, P a → Q a) : PairRun d Q net := by
  induction h with
  | lobby => exact .lobby
  | host _ ht hp ih => exact ih.host ht (hpq _ hp)
  | guest _ ht hp ih => exact ih.guest ht (hpq _ hp)

/-- A run without a push is one with every delay. -/
theorem Unpushed.regular {d : ℕ} {a : Side} (h : Unpushed a) : Regular d a := by
  refine ⟨h.1, fun hpos => ?_⟩
  rw [h.2] at hpos
  exact absurd hpos (Nat.lt_irrefl 0)

section Runs

variable {d : ℕ} {P : Side → Prop} {net : Net}

/-- A regular run is on the line. -/
theorem PairRun.joined (h : PairRun d P net) (hd : 1 ≤ d ∧ d ≤ 127) (hp : ∀ a, P a → Regular d a) :
    ∃ s sumsH sumsG, Joined d (∀ a, P a → Unasked a) net s sumsH sumsG :=
  Analysis.joined h hd (fun a ha => (hp a ha).1) fun a ha => (hp a ha).2

/-! ### A match of two ticks -/

/-- Both consoles run tick 0 and come to the gate of tick 1, where each reads what the other has written. -/
def toGates : List Entry := alone true 8 (painter 0) ++ alone false 8 (painter 0) ++
  [⟨true, [6, 6, 1, 1, 0, 9, 0, 6, 7, 1, 0, 0, 0, 0, 6, 6, 1, 2, 0, 9, 0], painter 0⟩,
    ⟨false, [6, 6, 0, 1, 0, 5, 0, 6, 7, 0, 0, 0, 0, 0, 6, 6, 0, 2, 0, 5, 0], painter 0⟩]

/-- Then both run tick 1. -/
def secondTick : List Entry := alone true 2 (painter 0) ++ alone false 2 (painter 0)

/-- A console that plays and is at its gate. -/
def atGate (a : Side) : Bool :=
  match a.party with
  | .playing k => decide (k.phase = .gate)
  | _ => false

theorem atGate_playing {a : Side} (h : atGate a = true) :
    ∃ k, a.party = .playing k ∧ k.phase = .gate := by
  unfold atGate at h
  split at h
  · next k heq => exact ⟨k, heq, of_decide_eq_true h⟩
  · cases h

set_option maxRecDepth 20000 in
/-- At the gates nothing is under way; then both seats' captures of tick 0 are played, 5 and 9. -/
theorem second_tick : ∃ net, entered.follow steady toGates = some net ∧ atGate net.host = true ∧
    atGate net.guest = true ∧ net.host.inbound = [] ∧ net.guest.inbound = [] ∧
    ∃ net' x y, net.follow steady secondTick = some net' ∧ net'.host.seen.played 0 1 = some x ∧
      net'.guest.seen.played 0 1 = some y ∧ x.1.cur = 5 ∧ y.2.cur = 9 ∧
      net'.host.seen.inputs[1]? = some (0, true) ∧ net'.host.seen.age = 2 ∧
      net'.guest.seen.age = 2 ∧ net'.host.seen.summed 0 0 = net'.guest.seen.summed 0 0 := by
  have heval : ((entered.follow steady toGates).any fun net => atGate net.host && atGate net.guest &&
      decide (net.host.inbound = [] ∧ net.guest.inbound = []) &&
      ((net.follow steady secondTick).any fun net' =>
        (net'.host.seen.played 0 1).any (fun x => decide (x.1.cur = 5)) &&
        (net'.guest.seen.played 0 1).any (fun y => decide (y.2.cur = 9)) &&
        decide (net'.host.seen.inputs[1]? = some (0, true) ∧ net'.host.seen.age = 2 ∧
          net'.guest.seen.age = 2 ∧ net'.host.seen.summed 0 0 = net'.guest.seen.summed 0 0))) = true := by
    decide +kernel
  simp only [Option.any_eq_true, Bool.and_eq_true, decide_eq_true_eq] at heval
  obtain ⟨net, hnet, ⟨⟨hhost, hguest⟩, hh, hg⟩, net', hnet', ⟨⟨x, hx, hxc⟩, y, hy, hyc⟩, hlast⟩ :=
    heval
  exact ⟨net, hnet, hhost, hguest, hh, hg, net', x, y, hnet', hx, hy, hxc, hyc, hlast⟩

/-- The run up to there. -/
theorem second_tick_run {P : Side → Prop} (hok : ∀ a, steady a = true → P a) : ∃ net x y,
    PairRun 1 P net ∧ net.host.seen.played 0 1 = some x ∧ net.guest.seen.played 0 1 = some y ∧
      x.1.cur = 5 ∧ y.2.cur = 9 ∧ net.host.seen.inputs[1]? = some (0, true) ∧
      net.host.seen.age = 2 ∧ net.guest.seen.age = 2 ∧
      net.host.seen.summed 0 0 = net.guest.seen.summed 0 0 := by
  obtain ⟨net, hnet, -, -, -, -, net', x, y, hnet', hrest⟩ := second_tick
  exact ⟨net', x, y, (entered_follow hok hnet).follow hok hnet', hrest⟩

/-- No such console leaves or pushes. -/
theorem steady_regular (a : Side) (h : steady a = true) : Regular 1 a := (steady_spec h).1.regular

/-! ### What a tick runs on -/

/-- A tick runs on the captures of both seats. -/
theorem Joined.played {clean : Prop} {s : Line} {sumsH sumsG : ℕ → ℕ → Option ℕ}
    (h : Joined d clean net s sumsH sumsG) {v : Seen} (ht : Told d s v) {e a : ℕ} {x : Cells × Cells}
    (hx : v.played e a = some x) :
    x = (cellsAt (delayed d (net.host.seen.captured e)) a,
      cellsAt (delayed d (net.guest.seen.captured e)) a) := by
  have hhost := cellsAt_delayed (h.hostSeen.captured e) (fun n hn => (h.inv.hostNew e n hn).2) a
  have hguest := cellsAt_delayed (h.guestSeen.captured e) (fun n hn => (h.inv.guestNew e n hn).2) a
  rw [ht.cells hx, hhost, hguest]

/-- Whichever console runs the tick `a` ticks after a baseline, its two dispatches read what the host and
the guest captured `d` ticks before, and before the first captures nothing.
SOURCE: lockstep.asm:62-294, 331-349, resync.asm:163-432, session.asm:587-636 -/
theorem dispatches_agree (h : PairRun d (Regular d) net) (hd : 1 ≤ d ∧ d ≤ 127) {e a : ℕ}
    {x : Cells × Cells}
    (hx : net.host.seen.played e a = some x ∨ net.guest.seen.played e a = some x) :
    x = (cellsAt (delayed d (net.host.seen.captured e)) a,
      cellsAt (delayed d (net.guest.seen.captured e)) a) := by
  obtain ⟨s, sumsH, sumsG, hj⟩ := h.joined hd fun _ => id
  rcases hx with hx | hx
  · exact hj.played hj.hostTold hx
  · exact hj.played hj.guestTold hx

/-- The second tick of the host. -/
theorem dispatches_agree_second : ∃ net x, PairRun 1 (Regular 1) net ∧
    net.host.seen.played 0 1 = some x ∧ x.1.cur = 5 ∧
    x = (cellsAt (delayed 1 (net.host.seen.captured 0)) 1,
      cellsAt (delayed 1 (net.guest.seen.captured 0)) 1) := by
  obtain ⟨net, x, y, hrun, hx, -, hcur, -⟩ := second_tick_run steady_regular
  exact ⟨net, x, hrun, hx, hcur, dispatches_agree hrun ⟨Nat.le_refl 1, by decide⟩ (Or.inl hx)⟩

/-- What has been announced for a tick of the first epoch was captured. -/
theorem Watches.announced {v : Seen} {n : Node} {base : ℕ → ℕ} {own : ℕ → ℕ → Option (ℕ × ℕ)}
    {sums : ℕ → ℕ → Option ℕ} (h : Watches d v n base own sums) (h0 : n.epoch = 0) {a : ℕ}
    (ha : Announced d n base 0 a) {k : ℕ} (hk : k + d ≤ a) : v.captured 0 k ≠ none := by
  rw [h.captured]
  rcases ha with hlt | ⟨-, htop⟩ | ⟨hlt, -⟩
  · omega
  · exact h.first h0 _ (by omega) (by omega)
  · omega

/-- Without a push both seats made every capture a tick needs, and it runs on them.
SOURCE: lockstep.asm:62-294, 331-349, session.asm:587-636 -/
theorem unpushed_agree (h : PairRun d Unpushed net) (hd : 1 ≤ d ∧ d ≤ 127) {e a : ℕ}
    {x : Cells × Cells}
    (hx : net.host.seen.played e a = some x ∨ net.guest.seen.played e a = some x) :
    e = 0 ∧ (∀ k, k + d ≤ a →
        net.host.seen.captured 0 k ≠ none ∧ net.guest.seen.captured 0 k ≠ none) ∧
      x = (cellsAt (delayed d (net.host.seen.captured 0)) a,
        cellsAt (delayed d (net.guest.seen.captured 0)) a) := by
  obtain ⟨s, sumsH, sumsG, hj⟩ := h.joined hd fun _ => Unpushed.regular
  obtain ⟨hhost, hguest⟩ := h.both (Q := fun a => a.seen.epoch = 0) rfl (fun _ ha => ha.2)
    fun _ _ => id
  have hh : s.host.epoch = 0 := hj.hostSeen.epoch.symm.trans hhost
  have hg : s.guest.epoch = 0 := hj.guestSeen.epoch.symm.trans hguest
  have htold : ∃ v, Told d s v ∧ v.played e a = some x := by
    rcases hx with hx | hx
    · exact ⟨_, hj.hostTold, hx⟩
    · exact ⟨_, hj.guestTold, hx⟩
  obtain ⟨v, ht, hx⟩ := htold
  obtain ⟨hann, hle⟩ := ht.host hx
  have he : e = 0 := by omega
  subst he
  refine ⟨rfl, fun k hk => ⟨?_, ?_⟩, hj.played ht hx⟩
  · exact hj.hostSeen.announced hh hann hk
  · exact hj.guestSeen.announced hg (ht.guest hx) hk

/-- The second tick of the guest. -/
theorem unpushed_agree_second : ∃ net x, PairRun 1 Unpushed net ∧
    net.guest.seen.played 0 1 = some x ∧ x.2.cur = 9 ∧ net.host.seen.captured 0 0 ≠ none ∧
    x = (cellsAt (delayed 1 (net.host.seen.captured 0)) 1,
      cellsAt (delayed 1 (net.guest.seen.captured 0)) 1) := by
  obtain ⟨net, x, y, hrun, -, hy, -, hcur, -⟩ := second_tick_run fun _ h => (steady_spec h).1
  obtain ⟨-, hcap, heq⟩ := unpushed_agree hrun ⟨Nat.le_refl 1, by decide⟩ (Or.inr hy)
  exact ⟨net, y, hrun, hy, hcur, (hcap 0 (Nat.le_refl 1)).1, heq⟩

/-! ### How far they are apart -/

/-- A console that has its match is at its node. -/
theorem HostSide.atHost {s : Line} {sums : ℕ → ℕ → Option ℕ} {a : Side} (h : HostSide d sums s a)
    {c : Cpu} (hc : a.party.cpu = some c) : AtHost d sums s c := by
  cases h with
  | lobby _ _ _ _ _ => cases hc
  | roster h =>
    cases hc
    exact h.host
  | playing h =>
    cases hc
    exact h.host

/-- A console that has joined its match is at its node. -/
theorem GuestSide.atGuest {s : Line} {sums : ℕ → ℕ → Option ℕ} {a : Side}
    (h : GuestSide d sums s a) {c : Cpu} (hc : a.party.cpu = some c) : AtGuest d sums s c := by
  cases h with
  | lobby _ _ _ _ _ _ => cases hc
  | roster h =>
    cases hc
    exact h.guest
  | playing h =>
    cases hc
    exact h.guest

/-- The ticks of two nodes in one epoch are at most `d + 1` apart. -/
theorem Joined.apart {clean : Prop} {s : Line} {sumsH sumsG : ℕ → ℕ → Option ℕ}
    (h : Joined d clean net s sumsH sumsG) (he : s.guest.epoch = s.host.epoch) :
    s.host.tick ≤ s.guest.tick + d + 1 ∧ s.guest.tick ≤ s.host.tick + d + 1 := by
  have hread := h.inv.hostRead
  rw [h.hostOn, Bool.toNat_false] at hread
  have hclose := (h.inv.fairNow h.guestOn).close h.short he
  exact ⟨by omega, (h.inv.apart he h.guestOn).2⟩

/-- The guest is at most two baselines behind the host and never ahead of it; in one baseline the two
have run at most `d + 1` ticks more than each other, and their tick counters differ by just that.
SOURCE: lockstep.asm:163-246, 331-349, resync.asm:76-256, 370-478 -/
theorem consoles_apart (h : PairRun d (Regular d) net) (hd : 1 ≤ d ∧ d ≤ 127) :
    net.guest.seen.epoch ≤ net.host.seen.epoch ∧
      net.host.seen.epoch ≤ net.guest.seen.epoch + 2 ∧
      (net.guest.seen.epoch = net.host.seen.epoch →
        net.host.seen.age ≤ net.guest.seen.age + d + 1 ∧
        net.guest.seen.age ≤ net.host.seen.age + d + 1 ∧
        ∀ c c', net.host.party.cpu = some c → net.guest.party.cpu = some c' →
          (tickWord c + net.guest.seen.age) % 65536 = (tickWord c' + net.host.seen.age) % 65536) := by
  obtain ⟨s, sumsH, sumsG, hj⟩ := h.joined hd fun _ => id
  have hhost := hj.hostSeen
  have hguest := hj.guestSeen
  have hle := hj.inv.epoch_le
  have hnow := hj.requests.now
  rw [hhost.epoch, hguest.epoch]
  refine ⟨hle, by omega, fun he => ?_⟩
  have hage := hhost.age
  have hage' := hguest.age
  have hapart := hj.apart he
  rw [he] at hage'
  refine ⟨by omega, by omega, fun c c' hc hc' => ?_⟩
  have htick := (hj.host.atHost hc).node.tick
  have htick' := (hj.guest.atGuest hc').node.tick
  omega

/-- After the second tick of the host. -/
theorem consoles_apart_second : ∃ net, PairRun 1 (Regular 1) net ∧ net.host.seen.age = 2 ∧
    net.guest.seen.epoch ≤ net.host.seen.epoch := by
  obtain ⟨net, x, y, hrun, -, -, -, -, -, hage, -⟩ := second_tick_run steady_regular
  exact ⟨net, hrun, hage, (consoles_apart hrun ⟨Nat.le_refl 1, by decide⟩).1⟩

/-! ### What the gates wait for -/

/-- With nothing on the link there is no letter. -/
theorem Feeds.empty {seat : ℕ} {ls : List Post} {c : Cpu} (h : Feeds d seat ls c []) : ls = [] := by
  obtain ⟨fs, hfs, hin⟩ := h
  cases hfs with
  | nil => rfl
  | cons _ _ =>
    have hshort := hin.short
    have hbytes := congrArg List.length hin.bytes
    rw [List.append_nil, List.flatten_cons, List.length_append, length_unread] at hbytes
    omega

/-- When nothing is under way on either link both consoles are in one baseline and the guest in no
resync; and when both are at their gates, the gate of the one that has run no more ticks is open, so they
do not both wait for ever.
SOURCE: lockstep.asm:14-61, 163-246, resync.asm:163-432 -/
theorem quiet_links (h : PairRun d (Regular d) net) (hd : 1 ≤ d ∧ d ≤ 127) {k k' : Console}
    (hk : net.host.party = .playing k) (hk' : net.guest.party = .playing k')
    (hq : net.host.inbound = []) (hq' : net.guest.inbound = []) :
    net.guest.seen.epoch = net.host.seen.epoch ∧ k'.cpu.cell RESYNC_HOLD = 0 ∧
      (k.phase = .gate → k'.phase = .gate →
        (net.host.seen.age ≤ net.guest.seen.age → gateOpen k.cpu = true) ∧
        (net.guest.seen.age ≤ net.host.seen.age → gateOpen k'.cpu = true)) := by
  obtain ⟨s, sumsH, sumsG, hj⟩ := h.joined hd fun _ => id
  have hhost := hj.hostSeen
  have hguest := hj.guestSeen
  obtain ⟨⟨hp, hi, hv⟩, ⟨gp, gi, gv⟩⟩ := net
  simp only at hk hk' hq hq' hhost hguest ⊢
  subst hk hk' hq hq'
  have hside := hj.host
  have gside := hj.guest
  cases hside with
  | playing hplays =>
  cases gside with
  | playing gplays =>
  -- no letters: the line is at rest
  have hempty := hplays.feeds.empty
  have gempty := gplays.feeds.empty
  have hdown := hj.inv.down
  rw [gempty] at hdown
  generalize hhold : s.hold = o at hdown
  generalize hge : s.guest.epoch = ge at hdown
  generalize hgm : s.guest.mark = gm at hdown
  generalize hhe : s.host.epoch = he at hdown
  generalize hht : s.host.top = ht at hdown
  cases hdown
  have hepoch : s.guest.epoch = s.host.epoch := hge.trans hhe.symm
  have hmark : s.guest.mark = s.host.top := hgm.trans hht.symm
  have hup := hj.inv.up hj.short hepoch
  rw [hempty] at hup
  have hage := hhost.age
  have hage' := hguest.age
  have htop := hj.inv.hostTop
  have hbase := hj.inv.hostBase
  rw [hepoch] at hage'
  refine ⟨by rw [hguest.epoch, hhost.epoch, hepoch], gplays.guest.free hhold, fun hg hg' => ?_⟩
  have hnear := hplays.near (Or.inr (Or.inl hg))
  have hnear' := gplays.near (Or.inr (Or.inl hg'))
  have hsent : s.host.sent = true := by
    rw [hplays.sent, hg]
    rfl
  rw [hsent, Bool.toNat_true] at htop
  generalize hgt : s.guest.top = gt at hup
  generalize hhm : s.host.mark = hm at hup
  cases hup
  have hmark' : s.host.mark = s.guest.top := hhm.trans hgt.symm
  constructor
  · intro hle
    cases ho : gateOpen k.cpu with
    | true => rfl
    | false =>
      have hshut := hplays.host.node.shut (by omega) ho (by omega)
      -- the guest has captured for a tick that is no earlier
      rcases gplays.sent with hs | ⟨hno, -⟩ | ⟨hfirst, -⟩
      · have hgtop := hj.inv.guestSent hs
        omega
      · exact absurd hg' hno
      · cases hs : s.guest.sent with
        | true =>
          have hgtop := hj.inv.guestSent hs
          omega
        | false =>
          have hgtop := hj.inv.guestDue hs
          omega
  · intro hle
    cases ho : gateOpen k'.cpu with
    | true => rfl
    | false =>
      have hshut := gplays.guest.node.shut (by omega) ho (by omega)
      omega

/-- Both at the gate of their second tick. -/
theorem quiet_links_second : ∃ net k k', PairRun 1 (Regular 1) net ∧ net.host.party = .playing k ∧
    net.guest.party = .playing k' ∧ net.host.inbound = [] ∧ net.guest.inbound = [] ∧
    (gateOpen k.cpu = true ∨ gateOpen k'.cpu = true) := by
  obtain ⟨net, hnet, hhost, hguest, hq, hq', -⟩ := second_tick
  obtain ⟨k, hk, hphase⟩ := atGate_playing hhost
  obtain ⟨k', hk', hphase'⟩ := atGate_playing hguest
  have hrun : PairRun 1 (Regular 1) net := entered_follow steady_regular hnet
  obtain ⟨-, -, hgates⟩ := quiet_links hrun ⟨Nat.le_refl 1, by decide⟩ hk hk' hq hq'
  refine ⟨net, k, k', hrun, hk, hk', hq, hq', ?_⟩
  obtain ⟨hopen, hopen'⟩ := hgates hphase hphase'
  rcases Nat.le_total net.host.seen.age net.guest.seen.age with hle | hle
  · exact Or.inl (hopen hle)
  · exact Or.inr (hopen' hle)

/-! ### Old inputs -/

/-- The INPUT frames of a console are handed on in the order they were written in, and one is stored if and
only if its reader then is in the baseline its writer was in.
SOURCE: session.asm:587-636, lockstep.asm:142-162, resync.asm:163-256, 370-432 -/
theorem inputs_in_their_baseline (h : PairRun d (Regular d) net) (hd : 1 ≤ d ∧ d ≤ 127) {i e : ℕ}
    {b : Bool} :
    (net.host.seen.inputs[i]? = some (e, b) → i < net.guest.seen.wrote.length ∧
        (b = true ↔ net.guest.seen.wrote[i]? = some e)) ∧
      (net.guest.seen.inputs[i]? = some (e, b) → i < net.host.seen.wrote.length ∧
        (b = true ↔ net.host.seen.wrote[i]? = some e)) := by
  obtain ⟨s, sumsH, sumsG, hj⟩ := h.joined hd fun _ => id
  have hlt : ∀ {sums : ℕ → ℕ → Option ℕ} {w v : Seen} {ls : List Post}, Mail sums w v ls →
      v.inputs[i]? = some (e, b) → i < w.wrote.length := fun hm hi =>
    Nat.lt_of_lt_of_le (List.getElem?_eq_some_iff.mp hi).1 hm.count
  exact ⟨fun hi => ⟨hlt hj.toHost hi, hj.toHost.stored hi⟩,
    fun hi => ⟨hlt hj.toGuest hi, hj.toGuest.stored hi⟩⟩

/-- The second INPUT of the guest is stored, and was written before any push. -/
theorem inputs_in_their_baseline_second : ∃ net, PairRun 1 (Regular 1) net ∧
    net.host.seen.inputs[1]? = some (0, true) ∧ net.guest.seen.wrote[1]? = some 0 := by
  obtain ⟨net, x, y, hrun, -, -, -, -, hi, -⟩ := second_tick_run steady_regular
  have hboth := inputs_in_their_baseline hrun ⟨Nat.le_refl 1, by decide⟩ (i := 1) (e := 0) (b := true)
  exact ⟨net, hrun, hi, (hboth.1 hi).2.mp rfl⟩

end Runs

end BoxingNetplay.Analysis
