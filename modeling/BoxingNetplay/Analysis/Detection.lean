import BoxingNetplay.Analysis.InputAgreement

/-!
# Desyncs are found, and only those

A disagreement of the two consoles is a tick of a baseline for which both have reported a checksum, not the
same one.  One that is `d + 2` ticks old on both consoles has made one of them want a push
(`desync_detected`); without one nobody wants a push and nobody has made one (`no_false_alarm`); and when
the guest wants a push its request is under way to the host, or the host knows (`request_not_lost`).

What the two nodes know of each other's checksums is `Noticed` and `Caused`; here it is said of the flags,
the frames and what the observers have noted.
-/

set_option autoImplicit false

namespace BoxingNetplay.Analysis

open BoxingNetplay.Library
open BoxingNetplay.Library.Delay (Node Letter Sys Inv Requests put)
open BoxingNetplay.Model
open BoxingNetplay.Interface

/-- A console that has its match wants a push. -/
def Wants (a : Side) : Prop := ∃ c, a.party.cpu = some c ∧ c.cell RS_PEND ≠ 0

/-- Both consoles have reported a checksum for a tick of a baseline, and not the same. -/
def Desynced (net : Net) : Prop :=
  ∃ e a w w', net.host.seen.summed e a = some w ∧ net.guest.seen.summed e a = some w' ∧ w ≠ w'

section Runs

variable {d : ℕ} {P : Side → Prop} {net : Net}

/-! ### Flags and nodes -/

/-- The flag of a host is that of its node. -/
theorem HostSide.wants {s : Line} {sums : ℕ → ℕ → Option ℕ} {a : Side} (h : HostSide d sums s a) :
    Wants a ↔ s.pend = true := by
  cases h with
  | lobby node own blank pend _ =>
    rw [pend]
    constructor
    · rintro ⟨c, hc, -⟩
      cases hc
    · intro hp
      cases hp
  | roster h =>
    rw [h.host.pend, decide_eq_true_eq]
    exact ⟨fun ⟨c, hc, hp⟩ => by cases hc; exact hp, fun hp => ⟨_, rfl, hp⟩⟩
  | playing h =>
    rw [h.host.pend, decide_eq_true_eq]
    exact ⟨fun ⟨c, hc, hp⟩ => by cases hc; exact hp, fun hp => ⟨_, rfl, hp⟩⟩

theorem GuestSide.wants {s : Line} {sums : ℕ → ℕ → Option ℕ} {a : Side} (h : GuestSide d sums s a) :
    Wants a ↔ s.asked = true := by
  cases h with
  | lobby node own blank asked hold _ =>
    rw [asked]
    constructor
    · rintro ⟨c, hc, -⟩
      cases hc
    · intro hp
      cases hp
  | roster h =>
    rw [h.guest.asked, decide_eq_true_eq]
    exact ⟨fun ⟨c, hc, hp⟩ => by cases hc; exact hp, fun hp => ⟨_, rfl, hp⟩⟩
  | playing h =>
    rw [h.guest.asked, decide_eq_true_eq]
    exact ⟨fun ⟨c, hc, hp⟩ => by cases hc; exact hp, fun hp => ⟨_, rfl, hp⟩⟩

variable {clean : Prop} {s : Line} {sumsH sumsG : ℕ → ℕ → Option ℕ}

/-- Nodes that differ have consoles that do. -/
theorem Joined.desynced (h : Joined d clean net s sumsH sumsG) {e : ℕ} (hd : Differ sumsH sumsG e) :
    Desynced net := by
  obtain ⟨u, w, w', hw, hw', hne⟩ := hd
  have hbase := (h.hostSeen.past e u (by rw [hw]; exact Option.some_ne_none w)).2
  obtain ⟨a, rfl⟩ := Nat.exists_eq_add_of_le hbase
  refine ⟨e, a, w, w', ?_, ?_, hne⟩
  · rw [h.hostSeen.summed]
    exact hw
  · rw [h.guestSeen.summed]
    exact hw'

/-- A node without a push has its reports in its first 64 ticks, the next 64 and so on. -/
theorem HostSide.reported {sums : ℕ → ℕ → Option ℕ} {a : Side} (h : HostSide d sums s a) {u : ℕ}
    (hu : sums s.host.epoch u ≠ none) : u < s.host.tick ∧ u % 64 = 0 := by
  cases h with
  | lobby _ _ blank _ _ =>
    rw [blank] at hu
    exact absurd rfl hu
  | roster h => exact (h.host.records.range u hu).2
  | playing h => exact (h.host.records.range u hu).2

/-- Two consoles that agree on what they have reported in the ticks of the one baseline there was. -/
theorem agree_of_ticks (h : PairRun d Unpushed net) (hd : 1 ≤ d ∧ d ≤ 127)
    (hsame : ∀ a < net.host.seen.age, a % 64 = 0 →
      net.host.seen.summed 0 a = net.guest.seen.summed 0 a) : ¬ Desynced net := by
  obtain ⟨s, sumsH, sumsG, hj⟩ := h.joined hd fun _ => Unpushed.regular
  rintro ⟨e, a, w, w', hw, hw', hne⟩
  have hhost := hj.hostSeen
  have hzero : s.host.epoch = 0 := by
    rw [← hhost.epoch]
    exact (h.both (Q := fun a => a.seen.epoch = 0) rfl (fun _ ha => ha.2) fun _ _ => id).1
  have hsum := hw
  rw [hhost.summed] at hsum
  have hpast := (hhost.past e _ (by rw [hsum]; exact Option.some_ne_none w)).1
  have he : e = s.host.epoch := by omega
  subst he
  obtain ⟨hlt, h64⟩ := hj.host.reported (u := s.base s.host.epoch + a) (by
    rw [hsum]
    exact Option.some_ne_none w)
  have hage := hhost.age
  have horigin := hj.origin
  rw [hzero] at hw hw' hlt h64 hage
  have heq := hsame a (by omega) (by omega)
  rw [hw, hw'] at heq
  exact hne (Option.some.inj heq)

/-! ### A match of three ticks -/

/-- The cartridges of the two differ from the first tick on. -/
def apartFrom : List Entry := alone true 8 (painter 1) ++ alone false 8 (painter 2) ++
  [⟨true, [6, 6, 1, 1, 0, 9, 0, 6, 7, 1, 0, 0, 255, 207, 6, 6, 1, 2, 0, 9, 0], painter 1⟩,
    ⟨false, [6, 6, 0, 1, 0, 5, 0, 6, 7, 0, 0, 0, 255, 215, 6, 6, 0, 2, 0, 5, 0], painter 2⟩] ++
  alone true 8 (painter 1) ++ alone false 8 (painter 2)

/-- A console that wants a push. -/
def wants (a : Side) : Bool :=
  match a.party.cpu with
  | some c => decide (c.cell RS_PEND ≠ 0)
  | none => false

/-- The check decides it. -/
theorem wants_spec {a : Side} (h : wants a = true) : Wants a := by
  unfold wants at h
  split at h
  · next c heq => exact ⟨c, heq, of_decide_eq_true h⟩
  · cases h

set_option maxRecDepth 20000 in
/-- After three ticks the guest wants a push. -/
theorem third_tick {P : Side → Prop} (hok : ∀ a, steady a = true → P a) : ∃ net w w',
    PairRun 1 P net ∧ net.host.seen.age = 3 ∧ net.guest.seen.age = 3 ∧ net.host.seen.epoch = 0 ∧
      net.guest.seen.epoch = 0 ∧ Wants net.guest ∧ net.host.seen.summed 0 0 = some w ∧
      net.guest.seen.summed 0 0 = some w' ∧ w ≠ w' := by
  have heval : ((entered.follow steady apartFrom).any fun net =>
      decide (net.host.seen.age = 3 ∧ net.guest.seen.age = 3 ∧ net.host.seen.epoch = 0 ∧
        net.guest.seen.epoch = 0) && wants net.guest &&
      ((net.host.seen.summed 0 0).any fun w =>
        (net.guest.seen.summed 0 0).any fun w' => decide (w ≠ w'))) = true := by decide +kernel
  simp only [Option.any_eq_true, Bool.and_eq_true, decide_eq_true_eq] at heval
  obtain ⟨net, hnet, ⟨⟨hage, hage', he, he'⟩, hwants⟩, w, hw, w', hw', hne⟩ := heval
  exact ⟨net, w, w', entered_follow hok hnet, hage, hage', he, he', wants_spec hwants, hw, hw', hne⟩

/-! ### No disagreement stays unknown -/

/-- Once both consoles have run `d + 2` ticks from one on that they reported different checksums for, in the
baseline both are in, one of them wants a push.
SOURCE: lockstep.asm:163-246, 295-330, resync.asm:50-158 -/
theorem desync_detected (h : PairRun d (Regular d) net) (hd : 1 ≤ d ∧ d ≤ 127)
    (he : net.guest.seen.epoch = net.host.seen.epoch) {a w w' : ℕ}
    (hw : net.host.seen.summed net.host.seen.epoch a = some w)
    (hw' : net.guest.seen.summed net.host.seen.epoch a = some w') (hne : w ≠ w')
    (hh : a + d + 2 ≤ net.host.seen.age) (hg : a + d + 2 ≤ net.guest.seen.age) :
    Wants net.host ∨ Wants net.guest := by
  obtain ⟨s, sumsH, sumsG, hj⟩ := h.joined hd fun _ => id
  have hhost := hj.hostSeen
  have hguest := hj.guestSeen
  rw [hhost.epoch] at he hw hw'
  rw [hguest.epoch] at he
  rw [hhost.summed] at hw
  rw [hguest.summed] at hw'
  have hage := hhost.age
  have hage' := hguest.age
  rw [he] at hage'
  have hread := hj.inv.hostRead
  have hread' := hj.inv.guestRead
  rw [hj.hostOn, Bool.toNat_false] at hread
  rw [hj.guestOn, Bool.toNat_false] at hread'
  rcases hj.noticed he _ w w' hw hw' with heq | hp | ha | ⟨l, hl, hb, hle, ht⟩ | ⟨l, hl, hb, hle, ht⟩
  · exact absurd heq hne
  · exact Or.inl (hj.host.wants.mpr hp)
  · exact Or.inr (hj.guest.wants.mpr ha)
  · -- a report the guest has not read keeps it from running on
    have hmark := (hj.inv.down.of_report hl hb).2 (hle.trans he.symm)
    omega
  · have hclose := (hj.inv.fair l hl).close hj.short hle
    omega

/-- The third tick. -/
theorem desync_detected_third : ∃ net w w', PairRun 1 (Regular 1) net ∧
    net.host.seen.summed 0 0 = some w ∧ net.guest.seen.summed 0 0 = some w' ∧ w ≠ w' ∧
    (Wants net.host ∨ Wants net.guest) := by
  obtain ⟨net, w, w', hrun, hage, hage', he, he', -, hw, hw', hne⟩ := third_tick steady_regular
  refine ⟨net, w, w', hrun, hw, hw', hne, desync_detected hrun ⟨Nat.le_refl 1, by decide⟩
    (he'.trans he.symm) (a := 0) ?_ ?_ hne (Nat.le_of_eq hage.symm) (Nat.le_of_eq hage'.symm)⟩
  · rw [he]
    exact hw
  · rw [he]
    exact hw'

/-! ### Notes are not forgotten -/

/-- An observer has noted checksums of ticks that are over. -/
def Seen.Over (v : Seen) : Prop :=
  ∀ e a, v.summed e a ≠ none → e < v.epoch ∨ (e = v.epoch ∧ a < v.age)

/-- What an observer notes later: of ticks that are over, and every checksum it had noted. -/
structure Seen.Later (v v' : Seen) : Prop where
  closed : v'.Over
  keep : ∀ {e a w}, v.summed e a = some w → v'.summed e a = some w

/-- Notes with the same checksums at a later time. -/
theorem Seen.Over.later {v v' : Seen} (h : v.Over) (hs : v'.summed = v.summed)
    (ht : v.epoch < v'.epoch ∨ (v.epoch = v'.epoch ∧ v.age ≤ v'.age)) : v.Later v' := by
  refine ⟨fun e a hne => ?_, fun hw => ?_⟩
  · rw [hs] at hne
    have := h e a hne
    omega
  · rw [hs]
    exact hw

theorem Seen.Later.trans {v v' v'' : Seen} (h : v.Later v') (h' : v'.Later v'') : v.Later v'' :=
  ⟨h'.closed, fun hw => h'.keep (h.keep hw)⟩

/-- A frame that is handed on changes no checksum. -/
theorem Seen.Over.note {v : Seen} (h : v.Over) (d : Cpu) : v.Later (v.note d) := by
  unfold Seen.note Seen.hear
  split
  · exact h.later rfl (Or.inl (Nat.lt_succ_self _))
  · split
    · exact h.later rfl (Or.inr ⟨rfl, le_rfl⟩)
    · exact h.later rfl (Or.inr ⟨rfl, le_rfl⟩)

/-- Nor do several. -/
theorem Seen.Over.notes {v : Seen} (h : v.Over) (ds : List Cpu) : v.Later (ds.foldl Seen.note v) := by
  induction ds generalizing v with
  | nil => exact h.later rfl (Or.inr ⟨rfl, le_rfl⟩)
  | cons d ds ih =>
    have hnote := h.note d
    exact hnote.trans (ih hnote.closed)

/-- A tick notes its own checksum, and is over. -/
theorem Seen.Over.ran {v : Seen} (h : v.Over) (g : Game) (c : Cpu) : v.Later (v.ran g c) := by
  have hown : v.summed v.epoch v.age = none := by
    by_contra hne
    have := h _ _ hne
    omega
  unfold Seen.ran
  split
  · refine ⟨fun e a hne => ?_, fun {e a w} hw => ?_⟩
    · by_cases heq : e = v.epoch ∧ a = v.age
      · exact Or.inr ⟨heq.1, by simp only; omega⟩
      · simp only [Delay.put_of_ne _ _ fun he => fun ha => heq ⟨he, ha⟩] at hne
        have := h e a hne
        simp only
        omega
    · have hne : ¬ (e = v.epoch ∧ a = v.age) := by
        rintro ⟨rfl, rfl⟩
        rw [hown] at hw
        cases hw
      simp only
      rw [Delay.put_of_ne _ _ fun he => fun ha => hne ⟨he, ha⟩]
      exact hw
  · exact h.later rfl (Or.inr ⟨rfl, Nat.le_succ _⟩)

/-- A step of the console. -/
theorem Seen.Over.step {v : Seen} (h : v.Over) (k : Console) (o : Outside) : v.Later (v.step k o) := by
  unfold Seen.step
  split
  · exact h.later rfl (Or.inr ⟨rfl, le_rfl⟩)
  · have hran := h.ran o.game k.cpu
    unfold Seen.ticked
    split
    · exact hran.trans (hran.closed.later rfl (Or.inl (Nat.lt_succ_self _)))
    · exact hran
  · exact h.notes _

/-- So no turn of a side makes its observer forget a checksum. -/
theorem SideTurn.later {seat : ℕ} {a a' : Side} {bytes : List ℕ} (ht : SideTurn d seat a a' bytes)
    (h : a.seen.Over) : a.seen.Later a'.seen := by
  cases ht with
  | start c rest _ _ => exact h.notes _
  | pump p rest _ => exact h.notes _
  | quiet _ _ => exact h.later rfl (Or.inr ⟨rfl, le_rfl⟩)
  | enter => exact h.later rfl (Or.inr ⟨rfl, le_rfl⟩)
  | step o rest _ => exact h.step _ o

/-- A disagreement that both observers have noted remains one. -/
theorem Desynced.later {net' : Net} (h : Desynced net) (hh : net.host.seen.Later net'.host.seen)
    (hg : net.guest.seen.Later net'.guest.seen) : Desynced net' := by
  obtain ⟨e, a, w, w', hw, hw', hne⟩ := h
  exact ⟨e, a, w, w', hh.keep hw, hg.keep hw', hne⟩

/-- Every checksum that is noted is of a tick that is over. -/
theorem PairRun.over (h : PairRun d P net) : net.host.seen.Over ∧ net.guest.seen.Over := by
  induction h with
  | lobby => exact ⟨fun _ _ hne => absurd rfl hne, fun _ _ hne => absurd rfl hne⟩
  | host _ ht _ ih => exact ⟨(ht.later ih.1).closed, ih.2⟩
  | guest _ ht _ ih => exact ⟨ih.1, (ht.later ih.2).closed⟩

/-! ### No alarm without one -/

/-- Before the first disagreement nobody has made a push.  A push that the host makes in a turn was wanted
before, because of a disagreement that both observers had noted. -/
theorem PairRun.unpushed_or (h : PairRun d (fun a => Up a ∧ Unasked a) net) (hd : 1 ≤ d ∧ d ≤ 127) :
    Desynced net ∨ ∃ s sumsH sumsG, Joined d True net s sumsH sumsG ∧ s.host.epoch = 0 := by
  induction h with
  | lobby => exact Or.inr ⟨_, _, _, joined_lobby d True, rfl⟩
  | @host net a bytes h ht hp ih =>
    have hold : net.host.seen.Later a.seen := ht.later h.over.1
    rcases ih with hdes | ⟨s, sumsH, sumsG, hj, hzero⟩
    · exact Or.inl (hdes.later hold ⟨h.over.2, id⟩)
    obtain ⟨sumsH', s', ls, read, hm⟩ :=
      hj.host.turn hj.inv hj.requests hj.origin hd hj.short hj.guestOn ht hp.1
    rcases hm.turn.ahead with hlt | ⟨hsame, -⟩
    · rcases hm.took with htook | ⟨⟨c, hroster, hwanted⟩, -⟩
      · obtain ⟨e, hdiff⟩ := (hj.caused trivial).pend (htook.pushes hlt)
        exact Or.inl ((hj.desynced hdiff).later hold ⟨h.over.2, id⟩)
      · exact absurd (hp.2 c hroster) hwanted
    · have hepoch : a.seen.epoch = 0 := by
        rw [(hm.side.seen ((hm.turn.base 0 (Nat.zero_le _)).trans hj.origin)).epoch]
        exact hsame.trans hzero
      obtain ⟨s'', sumsH'', _, _, -, hj'⟩ := hj.hostTurn hd ht hp.1
        (fun hpos => absurd hpos (by omega)) fun _ => hp.2
      refine Or.inr ⟨s'', sumsH'', sumsG, hj', ?_⟩
      rw [← hj'.hostSeen.epoch]
      exact hepoch
  | @guest net a bytes h ht hp ih =>
    rcases ih with hdes | ⟨s, sumsH, sumsG, hj, hzero⟩
    · exact Or.inl (hdes.later ⟨h.over.1, id⟩ (ht.later h.over.2))
    obtain ⟨s', sumsG', _, _, hm, hj'⟩ := hj.guestTurn hd ht hp.1 fun _ => hp.2
    refine Or.inr ⟨s', sumsH, sumsG', hj', ?_⟩
    rw [hm.turn.host]
    exact hzero

/-- In every match in which nobody leaves and no console shows its roster with a push wanted: as long as the
checksums of the two consoles agree wherever both have one, nobody wants a push and nobody
has made or followed one.
SOURCE: lockstep.asm:295-349, resync.asm:50-158, 438-478 -/
theorem no_false_alarm (h : PairRun d (fun a => Up a ∧ Unasked a) net) (hd : 1 ≤ d ∧ d ≤ 127)
    (hagree : ¬ Desynced net) : ¬ Wants net.host ∧ ¬ Wants net.guest ∧ net.host.seen.epoch = 0 ∧
      net.guest.seen.epoch = 0 := by
  obtain ⟨s, sumsH, sumsG, hj, hzero⟩ := (h.unpushed_or hd).resolve_left hagree
  have hcaused := hj.caused trivial
  have hle := hj.inv.epoch_le
  refine ⟨fun hwants => ?_, fun hwants => ?_, ?_, ?_⟩
  · obtain ⟨e, hdiff⟩ := hcaused.pend (hj.host.wants.mp hwants)
    exact hagree (hj.desynced hdiff)
  · exact hagree (hj.desynced (hcaused.asked (hj.guest.wants.mp hwants)))
  · rw [hj.hostSeen.epoch]
    exact hzero
  · rw [hj.guestSeen.epoch]
    omega

/-- Two ticks whose reports agree. -/
theorem no_false_alarm_second : ∃ net, PairRun 1 (fun a => Up a ∧ Unasked a) net ∧
    net.host.seen.age = 2 ∧ ¬ Wants net.host ∧ ¬ Wants net.guest := by
  obtain ⟨net, x, y, hrun, -, -, -, -, -, hage, -, hsum⟩ :=
    second_tick_run (P := fun a => Unpushed a ∧ Unasked a) fun _ => steady_spec
  have hagree : ¬ Desynced net := by
    refine agree_of_ticks (hrun.weaken fun _ ha => ha.1) ⟨Nat.le_refl 1, by decide⟩ fun a ha h64 => ?_
    rw [show a = 0 by omega]
    exact hsum
  have hup : PairRun 1 (fun a => Up a ∧ Unasked a) net := hrun.weaken fun _ ha => ⟨ha.1.1, ha.2⟩
  obtain ⟨hhost, hguest, -⟩ := no_false_alarm hup ⟨Nat.le_refl 1, by decide⟩ hagree
  exact ⟨net, hup, hage, hhost, hguest⟩

/-! ### No request is lost -/

/-- The bytes a console has not read yet: those in its ring and those on its link. -/
def Side.ahead (a : Side) : List ℕ :=
  match a.party.cpu with
  | none => a.inbound
  | some c => unread c ++ a.inbound

/-- They are whole frames, one of which is a RESYNC. -/
def Requested (a : Side) : Prop :=
  ∃ (fs : List (List ℕ)) (lo hi : ℕ), a.ahead = fs.flatten ∧ (∀ f ∈ fs, PeerFrame f) ∧
    [3, FT_RESYNC, lo, hi] ∈ fs

/-- A request among some letters is one among their frames. -/
theorem spelled_request {seat : ℕ} {ls : List Post} {fs : List (List ℕ)}
    (h : List.Forall₂ (Spells d seat) ls fs) {l : Post} (hl : l ∈ ls) (hb : l.body = .ask) :
    ∃ lo hi, [3, FT_RESYNC, lo, hi] ∈ fs := by
  induction h with
  | nil => cases hl
  | cons hs _ ih =>
    rcases List.mem_cons.mp hl with rfl | hl
    · cases hs with
      | ask e t lo hi => exact ⟨lo, hi, List.mem_cons_self⟩
      | _ => cases hb
    · obtain ⟨lo, hi, hmem⟩ := ih hl
      exact ⟨lo, hi, List.mem_cons_of_mem _ hmem⟩

/-- A request to the host is in its bytes. -/
theorem HostSide.requested {sums : ℕ → ℕ → Option ℕ} {a : Side} (h : HostSide d sums s a) {l : Post}
    (hl : l ∈ s.toHost) (hb : l.body = .ask) : Requested a := by
  have hplays : ∀ {k : Console} {wire : List ℕ} {v : Seen}, HostPlays d sums s k wire v →
      ∃ (fs : List (List ℕ)) (lo hi : ℕ), unread k.cpu ++ wire = fs.flatten ∧ (∀ f ∈ fs, PeerFrame f) ∧
        [3, FT_RESYNC, lo, hi] ∈ fs := by
    intro k wire v hp
    obtain ⟨fs, hfs, hin⟩ := hp.feeds
    obtain ⟨lo, hi, hmem⟩ := spelled_request hfs hl hb
    exact ⟨fs, lo, hi, hin.bytes, hin.peer, hmem⟩
  cases h with
  | lobby _ _ _ _ letters =>
    obtain ⟨fs, hfs, hflat⟩ := letters
    obtain ⟨lo, hi, hmem⟩ := spelled_request hfs hl hb
    exact ⟨fs, lo, hi, hflat, peerFrames (by omega) hfs, hmem⟩
  | roster h => exact hplays h
  | playing h => exact hplays h

/-- When the guest wants a push, the host wants one too, or has pushed meanwhile, or has the guest's RESYNC
yet to read.
SOURCE: resync.asm:76-256, 370-478, session.asm:488-553 -/
theorem request_not_lost (h : PairRun d (fun a => Regular d a ∧ Unasked a) net)
    (hd : 1 ≤ d ∧ d ≤ 127) (hwants : Wants net.guest) :
    Wants net.host ∨ net.guest.seen.epoch < net.host.seen.epoch ∨ Requested net.host := by
  obtain ⟨s, sumsH, sumsG, hj⟩ := h.joined hd fun _ ha => ha.1
  have hcaused := hj.caused fun _ ha => ha.2
  rcases hcaused.kept (hj.guest.wants.mp hwants) with ⟨l, hl, hb, -⟩ | hp | hlt
  · exact Or.inr (Or.inr (hj.host.requested hl hb))
  · exact Or.inl (hj.host.wants.mpr hp)
  · refine Or.inr (Or.inl ?_)
    rw [hj.hostSeen.epoch, hj.guestSeen.epoch]
    exact hlt

/-- After the third tick the guest wants a push. -/
theorem request_not_lost_third : ∃ net, PairRun 1 (fun a => Regular 1 a ∧ Unasked a) net ∧
    Wants net.guest ∧
    (Wants net.host ∨ net.guest.seen.epoch < net.host.seen.epoch ∨ Requested net.host) := by
  obtain ⟨net, w, w', hrun, -, -, -, -, hwants, -⟩ :=
    third_tick (P := fun a => Regular 1 a ∧ Unasked a) fun a ha =>
      ⟨steady_regular a ha, (steady_spec ha).2⟩
  exact ⟨net, hrun, hwants, request_not_lost hrun ⟨Nat.le_refl 1, by decide⟩ hwants⟩

end Runs

end BoxingNetplay.Analysis
