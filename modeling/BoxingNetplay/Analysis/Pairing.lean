import BoxingNetplay.Analysis.Alarms
import BoxingNetplay.Interface.Start

/-!
# Two consoles on the delay line

Either console of a match has not had its START yet or is at its node of the delay line (`HostSide`,
`GuestSide`), and the bytes on their way to it spell the letters to that node.  A turn of a console is a turn
of its node (`HostSide.turn`, `GuestSide.turn`), and leaves the other where it was (`HostSide.other`,
`GuestSide.other`).
-/

set_option autoImplicit false

namespace BoxingNetplay.Analysis

open BoxingNetplay.Library
open BoxingNetplay.Library.Delay (Node Letter Sys Inv Requests put)
open BoxingNetplay.Model
open BoxingNetplay.Interface

/-! ### START -/

section Opening

variable {d seat : ℕ} {c : Cpu}

/-- START leaves the ring of received bytes alone. -/
theorem of_start_ring (c : Cpu) {a : ℕ} (h : a ∈ RingCells) : (of_start c).cell a = c.cell a := by
  refine (frame_of_start c).cell_eq fun hs => ?_
  have hcount := (stream_not_handler (Or.inl h)).2.2.2.2.2.2.2.1 hs
  rw [hcount] at h
  simp [RingCells] at h

/-- A START puts its console at the first node. -/
theorem OpensFor.node (h : OpensFor d seat c) (hs : seat < 2) (hd : 1 ≤ d ∧ d ≤ 127)
    {own peer : ℕ → Option (ℕ × ℕ)} (ho : ∀ k < d, own k = none) (hp : ∀ k < d, peer k = none) :
    AtNode d seat ⟨0, 0, d, d, false, false⟩ own peer (of_start c) := by
  have hst := started c h.length
  have hnode : AtNode d seat ⟨0, 0, 0 + d, 0 + d, false, false⟩ own peer (of_start c) := by
    refine atNode_idle hs ?_ ?_ ?_ ?_ hst.rings ?_ ?_ 0 false false ?_ ?_ (by omega)
    · rw [hst.seat]
      exact h.seat
    · rw [hst.count]
      exact h.count
    · rw [hst.active]
      decide
    · rw [hst.delay]
      exact h.delay
    · unfold tickWord word
      rw [hst.tick_lo, hst.tick_hi]
    · rw [hst.watermark _ (by omega), h.delay]
      omega
    · intro k hk
      exact ho k (by omega)
    · intro k hk
      exact hp k (by omega)
  rwa [Nat.zero_add] at hnode

/-- What else it leaves: no records, no hold, and all its writes are taken. -/
theorem OpensFor.rest (h : OpensFor d seat c) : (∀ i < 32, (of_start c).cell (OWN_CRC + i) = 0xFF) ∧
    (of_start c).cell RESYNC_HOLD = 0 ∧ AllAcked (of_start c) := by
  have hst := started c h.length
  refine ⟨hst.records, ?_, fun r hr => h.acked r ((silent_of_start c).replies ▸ hr)⟩
  rw [hst.frame.cell_eq (by simp [StartArea, Roster, RingPages, Watermarks, CrcRecords])]
  exact h.hold

/-- Whether a push is pending does not matter to the invariant. -/
theorem armed {s : Line} (h : Inv d 16 s) (pend asked : Bool) :
    Inv d 16 { s with pend := pend, asked := asked } := { h with }

end Opening

/-! ### The sides -/

/-- The host's side: it waits for its START, it shows the roster, or it plays. -/
inductive HostSide (d : ℕ) (sums : ℕ → ℕ → Option ℕ) (s : Line) : Side → Prop where
  | lobby {wire : List ℕ} (node : s.host = ⟨0, 0, d, d, false, false⟩)
      (own : s.hostIn = fun _ _ => none) (blank : sums = fun _ _ => none) (pend : s.pend = false)
      (letters : Spelled d 1 s.toHost wire) : HostSide d sums s ⟨.lobby, wire, .fresh⟩
  | roster {wire : List ℕ} {v : Seen} {c : Cpu} (h : HostPlays d sums s ⟨c, .pass⟩ wire v) :
      HostSide d sums s ⟨.roster c, wire, v⟩
  | playing {wire : List ℕ} {v : Seen} {k : Console} (h : HostPlays d sums s k wire v) :
      HostSide d sums s ⟨.playing k, wire, v⟩

/-- The guest's side. -/
inductive GuestSide (d : ℕ) (sums : ℕ → ℕ → Option ℕ) (s : Line) : Side → Prop where
  | lobby {wire : List ℕ} (node : s.guest = ⟨0, 0, d, d, false, false⟩)
      (own : s.guestIn = fun _ _ => none) (blank : sums = fun _ _ => none) (asked : s.asked = false)
      (hold : s.hold = none) (letters : Spelled d 0 s.toGuest wire) :
      GuestSide d sums s ⟨.lobby, wire, .fresh⟩
  | roster {wire : List ℕ} {v : Seen} {c : Cpu} (h : GuestPlays d sums s ⟨c, .pass⟩ wire v) :
      GuestSide d sums s ⟨.roster c, wire, v⟩
  | playing {wire : List ℕ} {v : Seen} {k : Console} (h : GuestPlays d sums s k wire v) :
      GuestSide d sums s ⟨.playing k, wire, v⟩

section Sides

variable {d : ℕ} {sums : ℕ → ℕ → Option ℕ} {s s' : Line} {a a' : Side} {bytes : List ℕ}

/-- The notes at the beginning. -/
theorem watches_fresh {n : Node} {base : ℕ → ℕ} {own : ℕ → ℕ → Option (ℕ × ℕ)} (hb : base 0 = 0)
    (hn : n = ⟨0, 0, d, d, false, false⟩) (ho : own = fun _ _ => none)
    (hs : sums = fun _ _ => none) : Watches d .fresh n base own sums := by
  subst hn ho hs
  refine ⟨rfl, hb, fun _ _ => rfl, fun _ _ => rfl, fun _ _ h => absurd rfl h, fun _ k h1 h2 => ?_⟩
  simp only at h2
  omega

/-- The notes about a host are those of its node, whatever its party does. -/
theorem HostSide.seen (h : HostSide d sums s a) (hb : s.base 0 = 0) :
    Watches d a.seen s.host s.base s.hostIn sums := by
  cases h with
  | lobby node own blank _ _ => exact watches_fresh hb node own blank
  | roster h => exact h.seen
  | playing h => exact h.seen

theorem GuestSide.seen (h : GuestSide d sums s a) (hb : s.base 0 = 0) :
    Watches d a.seen s.guest s.base s.guestIn sums := by
  cases h with
  | lobby node own blank _ _ _ => exact watches_fresh hb node own blank
  | roster h => exact h.seen
  | playing h => exact h.seen

/-! ### The other side stays where it is -/

/-- The host while the guest makes a turn. -/
theorem HostPlays.other {k : Console} {wire : List ℕ} {v : Seen} {ls : List Post}
    (h : HostPlays d sums s k wire v) (hd : 1 ≤ d) (hex : 0 < s.host.epoch → d < 16)
    (hi : Inv d 16 s') (hr : Requests s') (ht : GuestTurn d s s' ls bytes) :
    HostPlays d sums s' k (wire ++ bytes) v := by
  have hmark := h.host.inv.hostMark
  refine ⟨h.host.other hi hr ht.host ht.hostIn ht.base ht.pend fun n hn => ?_, ?_, ?_, h.acked, h.up,
    ?_, ?_, ?_, h.on⟩
  · -- the guest has announced what the host has of it
    refine ht.guestIn _ n fun he => ?_
    have hup := (h.host.inv.up hex he.symm).le
    omega
  · rw [ht.toHost]
    exact h.feeds.append (by omega) ht.queued
  · rw [ht.host, ht.base, ht.hostIn]
    exact h.seen
  · rw [ht.host]
    exact h.sent
  · rw [ht.host]
    exact h.due
  · rw [ht.host]
    exact h.near

/-- A turn of the guest adds what it writes to what the host has to read. -/
theorem HostSide.other {ls : List Post} (h : HostSide d sums s a) (hd : 1 ≤ d)
    (hex : 0 < s.host.epoch → d < 16) (hi : Inv d 16 s') (hr : Requests s')
    (ht : GuestTurn d s s' ls bytes) : HostSide d sums s' (a.post bytes) := by
  cases h with
  | lobby node own blank pend letters =>
    refine .lobby (ht.host.trans node) (ht.hostIn.trans own) blank (ht.pend.trans pend) ?_
    rw [ht.toHost]
    exact letters.append ht.queued
  | roster h => exact .roster (h.other hd hex hi hr ht)
  | playing h => exact .playing (h.other hd hex hi hr ht)

/-- The guest while the host makes a turn. -/
theorem GuestPlays.other {k : Console} {wire : List ℕ} {v : Seen} {ls : List Post}
    (h : GuestPlays d sums s k wire v) (hd : 1 ≤ d) (hi : Inv d 16 s') (hr : Requests s')
    (ht : HostTurn d s s' ls bytes) : GuestPlays d sums s' k (wire ++ bytes) v := by
  have hmark := h.guest.inv.guestMark
  have hle := h.guest.inv.epoch_le
  have hbase : ∀ e ≤ s.guest.epoch, s'.base e = s.base e := fun e he => ht.base e (by omega)
  have hguest : ∀ e n, s.guest.epoch < e → s.guestIn e n = none := by
    intro e n he
    by_contra hne
    have := (h.guest.inv.guestNew e n hne).1
    omega
  refine ⟨h.guest.other hi hr ht.guest ht.guestIn (hbase _ (Nat.le_refl _)) ht.hold ht.asked
    fun n hn => ?_, ?_, ?_, h.acked, h.up, ?_, ?_, ?_, ?_, ?_, h.on⟩
  · refine ht.hostIn _ n ?_
    rcases h.guest.inv.epochs with ⟨he, hm⟩ | ⟨hlt, -⟩
    · exact Or.inr ⟨he, by omega⟩
    · exact Or.inl hlt
  · rw [ht.toGuest]
    exact h.feeds.append (by omega) ht.queued
  · rw [ht.guest, ht.guestIn]
    exact h.seen.rebase hbase hguest
  · rw [ht.guest]
    exact h.unsent
  · rw [ht.guest, hbase _ (Nat.le_refl _)]
    exact h.sent
  · rw [ht.guest]
    exact h.first
  · rw [ht.guest]
    exact h.due
  · rw [ht.guest]
    exact h.near

/-- A turn of the host adds to what the guest has to read. -/
theorem GuestSide.other {ls : List Post} (h : GuestSide d sums s a) (hd : 1 ≤ d) (hi : Inv d 16 s')
    (hr : Requests s') (ht : HostTurn d s s' ls bytes) : GuestSide d sums s' (a.post bytes) := by
  cases h with
  | lobby node own blank asked hold letters =>
    refine .lobby (ht.guest.trans node) (ht.guestIn.trans own) blank (ht.asked.trans asked)
      (ht.hold.trans hold) ?_
    rw [ht.toGuest]
    exact letters.append ht.queued
  | roster h => exact .roster (h.other hd hi hr ht)
  | playing h => exact .playing (h.other hd hi hr ht)

/-! ### A turn of a side -/

/-- A START that comes with a push wanted. -/
def StartsWanted (a : Side) (sums : ℕ → ℕ → Option ℕ) : Prop :=
  (∃ c, a.party = .roster c ∧ c.cell RS_PEND ≠ 0) ∧ sums = fun _ _ => none

/-- A turn of the host's side. -/
structure HostTurned (d : ℕ) (sums sums' : ℕ → ℕ → Option ℕ) (s s' : Line) (a a' : Side)
    (bytes : List ℕ) (ls read : List Post) : Prop where
  side : HostSide d sums' s' a'
  inv : Inv d 16 s'
  requests : Requests s'
  running : s'.host.ended = false
  turn : HostTurn d s s' ls bytes
  replayed : Replayed s s.host a.seen a'.seen
  noted : Noted a.seen a'.seen ls read
  summed : Summed sums sums' ls
  split : s.toHost = read ++ s'.toHost
  took : HostTook sums s s' read ∨ StartsWanted a' sums'

/-- A step of a console that has its match. -/
theorem HostStepped.moved {sums' : ℕ → ℕ → Option ℕ} {k k' : Console} {rest : List ℕ} {v v' : Seen}
    {ls read : List Post} (h : HostStepped d sums sums' s s' k k' rest v v' ls read)
    (hs : HostSide d sums' s' a') (hb : written k.cpu k'.cpu = bytes) (hv : a.seen = v)
    (hv' : a'.seen = v') : HostTurned d sums sums' s s' a a' bytes ls read := by
  subst hb hv hv'
  exact ⟨hs, h.plays.host.inv, h.plays.host.requests, h.plays.host.running, h.turn, h.replayed,
    h.noted, h.summed, h.took.split, Or.inl h.took⟩

/-- A host that has no match yet may find a push pending. -/
theorem requests_armed (h : Requests s) (he : s.host.epoch = 0) (pend : Bool) :
    Requests { s with pend := pend } := by
  have hone := Bool.toNat_le pend
  refine ⟨fun l _ => ?_, fun l _ _ => ?_, ?_, fun _ => ?_, h.once, h.past⟩ <;> simp only [he] <;> omega

/-- The START of the host. -/
theorem HostSide.start (h : HostSide d sums s a) (hi : Inv d 16 s) (hr : Requests s)
    (hb : s.base 0 = 0) (hd : 1 ≤ d ∧ d ≤ 127) {wire rest : List ℕ} {v : Seen} {c : Cpu}
    (ha : a = ⟨.lobby, wire, v⟩) (ho : OpensFor d 0 c) (hw : unread c ++ rest = wire)
    (hup : (parseLoop SES_ONFRAME 256 (of_start c)).cpu.cell NET_DROPPED = 0) :
    ∃ sums' s' ls read, HostTurned d sums sums' s s' a
      ⟨.roster (parseLoop SES_ONFRAME 256 (of_start c)).cpu, rest,
        (handed SES_ONFRAME 256 (of_start c)).foldl Seen.note v⟩
      (written c (parseLoop SES_ONFRAME 256 (of_start c)).cpu) ls read := by
  cases h with
  | roster h => cases ha
  | playing h => cases ha
  | lobby node own blank pend letters =>
    cases ha
    obtain ⟨hrecords, hhold, hacked⟩ := ho.rest
    have hzero : s.host.epoch = 0 := by rw [node]
    have hpeer : ∀ k < d, s.guestIn 0 k = none := by
      intro k hk
      by_contra hne
      have := (hi.guestNew 0 k hne).2
      omega
    have hat : AtHost d sums { s with pend := decide ((of_start c).cell RS_PEND ≠ 0) }
        (of_start c) := by
      refine ⟨armed hi _ s.asked, requests_armed hr hzero _, ?_, ?_, ?_, hhold, rfl⟩
      · simp only [node]
      · simp only [node]
        exact ho.node (by omega) hd (fun k _ => by rw [own]) hpeer
      · simp only [blank]
        exact records_blank hrecords (fun u hu => absurd rfl hu) fun _ _ => rfl
    have hring := (unread_congr fun a ha => of_start_ring c ha).1
    have hwire : unread (of_start c) ++ rest = wire := by
      rw [hring]
      exact hw
    obtain ⟨read, q, hdel⟩ := letters.start (by omega) hwire
    obtain ⟨m, b, hpump⟩ := hat.reading hd (fun hpos => by simp only [hzero] at hpos; omega)
      (watches_fresh hb node own blank) (handles_parseLoop 256 (of_start c)) hdel
    have hstep := hpump.plays (k := ⟨of_start c, .pass⟩) hacked (fun _ _ => rfl) (.refl _) hup
      (p := .pass) (by decide) (by simp only [node]; rfl) (by decide) (by simp)
    refine ⟨sums, _, [], read, .roster hstep.plays, hstep.plays.host.inv,
      hstep.plays.host.requests, hstep.plays.host.running, ?_, hstep.replayed, hstep.noted,
      hstep.summed, hstep.took.split, ?_⟩
    rotate_left
    · have htook := hstep.took
      cases hp : decide ((of_start c).cell RS_PEND ≠ 0) with
      | false =>
        rw [hp, ← pend] at htook
        exact Or.inl htook
      | true =>
        refine Or.inr ⟨⟨_, rfl, ?_⟩, blank⟩
        rcases htook.kept hp with hset | hlt
        · rw [hstep.plays.host.pend] at hset
          exact of_decide_eq_true hset
        · exact absurd hlt (Nat.lt_irrefl _)
    · have hbytes : written c (parseLoop SES_ONFRAME 256 (of_start c)).cpu =
          written (of_start c) (parseLoop SES_ONFRAME 256 (of_start c)).cpu := by
        unfold written
        rw [(silent_of_start c).out]
      have ht := hstep.turn
      rw [hbytes]
      exact ⟨ht.guest, ht.guestIn, ht.hold, ht.asked, ht.base, ht.hostIn, ht.ahead, ht.toGuest,
        ht.queued⟩

/-- A turn of the host. -/
theorem HostSide.turn (h : HostSide d sums s a) (hi : Inv d 16 s) (hr : Requests s)
    (hb : s.base 0 = 0) (hd : 1 ≤ d ∧ d ≤ 127) (hex : 0 < s.host.epoch → d < 16)
    (hg : s.guest.ended = false) (ht : SideTurn d 0 a a' bytes) (hup : Up a') :
    ∃ sums' s' ls read, HostTurned d sums sums' s s' a a' bytes ls read := by
  cases ht with
  | start c rest ho hw => exact h.start hi hr hb hd rfl ho hw (hup _ rfl)
  | pump p rest hw =>
    cases h with
    | roster h =>
      obtain ⟨m, b, q, read, hpump, -⟩ := h.pump hd hex (Frame.refl _ _) (.refl _) p hw
      have hstep := hpump.plays (k := ⟨_, .pass⟩) h.acked (fun _ _ => rfl) (.refl _) (hup _ rfl)
        (p := .pass) (by decide) h.sent (by decide) (by simp)
      exact ⟨sums, _, [], read, hstep.moved (.roster hstep.plays) rfl rfl rfl⟩
  | quiet heq hs =>
    cases h with
    | roster h =>
      have hstep := h.keep heq hs (p := .pass) (by decide) h.sent (by simp) (by simp)
      exact ⟨sums, s, [], [], hstep.moved (.roster hstep.plays) (written_silent hs) rfl rfl⟩
  | enter =>
    cases h with
    | roster h =>
      have hstep := h.keep (fun _ _ => rfl) (.refl _) (p := .pass) (by decide) h.sent (by simp)
        (by simp)
      exact ⟨sums, s, [], [], hstep.moved (.playing hstep.plays) (written_silent (.refl _)) rfl rfl⟩
  | step o rest hw =>
    cases h with
    | playing h =>
      obtain ⟨s', sums', ls, read, hstep⟩ := h.step hd hex hg o hw (hup _ rfl)
      exact ⟨sums', s', ls, read, hstep.moved (.playing hstep.plays) rfl rfl rfl⟩

/-- A turn of the guest's side. -/
structure GuestTurned (d : ℕ) (sums sums' : ℕ → ℕ → Option ℕ) (s s' : Line) (a a' : Side)
    (bytes : List ℕ) (ls read : List Post) : Prop where
  side : GuestSide d sums' s' a'
  inv : Inv d 16 s'
  requests : Requests s'
  running : s'.guest.ended = false
  turn : GuestTurn d s s' ls bytes
  replayed : Replayed s s.guest a.seen a'.seen
  noted : Noted a.seen a'.seen ls read
  summed : Summed sums sums' ls
  split : s.toGuest = read ++ s'.toGuest
  took : GuestTook sums s s' ls read ∨ StartsWanted a' sums'

/-- A step of a console that has its match. -/
theorem GuestStepped.moved {sums' : ℕ → ℕ → Option ℕ} {k k' : Console} {rest : List ℕ} {v v' : Seen}
    {ls read : List Post} (h : GuestStepped d sums sums' s s' k k' rest v v' ls read)
    (hs : GuestSide d sums' s' a') (hb : written k.cpu k'.cpu = bytes) (hv : a.seen = v)
    (hv' : a'.seen = v') : GuestTurned d sums sums' s s' a a' bytes ls read := by
  subst hb hv hv'
  exact ⟨hs, h.plays.guest.inv, h.plays.guest.requests, h.plays.guest.running, h.turn, h.replayed,
    h.noted, h.summed, h.took.split, Or.inl h.took⟩

/-- A guest that has no match yet may find a push wanted. -/
theorem requests_wanted (h : Requests s) (ha : s.asked = false) (asked : Bool) :
    Requests { s with asked := asked } :=
  ⟨h.letters, h.asks, h.now, fun _ => h.unasked ha, h.once, fun _ => h.past ha⟩

/-- What the guest has left to send when it comes to the gate. -/
theorem GuestSince.unsent {t : Line} (h : GuestSince d s t) (hs : s.guest.sent = false) :
    t.guest.sent = false := by
  cases h with
  | on _ _ _ sent _ => exact sent.trans hs
  | restarted _ _ sent _ => exact sent

/-- The START of the guest. -/
theorem GuestSide.start (h : GuestSide d sums s a) (hi : Inv d 16 s) (hr : Requests s)
    (hb : s.base 0 = 0) (hd : 1 ≤ d ∧ d ≤ 127) {wire rest : List ℕ} {v : Seen} {c : Cpu}
    (ha : a = ⟨.lobby, wire, v⟩) (ho : OpensFor d 1 c) (hw : unread c ++ rest = wire)
    (hup : (parseLoop SES_ONFRAME 256 (of_start c)).cpu.cell NET_DROPPED = 0) :
    ∃ sums' s' ls read, GuestTurned d sums sums' s s' a
      ⟨.roster (parseLoop SES_ONFRAME 256 (of_start c)).cpu, rest,
        (handed SES_ONFRAME 256 (of_start c)).foldl Seen.note v⟩
      (written c (parseLoop SES_ONFRAME 256 (of_start c)).cpu) ls read := by
  cases h with
  | roster h => cases ha
  | playing h => cases ha
  | lobby node own blank asked hold letters =>
    cases ha
    obtain ⟨hrecords, hhold, hacked⟩ := ho.rest
    have hpeer : ∀ k < d, s.hostIn 0 k = none := by
      intro k hk
      by_contra hne
      have := (hi.hostNew 0 k hne).2
      omega
    have hat : AtGuest d sums { s with asked := decide ((of_start c).cell RS_PEND ≠ 0) }
        (of_start c) := by
      refine ⟨armed hi s.pend _, requests_wanted hr asked _, ?_, ?_, ?_, ?_, ?_, fun _ => hhold, rfl⟩
      · simp only [node]
      · simp only [node]
        exact ho.node (by omega) hd (fun k _ => by rw [own]) hpeer
      · simp only [blank]
        exact records_blank hrecords (fun u hu => absurd rfl hu) fun _ _ => rfl
      · intro e u hne
        rw [blank] at hne
        exact absurd rfl hne
      · intro r hr'
        simp only [hold] at hr'
        cases hr'
    have hring := (unread_congr fun a ha => of_start_ring c ha).1
    have hwire : unread (of_start c) ++ rest = wire := by
      rw [hring]
      exact hw
    obtain ⟨read, q, hdel⟩ := letters.start (by omega) hwire
    obtain ⟨s', ls, hpump, -⟩ := hat.reading hd (watches_fresh hb node own blank)
      (handles_parseLoop 256 (of_start c)) hdel
    have hunsent : s'.guest.sent = false := hpump.since.unsent (by simp only [node])
    have hstep := hpump.plays (k := ⟨of_start c, .pass⟩) hacked (fun _ _ => rfl) (.refl _) hup
      (p := .pass) (by decide) (by decide) (fun _ => hunsent) (fun hg => by cases hg)
      (fun _ _ => by simp only [node]; omega) (by simp)
    refine ⟨sums, s', ls, read, .roster hstep.plays, hstep.plays.guest.inv,
      hstep.plays.guest.requests, hstep.plays.guest.running, ?_, hstep.replayed, hstep.noted,
      hstep.summed, hstep.took.split, ?_⟩
    rotate_left
    · have htook := hstep.took
      cases hp : decide ((of_start c).cell RS_PEND ≠ 0) with
      | false =>
        rw [hp, ← asked] at htook
        exact Or.inl htook
      | true =>
        rcases htook.kept hp with hset | hlt
        · refine Or.inr ⟨⟨_, rfl, ?_⟩, blank⟩
          rw [hstep.plays.guest.asked] at hset
          exact of_decide_eq_true hset
        · -- what was wanted ended with the epoch
          refine Or.inl ⟨htook.split, htook.compared, htook.cause, fun ha => ?_, fun ha => ?_⟩
          · rcases htook.asked ha with ⟨-, he⟩ | hask
            · omega
            · exact Or.inr hask
          · rw [asked] at ha
            cases ha
    · have hbytes : written c (parseLoop SES_ONFRAME 256 (of_start c)).cpu =
          written (of_start c) (parseLoop SES_ONFRAME 256 (of_start c)).cpu := by
        unfold written
        rw [(silent_of_start c).out]
      have ht := hstep.turn
      rw [hbytes]
      exact ⟨ht.host, ht.hostIn, ht.base, ht.pend, ht.guestIn, ht.ahead, ht.toHost, ht.queued⟩

/-- A turn of the guest. -/
theorem GuestSide.turn (h : GuestSide d sums s a) (hi : Inv d 16 s) (hr : Requests s)
    (hb : s.base 0 = 0) (hd : 1 ≤ d ∧ d ≤ 127) (hex : 0 < s.host.epoch → d < 16)
    (hh : s.host.ended = false) (ht : SideTurn d 1 a a' bytes) (hup : Up a') :
    ∃ sums' s' ls read, GuestTurned d sums sums' s s' a a' bytes ls read := by
  cases ht with
  | start c rest ho hw => exact h.start hi hr hb hd rfl ho hw (hup _ rfl)
  | pump p rest hw =>
    cases h with
    | roster h =>
      obtain ⟨s', ls, read, hpump, -⟩ := h.pump hd (Frame.refl _ _) (.refl _) p hw
      have hunsent := hpump.since.unsent (h.unsent (fun hg => by cases hg) fun hr => by cases hr)
      have hstep := hpump.plays (k := ⟨_, .pass⟩) h.acked (fun _ _ => rfl) (.refl _) (hup _ rfl)
        (p := .pass) (by decide) (by decide) (fun _ => hunsent) (fun hg => by cases hg) h.first
        (by simp)
      exact ⟨sums, s', ls, read, hstep.moved (.roster hstep.plays) rfl rfl rfl⟩
  | quiet heq hs =>
    cases h with
    | roster h =>
      have hstep := h.keep heq hs (p := .pass) (by decide) Iff.rfl (by simp) (by simp)
      exact ⟨sums, s, [], [], hstep.moved (.roster hstep.plays) (written_silent hs) rfl rfl⟩
  | enter =>
    cases h with
    | roster h =>
      have hstep := h.keep (fun _ _ => rfl) (.refl _) (p := .pass) (by decide) Iff.rfl (by simp)
        (by simp)
      exact ⟨sums, s, [], [], hstep.moved (.playing hstep.plays) (written_silent (.refl _)) rfl rfl⟩
  | step o rest hw =>
    cases h with
    | playing h =>
      obtain ⟨s', sums', ls, read, hstep⟩ := h.step hd hex hh o hw (hup _ rfl)
      exact ⟨sums', s', ls, read, hstep.moved (.playing hstep.plays) rfl rfl rfl⟩

end Sides

end BoxingNetplay.Analysis
