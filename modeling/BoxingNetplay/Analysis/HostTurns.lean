import BoxingNetplay.Analysis.HostLetters
import BoxingNetplay.Analysis.Turns
import BoxingNetplay.Interface.Sending

/-!
# Turns of the host

A host whose match goes on (`HostPlays`) is at its node of the delay line, the bytes on their way to it
spell the letters to the node, and its observer has noted the node's history.  Each step of its passes is
a turn of the node (`HostTurn`): a pump reads letters, a capture and a report each write one, a tick runs
on the inputs of its tick, and a push writes the frames of a restart.
-/

set_option autoImplicit false

namespace BoxingNetplay.Analysis

open BoxingNetplay.Library
open BoxingNetplay.Library.Delay (Node Letter Sys Inv Requests put)
open BoxingNetplay.Model
open BoxingNetplay.Interface
open BoxingNetplay.Analysis.KeyPairs (tickEnd tickEnd_spec cells_atSeat0 cells_atSeat1)

/-! ### What a turn does to the line -/

/-- A turn of the host: its letters go behind the others, and nothing of the guest's changes. -/
structure HostTurn (d : ℕ) (s s' : Line) (ls : List Post) (bytes : List ℕ) : Prop where
  guest : s'.guest = s.guest
  guestIn : s'.guestIn = s.guestIn
  hold : s'.hold = s.hold
  asked : s'.asked = s.asked
  base : ∀ e ≤ s.host.epoch, s'.base e = s.base e
  hostIn : ∀ e n, e < s.host.epoch ∨ (e = s.host.epoch ∧ n < s.host.top) →
    s'.hostIn e n = s.hostIn e n
  ahead : s.host.epoch < s'.host.epoch ∨
    (s'.host.epoch = s.host.epoch ∧ s.host.top ≤ s'.host.top)
  toGuest : s'.toGuest = s.toGuest ++ ls
  queued : Spelled d 0 ls bytes

/-- Turns compose. -/
theorem HostTurn.trans {d : ℕ} {s s' s'' : Line} {ls ls' : List Post} {bytes bytes' : List ℕ}
    (h : HostTurn d s s' ls bytes) (h' : HostTurn d s' s'' ls' bytes') :
    HostTurn d s s'' (ls ++ ls') (bytes ++ bytes') := by
  have hahead := h.ahead
  have hahead' := h'.ahead
  refine ⟨h'.guest.trans h.guest, h'.guestIn.trans h.guestIn, h'.hold.trans h.hold,
    h'.asked.trans h.asked, fun e he => ?_, fun e n hen => ?_, by omega, ?_, h.queued.append h'.queued⟩
  · rw [h'.base e (by omega), h.base e he]
  · rw [h'.hostIn e n (by omega), h.hostIn e n hen]
  · rw [h'.toGuest, h.toGuest, List.append_assoc]

/-- Reading is a turn that writes nothing. -/
theorem hostTurn_read (d : ℕ) (s : Line) (m : ℕ) (b : Bool) (q : List Post) :
    HostTurn d s (hostRead s m b q) [] [] :=
  ⟨rfl, rfl, rfl, rfl, fun _ _ => rfl, fun _ _ _ => rfl, Or.inr ⟨rfl, Nat.le_refl _⟩,
    (List.append_nil _).symm, .nil d 0⟩

/-- What the letters `read` do in a turn of the host: a request makes a push pending, and so does a report
of another checksum than the host's own; nothing else does, and only a pending push is made. -/
structure HostTook (sums : ℕ → ℕ → Option ℕ) (s s' : Line) (read : List Post) : Prop where
  split : s.toHost = read ++ s'.toHost
  asks : ∀ l ∈ read, l.body = .ask → s'.pend = true
  compared : ∀ l ∈ read, ∀ w w', l.body = .report w → l.epoch = s.host.epoch →
    sums l.epoch l.tick = some w' → w = w' ∨ s'.pend = true
  kept : s.pend = true → s'.pend = true ∨ s.host.epoch < s'.host.epoch
  cause : s.pend = false → s'.pend = true → ∃ l ∈ read, l.body = .ask ∨
    ∃ w w', l.body = .report w ∧ sums l.epoch l.tick = some w' ∧ w ≠ w'
  pushes : s.host.epoch < s'.host.epoch → s.pend = true

namespace HostTook

variable {d : ℕ} {sums : ℕ → ℕ → Option ℕ} {s s' : Line} {read : List Post}

/-- Nothing read and nothing pushed. -/
theorem nil (hq : s'.toHost = s.toHost) (hp : s'.pend = s.pend)
    (he : s'.host.epoch = s.host.epoch) : HostTook sums s s' [] := by
  refine ⟨hq.symm, List.forall_mem_nil _, List.forall_mem_nil _, fun h => Or.inl (hp.trans h),
    fun h h' => ?_, fun h => ?_⟩
  · rw [hp, h] at h'
    cases h'
  · rw [he] at h
    exact absurd h (Nat.lt_irrefl _)

/-- A push. -/
theorem push (hq : s'.toHost = s.toHost) (hp : s.pend = true)
    (he : s.host.epoch < s'.host.epoch) : HostTook sums s s' [] := by
  refine ⟨hq.symm, List.forall_mem_nil _, List.forall_mem_nil _, fun _ => Or.inr he, fun h => ?_,
    fun _ => hp⟩
  rw [hp] at h
  cases h

/-- One letter more. -/
theorem step (h : HostTook sums s s' read) (he : s'.host.epoch = s.host.epoch) {c : Cpu} {l : Post}
    {q : List Post} (hq : s'.toHost = l :: q) {m : ℕ} {b : Bool} (hr : HostReads d sums s' c l q m b) :
    HostTook sums s (hostRead s' m b q) (read ++ [l]) := by
  have hkept : s'.pend = true → (hostRead s' m b q).pend = true := hr.kept
  refine ⟨?_, fun x hx hask => ?_, fun x hx w w' hw hx' hs => ?_, fun hp => ?_, fun hp hp' => ?_,
    fun hlt => ?_⟩
  · rw [h.split, hq, List.append_assoc]
    rfl
  · rcases List.mem_append.mp hx with hx | hx
    · exact hkept (h.asks x hx hask)
    · rw [List.mem_singleton.mp hx] at hask
      exact hr.asks hask
  · rcases List.mem_append.mp hx with hx | hx
    · exact (h.compared x hx w w' hw hx' hs).imp_right hkept
    · rw [List.mem_singleton.mp hx] at hw hx' hs
      exact hr.compared w w' hw (hx'.trans he.symm) hs
  · rcases h.kept hp with hp | hlt
    · exact Or.inl (hkept hp)
    · rw [he] at hlt
      exact absurd hlt (Nat.lt_irrefl _)
  · cases hold : s'.pend with
    | true =>
      obtain ⟨x, hx, hwhy⟩ := h.cause hp hold
      exact ⟨x, List.mem_append_left _ hx, hwhy⟩
    | false =>
      refine ⟨l, List.mem_append_right _ List.mem_cons_self, ?_⟩
      rcases hr.alarm hold hp' with hask | ⟨w, w', hw, -, hs, hne⟩
      · exact Or.inl hask
      · exact Or.inr ⟨w, w', hw, hs, hne⟩
  · simp only [hostRead] at hlt
    rw [he] at hlt
    exact absurd hlt (Nat.lt_irrefl _)

end HostTook

/-! ### Capturing -/

section Turns

variable {d : ℕ} {sums : ℕ → ℕ → Option ℕ} {s : Line} {c : Cpu}

/-- The host captures. -/
theorem AtHost.capture (h : AtHost d sums s c) (hs : s.host.sent = false) (hd : 1 ≤ d) :
    AtHost d sums (s.hostCapture d (controller c)) (captureSend c) ∧
      ∃ bytes, Sends bytes c (captureSend c) ∧ HostTurn d s (s.hostCapture d (controller c))
        [⟨s.host.epoch, s.host.tick, .input (controller c)⟩] bytes := by
  have htop := h.inv.hostTop
  rw [hs, Bool.toNat_false, Nat.add_zero] at htop
  have hseat : c.cell NET_SEAT ≤ 3 := by
    rw [h.node.mine]
    decide
  have hkeep : ∀ a, a ∈ MatchCells ∪ CrcRecords → a ∉ RingPages →
      (captureSend c).cell a = c.cell a := fun a ha hr => capture_kept hseat ha hr
  have hput : ∀ k, k ≠ s.host.tick + d →
      put s.hostIn s.host.epoch (s.host.tick + d) (controller c) s.host.epoch k =
        s.hostIn s.host.epoch k := fun k hk => Delay.put_of_ne _ _ fun _ => hk
  constructor
  · refine ⟨h.inv.hostCapture _ hs, h.requests.congr rfl rfl rfl rfl rfl, h.running, ?_, ?_, ?_, ?_⟩
    · refine h.node.capture (by omega) (by omega) htop (fun k hk => hput k (by omega)) ?_
      rw [htop]
      exact Delay.put_self _ _ _ _
    · exact h.records.congr (fun a ha => hkeep a (Or.inr ha) (record_not_ring ha)) id
    · rw [hkeep _ (line_match (Or.inr (by simp))) (by simp [RingPages])]
      exact h.hold
    · rw [hkeep RS_PEND (line_match (Or.inr (by simp))) (by simp [RingPages])]
      exact h.pend
  · obtain ⟨bytes, hsends, hq⟩ := queued_capture (e := s.host.epoch) h.node.mine (by decide)
      h.node.delay h.node.tick
    refine ⟨bytes, hsends, rfl, rfl, rfl, rfl, fun _ _ => rfl, fun e n hen => ?_,
      Or.inr ⟨rfl, ?_⟩, rfl, hq⟩
    · refine Delay.put_of_ne _ _ ?_
      omega
    · simp only [Sys.hostCapture]
      omega

/-! ### Ticks -/

/-- A tick leaves the flags of the resync alone. -/
theorem tickEnd_flags (g : Game) (c : Cpu) : (tickEnd g c).cell RESYNC_HOLD = c.cell RESYNC_HOLD ∧
    (tickEnd g c).cell RS_PEND = c.cell RS_PEND := by
  constructor <;> exact tickEnd_kept g c (Or.inl (Or.inl (Or.inl (by simp)))) (by decide) (by decide)

/-- The host after a tick of the line. -/
structure HostTicked (d : ℕ) (sums sums' : ℕ → ℕ → Option ℕ) (s s' : Line) (g : Game) (c : Cpu)
    (v : Seen) (ls : List Post) (bytes : List ℕ) : Prop where
  host : AtHost d sums' s' (tickEnd g c)
  turn : HostTurn d s s' ls bytes
  sends : Sends bytes c (tickEnd g c)
  sent : s'.host.sent = false
  epoch : s'.host.epoch = s.host.epoch
  toHost : s'.toHost = s.toHost
  pend : s'.pend = s.pend
  summed : Summed sums sums' ls
  inputs : ∀ l ∈ ls, ∀ w, l.body ≠ .input w
  seen : Watches d (v.ran g c) s'.host s'.base s'.hostIn sums'

/-- The host runs a tick whose input is there. -/
theorem AtHost.tick (h : AtHost d sums s c) (hs : s.host.sent = true)
    (ht : s.host.tick < s.host.mark) (g : Game) {v : Seen}
    (hv : Watches d v s.host s.base s.hostIn sums) :
    ∃ s' sums' ls bytes, HostTicked d sums sums' s s' g c v ls bytes := by
  have hend := tickEnd_spec g c
  have hlo : c.cell TICK_LO = s.host.tick % 256 := by
    have htick := h.node.tick
    have hlt : c.cell TICK_LO < 256 := c.cell_lt_cart (by decide) (by decide)
    unfold tickWord word at htick
    omega
  have hran := hv.ran g c false false
  obtain ⟨hhold, hpend⟩ := tickEnd_flags g c
  have hnode := h.node.tickEnd (by omega) hend false false
  have hfirst : sums s.host.epoch s.host.tick = none := by
    by_contra hne
    have := (h.records.range _ hne).2.1
    omega
  have hrep := tickReport (d := d) (e := s.host.epoch) g h.records h.inv.hostBase h.node.mine
    h.node.tick
  cases hrep with
  | silent h64 hrec hq =>
    refine ⟨s.hostTick false, sums, [], [],
      ⟨⟨h.inv.hostTick false hs ht, ?_, rfl, hnode, hrec, ?_, ?_⟩,
        ⟨rfl, rfl, rfl, rfl, fun _ _ => rfl, fun _ _ _ => rfl, Or.inr ⟨rfl, Nat.le_refl _⟩,
          (List.append_nil _).symm, .nil d 0⟩, Sends.silent hq.out hq.replies, rfl, rfl, rfl, rfl,
        .none (List.forall_mem_nil _), List.forall_mem_nil _, ?_⟩⟩
    · exact h.requests.congr rfl rfl rfl rfl rfl
    · exact hhold.trans h.hold
    · rw [hpend]
      exact h.pend
    · exact hran.1 (by omega)
  | reported h64 hrec bytes hsends hq =>
    refine ⟨(s.hostReport (reportSum (reportMachine g c))).hostTick false, _, _, bytes,
      ⟨⟨(h.inv.hostReport _ hs).hostTick false hs ht, ?_, rfl, hnode, hrec _ (fun u hu => ?_) ?_, ?_,
        ?_⟩,
        ⟨rfl, rfl, rfl, rfl, fun _ _ => rfl, fun _ _ _ => rfl, Or.inr ⟨rfl, Nat.le_refl _⟩, rfl,
          hq⟩, hsends, rfl, rfl, rfl, rfl, .one _ _ _ hfirst, fun l hl w hw => ?_,
        hran.2 (by omega)⟩⟩
    · exact h.requests.congr rfl rfl rfl rfl rfl
    · exact Delay.put_of_ne _ _ fun _ => hu
    · exact Delay.put_self _ _ _ _
    · exact hhold.trans h.hold
    · rw [hpend]
      exact h.pend
    · rw [List.mem_singleton.mp hl] at hw
      cases hw

/-! ### Pushes -/

/-- The letters of a push. -/
theorem queued_push {D : Cpu} {e t r : ℕ} (hr : pushTick D = r % 65536) :
    ∃ n, Spelled d 0 (⟨e, t, .opening r⟩ :: (List.replicate n ⟨e, t, .part⟩ ++ [⟨e, t, .closing r⟩]))
      (pushFrames D).flatten := by
  have hparts : ∀ fs : List (List ℕ), (∀ f ∈ fs, ∃ p, p < IMG_TOTAL ∧ f = chunkFrame D p) →
      List.Forall₂ (Spells d 0) (List.replicate fs.length ⟨e, t, .part⟩) fs := by
    intro fs hfs
    induction fs with
    | nil => exact .nil
    | cons f fs ih =>
      obtain ⟨p, hp, rfl⟩ := hfs f List.mem_cons_self
      exact .cons (.part e t D p rfl hp) (ih fun x hx => hfs x (List.mem_cons_of_mem _ hx))
  refine ⟨(chunkFrames D 0 9).length, pushFrames D, .cons (.opening e t r D rfl hr) ?_, rfl⟩
  refine List.rel_append (hparts _ fun f hf => ?_) (.cons (.closing e t r rfl) .nil)
  exact mem_chunkFrames 9 (Nat.zero_le _) hf

/-- What a push leaves of the match, and where it begins again. -/
structure PushEnd (c c' : Cpu) (t : ℕ) : Prop where
  kept : ∀ a, a = NET_SEAT ∨ a = NET_COUNT ∨ a = NET_ACTIVE ∨ a = NET_DELAY ∨ a = NET_DROPPED →
    c'.cell a = c.cell a
  ring : ∀ a ∈ RingCells, c'.cell a = c.cell a
  rings : IdleRings c'
  tick : tickWord c' = (t + 16) % 65536
  watermark : ∀ seat < 4, seatWm c' seat = (t + 16 + c.cell NET_DELAY + 65535) % 65536
  records : ∀ i < 32, c'.cell (OWN_CRC + i) = 0xFF
  hold : c'.cell RESYNC_HOLD = 0
  pend : c'.cell RS_PEND = 0
  sends : ∃ D, pushTick D = (t + 16) % 65536 ∧ Sends (pushFrames D).flatten c c'

/-- The deferred push of a host at tick `t`. -/
theorem pushEnd {t : ℕ} (hp : Pushes c) (ht : tickWord c = t % 65536) : PushEnd c (RS_PENDING c) t := by
  obtain ⟨w, g, v, heq⟩ := RS_PENDING_push hp
  have hsame : ∀ a, a ≠ RS_PTMO → a ≠ RS_GATE → a ≠ RS_WAITED →
      (((c.sto RS_PTMO w).sto RS_GATE g).sto RS_WAITED v).cell a = c.cell a := by
    intro a h1 h2 h3
    rw [Cpu.sto_cell, if_neg h3, Cpu.sto_cell, if_neg h2, Cpu.sto_cell, if_neg h1]
  have hquiet : Silent c (((c.sto RS_PTMO w).sto RS_GATE g).sto RS_WAITED v) :=
    (Silent.refl c).sto.sto.sto
  generalize ((c.sto RS_PTMO w).sto RS_GATE g).sto RS_WAITED v = D at heq hsame hquiet
  have hpd := pushed D
  have hr := rebased (pushBody D)
  have htick : pushTick D = (t + 16) % 65536 := by
    have hword : tickWord D = tickWord c := by
      unfold tickWord word
      rw [hsame TICK_LO (by decide) (by decide) (by decide),
        hsame TICK_HI (by decide) (by decide) (by decide)]
    unfold pushTick
    rw [hword, ht]
    omega
  have hbase : word (pushBody D) RS_R_LO RS_R_HI = (t + 16) % 65536 := by
    unfold word
    rw [hpd.tick_lo, hpd.tick_hi, htick]
    omega
  have hkeep : ∀ a, a ∉ RebaseArea → a ∉ PushArea → a ≠ RS_PTMO → a ≠ RS_GATE → a ≠ RS_WAITED →
      (RS_REBASE (pushBody D)).cell a = c.cell a := fun a h1 h2 h3 h4 h5 =>
    (hr.frame.cell_eq h1).trans ((hpd.frame.cell_eq h2).trans (hsame a h3 h4 h5))
  have hcells : ∀ a, a = NET_SEAT ∨ a = NET_COUNT ∨ a = NET_ACTIVE ∨ a = NET_DELAY ∨
      a = NET_DROPPED → (RS_REBASE (pushBody D)).cell a = c.cell a := by
    intro a ha
    apply hkeep
    · rcases ha with rfl | rfl | rfl | rfl | rfl <;>
        simp [RebaseArea, DisplayArea, ResyncVars, RingPages, Watermarks, CrcRecords]
    · rcases ha with rfl | rfl | rfl | rfl | rfl <;>
        simp [PushArea, MailboxArea, ResyncVars, CrcRecords]
    all_goals rcases ha with rfl | rfl | rfl | rfl | rfl <;> decide
  have hdelay : (pushBody D).cell NET_DELAY = c.cell NET_DELAY :=
    (hpd.frame.cell_eq (by simp [PushArea, MailboxArea, ResyncVars, CrcRecords])).trans
      (hsame _ (by decide) (by decide) (by decide))
  rw [heq, hpd.eq]
  refine ⟨hcells, fun a ha => ?_, hr.rings, ?_, fun seat hs => ?_, hr.records, hr.hold, hr.pend, D,
    htick, ?_⟩
  · obtain ⟨-, hmb, hvars, himg⟩ := ring_not_handler ha
    refine hkeep a (fun hx => himg (Or.inr hx)) ?_ ?_ ?_ ?_
    · rintro (((hx | hx) | hx) | hx)
      · exact hmb (Or.inr hx)
      · exact hvars (Or.inl hx)
      · exact hvars (Or.inr hx)
      · rw [hx] at ha
        simp [RingCells] at ha
    all_goals rintro rfl
    all_goals simp [RingCells] at ha
  · rw [hr.tick, hbase]
  · rw [hr.watermark seat hs, hbase, hdelay]
    omega
  · exact (hpd.sends.then_silent hr.out hr.replies).after_silent hquiet.out hquiet.replies

/-- The host restarts both. -/
theorem AtHost.push (h : AtHost d sums s c) (hs : s.host.sent = false) (hd : 1 ≤ d) (hp : Pushes c)
    {v : Seen} (hv : Watches d v s.host s.base s.hostIn sums) :
    ∃ s' ls bytes, AtHost d sums s' (RS_PENDING c) ∧ HostTurn d s s' ls bytes ∧
      (∀ l ∈ ls, ∀ w, l.body ≠ .report w) ∧ (∀ l ∈ ls, ∀ w, l.body ≠ .input w) ∧
        Sends bytes c (RS_PENDING c) ∧ s'.host.sent = false ∧
          s'.host.epoch = s.host.epoch + 1 ∧ s'.toHost = s.toHost ∧
            Watches d { v with epoch := v.epoch + 1, age := 0 } s'.host s'.base s'.hostIn sums := by
  have hend := pushEnd hp h.node.tick
  obtain ⟨D, hD, hsends⟩ := hend.sends
  obtain ⟨n, hq⟩ := queued_push (d := d) (e := s.host.epoch) (t := s.host.tick) hD
  have hpend : s.pend = true := by
    rw [h.pend, decide_eq_true hp.1]
  have hold : ∀ e ≤ s.host.epoch, (s.hostRestart d 16 n).base e = s.base e := fun e he =>
    if_neg (by omega)
  have hnew : (s.hostRestart d 16 n).base (s.host.epoch + 1) = s.host.tick + 16 := if_pos rfl
  have hhost : ∀ e k, s.host.epoch < e → s.hostIn e k = none := by
    intro e k he
    by_contra hne
    have := (h.inv.hostNew e k hne).1
    omega
  have hguest : ∀ k, s.guestIn (s.host.epoch + 1) k = none := by
    intro k
    by_contra hne
    have hnew := (h.inv.guestNew _ k hne).1
    have hle := h.inv.epoch_le
    omega
  have hsums : ∀ u, sums (s.host.epoch + 1) u = none := by
    intro u
    by_contra hne
    have := (hv.past _ u hne).1
    omega
  have hparts : ∀ l ∈ (⟨s.host.epoch, s.host.tick, .opening (s.host.tick + 16)⟩ :: (List.replicate n
      ⟨s.host.epoch, s.host.tick, .part⟩ ++
        [⟨s.host.epoch, s.host.tick, .closing (s.host.tick + 16)⟩]) : List Post),
      (∀ w, l.body ≠ .report w) ∧ ∀ w, l.body ≠ .input w := by
    intro l hl
    rcases List.mem_cons.mp hl with rfl | hl
    · exact ⟨fun w hw => (by cases hw), fun w hw => (by cases hw)⟩
    rcases List.mem_append.mp hl with hl | hl
    · rw [List.eq_of_mem_replicate hl]
      exact ⟨fun w hw => (by cases hw), fun w hw => (by cases hw)⟩
    · rw [List.mem_singleton.mp hl]
      exact ⟨fun w hw => (by cases hw), fun w hw => (by cases hw)⟩
  refine ⟨s.hostRestart d 16 n, _, _, ?_, ?_, fun l hl => (hparts l hl).1,
    fun l hl => (hparts l hl).2, hsends, rfl, rfl, rfl, ?_⟩
  · refine ⟨h.inv.hostRestart n hs, h.requests.restarted n hpend, h.running, ?_,
      records_blank hend.records (fun u hu => absurd (hsums u) hu) fun _ => hsums, hend.hold, ?_⟩
    · refine atNode_idle (by omega) ?_ ?_ ?_ ?_ hend.rings hend.tick ?_ _ _ _ (fun k _ => ?_)
        (fun k _ => ?_) (by omega)
      · rw [hend.kept _ (by simp)]
        exact h.node.mine
      · rw [hend.kept _ (by simp)]
        exact h.node.count
      · rw [hend.kept _ (by simp)]
        exact h.node.active
      · rw [hend.kept _ (by simp)]
        exact h.node.delay
      · rw [hend.watermark _ (by omega), h.node.delay]
      · exact hhost _ k (Nat.lt_succ_self _)
      · exact hguest k
    · rw [hend.pend]
      rfl
  · exact ⟨rfl, rfl, rfl, rfl, hold, fun _ _ _ => rfl, Or.inl (Nat.lt_succ_self _), rfl, hq⟩
  · exact (hv.rebase hold hhost).restart rfl hnew

/-! ### Reading -/

/-- What the host has read after some letters, and what its observer has noted. -/
structure HostPumped (d : ℕ) (sums : ℕ → ℕ → Option ℕ) (s : Line) (c c' : Cpu) (rest : List ℕ)
    (v v' : Seen) (m : ℕ) (b : Bool) (q read : List Post) : Prop where
  host : AtHost d sums (hostRead s m b q) c'
  feeds : Feeds d 1 q c' rest
  seen : Watches d v' (hostRead s m b q).host s.base s.hostIn sums
  played : v'.played = v.played
  noted : Noted v v' [] read
  took : HostTook sums s (hostRead s m b q) read
  silent : Silent c c'
  mark : m + 2 * q.length ≤ s.host.mark + 2 * s.toHost.length

/-- Whoever handles the frames of some letters reads them. -/
theorem AtHost.reading (h : AtHost d sums s c) (hd : 1 ≤ d ∧ d ≤ 127)
    (hex : 0 < s.host.epoch → d < 16) {v : Seen} (hv : Watches d v s.host s.base s.hostIn sums)
    {ds : List Cpu} {c' : Cpu} (hh : Handles SES_ONFRAME c ds c') {rest : List ℕ} {read q : List Post}
    (hdel : HandedOn d 1 s.toHost ds c' rest read q) :
    ∃ m b, HostPumped d sums s c c' rest v (ds.foldl Seen.note v) m b q read := by
  -- an input moves the mark by two ticks at most
  obtain ⟨m, b, hat, ⟨hseen, hplayed, hmark, done, hsplit, hnoted, htook, -⟩, hsilent⟩ :=
    h.handles (Q := fun w s' => Watches d w s'.host s.base s.hostIn sums ∧ w.played = v.played ∧
        s'.host.mark + 2 * s'.toHost.length ≤ s.host.mark + 2 * s.toHost.length ∧
          ∃ done, s.toHost = done ++ s'.toHost ∧ Noted v w [] done ∧ HostTook sums s s' done ∧
            s'.host.epoch = s.host.epoch) hd
      (fun {s₁ v₁ x l q₁ m₁ b₁} hq hty _ hr hQ => by
        obtain ⟨hseen, hplayed, hmark, done, hsplit, hnoted, htook, he⟩ := hQ
        have hnote : Watches d (v₁.note x) (hostRead s₁ m₁ b₁ q₁).host s.base s.hostIn sums ∧
            (v₁.note x).played = v₁.played := hseen.read hr.stays rfl rfl rfl
        have hone : Noted v₁ (v₁.note x) [] [l] := .one hty fun w hw => by
          rw [hr.fresh w hw, hseen.epoch]
        refine ⟨hnote.1, hnote.2.trans hplayed, ?_, done ++ [l], ?_, hnoted.trans hone,
          htook.step he hq hr, he⟩
        · have htwo := hr.mark.2
          rw [hq, List.length_cons] at hmark
          simp only [hostRead]
          omega
        · rw [hsplit, hq, List.append_assoc]
          rfl)
      hh hex hdel.split hdel.frames
      ⟨hv, rfl, Nat.le_refl _, [], rfl, .nil rfl rfl, .nil rfl rfl rfl, rfl⟩
  have hread : done = read := by
    have heq := hsplit.symm.trans hdel.split
    exact List.append_cancel_right heq
  subst hread
  exact ⟨m, b, hat, hdel.feeds, hseen, hplayed, hnoted, htook, hsilent, hmark⟩

/-! ### Steps -/

/-- The host in a match that goes on, with the bytes on their way to it and the notes of its observer. -/
structure HostPlays (d : ℕ) (sums : ℕ → ℕ → Option ℕ) (s : Line) (k : Console) (wire : List ℕ)
    (v : Seen) : Prop where
  host : AtHost d sums s k.cpu
  feeds : Feeds d 1 s.toHost k.cpu wire
  seen : Watches d v s.host s.base s.hostIn sums
  acked : AllAcked k.cpu
  up : k.cpu.cell NET_DROPPED = 0
  sent : s.host.sent = decide (k.phase = .gate ∨ k.phase = .run)
  due : k.phase = .run → s.host.tick < s.host.mark
  near : k.phase = .due ∨ k.phase = .gate ∨ k.phase = .run → s.host.mark ≤ s.host.tick + 255
  on : k.phase ≠ .parked

/-- After a step of the host, in which it has read and written some letters. -/
structure HostStepped (d : ℕ) (sums sums' : ℕ → ℕ → Option ℕ) (s s' : Line) (k k' : Console)
    (rest : List ℕ) (v v' : Seen) (ls read : List Post) : Prop where
  plays : HostPlays d sums' s' k' rest v'
  turn : HostTurn d s s' ls (written k.cpu k'.cpu)
  replayed : Replayed s s.host v v'
  noted : Noted v v' ls read
  summed : Summed sums sums' ls
  took : HostTook sums s s' read

namespace HostPlays

variable {k : Console} {wire rest : List ℕ} {v : Seen} {c' : Cpu}

/-- A step that leaves the match alone. -/
theorem keep (h : HostPlays d sums s k wire v)
    (heq : ∀ a ∈ MatchCells ∪ CrcRecords, c'.cell a = k.cpu.cell a) (hs : Silent k.cpu c')
    {p : Phase} (hon : p ≠ .parked) (hsent : s.host.sent = decide (p = .gate ∨ p = .run))
    (hdue : p = .run → s.host.tick < s.host.mark)
    (hnear : p = .due ∨ p = .gate ∨ p = .run → s.host.mark ≤ s.host.tick + 255) :
    HostStepped d sums sums s s k ⟨c', p⟩ wire v v [] [] := by
  refine ⟨⟨h.host.congr fun a ha => heq a (line_match ha),
    h.feeds.congr fun a ha => heq a (ring_kept ha), h.seen, ?_, ?_, hsent, hdue, hnear, hon⟩, ?_,
    Or.inl rfl, .nil rfl rfl, .none (List.forall_mem_nil _), .nil rfl rfl rfl⟩
  · intro r hr
    exact h.acked r (hs.replies ▸ hr)
  · rw [heq _ (Or.inl (Or.inl (Or.inl (Or.inl (by simp)))))]
    exact h.up
  · rw [written_silent hs]
    exact hostTurn_read d s s.host.mark s.pend s.toHost

/-- A pump reads letters. -/
theorem pump (h : HostPlays d sums s k wire v) (hd : 1 ≤ d ∧ d ≤ 127)
    (hex : 0 < s.host.epoch → d < 16) {c : Cpu} (hf : Frame WaitArea k.cpu c)
    (hs : Silent k.cpu c) (p : Poll) (hw : delivers p ++ rest = wire) :
    ∃ m b q read, HostPumped d sums s k.cpu (SES_PUMP SES_ONFRAME c p).cpu rest v
      ((pumpHanded SES_ONFRAME c p).foldl Seen.note v) m b q read ∧ m ≤ s.host.mark + 64 := by
  have heq : ∀ a ∈ MatchCells ∪ CrcRecords, c.cell a = k.cpu.cell a := fun a ha =>
    hf.cell_eq (kept_not_wait ha)
  have hfeeds := h.feeds.congr fun a ha => heq a (ring_kept ha)
  obtain ⟨read, q, hdel, hlen⟩ := hfeeds.pump p hw
  obtain ⟨m, b, hpump⟩ := (h.host.congr fun a ha => heq a (line_match ha)).reading hd hex h.seen
    (handles_pump c p) hdel
  have hsplit := congrArg List.length hdel.split
  have hmark := hpump.mark
  rw [List.length_append] at hsplit
  exact ⟨m, b, q, read, { hpump with silent := hs.trans hpump.silent }, by omega⟩

end HostPlays

/-- With what it has read the match goes on. -/
theorem HostPumped.plays {k : Console} {rest : List ℕ} {c c' : Cpu} {v v' : Seen} {m : ℕ} {b : Bool}
    {q read : List Post} (h : HostPumped d sums s k.cpu c rest v v' m b q read)
    (ha : AllAcked k.cpu) (heq : ∀ a ∈ MatchCells ∪ CrcRecords, c'.cell a = c.cell a)
    (hs : Silent c c') (hup : c'.cell NET_DROPPED = 0) {p : Phase} (hon : p ≠ .parked)
    (hsent : s.host.sent = decide (p = .gate ∨ p = .run)) (hrun : p ≠ .run)
    (hnear : p = .due ∨ p = .gate ∨ p = .run → m ≤ s.host.tick + 255) :
    HostStepped d sums sums s (hostRead s m b q) k ⟨c', p⟩ rest v v' [] read := by
  have hquiet := h.silent.trans hs
  refine ⟨⟨h.host.congr fun a ha => heq a (line_match ha),
    h.feeds.congr fun a ha => heq a (ring_kept ha), h.seen, ?_, hup, hsent,
    fun hph => absurd hph hrun, hnear, hon⟩, ?_, Or.inl h.played, h.noted,
    .none (List.forall_mem_nil _), h.took⟩
  · intro r hr
    exact ha r (hquiet.replies ▸ hr)
  · rw [written_silent hquiet]
    exact hostTurn_read d s m b q

namespace HostPlays

variable {k : Console} {wire rest : List ℕ} {v : Seen}

/-- A capture. -/
theorem captures (h : HostPlays d sums s k wire v) (hd : 1 ≤ d) (hph : k.phase = .due) :
    HostStepped d sums sums s (s.hostCapture d (controller k.cpu)) k ⟨captureSend k.cpu, .gate⟩ wire
      v (v.capture k.cpu) [⟨s.host.epoch, s.host.tick, .input (controller k.cpu)⟩] [] := by
  have hsent : s.host.sent = false := by
    rw [h.sent, hph]
    rfl
  have htop := h.host.inv.hostTop
  rw [hsent, Bool.toNat_false, Nat.add_zero] at htop
  obtain ⟨hat, bytes, hsends, hturn⟩ := h.host.capture hsent hd
  have hseat : k.cpu.cell NET_SEAT ≤ 3 := by
    rw [h.host.node.mine]
    decide
  refine ⟨⟨hat, h.feeds.congr fun a ha => ?_, h.seen.capture k.cpu true fun _ => htop,
    hsends.acked h.acked, ?_, rfl, (fun hr => by cases hr), fun _ => h.near (Or.inl hph),
    (fun hp => by cases hp)⟩, ?_, Or.inl rfl, .capture v k.cpu h.seen.epoch _ _,
    .none fun l hl w hw => ?_, .nil rfl rfl rfl⟩
  · refine capture_kept hseat (ring_kept ha) fun hr => ?_
    have h1 : 0x8400 ≤ a := hr.1
    have h2 : a = 0x8134 ∨ a = 0x8135 ∨ (0x8200 ≤ a ∧ a < 0x8300) := ha
    omega
  · rw [capture_kept hseat (Or.inl (Or.inl (Or.inl (Or.inl (by simp))))) (by simp [RingPages])]
    exact h.up
  · rw [written_sends hsends h.acked]
    exact hturn
  · rw [List.mem_singleton.mp hl] at hw
    cases hw

/-- What the two dispatches of a tick read. -/
theorem dispatched (h : HostPlays d sums s k wire v) (hd : d ≤ 127) (hph : k.phase = .run)
    (g : Game) : s.host.tick < s.host.mark ∧ s.host.tick < s.host.top ∧ dispatchedCells g k.cpu =
      (cellsAt (s.hostIn s.host.epoch) s.host.tick,
        cellsAt (s.guestIn s.host.epoch) s.host.tick) := by
  have hdue := h.due hph
  have hnear := h.near (Or.inr (Or.inr hph))
  have htop := h.host.inv.hostTop
  rw [h.sent, hph] at htop
  have hone : (decide (Phase.run = .gate ∨ Phase.run = .run)).toNat = 1 := rfl
  have hown := h.host.node.cells_own (by omega) (by omega)
  have hpeer := h.host.node.cells_peer hdue (by omega)
  refine ⟨hdue, by omega, ?_⟩
  unfold dispatchedCells
  rw [cells_atSeat0, cells_atSeat1, hown, hpeer]

/-- A tick, with the push that may end it. -/
theorem ticks (h : HostPlays d sums s k wire v) (hd : 1 ≤ d ∧ d ≤ 127) (hph : k.phase = .run)
    (g : Game) : ∃ s' sums' ls, HostStepped d sums sums' s s' k ⟨(runTick g k.cpu).cpu, .native⟩ wire v
      (v.ticked g k.cpu) ls [] := by
  obtain ⟨hdue, htop, hcells⟩ := h.dispatched hd.2 hph g
  have hsent : s.host.sent = true := by
    rw [h.sent, hph]
    rfl
  obtain ⟨s₁, sums₁, ls₁, bytes₁, ht⟩ := h.host.tick hsent hdue g h.seen
  have hring : ∀ a ∈ RingCells, (tickEnd g k.cpu).cell a = k.cpu.cell a := fun a ha =>
    tickEnd_kept g k.cpu (Or.inr ha) (by rintro rfl; simp [RingCells] at ha)
      (by rintro rfl; simp [RingCells] at ha)
  have hdrop : (tickEnd g k.cpu).cell NET_DROPPED = 0 := by
    rw [tickEnd_kept g k.cpu (Or.inl (Or.inl (Or.inl (by simp)))) (by decide) (by decide)]
    exact h.up
  have hplayed : (v.ran g k.cpu).played = put v.played s.host.epoch v.age
      (cellsAt (s.hostIn s.host.epoch) s.host.tick,
        cellsAt (s.guestIn s.host.epoch) s.host.tick) := by
    rw [← hcells, ← h.seen.epoch]
    rfl
  have hran : Noted v (v.ran g k.cpu) [] [] := .nil rfl rfl
  have hrun : (runTick g k.cpu).cpu = RS_PENDING (tickEnd g k.cpu) := runTick_cpu g k.cpu
  rw [hrun]
  have hfeeds : Feeds d 1 s₁.toHost (tickEnd g k.cpu) wire := by
    rw [ht.toHost]
    exact h.feeds.congr hring
  by_cases hp : Pushes (tickEnd g k.cpu)
  · have hnote : v.ticked g k.cpu = { v.ran g k.cpu with epoch := v.epoch + 1, age := 0 } := if_pos hp
    obtain ⟨s₂, ls₂, bytes₂, hat₂, hturn₂, hsum₂, hin₂, hsends₂, hsent₂, hepoch₂, hq₂, hseen₂⟩ :=
      ht.host.push ht.sent hd.1 hp ht.seen
    have hend := pushEnd hp ht.host.node.tick
    have hall := ht.sends.trans hsends₂
    have hpend : s.pend = true := by
      rw [← ht.pend, ht.host.pend, decide_eq_true hp.1]
    have hnoted : Noted v { v.ran g k.cpu with epoch := v.epoch + 1, age := 0 } [] [] := .nil rfl rfl
    have hepoch := ht.epoch
    rw [hnote]
    refine ⟨s₂, sums₁, ls₁ ++ ls₂, ⟨hat₂, ?_, hseen₂, hall.acked h.acked, ?_, hsent₂,
      (fun hr => by cases hr), (fun hr => by simp at hr), (fun hr => by cases hr)⟩, ?_,
      Or.inr ⟨hdue, htop, hplayed⟩, hnoted.others fun l hl => ?_, ht.summed.trans (.none hsum₂),
      .push (hq₂.trans ht.toHost) hpend (by omega)⟩
    · rw [hq₂]
      exact hfeeds.congr hend.ring
    · rw [hend.kept _ (by simp)]
      exact hdrop
    · rw [written_sends hall h.acked]
      exact ht.turn.trans hturn₂
    · exact (List.mem_append.mp hl).elim (ht.inputs l) (hin₂ l)
  · have hnote : v.ticked g k.cpu = v.ran g k.cpu := if_neg hp
    have hquiet := silent_RS_PENDING hp
    have hkeep : ∀ a ∈ MatchCells ∪ CrcRecords, (RS_PENDING (tickEnd g k.cpu)).cell a =
        (tickEnd g k.cpu).cell a := by
      intro a ha
      refine (RS_PENDING_waits hp).cell_eq ?_
      rintro rfl
      rcases ha with ha | ha
      · have := match_cases ha
        simp at this
      · simp [CrcRecords] at ha
    have hall := ht.sends.then_silent hquiet.out hquiet.replies
    rw [hnote]
    refine ⟨s₁, sums₁, ls₁, ⟨ht.host.congr fun a ha => hkeep a (line_match ha),
      hfeeds.congr fun a ha => hkeep a (ring_kept ha), ht.seen, hall.acked h.acked, ?_, ht.sent,
      (fun hr => by cases hr), (fun hr => by simp at hr), (fun hr => by cases hr)⟩, ?_,
      Or.inr ⟨hdue, htop, hplayed⟩, hran.others ht.inputs, ht.summed,
      .nil ht.toHost ht.pend ht.epoch⟩
    · rw [hkeep _ (Or.inl (Or.inl (Or.inl (Or.inl (by simp)))))]
      exact hdrop
    · rw [written_sends hall h.acked]
      exact ht.turn

/-- Every step of a host whose match goes on. -/
theorem step (h : HostPlays d sums s k wire v) (hd : 1 ≤ d ∧ d ≤ 127)
    (hex : 0 < s.host.epoch → d < 16) (hg : s.guest.ended = false) (o : Outside)
    (hw : takes k o ++ rest = wire) (hup : (k.step o).cpu.cell NET_DROPPED = 0) :
    ∃ s' sums' ls read,
      HostStepped d sums sums' s s' k (k.step o) rest v (v.step k o) ls read := by
  have hstep := stepped k o
  have hsent := h.sent
  generalize k.step o = k' at hstep hup ⊢
  cases hstep with
  | shown hph hs =>
    have hp : pumping k = none := by simp only [pumping, hph, if_pos hs]
    rw [← wire_of_quiet o hp hw, noted_none o v (by rw [hph]; decide) (by rw [hph]; decide) hp]
    rw [hph] at hsent
    exact ⟨s, sums, [], [], h.keep (fun _ _ => rfl) (.refl _) (by decide) hsent
      (fun hr => by cases hr) (fun hr => by simp at hr)⟩
  | left hph hdrop => exact absurd h.up hdrop
  | hold hph hd hh => exact absurd h.host.hold hh
  | pass hph _ _ hp =>
    rw [noted_pump o v (by rw [hph]; decide) (by rw [hph]; decide) hp]
    rw [takes_pump o hp] at hw
    rw [hph] at hsent
    obtain ⟨m, b, q, read, hpump, -⟩ := h.pump hd hex (Frame.refl _ _) (.refl _) o.poll hw
    have hahead : m ≤ s.host.tick + 2 * d + 1 := hpump.host.inv.host_ahead hex hg hsent
    exact ⟨_, sums, [], read, hpump.plays h.acked (fun _ _ => rfl) (.refl _) hup (by decide) hsent
      (by decide) fun _ => by omega⟩
  | due hph =>
    have hp := pumping_eq_none (k := k) (by rw [hph]; decide) (by rw [hph]; decide)
    rw [← wire_of_quiet o hp hw, noted_due o v hph]
    exact ⟨_, sums, _, [], h.captures hd.1 hph⟩
  | opened hph ho =>
    have hp : pumping k = none := by simp only [pumping, hph, if_pos ho]
    rw [← wire_of_quiet o hp hw, noted_none o v (by rw [hph]; decide) (by rw [hph]; decide) hp]
    have hnear := h.near (Or.inr (Or.inl hph))
    have hread := h.host.inv.hostRead
    rw [h.host.running, Bool.toNat_false] at hread
    rw [hph] at hsent
    have hpast := h.host.node.opened (by omega) ho h.up hread (by omega)
    exact ⟨s, sums, [], [], h.keep (fun _ _ => rfl) (.refl _) (by decide) hsent (fun _ => hpast)
      fun _ => hnear⟩
  | stall hph ho hp c' hwait =>
    rw [noted_pump o v (by rw [hph]; decide) (by rw [hph]; decide) hp]
    rw [takes_pump o hp] at hw
    have hnear := h.near (Or.inr (Or.inl hph))
    rw [hph] at hsent
    have hshut := h.host.node.shut (by omega) ho (by omega)
    obtain ⟨m, b, q, read, hpump, hmark⟩ := h.pump hd hex (frame_freeze _) (silent_freeze _) o.poll hw
    cases hwait with
    | on hf hs =>
      exact ⟨_, sums, [], read, hpump.plays h.acked (fun a ha => hf.cell_eq (kept_not_wait ha)) hs hup
        (by decide) hsent (by decide) fun _ => by omega⟩
    | gaveUp hgave => exact absurd hup hgave.dropped
  | tick hph =>
    have hp := pumping_eq_none (k := k) (by rw [hph]; decide) (by rw [hph]; decide)
    rw [← wire_of_quiet o hp hw, noted_run o v hph]
    obtain ⟨s', sums', ls, ht⟩ := h.ticks hd hph o.game
    exact ⟨s', sums', ls, [], ht⟩
  | native hph =>
    have hp := pumping_eq_none (k := k) (by rw [hph]; decide) (by rw [hph]; decide)
    rw [← wire_of_quiet o hp hw, noted_none o v (by rw [hph]; decide) (by rw [hph]; decide) hp]
    rw [hph] at hsent
    obtain ⟨heq, hs⟩ := game_kept (o.game.native_frame k.cpu)
    exact ⟨s, sums, [], [], h.keep heq hs (by decide) hsent (fun hr => by cases hr)
      (fun hr => by simp at hr)⟩
  | scan hph =>
    have hp := pumping_eq_none (k := k) (by rw [hph]; decide) (by rw [hph]; decide)
    rw [← wire_of_quiet o hp hw, noted_none o v (by rw [hph]; decide) (by rw [hph]; decide) hp]
    rw [hph] at hsent
    obtain ⟨heq, hs⟩ := game_kept (o.game.scan_frame k.cpu)
    exact ⟨s, sums, [], [], h.keep heq hs (by decide) hsent (fun hr => by cases hr)
      (fun hr => by simp at hr)⟩
  | parked hph => exact absurd hph h.on

end HostPlays

end Turns

end BoxingNetplay.Analysis
