import BoxingNetplay.Analysis.Letters
import BoxingNetplay.Analysis.Network

/-!
# The host reads

The host at its node of the delay line (`AtHost`), and what handling the frame of the next letter does to it
(`AtHost.reads`).  Inputs of its own epoch are stored, older ones refused.  An alarm is true: it is about
a tick of this epoch that is on record with another checksum.
-/

set_option autoImplicit false

namespace BoxingNetplay.Analysis

open BoxingNetplay.Library
open BoxingNetplay.Library.Delay (Node Letter Sys Inv Requests Fresh)
open BoxingNetplay.Model
open BoxingNetplay.Interface

/-- The line after the host has read some letters: its mark, its flag, what is left to read. -/
def hostRead (s : Line) (m : ℕ) (b : Bool) (q : List Post) : Line :=
  { s with host := { s.host with mark := m }, pend := b, toHost := q }

/-- The host's machine is at its node, with the checksums `sums` on record. -/
structure AtHost (d : ℕ) (sums : ℕ → ℕ → Option ℕ) (s : Line) (c : Cpu) : Prop where
  inv : Inv d 16 s
  requests : Requests s
  running : s.host.ended = false
  node : AtNode d 0 s.host (s.hostIn s.host.epoch) (s.guestIn s.host.epoch) c
  records : Records True (s.base s.host.epoch) s.host.tick (sums s.host.epoch) c
  hold : c.cell RESYNC_HOLD = 0
  pend : s.pend = decide (c.cell RS_PEND ≠ 0)

namespace AtHost

variable {d : ℕ} {sums : ℕ → ℕ → Option ℕ} {s : Line} {c c' : Cpu} {l : Post} {q : List Post}
  {f : List ℕ}

/-- Whatever leaves the cells of the line alone leaves the host at its node. -/
theorem congr (h : AtHost d sums s c) (heq : ∀ a ∈ LineCells, c'.cell a = c.cell a) :
    AtHost d sums s c' := by
  refine { h with node := ?_, records := ?_, hold := ?_, pend := ?_ }
  · exact h.node.congr (by omega) fun a ha => heq a (sync_line ha)
  · exact h.records.congr (fun a ha => heq a (record_line ha)) id
  · rw [heq _ (Or.inr (by simp))]
    exact h.hold
  · rw [heq RS_PEND (Or.inr (by simp))]
    exact h.pend

/-- What the host knows of a letter of an earlier epoch: it is not far behind the beginning of this
one. -/
theorem stale (h : AtHost d sums s c) (hex : 0 < s.host.epoch → d < 16) (hl : l ∈ s.toHost)
    (he : l.epoch ≠ s.host.epoch) : d < 16 ∧ l.tick + d < s.host.mark ∧
      s.host.mark = s.base s.host.epoch + d ∧ l.tick + 16 ≤ s.base s.host.epoch + d ∧
        s.base s.host.epoch ≤ l.tick + 96 := by
  have hle := h.inv.letter_le hl
  have hge := h.inv.epoch_le
  have hlt : l.epoch < s.host.epoch := by omega
  have hJ := hex (by omega)
  have hfair := h.inv.fair l hl
  have hreq := h.requests.letters l hl
  have hbase := hfair.base_le hlt (Nat.le_refl _)
  have hfirst := (hfair.begun hlt).1
  have hmono := h.inv.base_mono (j := l.epoch + 1) hlt (Nat.le_refl _)
  have hpos := Nat.zero_le (16 * (s.host.epoch - (l.epoch + 1)))
  have htwo : s.host.epoch - l.epoch = 1 ∨ s.host.epoch - l.epoch = 2 := by omega
  refine ⟨hJ, h.inv.input_lt hl hJ hlt, hfair.still hJ hlt, by omega, ?_⟩
  rcases htwo with htwo | htwo <;> rw [htwo] at hbase <;> omega

/-- The node after an input is stored. -/
theorem input_node (h : AtHost d sums s c) (hex : 0 < s.host.epoch → d < 16) (hd : 1 ≤ d)
    {t : ℕ} {v : ℕ × ℕ} (hq : s.toHost = ⟨s.host.epoch, t, .input v⟩ :: q)
    (hv : v = (c.cell (FRMBUF + 5), c.cell (FRMBUF + 6)))
    (hin : s.host.mark ≤ t + d → t + d ≤ s.host.mark + 1 → InputStored c c' 1 ((t + d) % 65536)) :
    s.host.mark ≤ t + d ∧ t + d ≤ s.host.mark + 1 ∧
      AtNode d 0 { s.host with mark := t + d + 1 } (s.hostIn s.host.epoch) (s.guestIn s.host.epoch)
        c' := by
  have hepoch : s.guest.epoch = s.host.epoch := by
    have hle := h.inv.letter_le (l := ⟨s.host.epoch, t, .input v⟩) (hq ▸ List.mem_cons_self)
    have hge := h.inv.epoch_le
    simp only at hle
    omega
  have hup := h.inv.up hex hepoch
  rw [hq] at hup
  obtain ⟨hfront, hsome, -⟩ := hup.front
  have hmark := h.inv.hostMark
  have hbounds : s.host.mark ≤ t + d ∧ t + d ≤ s.host.mark + 1 := by omega
  refine ⟨hbounds.1, hbounds.2, ?_⟩
  refine h.node.store (by omega) (by omega) (hin hbounds.1 hbounds.2) (by rw [hsome, hv]) ?_
  rcases hfront with heq | ⟨heq, hm, hnone⟩
  · rw [heq]
    exact h.node.peerRing
  · -- the first input of the epoch was never captured
    have hidle : ∀ k ≤ s.host.mark, s.guestIn s.host.epoch k = none := by
      intro k hk
      rcases Nat.lt_or_eq_of_le hk with hlt | rfl
      · by_contra hne
        have := (h.inv.guestNew _ _ hne).2
        omega
      · exact hnone
    have hskip := h.node.peerRing.skip (by decide) (replay_none (hidle _ (by omega)))
      (ago_idle (fun k hk => replay_none (hidle k (by omega))) _)
    rwa [show s.host.mark - 1 + 1 = t + d - 1 by omega] at hskip

end AtHost

/-- What is known after the host has handled the frame of a letter. -/
structure HostReads (d : ℕ) (sums : ℕ → ℕ → Option ℕ) (s : Line) (c : Cpu) (l : Post) (q : List Post)
    (m : ℕ) (b : Bool) : Prop where
  host : AtHost d sums (hostRead s m b q) (SES_ONFRAME c)
  mark : s.host.mark ≤ m ∧ m ≤ s.host.mark + 2
  silent : Silent c (SES_ONFRAME c)
  stays : ¬ Rebases c
  fresh : ∀ v, l.body = .input v → (StoresInput c ↔ l.epoch = s.host.epoch)
  kept : s.pend = true → b = true
  asks : l.body = .ask → b = true
  alarm : s.pend = false → b = true → l.body = .ask ∨
    ∃ w w', l.body = .report w ∧ l.epoch = s.host.epoch ∧ sums l.epoch l.tick = some w' ∧ w ≠ w'
  compared : ∀ w w', l.body = .report w → l.epoch = s.host.epoch → sums l.epoch l.tick = some w' →
    w = w' ∨ b = true

namespace AtHost

variable {d : ℕ} {sums : ℕ → ℕ → Option ℕ} {s : Line} {c : Cpu} {q : List Post}

/-- An input. -/
theorem reads_input (h : AtHost d sums s c) (hd : 1 ≤ d) (hex : 0 < s.host.epoch → d < 16) {e t : ℕ}
    {v : ℕ × ℕ} (hq : s.toHost = ⟨e, t, .input v⟩ :: q)
    (hc : Carries c [6, FT_INPUT, 1, (t + d) % 65536 % 256, (t + d) % 65536 / 256, v.1, v.2]) :
    ∃ m b, HostReads d sums s c ⟨e, t, .input v⟩ q m b := by
  have hmem : (⟨e, t, .input v⟩ : Post) ∈ s.toHost := hq ▸ List.mem_cons_self
  have hcell : ∀ i < 7, c.cell (FRMBUF + i) =
      [6, FT_INPUT, 1, (t + d) % 65536 % 256, (t + d) % 65536 / 256, v.1, v.2].getD i 0 :=
    fun i hi => hc.cell hi
  have hlen : c.cell FRMBUF = 6 := hcell 0 (by omega)
  have hty : c.cell (FRMBUF + 1) = FT_INPUT := hcell 1 (by omega)
  have hseat : c.cell (FRMBUF + 2) = 1 := hcell 2 (by omega)
  have htick : inputTick c = (t + d) % 65536 := by
    unfold inputTick word
    rw [hcell 3 (by omega), hcell 4 (by omega)]
    simp only [List.getD_cons_succ, List.getD_cons_zero]
    omega
  have hahead : inputAhead c = sub16 ((t + d) % 65536) ((s.host.mark + 65535) % 65536) := by
    have hwm := h.node.mark
    have heq : inputAhead c = sub16 (inputTick c) (seatWm c (c.cell (FRMBUF + 2))) := rfl
    rw [heq, htick, hseat]
    exact congrArg (sub16 _) hwm
  have heq : SES_ONFRAME c = of_input c := SES_ONFRAME_input hty
  have hstays : ¬ Rebases c := by
    intro hr
    rw [hr.1] at hty
    cases hty
  have hframe : ∀ a ∈ LineCells, a ∉ SyncCells → (of_input c).cell a = c.cell a := by
    intro a ha hns
    refine (frame_of_input c fun _ => by omega).cell_eq ?_
    rintro (hx | hx)
    · exact hns (Or.inr hx)
    · exact hns (Or.inl (Or.inr hx))
  have hown := h.node.mine
  have hcount := h.node.count
  by_cases he : e = s.host.epoch
  · subst he
    have hstored : s.host.mark ≤ t + d → t + d ≤ s.host.mark + 1 →
        inputAccepted c ∧ InputStored c (of_input c) 1 ((t + d) % 65536) := by
      intro h1 h2
      have hacc : inputAccepted c := by
        refine ⟨by omega, by omega, by omega, ?_, ?_⟩ <;> rw [hahead] <;> unfold sub16 <;> omega
      have hin := of_input_stored hacc (by omega)
      rw [hseat, htick] at hin
      exact ⟨hacc, hin⟩
    obtain ⟨h1, h2, hnode⟩ := h.input_node hex hd hq
      (by rw [hcell 5 (by omega), hcell 6 (by omega)]; rfl) fun h1 h2 => (hstored h1 h2).2
    refine ⟨t + d + 1, s.pend, ?_, by omega, ?_, hstays,
      fun _ _ => ⟨fun _ => rfl, fun _ => ⟨hty, (hstored h1 h2).1⟩⟩, id, (fun hb => by cases hb),
      fun hp hp' => ?_, (fun w w' hb => by cases hb)⟩
    · rw [heq]
      refine ⟨h.inv.hostInput hq rfl h1, h.requests.tail hq rfl rfl rfl rfl rfl, h.running, hnode,
        ?_, ?_, ?_⟩
      · refine h.records.congr (fun a ha => hframe a (record_line ha) fun hs => ?_) id
        have := sync_cases hs
        have h3 : 0x8C00 ≤ a := ha.1
        omega
      · rw [hframe RESYNC_HOLD (Or.inr (by simp)) (flag_not_sync (Or.inl rfl))]
        exact h.hold
      · rw [hframe RS_PEND (Or.inr (by simp)) (flag_not_sync (Or.inr rfl))]
        exact h.pend
    · rw [heq]
      exact silent_of_input c
    · rw [hp] at hp'
      cases hp'
  · -- an input of an earlier epoch is at or behind the watermark
    obtain ⟨hJ, hlt, hm, hfirst, hnear⟩ := h.stale hex hmem he
    simp only at hlt hfirst hnear
    have href : ¬ inputAccepted c := by
      rintro ⟨-, -, -, hpos, hback⟩
      rw [hahead] at hpos hback
      unfold sub16 at hpos hback
      omega
    have heq' : SES_ONFRAME c = c := heq.trans (of_input_refused href)
    refine ⟨s.host.mark, s.pend, ?_, by omega, ?_, hstays, fun _ _ => ⟨fun hst => absurd hst.2 href,
      fun hse => absurd hse he⟩, id, (fun hb => by cases hb), fun hp hp' => ?_, (fun w w' hb => by cases hb)⟩
    · rw [heq']
      exact ⟨h.inv.hostTake s.pend hq fun _ hse => absurd hse he,
        h.requests.tail hq rfl rfl rfl rfl rfl, h.running, h.node, h.records, h.hold, h.pend⟩
    · rw [heq']
      exact .refl c
    · rw [hp] at hp'
      cases hp'

/-- A push is wanted, and nothing else of the line has changed. -/
theorem wanted {c' : Cpu} (h : AtHost d sums s c) (hinv : Inv d 16 (hostRead s s.host.mark true q))
    (hreq : Requests (hostRead s s.host.mark true q))
    (hkeep : ∀ a ∈ LineCells, a ≠ RS_PEND → c'.cell a = c.cell a) (hset : c'.cell RS_PEND ≠ 0) :
    AtHost d sums (hostRead s s.host.mark true q) c' := by
  refine ⟨hinv, hreq, h.running, h.node.congr (by omega) fun a ha => hkeep a (sync_line ha) ?_,
    h.records.congr (fun a ha => hkeep a (record_line ha) ?_) id, ?_, (decide_eq_true hset).symm⟩
  · rintro rfl
    exact flag_not_sync (Or.inr rfl) ha
  · rintro rfl
    exact flag_not_record (Or.inr rfl) ha
  · rw [hkeep _ (Or.inr (by simp)) (by decide)]
    exact h.hold

/-- A report whose tick is on record is of this epoch, and for that tick. -/
theorem recorded_tick (h : AtHost d sums s c) (hd : d ≤ 127) (hex : 0 < s.host.epoch → d < 16)
    {e t w u : ℕ} (hmem : (⟨e, t, .report w⟩ : Post) ∈ s.toHost) (hb : s.base s.host.epoch ≤ u)
    (hlt : u < s.host.tick) (hlap : s.host.tick ≤ u + 256) (hlo : u % 256 = t % 65536 % 256)
    (hhi : u / 256 % 256 = t % 65536 / 256) : e = s.host.epoch ∧ u = t := by
  have hread := h.inv.hostRead
  rw [h.running, Bool.toNat_false] at hread
  have hsame : e = s.host.epoch := by
    -- an older report is for a tick before this baseline
    by_contra he
    obtain ⟨hJ, -, hm, hfirst, hnear⟩ := h.stale hex hmem he
    simp only at hfirst hnear
    omega
  subst hsame
  refine ⟨rfl, ?_⟩
  have hbehind := h.inv.behind _ hmem
  have hepochs := h.inv.epochs
  have hgread := h.inv.guestRead
  have hnear := (h.inv.fair _ hmem).near rfl
  have htop := h.inv.hostTop
  have hsent := Bool.toNat_le s.host.sent
  simp only at hnear hbehind
  omega

/-- A report. -/
theorem reads_report (h : AtHost d sums s c) (hd : d ≤ 127) (hex : 0 < s.host.epoch → d < 16)
    {e t w : ℕ} (hq : s.toHost = ⟨e, t, .report w⟩ :: q) (h64 : t % 64 = 0)
    (hc : Carries c [6, FT_CRC, 1, t % 65536 % 256, t % 65536 / 256, w % 256, w / 256]) :
    ∃ m b, HostReads d sums s c ⟨e, t, .report w⟩ q m b := by
  have hmem : (⟨e, t, .report w⟩ : Post) ∈ s.toHost := hq ▸ List.mem_cons_self
  have hrep := hasReport hc
  have hlo := hrep.lo
  have hhi := hrep.hi
  have hbody : ∀ v, (Letter.body (⟨e, t, .report w⟩ : Post)) ≠ .input v := fun v hv => by cases hv
  have hcrc := crcHandled c
  have hkeep : ∀ a ∈ LineCells, a ≠ RS_PEND → (RS_ON_CRC c).cell a = c.cell a :=
    fun a => alarm_kept c
  generalize heq : RS_ON_CRC c = c' at hcrc hkeep
  have hhandler := hrep.handler.trans heq
  cases hcrc with
  | ignored =>
    refine ⟨s.host.mark, s.pend, ?_, by omega, ?_, hrep.stays, (fun v hb => by cases hb), id,
      (fun hb => by cases hb), fun hp hp' => ?_, fun w₁ w₂ hw he hs => ?_⟩
    · rw [hhandler]
      exact ⟨h.inv.hostTake s.pend hq fun _ _ => hbody, h.requests.tail hq rfl rfl rfl rfl rfl,
        h.running, h.node, h.records, h.hold, h.pend⟩
    · rw [hhandler]
      exact .refl c
    · rw [hp] at hp'
      cases hp'
    · cases hw
      cases hpend : s.pend with
      | true => exact Or.inr rfl
      | false =>
        -- nothing holds the report back, so the checksum is the same
        have hread := h.inv.hostRead
        have hnear := (h.inv.fair _ hmem).near he
        rw [h.running, Bool.toNat_false] at hread
        simp only at he hs hnear
        rw [he] at hs
        refine Or.inl (h.records.agree trivial hs (by omega) hrep.length hlo hhi hrep.wlo hrep.whi
          h.hold ?_ heq)
        have hflag := h.pend
        rw [hpend] at hflag
        exact not_not.mp (of_decide_eq_false hflag.symm)
  | alarm hold pend hflo hfhi differs _ hset host guest =>
    rw [hlo] at hflo hfhi differs
    obtain ⟨u, w', hu1, hu2, hu3, hu4, hsum, hu5, hu6, hu7⟩ :=
      h.records.found (by omega) (by omega) hflo
    rw [hhi, hu5] at hfhi
    obtain ⟨rfl, rfl⟩ := h.recorded_tick hd hex hmem hu1 hu2 hu3 hu4 hfhi
    refine ⟨s.host.mark, true, ?_, by omega, ?_, hrep.stays, (fun v hb => by cases hb),
      fun _ => rfl, fun _ => rfl, fun _ _ => Or.inr ⟨w, w', rfl, rfl, hsum, ?_⟩,
      fun _ _ _ _ _ => Or.inr rfl⟩
    · rw [hhandler]
      exact h.wanted (h.inv.hostTake true hq fun _ _ => hbody) (h.requests.noticed h.inv hq rfl) hkeep
        hset
    · rw [hhandler]
      exact host h.node.mine
    · rintro rfl
      exact differs ⟨hu6.trans hrep.wlo.symm, hu7.trans hrep.whi.symm⟩

/-- A request. -/
theorem reads_ask (h : AtHost d sums s c) {e t lo hi : ℕ} (hq : s.toHost = ⟨e, t, .ask⟩ :: q)
    (hc : Carries c [3, FT_RESYNC, lo, hi]) : ∃ m b, HostReads d sums s c ⟨e, t, .ask⟩ q m b := by
  have hty : c.cell (FRMBUF + 1) = FT_RESYNC := hc.cell (i := 1) (by simp)
  have heq : SES_ONFRAME c = RS_ON_REQ c := SES_ONFRAME_resync hty
  have hstays : ¬ Rebases c := by
    intro hr
    rw [hr.1] at hty
    cases hty
  have hbody : ∀ v, (Letter.body (⟨e, t, .ask⟩ : Post)) ≠ .input v := fun v hv => by cases hv
  by_cases hpend : c.cell RS_PEND = 0
  · have hreq : RS_ON_REQ c = (c.sto RS_PEND 1).sto RS_PTMO 0 := by
      unfold RS_ON_REQ
      rw [if_neg (by rw [h.node.mine]; simp), if_neg (by rw [h.hold]; simp),
        if_neg (by rw [hpend]; simp)]
    have hkeep : ∀ a ∈ LineCells, a ≠ RS_PEND → (RS_ON_REQ c).cell a = c.cell a := by
      intro a ha hne
      rw [hreq, Cpu.sto_cell, if_neg ?_, Cpu.sto_cell, if_neg hne]
      rintro rfl
      exact wait_not_line ha
    have hfalse : s.pend = false := by
      rw [h.pend, hpend]
      rfl
    refine ⟨s.host.mark, true, ?_, by omega, ?_, hstays, (fun v hb => by cases hb),
      fun _ => rfl, fun _ => rfl, fun _ _ => Or.inl rfl, fun _ _ _ _ _ => Or.inr rfl⟩
    · rw [heq]
      refine h.wanted (h.inv.hostTake true hq fun _ _ => hbody)
        (h.requests.heard h.inv hq rfl hfalse) hkeep ?_
      rw [hreq]
      simp [cellWidth]
    · rw [heq]
      exact silent_RS_ON_REQ c
  · have hreq : RS_ON_REQ c = c := by
      unfold RS_ON_REQ
      rw [if_neg (by rw [h.node.mine]; simp), if_neg (by rw [h.hold]; simp), if_pos hpend]
    rw [hreq] at heq
    have hset : s.pend = true := by
      rw [h.pend]
      exact decide_eq_true hpend
    refine ⟨s.host.mark, s.pend, ?_, by omega, ?_, hstays, (fun v hb => by cases hb), id,
      fun _ => hset, (fun hp => by rw [hset] at hp; cases hp), (fun w w' hb => by cases hb)⟩
    · rw [heq]
      exact ⟨h.inv.hostTake s.pend hq fun _ _ => hbody, h.requests.tail hq rfl rfl rfl rfl rfl,
        h.running, h.node, h.records, h.hold, h.pend⟩
    · rw [heq]
      exact .refl c

/-- Whatever the guest writes. -/
theorem reads (h : AtHost d sums s c) (hd : 1 ≤ d ∧ d ≤ 127) (hex : 0 < s.host.epoch → d < 16)
    {l : Post} {f : List ℕ} (hq : s.toHost = l :: q) (hl : Spells d 1 l f) (hc : Carries c f) :
    ∃ m b, HostReads d sums s c l q m b := by
  cases hl with
  | input e t v => exact h.reads_input hd.1 hex hq hc
  | report e t w ht => exact h.reads_report hd.2 hex hq ht hc
  | ask e t lo hi => exact h.reads_ask hq hc
  | opening _ _ _ _ hs => cases hs
  | part _ _ _ _ hs => cases hs
  | closing _ _ _ hs => cases hs

end AtHost

/-! ### A pump of the host -/

section Pump

variable {d : ℕ} {sums : ℕ → ℕ → Option ℕ} {s s' : Line} {c c' : Cpu}

/-- What the guest does leaves the host at its node. -/
theorem AtHost.other (h : AtHost d sums s c) (hi : Inv d 16 s') (hr : Requests s')
    (hh : s'.host = s.host) (ho : s'.hostIn = s.hostIn) (hb : s'.base = s.base)
    (hp : s'.pend = s.pend)
    (hin : ∀ k ≤ s.host.mark - 1, s'.guestIn s.host.epoch k = s.guestIn s.host.epoch k) :
    AtHost d sums s' c := by
  refine ⟨hi, hr, ?_, ?_, ?_, h.hold, ?_⟩
  · rw [hh]
    exact h.running
  · rw [hh, ho]
    exact h.node.same rfl rfl rfl (fun _ _ => rfl) hin
  · rw [hh, hb]
    exact h.records
  · rw [hp]
    exact h.pend

/-- What every letter keeps, all the letters of a pump keep. -/
theorem AtHost.handles {Q : Seen → Line → Prop} (hd : 1 ≤ d ∧ d ≤ 127)
    (hstep : ∀ {s : Line} {v : Seen} {x : Cpu} {l : Post} {q : List Post} {m : ℕ} {b : Bool},
      s.toHost = l :: q → (x.cell (FRMBUF + 1) = FT_INPUT ↔ ∃ w, l.body = .input w) →
        AtHost d sums s x → HostReads d sums s x l q m b → Q v s → Q (v.note x) (hostRead s m b q))
    {ds : List Cpu} (hh : Handles SES_ONFRAME c ds c') {read rest : List Post} {v : Seen}
    (hex : 0 < s.host.epoch → d < 16) (h : AtHost d sums s c) (hq : s.toHost = read ++ rest)
    (hf : ∃ fs, List.Forall₂ (Spells d 1) read fs ∧ List.Forall₂ Carries ds fs) (hv : Q v s) :
    ∃ m b, AtHost d sums (hostRead s m b rest) c' ∧
      Q (ds.foldl Seen.note v) (hostRead s m b rest) ∧ Silent c c' := by
  obtain ⟨fs, hfs, hcs⟩ := hf
  induction hh generalizing s read fs v with
  | done hm =>
    cases hcs
    cases hfs
    have heq : hostRead s s.host.mark s.pend rest = s := by
      rw [← hq.trans (List.nil_append rest)]
      rfl
    refine ⟨s.host.mark, s.pend, ?_, ?_, hm.silent⟩
    · rw [heq]
      exact h.congr fun a ha => hm.frame.cell_eq (line_not_pump ha)
    · rw [heq]
      exact hv
  | hand hm _ ih =>
    cases hcs with
    | cons hcar hcs =>
      cases hfs with
      | cons hl hfs =>
        have hx := h.congr fun a ha => hm.frame.cell_eq (line_not_pump ha)
        obtain ⟨m, b, hr⟩ := hx.reads hd hex hq hl hcar
        obtain ⟨m', b', hat, hQ, hs⟩ := ih (v := v.note _) (s := hostRead s m b _) hex hr.host rfl
          (hstep hq (hl.isInput hcar) hx hr hv) _ hfs hcs
        exact ⟨m', b', hat, hQ, hm.silent.trans (hr.silent.trans hs)⟩

end Pump

end BoxingNetplay.Analysis
