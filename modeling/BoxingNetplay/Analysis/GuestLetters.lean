import BoxingNetplay.Analysis.Letters

/-!
# The guest reads

The guest at its node of the delay line (`AtGuest`), and what handling the frame of the next letter does to
it (`AtGuest.reads`).  Every input is the next one and is stored.  A report may raise an alarm, which is
true and is answered with a request; the frames of a push open a hold, fill it and end in a new
baseline, where the guest has nothing captured or stored.
-/

set_option autoImplicit false

namespace BoxingNetplay.Analysis

open BoxingNetplay.Library
open BoxingNetplay.Library.Delay (Node Letter Sys Inv Requests)
open BoxingNetplay.Model
open BoxingNetplay.Interface

/-- The guest's machine is at its node, with the checksums `sums` on record. -/
structure AtGuest (d : ℕ) (sums : ℕ → ℕ → Option ℕ) (s : Line) (c : Cpu) : Prop where
  inv : Inv d 16 s
  requests : Requests s
  running : s.guest.ended = false
  node : AtNode d 1 s.guest (s.guestIn s.guest.epoch) (s.hostIn s.guest.epoch) c
  records : Records (s.hold = none) (s.base s.guest.epoch) s.guest.tick (sums s.guest.epoch) c
  past : ∀ e u, sums e u ≠ none → e ≤ s.guest.epoch
  held : ∀ r, s.hold = some r → c.cell RESYNC_HOLD ≠ 0 ∧ word c RS_R_LO RS_R_HI = r % 65536
  free : s.hold = none → c.cell RESYNC_HOLD = 0
  asked : s.asked = decide (c.cell RS_PEND ≠ 0)

/-- The guest's own part of the line after it has handled a frame: on in its epoch, or in the next one. -/
inductive GuestMoved (d : ℕ) (s s' : Line) (rebases : Prop) : Prop where
  | on (hr : ¬ rebases) (epoch : s'.guest.epoch = s.guest.epoch) (tick : s'.guest.tick = s.guest.tick)
      (top : s'.guest.top = s.guest.top) (sent : s'.guest.sent = s.guest.sent)
      (mark : s.guest.mark ≤ s'.guest.mark ∧ s'.guest.mark ≤ s.guest.mark + 1)
  | restarted (hr : rebases) (epoch : s'.guest.epoch = s.guest.epoch + 1)
      (tick : s'.guest.tick = s.base s'.guest.epoch) (mark : s'.guest.mark = s'.guest.tick + d)
      (sent : s'.guest.sent = false)

/-- What letters of the host do to the rest of the line: the guest may have asked for a restart. -/
structure GuestLine (d : ℕ) (s s' : Line) (c c' : Cpu) : Prop where
  host : s'.host = s.host
  hostIn : s'.hostIn = s.hostIn
  guestIn : s'.guestIn = s.guestIn
  base : s'.base = s.base
  pend : s'.pend = s.pend
  sends : ∃ (ls : List Post) (fs : List (List ℕ)), s'.toHost = s.toHost ++ ls ∧
    List.Forall₂ (Spells d 1) ls fs ∧ Sends fs.flatten c c' ∧ ∀ x ∈ ls, x.body = .ask

theorem GuestLine.trans {d : ℕ} {s s' s'' : Line} {c c' c'' : Cpu} (h : GuestLine d s s' c c')
    (h' : GuestLine d s' s'' c' c'') : GuestLine d s s'' c c'' := by
  obtain ⟨ls, fs, hls, hfs, hsend, hall⟩ := h.sends
  obtain ⟨ms, gs, hms, hgs, hsend', hall'⟩ := h'.sends
  refine ⟨h'.host.trans h.host, h'.hostIn.trans h.hostIn, h'.guestIn.trans h.guestIn,
    h'.base.trans h.base, h'.pend.trans h.pend, ls ++ ms, fs ++ gs, ?_, List.rel_append hfs hgs, ?_,
    fun x hx => ?_⟩
  · rw [hms, hls, List.append_assoc]
  · rw [List.flatten_append]
    exact hsend.trans hsend'
  · rcases List.mem_append.mp hx with hx | hx
    · exact hall x hx
    · exact hall' x hx

/-- Nothing written. -/
theorem GuestLine.silent {d : ℕ} {s s' : Line} {c c' : Cpu} (hs : Silent c c')
    (hh : s'.host = s.host) (hi : s'.hostIn = s.hostIn) (hg : s'.guestIn = s.guestIn)
    (hb : s'.base = s.base) (hp : s'.pend = s.pend) (hq : s'.toHost = s.toHost) :
    GuestLine d s s' c c' := by
  refine ⟨hh, hi, hg, hb, hp, [], [], ?_, .nil, Sends.silent hs.out hs.replies,
    List.forall_mem_nil _⟩
  rw [hq, List.append_nil]

/-- Whether a letter makes the guest ask for a restart.  It does when it reports another checksum than the
one on record, which is the only reason; and a guest that has asked does not ask again. -/
inductive GuestAsks (sums : ℕ → ℕ → Option ℕ) (s s' : Line) (l : Post) : Prop where
  | no (toHost : s'.toHost = s.toHost)
      (asked : (s'.asked = s.asked ∧ s'.guest.epoch = s.guest.epoch) ∨
        (s.guest.epoch < s'.guest.epoch ∧ s'.asked = false))
      (agree : ∀ w w', l.body = .report w → l.epoch = s'.guest.epoch →
        sums l.epoch l.tick = some w' → w = w' ∨ s'.asked = true)
  | yes (toHost : s'.toHost = s.toHost ++ [⟨s.guest.epoch, s.guest.tick, .ask⟩])
      (epoch : s'.guest.epoch = s.guest.epoch) (asked : s'.asked = true) {w w' : ℕ}
      (body : l.body = .report w) (now : l.epoch = s.guest.epoch)
      (known : sums l.epoch l.tick = some w') (differs : w ≠ w')

/-- What is known after the guest has handled the frame of a letter. -/
structure GuestReads (d : ℕ) (sums : ℕ → ℕ → Option ℕ) (s : Line) (c : Cpu) (l : Post)
    (q : List Post) (s' : Line) : Prop where
  guest : AtGuest d sums s' (SES_ONFRAME c)
  toGuest : s'.toGuest = q
  moved : GuestMoved d s s' (Rebases c)
  line : GuestLine d s s' c (SES_ONFRAME c)
  fresh : ∀ v, l.body = .input v → (StoresInput c ↔ l.epoch = s.guest.epoch)
  asks : GuestAsks sums s s' l

namespace AtGuest

variable {d : ℕ} {sums : ℕ → ℕ → Option ℕ} {s : Line} {c c' : Cpu} {q : List Post}

/-- Whatever leaves the cells of the line alone leaves the guest at its node. -/
theorem congr (h : AtGuest d sums s c) (heq : ∀ a ∈ LineCells, c'.cell a = c.cell a) :
    AtGuest d sums s c' := by
  have hflag : ∀ {a}, a = RESYNC_HOLD ∨ a = RS_R_LO ∨ a = RS_R_HI ∨ a = RS_PEND →
      c'.cell a = c.cell a := fun ha => heq _ (Or.inr ha)
  refine { h with
    node := ?_, records := ?_, held := fun r hr => ?_, free := fun hn => ?_, asked := ?_ }
  · exact h.node.congr (by omega) fun a ha => heq a (sync_line ha)
  · exact h.records.congr (fun a ha => heq a (record_line ha)) id
  · unfold word
    rw [hflag (a := RESYNC_HOLD) (by simp), hflag (a := RS_R_LO) (by simp),
      hflag (a := RS_R_HI) (by simp)]
    exact h.held r hr
  · rw [hflag (by simp)]
    exact h.free hn
  · rw [hflag (a := RS_PEND) (by simp)]
    exact h.asked

/-- Without a restart there is none to be in. -/
theorem not_held {o : Option ℕ} (h : o = none) {P : ℕ → Prop} : ∀ r, o = some r → P r := by
  intro r hr
  rw [h] at hr
  cases hr

/-- An input. -/
theorem reads_input (h : AtGuest d sums s c) (hd : 1 ≤ d) {e t : ℕ} {v : ℕ × ℕ}
    (hq : s.toGuest = ⟨e, t, .input v⟩ :: q)
    (hc : Carries c [6, FT_INPUT, 0, (t + d) % 65536 % 256, (t + d) % 65536 / 256, v.1, v.2]) :
    GuestReads d sums s c ⟨e, t, .input v⟩ q (s.guestInput q) := by
  obtain ⟨hinv, hnone, hepoch, htop, hv⟩ := h.inv.guestInput hq rfl
  simp only at hepoch htop
  have hcell : ∀ i < 7, c.cell (FRMBUF + i) =
      [6, FT_INPUT, 0, (t + d) % 65536 % 256, (t + d) % 65536 / 256, v.1, v.2].getD i 0 :=
    fun i hi => hc.cell hi
  have hlen : c.cell FRMBUF = 6 := hcell 0 (by omega)
  have hty : c.cell (FRMBUF + 1) = FT_INPUT := hcell 1 (by omega)
  have hseat : c.cell (FRMBUF + 2) = 0 := hcell 2 (by omega)
  have htick : inputTick c = (t + d) % 65536 := by
    unfold inputTick word
    rw [hcell 3 (by omega), hcell 4 (by omega)]
    simp only [List.getD_cons_succ, List.getD_cons_zero]
    omega
  have hahead : inputAhead c = sub16 ((t + d) % 65536) ((s.guest.mark + 65535) % 65536) := by
    have hwm := h.node.mark
    have heq : inputAhead c = sub16 (inputTick c) (seatWm c (c.cell (FRMBUF + 2))) := rfl
    rw [heq, htick, hseat]
    exact congrArg (sub16 _) hwm
  have heq : SES_ONFRAME c = of_input c := SES_ONFRAME_input hty
  have hstays : ¬ Rebases c := by
    intro hr
    rw [hr.1] at hty
    cases hty
  have hown := h.node.mine
  have hcount := h.node.count
  have hacc : inputAccepted c := by
    refine ⟨by omega, by omega, by omega, ?_, ?_⟩ <;> rw [hahead] <;> unfold sub16 <;> omega
  have hin := of_input_stored hacc (by omega)
  rw [hseat, htick, htop] at hin
  have hframe : ∀ a ∈ LineCells, a ∉ SyncCells → (of_input c).cell a = c.cell a := by
    intro a ha hns
    refine (frame_of_input c fun _ => by omega).cell_eq ?_
    rintro (hx | hx)
    · exact hns (Or.inr hx)
    · exact hns (Or.inl (Or.inr hx))
  have hmark := h.inv.guestMark
  have hnode := h.node.store (by omega) (by omega) hin
    (by rw [hv, hcell 5 (by omega), hcell 6 (by omega)]; rfl) h.node.peerRing
  have hkeep : ∀ {a}, a = RESYNC_HOLD ∨ a = RS_PEND → (of_input c).cell a = c.cell a := by
    intro a ha
    refine hframe a (Or.inr ?_) (flag_not_sync ha)
    rcases ha with rfl | rfl <;> simp
  refine ⟨?_, rfl,
    .on hstays rfl rfl rfl rfl ⟨Nat.le_succ _, Nat.le_refl _⟩, ?_,
    fun _ _ => ⟨fun _ => hepoch, fun _ => ⟨hty, hacc⟩⟩, .no rfl (Or.inl ⟨rfl, rfl⟩) (fun w w' hb => by cases hb)⟩
  · rw [heq]
    refine ⟨hinv, h.requests.congr rfl rfl rfl rfl rfl, h.running, hnode, ?_, h.past, not_held hnone,
      fun _ => ?_, ?_⟩
    · refine h.records.congr (fun a ha => hframe a (record_line ha) fun hs => ?_) fun _ => hnone
      have := sync_cases hs
      have h3 : 0x8C00 ≤ a := ha.1
      omega
    · rw [hkeep (Or.inl rfl)]
      exact h.free hnone
    · rw [hkeep (a := RS_PEND) (Or.inr rfl)]
      exact h.asked
  · rw [heq]
    exact .silent (silent_of_input c) rfl rfl rfl rfl rfl rfl

/-- A report whose tick is on record is for that tick. -/
theorem recorded_tick (h : AtGuest d sums s c) (hd : d ≤ 127) {t u : ℕ} (hmark : t + d + 1 = s.guest.mark)
    (hlt : u < s.guest.tick) (hlap : s.guest.tick ≤ u + 256) (hlo : u % 256 = t % 65536 % 256)
    (hhi : u / 256 % 256 = t % 65536 / 256) : u = t := by
  have hread := h.inv.guestRead
  have hfair := h.inv.fairNow h.running
  have htop := h.inv.hostTop
  have hsent := Bool.toNat_le s.host.sent
  have hhread := h.inv.hostRead
  have hended := Bool.toNat_le s.host.ended
  rw [h.running, Bool.toNat_false] at hread
  rcases h.inv.epochs with ⟨he, hle⟩ | ⟨hlt', hle⟩
  · have hnear := hfair.near he
    omega
  · have hbegun := (hfair.begun hlt').2
    omega

/-- A report. -/
theorem reads_report (h : AtGuest d sums s c) (hd : d ≤ 127) {e t w : ℕ}
    (hq : s.toGuest = ⟨e, t, .report w⟩ :: q) (h64 : t % 64 = 0)
    (hc : Carries c [6, FT_CRC, 0, t % 65536 % 256, t % 65536 / 256, w % 256, w / 256]) :
    ∃ s', GuestReads d sums s c ⟨e, t, .report w⟩ q s' := by
  obtain ⟨hepoch, hmark, hnone⟩ := h.inv.of_report hq rfl
  simp only at hepoch hmark
  have hrep := hasReport hc
  have hlo := hrep.lo
  have hhi := hrep.hi
  have hcrc := crcHandled c
  have hkeep : ∀ a ∈ LineCells, a ≠ RS_PEND → (RS_ON_CRC c).cell a = c.cell a :=
    fun a => alarm_kept c
  generalize heq : RS_ON_CRC c = c' at hcrc hkeep
  have hhandler := hrep.handler.trans heq
  cases hcrc with
  | ignored =>
    refine ⟨s.guestTake s.hold q, ?_, rfl,
      .on hrep.stays rfl rfl rfl rfl ⟨Nat.le_refl _, Nat.le_succ _⟩, ?_,
      (fun v hb => by cases hb), .no rfl (Or.inl ⟨rfl, rfl⟩) fun w₁ w₂ hw _ hs => ?_⟩
    · rw [hhandler]
      exact ⟨h.inv.guestSkip hq (Or.inl ⟨w, rfl⟩), h.requests.congr rfl rfl rfl rfl rfl, h.running,
        h.node, h.records, h.past, h.held, h.free, h.asked⟩
    · rw [hhandler]
      exact .silent (.refl c) rfl rfl rfl rfl rfl rfl
    · cases hw
      cases hask : s.asked with
      | true => exact Or.inr hask
      | false =>
        -- nothing holds the report back, so the checksum is the same
        have hread := h.inv.guestRead
        have hflag := h.asked
        rw [h.running, Bool.toNat_false] at hread
        rw [hask] at hflag
        simp only [hepoch] at hs
        exact Or.inl (h.records.agree hnone hs (by omega) hrep.length hlo hhi hrep.wlo hrep.whi
          (h.free hnone) (not_not.mp (of_decide_eq_false hflag.symm)) heq)
  | alarm hold pend hflo hfhi differs _ hset host guest =>
    rw [hlo] at hflo hfhi differs
    obtain ⟨u, w', hu1, hu2, hu3, hu4, hsum, hu5, hu6, hu7⟩ :=
      h.records.found (by omega) (by omega) hflo
    rw [hhi, hu5] at hfhi
    have htick := h.recorded_tick hd hmark hu2 hu3 hu4 hfhi
    subst htick
    have hunasked : s.asked = false := by
      rw [h.asked, pend]
      rfl
    have hknown : sums e u = some w' := by
      rw [hepoch]
      exact hsum
    refine ⟨s.guestAsk q, ?_, rfl,
      .on hrep.stays rfl rfl rfl rfl ⟨Nat.le_refl _, Nat.le_succ _⟩, ?_,
      (fun v hb => by cases hb), .yes rfl rfl rfl rfl hepoch hknown ?_⟩
    · rw [hhandler]
      refine ⟨h.inv.guestAsk hq rfl h.running, h.requests.asked hunasked q, h.running,
        h.node.congr (by omega) fun a ha => hkeep a (sync_line ha) ?_,
        h.records.congr (fun a ha => hkeep a (record_line ha) ?_) fun _ => hnone, h.past,
        not_held hnone, fun _ => ?_, (decide_eq_true hset).symm⟩
      · rintro rfl
        exact flag_not_sync (Or.inr rfl) ha
      · rintro rfl
        exact flag_not_record (Or.inr rfl) ha
      · rw [hkeep _ (Or.inr (by simp)) (by decide)]
        exact hold
    · rw [hhandler]
      refine ⟨rfl, rfl, rfl, rfl, rfl, [⟨s.guest.epoch, s.guest.tick, .ask⟩],
        [[3, FT_RESYNC, c.cell (FRMBUF + 3), c.cell (FRMBUF + 4)]], rfl,
        .cons (.ask _ _ _ _ rfl) .nil, ?_, fun x hx => by rw [List.mem_singleton.mp hx]⟩
      rw [List.flatten_singleton]
      exact guest (by rw [h.node.mine]; decide)
    · rintro rfl
      exact differs ⟨hu6.trans hrep.wlo.symm, hu7.trans hrep.whi.symm⟩

/-- A frame of a push that does not end it. -/
theorem state_on (h : AtGuest d sums s c) (hty : c.cell (FRMBUF + 1) = FT_STATE)
    (hr : ¬ Rebases c) {hold : Option ℕ} (hinv : Inv d 16 (s.guestTake hold q)) (l : Post)
    (hl : ∀ w, l.body ≠ .report w) (hin : ∀ v, l.body ≠ .input v)
    (hsync : ∀ a ∈ LineCells, a ∉ BeginArea → (RS_ON_STATE c).cell a = c.cell a)
    (hrec : Records (hold = none) (s.base s.guest.epoch) s.guest.tick (sums s.guest.epoch)
      (RS_ON_STATE c))
    (hheld : ∀ r, hold = some r → (RS_ON_STATE c).cell RESYNC_HOLD ≠ 0 ∧
      word (RS_ON_STATE c) RS_R_LO RS_R_HI = r % 65536)
    (hfree : hold = none → (RS_ON_STATE c).cell RESYNC_HOLD = 0) :
    GuestReads d sums s c l q (s.guestTake hold q) := by
  have heq := SES_ONFRAME_state hty
  have hpend : (RS_ON_STATE c).cell RS_PEND = c.cell RS_PEND :=
    hsync _ (Or.inr (by simp)) (by simp [BeginArea, CrcRecords])
  refine ⟨?_, rfl,
    .on hr rfl rfl rfl rfl ⟨Nat.le_refl _, Nat.le_succ _⟩, ?_, fun v hv => absurd hv (hin v),
    .no rfl (Or.inl ⟨rfl, rfl⟩) fun w _ hw => absurd hw (hl w)⟩
  · rw [heq]
    refine ⟨hinv, h.requests.congr rfl rfl rfl rfl rfl, h.running,
      h.node.congr (by omega) fun a ha => hsync a (sync_line ha) ?_, hrec, h.past, hheld, hfree, ?_⟩
    · exact fun hb => sync_not_state ha (Or.inl (Or.inl hb))
    · rw [hpend]
      exact h.asked
  · rw [heq]
    exact .silent (silent_RS_ON_STATE c) rfl rfl rfl rfl rfl rfl

/-- BEGIN. -/
theorem reads_opening (h : AtGuest d sums s c) {e t r : ℕ} {H : Cpu} (hr : pushTick H = r % 65536)
    (hq : s.toGuest = ⟨e, t, .opening r⟩ :: q) (hc : Carries c (beginFrame H)) :
    GuestReads d sums s c ⟨e, t, .opening r⟩ q (s.guestTake (some r) q) := by
  obtain ⟨hrec, hframe⟩ := receiving_begin hc
  have hcell : ∀ i < 6, c.cell (FRMBUF + i) = (beginFrame H).getD i 0 := fun i hi => hc.cell hi
  have hty : c.cell (FRMBUF + 1) = FT_STATE := hcell 1 (by omega)
  have hsub : c.cell (FRMBUF + 2) = 0 := hcell 2 (by omega)
  refine h.state_on hty (fun hreb => ?_) (h.inv.guestOpening hq rfl) _ (fun w hw => by cases hw)
    (fun v hv => by cases hv) (fun a _ hb => hframe.cell_eq hb)
    (records_blank (begin_records hc) h.records.range (fun hn => by cases hn)) (fun r' hr' => ?_)
    (fun hn => by cases hn)
  · have := hreb.2.2.2.1
    omega
  · cases hr'
    refine ⟨hrec.hold, ?_⟩
    unfold word
    rw [hrec.tick_lo, hrec.tick_hi, hr]
    omega

/-- A chunk. -/
theorem reads_part (h : AtGuest d sums s c) {e t p : ℕ} {H : Cpu} (hp : p < IMG_TOTAL)
    (hq : s.toGuest = ⟨e, t, .part⟩ :: q) (hc : Carries c (chunkFrame H p)) :
    GuestReads d sums s c ⟨e, t, .part⟩ q (s.guestTake s.hold q) := by
  have hhold : ∃ r, s.hold = some r := h.inv.of_part hq rfl
  obtain ⟨r, hr⟩ := hhold
  obtain ⟨hflag, -⟩ := h.held r hr
  obtain ⟨m, hm⟩ := chunkHandled hflag hp hc
  have hframe := hm.frame_state hp
  have hpos := (chunkLen_le (Nat.le_of_lt hp)).2
  have hcell : ∀ i < 4, c.cell (FRMBUF + i) = (chunkFrame H p).getD i 0 := fun i hi =>
    hc.cell (by rw [length_chunkFrame]; omega)
  have hty : c.cell (FRMBUF + 1) = FT_STATE := hcell 1 (by omega)
  have hhi : c.cell (FRMBUF + 3) = p / 256 := hcell 3 (by omega)
  have hkeep : ∀ a ∈ LineCells, (RS_ON_STATE c).cell a = c.cell a := fun a ha =>
    hframe.cell_eq (line_not_apply ha)
  refine h.state_on hty (fun hreb => ?_) (h.inv.guestSkip hq (Or.inr rfl)) _
    (fun w hw => by cases hw) (fun v hv => by cases hv) (fun a ha _ => hkeep a ha)
    (h.records.congr (fun a ha => hkeep a (record_line ha)) id) (fun r' hr' => ?_) (fun hn => ?_)
  · have := hreb.2.2.1
    simp only [IMG_TOTAL] at hp
    omega
  · unfold word
    rw [hkeep _ (Or.inr (by simp)), hkeep RS_R_LO (Or.inr (by simp)),
      hkeep RS_R_HI (Or.inr (by simp))]
    exact h.held r' hr'
  · rw [hr] at hn
    cases hn

/-- END, after which the guest is at the new baseline. -/
theorem reads_closing (h : AtGuest d sums s c) (hd : 1 ≤ d) {e t r : ℕ}
    (hq : s.toGuest = ⟨e, t, .closing r⟩ :: q) (hc : Carries c endFrame) :
    GuestReads d sums s c ⟨e, t, .closing r⟩ q (s.guestRestart d r q) := by
  obtain ⟨hinv, hhold, hbase⟩ := h.inv.guestRestart hq rfl h.running
  obtain ⟨hflag, hword⟩ := h.held r hhold
  have hcell : ∀ i < 4, c.cell (FRMBUF + i) = endFrame.getD i 0 := fun i hi => hc.cell hi
  have hty : c.cell (FRMBUF + 1) = FT_STATE := hcell 1 (by omega)
  have hreb : Rebases c := by
    refine ⟨hty, ?_, hcell 3 (by omega), hcell 2 (by omega), hflag⟩
    rw [show c.cell FRMBUF = 3 from hcell 0 (by omega)]
  have heq : SES_ONFRAME c = RS_REBASE c := (SES_ONFRAME_state hty).trans (state_end hflag hc)
  have hr := rebased c
  have hkeep : ∀ a, a = NET_SEAT ∨ a = NET_COUNT ∨ a = NET_ACTIVE ∨ a = NET_DELAY →
      (RS_REBASE c).cell a = c.cell a := by
    intro a ha
    refine hr.frame.cell_eq ?_
    rcases ha with rfl | rfl | rfl | rfl <;>
      simp [RebaseArea, DisplayArea, ResyncVars, RingPages, Watermarks, CrcRecords]
  have hgnew := h.inv.guestNew
  have hhnew := h.inv.hostNew
  have hnew : ∀ u, sums (s.guest.epoch + 1) u = none := by
    intro u
    by_contra hne
    have := h.past _ u hne
    omega
  refine ⟨?_, rfl, .restarted hreb rfl hbase.symm rfl rfl, ?_, (fun v hb => by cases hb),
    .no rfl (Or.inr ⟨Nat.lt_succ_self _, rfl⟩) (fun w w' hb => by cases hb)⟩
  · rw [heq]
    refine ⟨hinv, h.requests.followed h.inv r q, h.running, ?_,
      records_blank hr.records (fun u hu => absurd (hnew u) hu) fun _ => hnew,
      fun e u hu => Nat.le_succ_of_le (h.past e u hu), not_held rfl, fun _ => hr.hold, ?_⟩
    rotate_left
    · rw [hr.pend]
      rfl
    refine atNode_idle (by omega) ?_ ?_ ?_ ?_ hr.rings ?_ ?_ _ _ _ (fun k _ => ?_) (fun k hk => ?_)
      (by omega)
    · rw [hkeep _ (by simp)]
      exact h.node.mine
    · rw [hkeep _ (by simp)]
      exact h.node.count
    · rw [hkeep _ (by simp)]
      exact h.node.active
    · rw [hkeep _ (by simp)]
      exact h.node.delay
    · rw [hr.tick, hword]
    · rw [hr.watermark _ (by omega), hword, h.node.delay]
      omega
    · by_contra hne
      have := (hgnew _ _ hne).1
      simp only [Sys.guestRestart] at this
      omega
    · by_contra hne
      have := (hhnew _ _ hne).2
      simp only [Sys.guestRestart] at this
      omega
  · rw [heq]
    exact .silent ⟨hr.out, hr.replies⟩ rfl rfl rfl rfl rfl rfl

/-- Whatever the host writes. -/
theorem reads (h : AtGuest d sums s c) (hd : 1 ≤ d ∧ d ≤ 127) {l : Post} {f : List ℕ}
    (hq : s.toGuest = l :: q) (hl : Spells d 0 l f) (hc : Carries c f) :
    ∃ s', GuestReads d sums s c l q s' := by
  cases hl with
  | input e t v => exact ⟨_, h.reads_input hd.1 hq hc⟩
  | report e t w ht => exact h.reads_report hd.2 hq ht hc
  | ask _ _ _ _ hs => cases hs
  | opening e t r H hs hr => exact ⟨_, h.reads_opening hr hq hc⟩
  | part e t H p hs hp => exact ⟨_, h.reads_part hp hq hc⟩
  | closing e t r hs => exact ⟨_, h.reads_closing hd.1 hq hc⟩

end AtGuest

/-! ### A pump of the guest -/

section Pump

variable {d : ℕ} {sums : ℕ → ℕ → Option ℕ} {s s' : Line} {c c' : Cpu}

/-- What the host does leaves the guest at its node. -/
theorem AtGuest.other (h : AtGuest d sums s c) (hi : Inv d 16 s') (hr : Requests s')
    (hg : s'.guest = s.guest) (ho : s'.guestIn = s.guestIn)
    (hb : s'.base s.guest.epoch = s.base s.guest.epoch) (hhold : s'.hold = s.hold)
    (ha : s'.asked = s.asked)
    (hin : ∀ k ≤ s.guest.mark - 1, s'.hostIn s.guest.epoch k = s.hostIn s.guest.epoch k) :
    AtGuest d sums s' c := by
  refine ⟨hi, hr, ?_, ?_, ?_, ?_, ?_, ?_, ?_⟩
  · rw [hg]
    exact h.running
  · rw [hg, ho]
    exact h.node.same rfl rfl rfl (fun _ _ => rfl) hin
  · rw [hg, hb, hhold]
    exact h.records
  · rw [hg]
    exact h.past
  · rw [hhold]
    exact h.held
  · rw [hhold]
    exact h.free
  · rw [ha]
    exact h.asked

/-- What every letter keeps, all the letters of a pump keep. -/
theorem AtGuest.handles {Q : Seen → Line → Prop} (hd : 1 ≤ d ∧ d ≤ 127)
    (hstep : ∀ {s s' : Line} {v : Seen} {x : Cpu} {l : Post} {q : List Post}, s.toGuest = l :: q →
      (x.cell (FRMBUF + 1) = FT_INPUT ↔ ∃ w, l.body = .input w) → AtGuest d sums s x →
        GuestReads d sums s x l q s' → Q v s → Q (v.note x) s')
    {ds : List Cpu} (hh : Handles SES_ONFRAME c ds c') {read rest : List Post} {v : Seen}
    (h : AtGuest d sums s c) (hq : s.toGuest = read ++ rest)
    (hf : ∃ fs, List.Forall₂ (Spells d 0) read fs ∧ List.Forall₂ Carries ds fs) (hv : Q v s) :
    ∃ s', AtGuest d sums s' c' ∧ s'.toGuest = rest ∧ GuestLine d s s' c c' ∧
      Q (ds.foldl Seen.note v) s' := by
  obtain ⟨fs, hfs, hcs⟩ := hf
  induction hh generalizing s read fs v with
  | done hm =>
    cases hcs
    cases hfs
    exact ⟨s, h.congr fun a ha => hm.frame.cell_eq (line_not_pump ha), hq,
      .silent hm.silent rfl rfl rfl rfl rfl rfl, hv⟩
  | hand hm _ ih =>
    cases hcs with
    | cons hcar hcs =>
      cases hfs with
      | cons hl hfs =>
        have hx := h.congr fun a ha => hm.frame.cell_eq (line_not_pump ha)
        obtain ⟨s₁, hr⟩ := hx.reads hd hq hl hcar
        obtain ⟨s', hat, hrest, hline, hQ⟩ := ih hr.guest hr.toGuest
          (hstep hq (hl.isInput hcar) hx hr hv) _ hfs hcs
        have hmove : GuestLine d s s _ _ := .silent hm.silent rfl rfl rfl rfl rfl rfl
        exact ⟨s', hat, hrest, hmove.trans (hr.line.trans hline), hQ⟩

end Pump

end BoxingNetplay.Analysis
