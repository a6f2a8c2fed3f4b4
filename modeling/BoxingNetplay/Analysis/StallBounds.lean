import BoxingNetplay.Analysis.LocalInput
import BoxingNetplay.Analysis.MatchFrames
import BoxingNetplay.Library.Countdown

/-!
# Stalls end

A console waits in two places: at the shut gate, inside one call of `LS_PASS`, and in the resync
hold, once a pass.  Each wait counts its rounds in two byte cells and gives the match up when the
high byte reaches its n.  A re-baseline restarts the first count and a BEGIN the second.
-/

set_option autoImplicit false

namespace BoxingNetplay.Analysis.StallBounds

open BoxingNetplay.Library
open BoxingNetplay.Model
open BoxingNetplay.Interface
open BoxingNetplay.Analysis.MatchFrames

/-! ### Matches -/

/-- The states a console reaches in a match, whatever else its polls deliver.
SOURCE: lockstep.asm:8-380, hook.asm:9-41 -/
inductive InMatch : Console → Prop where
  | start (c : Cpu) (h : SeatsKept c) : InMatch ⟨c, .pass⟩
  | step {k : Console} (h : InMatch k) (o : Outside) (hs : ∀ d ∈ dispatched k o, RelayStart d) :
      InMatch (k.step o)

/-- The frames of a step that make the console re-baseline. -/
def rebaselines (k : Console) (o : Outside) : ℕ := (dispatched k o).countP fun d => decide (Rebases d)

/-- Its BEGIN frames. -/
def begins (k : Console) (o : Outside) : ℕ := (dispatched k o).countP isBegin

/-- The calls of `SES_PUMP` in a step. -/
def pumps (k : Console) : ℕ := if (pumping k).isSome then 1 else 0

/-- A call of `LS_PASS` is still on its way to the tick.
SOURCE: lockstep.asm:8-246 -/
def Waiting (p : Phase) : Prop := p = .pass ∨ p = .due ∨ p = .gate

/-- A pass takes the path of the resync hold.
SOURCE: lockstep.asm:8-19 -/
structure Holds (k : Console) : Prop where
  phase : k.phase = .pass
  screen : k.cpu.cell PEER_SCR = 0
  dropped : k.cpu.cell NET_DROPPED = 0
  hold : k.cpu.cell RESYNC_HOLD ≠ 0

/-- A match keeps its seats. -/
theorem InMatch.seats {k : Console} (h : InMatch k) : SeatsKept k.cpu := by
  induction h with
  | start _ h => exact h
  | step _ o hs ih => exact seats_step ih o hs

/-! ### The wait counters -/

/-- The rounds the gate has left.
SOURCE: lockstep.asm:231-246 -/
def gateLeft (c : Cpu) : ℕ := roundsLeft (LS_TIMEOUT / 256) (c.cell LS_WAITC_LO) (c.cell LS_WAITC_HI)

/-- A gate never has more than 768 rounds left. -/
theorem gateLeft_le (c : Cpu) : gateLeft c ≤ 768 := roundsLeft_le (by decide)

theorem gateLeft_pos (c : Cpu) : 0 < gateLeft c :=
  roundsLeft_pos (by decide) (c.cell_lt_cart (by decide) (by decide))

/-- What the counters are made of, and the flag of the hold. -/
def CountCells : Set ℕ :=
  {a | a = LS_WAITC_LO ∨ a = LS_WAITC_HI ∨ a = RS_TO_LO ∨ a = RS_TO_HI ∨ a = RESYNC_HOLD}

theorem count_cases {a : ℕ} (h : a ∈ CountCells) :
    a = 0x816C ∨ a = 0x816D ∨ a = 0x8093 ∨ a = 0x8094 ∨ a = 0x8090 := h

theorem gateLeft_congr {c c' : Cpu} (h : ∀ a, a = LS_WAITC_LO ∨ a = LS_WAITC_HI → c'.cell a = c.cell a) :
    gateLeft c' = gateLeft c := by
  unfold gateLeft
  rw [h _ (Or.inl rfl), h _ (Or.inr rfl)]

/-- One round of a wait in the cells `l` and `h`. -/
def countRound (c : Cpu) (l h n : ℕ) (give : Cpu → Cpu) : Cpu :=
  let lo := c.cell l + 1
  let c := c.sto l lo
  if lo ≠ 0x100 then c
  else
    let hi := c.cell h + 1
    let c := c.sto h hi
    if hi < n then c else give c

/-- The two waits are instances. -/
theorem stallTail_eq (c : Cpu) : stallTail c =
    countRound c LS_WAITC_LO LS_WAITC_HI (LS_TIMEOUT / 256) fun c => LS_IDLE_RMT (giveUp c) := rfl

theorem holdTail_eq (c : Cpu) : holdTail c = countRound c RS_TO_LO RS_TO_HI (RS_HOLD_TMO / 256)
    fun c => LS_IDLE_RMT ((giveUp c).sto RESYNC_HOLD 0) := rfl

/-- A round has one less left after it, or gives up. -/
theorem countRound_cases (c : Cpu) {l h n : ℕ} (give : Cpu → Cpu) (hl : cellWidth l = 8)
    (hh : cellWidth h = 8) (hne : l ≠ h) (hpos : 0 < n) (hlim : n ≤ 256) :
    (∃ d, countRound c l h n give = give d) ∨
      Frame {a | a = l ∨ a = h} c (countRound c l h n give) ∧
        roundsLeft n ((countRound c l h n give).cell l)
          ((countRound c l h n give).cell h) + 1 = roundsLeft n (c.cell l) (c.cell h) := by
  have hlo : c.cell l < 256 := c.mem.cell_lt l 8 hl
  unfold countRound
  extract_lets lo c1 hi c2
  have h1 : Frame {a | a = l ∨ a = h} c c1 := (Frame.refl _ c).sto (Or.inl rfl)
  by_cases hcarry : lo ≠ 0x100
  · have hnext : lo < 256 := lt_of_le_of_ne hlo hcarry
    rw [if_pos hcarry]
    apply Or.inr
    apply And.intro h1
    have hcl : c1.cell l = c.cell l + 1 := by
      simp only [c1, Cpu.sto_cell, if_true, hl]
      exact Nat.mod_eq_of_lt hnext
    have hch : c1.cell h = c.cell h := by simp only [c1, Cpu.sto_cell, if_neg hne.symm]
    rw [hcl, hch]
    exact roundsLeft_low hpos hnext
  · have hfull : c.cell l = 255 := by
      have : c.cell l + 1 = 0x100 := not_not.mp hcarry
      omega
    have hhi : hi = c.cell h + 1 := by
      simp only [hi, c1, Cpu.sto_cell, if_neg hne.symm]
    rw [if_neg hcarry]
    by_cases hmore : hi < n
    · rw [if_pos hmore]
      apply Or.inr
      apply And.intro (h1.sto (Or.inr rfl))
      have hcl : c2.cell l = 0 := by
        simp only [c2, c1, Cpu.sto_cell, if_neg hne, if_true, hl, lo, hfull]
        rfl
      have hch : c2.cell h = c.cell h + 1 := by
        simp only [c2, Cpu.sto_cell, if_true, hh, hhi]
        exact Nat.mod_eq_of_lt (by omega)
      rw [hcl, hch, hfull]
      exact roundsLeft_carry (hhi ▸ hmore)
    · rw [if_neg hmore]
      exact Or.inl ⟨c2, rfl⟩

/-- Giving up sets the flag that ends the match. -/
theorem dropped_idle {c : Cpu} (h : c.cell NET_DROPPED ≠ 0) : (LS_IDLE_RMT c).cell NET_DROPPED ≠ 0 := by
  rw [(frame_LS_IDLE_RMT c).cell_eq]
  · exact h
  · rintro (ha | ha) <;> simp [RingPages, Watermarks] at ha

/-- The end of a round of the gate. -/
theorem stallTail_cases (c : Cpu) :
    (stallTail c).cell NET_DROPPED ≠ 0 ∨ gateLeft (stallTail c) + 1 = gateLeft c := by
  rw [stallTail_eq]
  rcases countRound_cases c (fun c => LS_IDLE_RMT (giveUp c)) (l := LS_WAITC_LO) (h := LS_WAITC_HI)
    (n := LS_TIMEOUT / 256) rfl rfl (by decide) (by decide) (by decide) with ⟨d, hd⟩ | ⟨-, hcount⟩
  · apply Or.inl
    rw [hd]
    apply dropped_idle
    simp [giveUp, cellWidth]
  · exact Or.inr hcount

/-- No frame but one that re-baselines restarts the gate's count, and no frame but a BEGIN the hold's. -/
theorem frame_counts {d : Cpu} (h : SeatsKept d) (hr : ¬ Rebases d) {a : ℕ} (ha : a ∈ CountCells)
    (hb : isBegin d = true → a ∉ BeginArea) : (SES_ONFRAME d).cell a = d.cell a := by
  apply (frame_handled h).cell_eq
  rintro ((((((hm | hm) | hm) | hm) | ⟨hbegin, hm⟩) | ⟨hrebase, -⟩) | ⟨-, hm | himg⟩)
  · rcases count_cases ha with rfl | rfl | rfl | rfl | rfl <;> simp at hm
  · rcases count_cases ha with rfl | rfl | rfl | rfl | rfl <;>
      simp [StartArea, Roster, RingPages, Watermarks, CrcRecords] at hm
  · rcases count_cases ha with rfl | rfl | rfl | rfl | rfl <;>
      simp [LeftArea, RingPages, Watermarks] at hm
  · rcases count_cases ha with rfl | rfl | rfl | rfl | rfl <;> simp [MailboxArea] at hm
  · exact hb hbegin hm
  · exact hr hrebase
  · rcases count_cases ha with rfl | rfl | rfl | rfl | rfl <;> simp at hm
  · have := image_cases himg
    have := count_cases ha
    omega

/-- The pump around its dispatches leaves the counters alone. -/
theorem count_not_pump {a : ℕ} (h : a ∈ CountCells) : a ∉ PumpArea := by
  rcases count_cases h with rfl | rfl | rfl | rfl | rfl <;> simp [PumpArea, MailboxArea, RingCells]

/-- A pump without a re-baseline leaves the gate what it had. -/
theorem gateLeft_pump {c c' : Cpu} {ds : List Cpu} (h : SeatsKept c) (hp : Handles SES_ONFRAME c ds c')
    (hs : ∀ d ∈ ds, RelayStart d) (hr : ∀ d ∈ ds, ¬ Rebases d) : gateLeft c' = gateLeft c := by
  suffices key : SeatsKept c' ∧ gateLeft c' = gateLeft c from key.2
  apply hp.preserves (P := fun x => SeatsKept x ∧ gateLeft x = gateLeft c) _ _ ⟨h, rfl⟩
  · rintro d d' hm ⟨hseats, heq⟩
    apply And.intro (seats_moves hm hseats)
    rw [← heq]
    apply gateLeft_congr
    intro a ha
    apply hm.frame.cell_eq
    apply count_not_pump
    rcases ha with rfl | rfl <;> simp [CountCells]
  · rintro d hd ⟨hseats, heq⟩
    apply And.intro (seats_frame hseats (hs d hd))
    rw [← heq]
    apply gateLeft_congr
    intro a ha
    apply frame_counts hseats (hr d hd)
    · rcases ha with rfl | rfl <;> simp [CountCells]
    · intro _
      rcases ha with rfl | rfl <;> simp [BeginArea, CrcRecords]

/-- Where no re-baseline is counted there is none. -/
theorem not_rebases_of_countP {ds : List Cpu} (h : ds.countP (fun d => decide (Rebases d)) = 0) :
    ∀ d ∈ ds, ¬ Rebases d := fun d hd hr => List.countP_eq_zero.mp h d hd (decide_eq_true hr)

/-- A shut gate: the match is not over, and its round counts, gives up, or restarted. -/
theorem gate_round {k : Console} {c : Cpu} (h : SeatsKept k.cpu) (hph : k.phase = .gate)
    (hp : pumping k = some c) (o : Outside) (hs : ∀ d ∈ dispatched k o, RelayStart d) :
    k.cpu.cell NET_DROPPED = 0 ∧ (k.step o).phase = .gate ∧
      ((k.step o).cpu.cell NET_DROPPED ≠ 0 ∨ gateLeft (k.step o).cpu + 1 = gateLeft k.cpu ∨
        0 < rebaselines k o ∧ gateLeft (k.step o).cpu + 1 ≤ 768) := by
  have hshut : gateOpen k.cpu = false ∧ c = freeze k.cpu := by
    unfold pumping at hp
    rw [hph] at hp
    simp only at hp
    split at hp
    · cases hp
    · rename_i ho
      exact ⟨by simpa using ho, (Option.some.inj hp).symm⟩
  have hopen : k.cpu.cell NET_DROPPED = 0 := by
    have hboth := hshut.1
    unfold gateOpen at hboth
    by_contra hd
    simp [hd] at hboth
  have hstep : k.step o = ⟨stallTail (SES_PUMP SES_ONFRAME c o.poll).cpu, .gate⟩ := by
    rw [step_afterPump hp o]
    unfold afterPump
    rw [hph]
  have hfroze : gateLeft (freeze k.cpu) = gateLeft k.cpu := by
    apply gateLeft_congr
    intro a ha
    unfold freeze
    split
    · rfl
    · rcases ha with rfl | rfl <;> simp
  rw [hstep]
  refine ⟨hopen, rfl, ?_⟩
  rw [dispatched_eq hp o] at hs
  rcases stallTail_cases (SES_PUMP SES_ONFRAME c o.poll).cpu with hd | hcount
  · exact Or.inl hd
  apply Or.inr
  rw [hcount]
  rcases Nat.eq_zero_or_pos (rebaselines k o) with hr | hr
  · apply Or.inl
    unfold rebaselines at hr
    rw [dispatched_eq hp o] at hr
    rw [gateLeft_pump (seats_pumping h hp) (handles_pump c o.poll) hs (not_rebases_of_countP hr),
      hshut.2, hfroze]
  · exact Or.inr ⟨hr, gateLeft_le _⟩

/-- What holds inside a call after `m` steps, `n` pumps and `r` re-baselines. -/
structure CallInv (k : Console) (m n r : ℕ) : Prop where
  pumped : n ≤ 1 + 768 * (r + 1)
  steps : m ≤ n + 2
  opening : k.phase = .pass → m = 0 ∧ n = 0
  sending : k.phase = .due → m ≤ n ∧ n ≤ 1
  waiting : k.phase = .gate → m ≤ n + 1 ∧
    (k.cpu.cell NET_DROPPED = 0 → n + gateLeft k.cpu ≤ 1 + 768 * (r + 1))

/-- Outside the three phases only the totals count. -/
theorem callInv_ended {k : Console} {m n r : ℕ} (hn : n ≤ 1 + 768 * (r + 1)) (hm : m ≤ n + 2)
    (hp : ¬ Waiting k.phase) : CallInv k m n r :=
  ⟨hn, hm, fun h => absurd (Or.inl h) hp, fun h => absurd (Or.inr (Or.inl h)) hp,
    fun h => absurd (Or.inr (Or.inr h)) hp⟩

/-- A step of a call keeps it. -/
theorem CallInv.step {k : Console} {m n r : ℕ} (inv : CallInv k m n r) (h : SeatsKept k.cpu)
    (hp : Waiting k.phase) (o : Outside) (hs : ∀ d ∈ dispatched k o, RelayStart d) :
    CallInv (k.step o) (m + 1) (n + pumps k) (r + rebaselines k o) := by
  have hpumps : pumps k ≤ 1 := by
    unfold pumps
    split <;> omega
  rcases hp with hph | hph | hph
  · obtain ⟨hm, hn⟩ := inv.opening hph
    have hstep := stepped k o
    generalize k.step o = k' at hstep ⊢
    have hended : ∀ {k'' : Console}, k''.phase = .native ∨ k''.phase = .parked →
        CallInv k'' (m + 1) (n + pumps k) (r + rebaselines k o) := by
      intro k'' hk
      apply callInv_ended (by omega) (by omega)
      rintro (hw | hw | hw) <;> rw [hw] at hk <;> rcases hk with hk | hk <;> cases hk
    cases hstep with
    | shown => exact hended (Or.inl rfl)
    | left => exact hended (Or.inr rfl)
    | hold => exact hended (Or.inl rfl)
    | pass _ _ _ hsome =>
      have hone : pumps k = 1 := by
        unfold pumps
        rw [hsome]
        rfl
      rw [hone]
      exact ⟨by omega, by omega, nofun, fun _ => ⟨by omega, by omega⟩, nofun⟩
    | due hq => cases hph.symm.trans hq
    | opened hq => cases hph.symm.trans hq
    | stall hq => cases hph.symm.trans hq
    | tick hq => cases hph.symm.trans hq
    | native hq => cases hph.symm.trans hq
    | scan hq => cases hph.symm.trans hq
    | parked hq => cases hph.symm.trans hq
  · obtain ⟨hm, hn⟩ := inv.sending hph
    have hstep : k.step o = ⟨captureSend k.cpu, .gate⟩ := by
      unfold Console.step
      rw [hph]
    have hleft := gateLeft_le (captureSend k.cpu)
    have hzero : pumps k = 0 := by
      unfold pumps
      rw [pumping_eq_none] <;> simp [hph]
    rw [hstep, hzero]
    exact ⟨by omega, by omega, nofun, nofun, fun _ => ⟨by omega, fun _ => by simp only; omega⟩⟩
  · obtain ⟨hm, hleft⟩ := inv.waiting hph
    have hn := inv.pumped
    cases hpump : pumping k with
    | none =>
      have hopen : gateOpen k.cpu = true := by
        unfold pumping at hpump
        rw [hph] at hpump
        simp only at hpump
        by_contra ho
        rw [if_neg ho] at hpump
        cases hpump
      have hstep : k.step o = ⟨k.cpu, .run⟩ := by
        unfold Console.step
        rw [hph]
        exact if_pos hopen
      have hzero : pumps k = 0 := by
        unfold pumps
        rw [hpump]
        rfl
      have hmore : r + 1 ≤ r + rebaselines k o + 1 := by omega
      rw [hstep, hzero]
      apply callInv_ended
      · exact hn.trans (Nat.add_le_add_left (Nat.mul_le_mul_left 768 hmore) 1)
      · omega
      · simp [Waiting]
    | some c =>
      have hone : pumps k = 1 := by
        unfold pumps
        rw [hpump]
        rfl
      obtain ⟨hdrop, hnext, hround⟩ := gate_round h hph hpump o hs
      have hbefore := hleft hdrop
      have hpos := gateLeft_pos k.cpu
      rw [hone]
      refine ⟨by omega, by omega, fun hq => ?_, fun hq => ?_, fun _ => ⟨by omega, fun hd => ?_⟩⟩
      · cases hnext.symm.trans hq
      · cases hnext.symm.trans hq
      · rcases hround with hgone | hcount | ⟨hr, hcount⟩
        · exact absurd hd hgone
        · omega
        · omega

/-- Seat 0 of two at tick 1, with no input of the other seat for it. -/
def unanswered : Console :=
  ⟨(((default : Cpu).sto NET_ACTIVE 1).sto NET_COUNT 2).sto TICK_LO 1, .pass⟩

/-- The same seat in a resync hold. -/
def held : Console := ⟨unanswered.cpu.sto RESYNC_HOLD 1, .pass⟩

end BoxingNetplay.Analysis.StallBounds
