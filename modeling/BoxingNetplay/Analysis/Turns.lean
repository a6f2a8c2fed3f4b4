import BoxingNetplay.Analysis.Letters

/-!
# What the turns of either seat have in common

The notes of an observer follow the node of its console (`Watches`).  A capture writes the letter of an
input, a tick may write a report, which then is on record, and nothing else a step does concerns the cells
of the line.
-/

set_option autoImplicit false

namespace BoxingNetplay.Analysis

open BoxingNetplay.Library
open BoxingNetplay.Library.Delay (Node Letter put)
open BoxingNetplay.Model
open BoxingNetplay.Interface
open BoxingNetplay.Analysis.KeyPairs (tickEnd)

/-! ### What an observer notes -/

/-- What the notes about a console have to do with its node, when `own` are the inputs of its seat and
`sums` its checksums, by epoch and tick. -/
structure Watches (d : ℕ) (v : Seen) (n : Node) (base : ℕ → ℕ) (own : ℕ → ℕ → Option (ℕ × ℕ))
    (sums : ℕ → ℕ → Option ℕ) : Prop where
  epoch : v.epoch = n.epoch
  age : base n.epoch + v.age = n.tick
  captured : ∀ e a, v.captured e a = own e (base e + a + d)
  summed : ∀ e a, v.summed e a = sums e (base e + a)
  past : ∀ e u, sums e u ≠ none → e ≤ n.epoch ∧ base e ≤ u
  first : n.epoch = 0 → ∀ k, d ≤ k → k < n.top → own 0 k ≠ none

namespace Watches

variable {d : ℕ} {v : Seen} {n n' : Node} {base base' : ℕ → ℕ} {own : ℕ → ℕ → Option (ℕ × ℕ)}
  {sums : ℕ → ℕ → Option ℕ}

/-- Reading moves neither the tick nor the top. -/
theorem read (h : Watches d v n base own sums) {x : Cpu} (hr : ¬ Rebases x)
    (he : n'.epoch = n.epoch) (ht : n'.tick = n.tick) (htop : n'.top = n.top) :
    Watches d (v.note x) n' base own sums ∧ (v.note x).played = v.played := by
  have hnote : v.note x = v.hear x := if_neg hr
  have hsame : (v.hear x).epoch = v.epoch ∧ (v.hear x).age = v.age ∧
      (v.hear x).captured = v.captured ∧ (v.hear x).summed = v.summed ∧
      (v.hear x).played = v.played := by
    unfold Seen.hear
    split <;> exact ⟨rfl, rfl, rfl, rfl, rfl⟩
  obtain ⟨h1, h2, h3, h4, h5⟩ := hsame
  rw [hnote]
  refine ⟨⟨?_, ?_, ?_, ?_, ?_, ?_⟩, h5⟩
  · rw [h1, he]
    exact h.epoch
  · rw [h2, he, ht]
    exact h.age
  · rw [h3]
    exact h.captured
  · rw [h4]
    exact h.summed
  · rw [he]
    exact h.past
  · rw [he, htop]
    exact h.first

/-- Capturing. -/
theorem capture (h : Watches d v n base own sums) (c : Cpu) (sent : Bool)
    (htop : n.epoch = 0 → n.top = n.tick + d) :
    Watches d (v.capture c) { n with top := n.tick + d + 1, sent := sent } base
      (put own n.epoch (n.tick + d) (controller c)) sums := by
  have hage := h.age
  refine ⟨h.epoch, hage, fun e a => ?_, h.summed, h.past, fun he k h1 h2 => ?_⟩
  · have hcap := h.captured e a
    change put v.captured v.epoch v.age (controller c) e a = _
    rw [h.epoch]
    by_cases heq : e = n.epoch ∧ a = v.age
    · obtain ⟨rfl, rfl⟩ := heq
      rw [Delay.put_self, hage, Delay.put_self]
    · rw [Delay.put_of_ne _ _ fun he => fun ha => heq ⟨he, ha⟩, hcap, Delay.put_of_ne]
      rintro rfl ha
      exact heq ⟨rfl, by omega⟩
  · simp only at he h2
    have hold := h.first he k h1
    rw [htop he] at hold
    rw [he]
    by_cases hk : k = n.tick + d
    · rw [hk, Delay.put_self]
      exact Option.some_ne_none _
    · rw [Delay.put_of_ne _ _ fun _ => hk]
      exact hold (by omega)

/-- A tick that does not report. -/
theorem tick (h : Watches d v n base own sums) (x : Cells × Cells) (sent ended : Bool) :
    Watches d { v with played := put v.played v.epoch v.age x, age := v.age + 1 }
      { n with tick := n.tick + 1, sent := sent, ended := ended } base own sums := by
  have hage := h.age
  refine ⟨h.epoch, ?_, h.captured, h.summed, h.past, h.first⟩
  simp only
  omega

/-- Reporting before it. -/
theorem report (h : Watches d v n base own sums) (w : ℕ) :
    Watches d { v with summed := put v.summed v.epoch v.age w } n base own
      (put sums n.epoch n.tick w) := by
  have hage := h.age
  refine ⟨h.epoch, hage, h.captured, fun e a => ?_, fun e u hne => ?_, h.first⟩
  · have hsum := h.summed e a
    simp only
    rw [h.epoch]
    by_cases heq : e = n.epoch ∧ a = v.age
    · obtain ⟨rfl, rfl⟩ := heq
      rw [Delay.put_self, hage, Delay.put_self]
    · rw [Delay.put_of_ne _ _ fun he => fun ha => heq ⟨he, ha⟩, hsum, Delay.put_of_ne]
      rintro rfl ha
      exact heq ⟨rfl, by omega⟩
  · by_cases heq : e = n.epoch ∧ u = n.tick
    · rw [heq.1, heq.2]
      exact ⟨Nat.le_refl _, by omega⟩
    · rw [Delay.put_of_ne _ _ fun he => fun hu => heq ⟨he, hu⟩] at hne
      exact h.past e u hne

/-- A tick, as it is noted. -/
theorem ran (h : Watches d v n base own sums) (g : Game) (c : Cpu) (sent ended : Bool) :
    (c.cell TICK_LO % 64 ≠ 0 → Watches d (v.ran g c)
      { n with tick := n.tick + 1, sent := sent, ended := ended } base own sums) ∧
    (c.cell TICK_LO % 64 = 0 → Watches d (v.ran g c)
      { n with tick := n.tick + 1, sent := sent, ended := ended } base own
      (put sums n.epoch n.tick (reportSum (reportMachine g c)))) := by
  constructor
  · intro h64
    have hran := h.tick (dispatchedCells g c) sent ended
    unfold Seen.ran
    rw [if_neg h64]
    exact hran
  · intro h64
    have hran := (h.report (reportSum (reportMachine g c))).tick (dispatchedCells g c) sent ended
    unfold Seen.ran
    rw [if_pos h64]
    exact hran

/-- Where later epochs begin does not matter. -/
theorem rebase (h : Watches d v n base own sums) (hb : ∀ e ≤ n.epoch, base' e = base e)
    (hown : ∀ e k, n.epoch < e → own e k = none) : Watches d v n base' own sums := by
  have hnone : ∀ e u, n.epoch < e → sums e u = none := by
    intro e u he
    by_contra hne
    have := (h.past e u hne).1
    omega
  refine ⟨h.epoch, ?_, fun e a => ?_, fun e a => ?_, fun e u hne => ?_, h.first⟩
  · rw [hb _ (Nat.le_refl _)]
    exact h.age
  · have hcap := h.captured e a
    by_cases he : e ≤ n.epoch
    · rw [hb e he]
      exact hcap
    · rw [hown e _ (by omega)] at hcap ⊢
      exact hcap
  · have hsum := h.summed e a
    by_cases he : e ≤ n.epoch
    · rw [hb e he]
      exact hsum
    · rw [hnone e _ (by omega)] at hsum ⊢
      exact hsum
  · have hpast := h.past e u hne
    rw [hb e hpast.1]
    exact hpast

/-- A new epoch. -/
theorem restart (h : Watches d v n base own sums) (he : n'.epoch = n.epoch + 1)
    (hr : base n'.epoch = n'.tick) :
    Watches d { v with epoch := v.epoch + 1, age := 0 } n' base own sums := by
  refine ⟨?_, hr, h.captured, h.summed, fun e u hne => ?_, fun h0 => ?_⟩
  · rw [h.epoch, he]
  · obtain ⟨hle, hb⟩ := h.past e u hne
    exact ⟨by omega, hb⟩
  · omega

end Watches

/-- The epoch of an input. -/
def inputEpoch (l : Post) : Option ℕ :=
  match l.body with
  | .input _ => some l.epoch
  | _ => none

/-- What is noted in a turn that reads the letters `read` and writes `ls`, of the inputs among them: those
of the epoch it is in are stored, and no others. -/
structure Noted (v v' : Seen) (ls read : List Post) : Prop where
  wrote : v'.wrote = v.wrote ++ ls.filterMap inputEpoch
  inputs : ∃ xs, v'.inputs = v.inputs ++ xs ∧ List.Forall₂
    (fun (x : ℕ × Bool) e => x.2 = true ↔ x.1 = e) xs (read.filterMap inputEpoch)

namespace Noted

variable {v v' v'' : Seen} {ls ls' read read' : List Post}

/-- A turn in which nothing is written or read. -/
theorem nil (hw : v'.wrote = v.wrote) (hi : v'.inputs = v.inputs) : Noted v v' [] [] :=
  ⟨hw.trans (List.append_nil _).symm, [], hi.trans (List.append_nil _).symm, .nil⟩

theorem trans (h : Noted v v' ls read) (h' : Noted v' v'' ls' read') :
    Noted v v'' (ls ++ ls') (read ++ read') := by
  obtain ⟨xs, hxs, hall⟩ := h.inputs
  obtain ⟨ys, hys, hall'⟩ := h'.inputs
  refine ⟨?_, xs ++ ys, ?_, ?_⟩
  · rw [h'.wrote, h.wrote, List.filterMap_append, List.append_assoc]
  · rw [hys, hxs, List.append_assoc]
  · rw [List.filterMap_append]
    exact List.rel_append hall hall'

/-- Letters that are no inputs are not noted. -/
theorem others (h : Noted v v' [] read) (hls : ∀ l ∈ ls, ∀ w, l.body ≠ .input w) :
    Noted v v' ls read := by
  have hnone : ls.filterMap inputEpoch = [] := by
    apply List.filterMap_eq_nil_iff.mpr
    intro l hl
    unfold inputEpoch
    cases hb : l.body with
    | input w => exact absurd hb (hls l hl w)
    | _ => rfl
  refine ⟨?_, h.inputs⟩
  rw [hnone]
  exact h.wrote

/-- A letter that is read. -/
theorem one {x : Cpu} {l : Post} (hty : x.cell (FRMBUF + 1) = FT_INPUT ↔ ∃ w, l.body = .input w)
    (hf : ∀ w, l.body = .input w → (StoresInput x ↔ l.epoch = v.epoch)) : Noted v (v.note x) [] [l] := by
  by_cases hin : x.cell (FRMBUF + 1) = FT_INPUT
  · obtain ⟨w, hw⟩ := hty.mp hin
    have hstays : ¬ Rebases x := fun hr => by
      rw [hr.1] at hin
      cases hin
    have hnote : v.note x = { v with inputs := v.inputs ++ [(v.epoch, decide (StoresInput x))] } :=
      (if_neg hstays).trans (if_pos hin)
    have hepoch : [l].filterMap inputEpoch = [l.epoch] := by
      simp [inputEpoch, hw]
    rw [hnote]
    refine ⟨(List.append_nil _).symm, _, rfl, ?_⟩
    rw [hepoch]
    exact .cons (decide_eq_true_iff.trans ((hf w hw).trans eq_comm)) .nil
  · have hsame : (v.note x).wrote = v.wrote ∧ (v.note x).inputs = v.inputs := by
      unfold Seen.note Seen.hear
      rw [if_neg hin]
      split <;> exact ⟨rfl, rfl⟩
    have hepoch : inputEpoch l = none := by
      unfold inputEpoch
      cases hb : l.body with
      | input w => exact absurd (hty.mpr ⟨w, hb⟩) hin
      | _ => rfl
    refine ⟨hsame.1.trans (List.append_nil _).symm, [], hsame.2.trans (List.append_nil _).symm, ?_⟩
    rw [List.filterMap_cons_none hepoch]
    exact .nil

/-- A capture. -/
theorem capture (v : Seen) (c : Cpu) {e : ℕ} (he : v.epoch = e) (t : ℕ) (w : ℕ × ℕ) :
    Noted v (v.capture c) [⟨e, t, .input w⟩] [] := by
  refine ⟨?_, [], (List.append_nil _).symm, .nil⟩
  rw [← he]
  rfl

end Noted

/-- The epoch, the tick and the checksum of a report. -/
def reportOf (l : Post) : Option (ℕ × ℕ × ℕ) :=
  match l.body with
  | .report w => some (l.epoch, l.tick, w)
  | _ => none

/-- These are what makes a letter a report. -/
theorem reportOf_eq {l : Post} {x : ℕ × ℕ × ℕ} :
    reportOf l = some x ↔ l.epoch = x.1 ∧ l.tick = x.2.1 ∧ l.body = .report x.2.2 := by
  obtain ⟨e, t, w⟩ := x
  unfold reportOf
  cases hb : l.body with
  | report w' => simp
  | _ => simp

/-- The checksums before and after a turn that writes the letters `ls`: a new one is reported, once, and what
is reported is one. -/
structure Summed (sums sums' : ℕ → ℕ → Option ℕ) (ls : List Post) : Prop where
  keep : ∀ e u w, sums e u = some w → sums' e u = some w
  new : ∀ e u w, sums' e u = some w → sums e u = some w ∨ (⟨e, u, .report w⟩ : Post) ∈ ls
  said : ∀ l ∈ ls, ∀ w, l.body = .report w → sums' l.epoch l.tick = some w
  fresh : ∀ l ∈ ls, ∀ w, l.body = .report w → sums l.epoch l.tick = none
  once : (ls.filterMap reportOf).Nodup

namespace Summed

variable {sums sums' sums'' : ℕ → ℕ → Option ℕ} {ls ls' : List Post}

/-- Nothing reported. -/
theorem none (h : ∀ l ∈ ls, ∀ w, l.body ≠ .report w) : Summed sums sums ls := by
  refine ⟨fun _ _ _ => id, fun _ _ _ => Or.inl, fun l hl w hw => absurd hw (h l hl w),
    fun l hl w hw => absurd hw (h l hl w), ?_⟩
  have hnil : ls.filterMap reportOf = [] := by
    apply List.filterMap_eq_nil_iff.mpr
    intro l hl
    cases hr : reportOf l with
    | none => rfl
    | some x => exact absurd (reportOf_eq.mp hr).2.2 (h l hl x.2.2)
  rw [hnil]
  exact List.nodup_nil

theorem trans (h : Summed sums sums' ls) (h' : Summed sums' sums'' ls') :
    Summed sums sums'' (ls ++ ls') := by
  have hold : ∀ e u, sums' e u = .none → sums e u = .none := by
    intro e u hnone
    cases hs : sums e u with
    | none => rfl
    | some w => exact absurd (h.keep e u w hs) (by rw [hnone]; exact Option.some_ne_none w ∘ Eq.symm)
  refine ⟨fun e u w hs => h'.keep e u w (h.keep e u w hs), fun e u w hs => ?_, fun l hl w hw => ?_,
    fun l hl w hw => ?_, ?_⟩
  · rcases h'.new e u w hs with hold | hmem
    · exact (h.new e u w hold).imp_right (List.mem_append_left _)
    · exact Or.inr (List.mem_append_right _ hmem)
  · rcases List.mem_append.mp hl with hl | hl
    · exact h'.keep _ _ _ (h.said l hl w hw)
    · exact h'.said l hl w hw
  · rcases List.mem_append.mp hl with hl | hl
    · exact h.fresh l hl w hw
    · exact hold _ _ (h'.fresh l hl w hw)
  · rw [List.filterMap_append, List.nodup_append]
    refine ⟨h.once, h'.once, ?_⟩
    rintro x hx y hy rfl
    obtain ⟨l, hl, hlx⟩ := List.mem_filterMap.mp hx
    obtain ⟨m, hm, hmx⟩ := List.mem_filterMap.mp hy
    obtain ⟨he, ht, hb⟩ := reportOf_eq.mp hlx
    obtain ⟨he', ht', hb'⟩ := reportOf_eq.mp hmx
    -- it would have a checksum after the first letters and none before the others
    have hsaid := h.said l hl _ hb
    rw [he, ht, ← he', ← ht', h'.fresh m hm _ hb'] at hsaid
    cases hsaid

/-- The report of a tick that has no checksum yet. -/
theorem one (e u w : ℕ) (h : sums e u = .none) :
    Summed sums (put sums e u w) [⟨e, u, .report w⟩] := by
  refine ⟨fun e' u' w' hs => ?_, fun e' u' w' hs => ?_, fun l hl w' hw => ?_, fun l hl w' hw => ?_,
    List.pairwise_singleton _ _⟩
  · by_cases heq : e' = e ∧ u' = u
    · rw [heq.1, heq.2, h] at hs
      cases hs
    · rwa [Delay.put_of_ne _ _ fun he => fun hu => heq ⟨he, hu⟩]
  · by_cases heq : e' = e ∧ u' = u
    · obtain ⟨rfl, rfl⟩ := heq
      rw [Delay.put_self] at hs
      cases hs
      exact Or.inr List.mem_cons_self
    · rw [Delay.put_of_ne _ _ fun he => fun hu => heq ⟨he, hu⟩] at hs
      exact Or.inl hs
  · rw [List.mem_singleton.mp hl] at hw ⊢
    cases hw
    exact Delay.put_self _ _ _ _
  · rw [List.mem_singleton.mp hl]
    exact h

end Summed

/-- What the notes about the dispatches are after a turn: the same, or with those of the tick that ran, on
the inputs of its tick. -/
def Replayed (s : Line) (n : Node) (v v' : Seen) : Prop :=
  v'.played = v.played ∨ (n.tick < n.mark ∧ n.tick < n.top ∧ v'.played =
    put v.played n.epoch v.age (cellsAt (s.hostIn n.epoch) n.tick, cellsAt (s.guestIn n.epoch) n.tick))

/-! ### What a step leaves alone -/

/-- The cells of a match and its records are not those of a wait. -/
theorem kept_not_wait {a : ℕ} (h : a ∈ MatchCells ∪ CrcRecords) : a ∉ WaitArea := by
  rcases h with h | ⟨h, -⟩
  · exact match_not_wait h
  · intro hw
    have hwait : a = 0x816A ∨ a = 0x816B ∨ a = 0x0102 ∨ a = 0x816C ∨ a = 0x816D ∨ a = 0x8093 ∨
      a = 0x8094 := hw
    simp only [OWN_CRC] at h
    omega

/-- Nor are they those that are played with. -/
theorem kept_not_play {a : ℕ} (h : a ∈ MatchCells ∪ CrcRecords) : a ∉ GameArea ∪ TickScratch := by
  rcases h with h | ⟨h, -⟩
  · rintro (hg | hs)
    · exact match_not_game h hg
    · exact (match_bounds h).2.2.2.2 hs
  · simp only [OWN_CRC] at h
    rintro (hg | hs)
    · have hgame : a < 0x8000 ∨ a = 0x8106 ∨ a = 0x8107 := hg
      omega
    · have hscratch : a = 0x816A ∨ a = 0x816C ∨ a = 0x816D ∨ (0x80C0 ≤ a ∧ a ≤ 0x80C7) ∨
        a = 0x81A8 ∨ (0x8196 ≤ a ∧ a ≤ 0x819B) ∨ a = 0x81AF ∨ a = 0x8168 ∨ a = 0x8169 := hs
      omega

/-- The cells of the rings are kept. -/
theorem ring_kept {a : ℕ} (h : a ∈ RingCells) : a ∈ MatchCells ∪ CrcRecords := Or.inl (Or.inr h)

/-- What is written when every write is taken. -/
theorem written_sends {c c' : Cpu} {bytes : List ℕ} (h : Sends bytes c c') (ha : AllAcked c) :
    written c c' = bytes := by
  unfold written
  rw [h.out ha, List.drop_left]

/-- Nothing is written by what sends nothing. -/
theorem written_silent {c c' : Cpu} (h : Silent c c') : written c c' = [] := by
  unfold written
  rw [h.out, List.drop_length]

/-! ### A capture -/

section Capture

variable {d : ℕ} {c : Cpu}

/-- A capture keeps the cells of the line but for the rings. -/
theorem capture_kept (h : c.cell NET_SEAT ≤ 3) {a : ℕ} (ha : a ∈ MatchCells ∪ CrcRecords)
    (hr : a ∉ RingPages) : (captureSend c).cell a = c.cell a := by
  have hcap := captured c h
  rcases ha with ha | ha
  · exact hcap.match_eq ha hr
  · refine hcap.frame.cell_eq ?_
    have h1 : 0x8C00 ≤ a := ha.1
    rintro ((hx | hx) | hx)
    · exact hr hx
    · have : a = 0x8168 ∨ a = 0x8169 := hx
      omega
    · exact record_not_mailbox ha hx

/-- The flags and the records are not in the rings. -/
theorem record_not_ring {a : ℕ} (h : a ∈ CrcRecords) : a ∉ RingPages := by
  intro hr
  have h1 : 0x8C00 ≤ a := h.1
  have h2 : a < 0x8C00 := hr.2
  omega

/-- The frame of a capture. -/
theorem queued_capture {seat e t : ℕ} (hs : c.cell NET_SEAT = seat) (h3 : seat ≤ 3)
    (hd : c.cell NET_DELAY = d) (ht : tickWord c = t % 65536) :
    ∃ bytes, Sends bytes c (captureSend c) ∧
      Spelled d seat [⟨e, t, .input (controller c)⟩] bytes := by
  have hcap := captured c (by omega)
  have hsends := hcap.sends
  have hlt := controller_lt c
  have hin : c.cell EXEC_IN_L % 256 = (controller c).1 := Nat.mod_eq_of_lt hlt.1
  have hkp : c.cell EXEC_KP_L % 256 = (controller c).2 := Nat.mod_eq_of_lt hlt.2
  rw [hs, hd, ht, hin, hkp, show (t % 65536 + d) % 65536 = (t + d) % 65536 by omega] at hsends
  exact ⟨_, hsends, .one (.input e t (controller c))⟩

end Capture

/-! ### A tick -/

/-- What a tick keeps of the cells of a match. -/
theorem tickEnd_kept (g : Game) (c : Cpu) {a : ℕ} (ha : a ∈ MatchCells) (hlo : a ≠ TICK_LO)
    (hhi : a ≠ TICK_HI) : (tickEnd g c).cell a = c.cell a := by
  have hcount := (frame_countUp (tickBody g c) TICK_LO TICK_HI).cell_eq fun hm => hm.elim hlo hhi
  exact hcount.trans
    ((tickBody_spec g c).frame.cell_eq (match_not_tick ha (match_not_mailbox ha)))

/-- The machine that reports has played, and its counter is the tick. -/
theorem report_counter (g : Game) {c : Cpu} {t : ℕ} (ht : tickWord c = t % 65536) :
    (reportMachine g c).cell NET_SEAT = c.cell NET_SEAT ∧
      (reportMachine g c).cell TICK_LO = t % 256 ∧
        (reportMachine g c).cell TICK_HI = t / 256 % 256 := by
  have hplay : Plays c (reportMachine g c) := plays_tick g c
  have hkeep : ∀ a, a = NET_SEAT ∨ a = TICK_LO ∨ a = TICK_HI →
      (reportMachine g c).cell a = c.cell a := by
    intro a ha
    apply hplay.match_eq
    rcases ha with rfl | rfl | rfl <;> exact Or.inl (Or.inl (Or.inl (by simp)))
  have hlo : c.cell TICK_LO < 256 := c.cell_lt_cart (by decide) (by decide)
  have hhi : c.cell TICK_HI < 256 := c.cell_lt_cart (by decide) (by decide)
  unfold tickWord word at ht
  rw [hkeep _ (Or.inl rfl), hkeep _ (Or.inr (Or.inl rfl)), hkeep _ (Or.inr (Or.inr rfl))]
  omega

/-- What is known of the records and the writes of a tick that is not reported, and of one that is. -/
inductive TickReport (full : Prop) (d seat e t b : ℕ) (sums : ℕ → Option ℕ) (g : Game) (c : Cpu) :
    Prop where
  | silent (h : t % 64 ≠ 0) (records : Records full b (t + 1) sums (tickEnd g c))
      (hs : Silent c (tickEnd g c))
  | reported (h : t % 64 = 0)
      (records : ∀ sums', (∀ u, u ≠ t → sums' u = sums u) →
        sums' t = some (reportSum (reportMachine g c)) → Records full b (t + 1) sums' (tickEnd g c))
      (bytes : List ℕ) (hs : Sends bytes c (tickEnd g c))
      (hq : Spelled d seat [⟨e, t, .report (reportSum (reportMachine g c))⟩] bytes)

/-- Either happens. -/
theorem tickReport {full : Prop} {d seat e t b : ℕ} {sums : ℕ → Option ℕ} (g : Game) {c : Cpu}
    (h : Records full b t sums c) (hb : b ≤ t) (hs : c.cell NET_SEAT = seat)
    (ht : tickWord c = t % 65536) : TickReport full d seat e t b sums g c := by
  obtain ⟨hseat, hlo, hhi⟩ := report_counter g ht
  have hplay : Plays c (reportMachine g c) := plays_tick g c
  have hbody : tickBody g c = crcReport (reportMachine g c) := rfl
  have hquiet := hplay.silent
  have hrec : Records full b t sums (reportMachine g c) :=
    h.congr (fun a ha => hplay.frame.cell_eq (kept_not_play (Or.inr ha))) id
  have hsum := reportSum_lt (reportMachine g c)
  generalize hr : reportMachine g c = r at *
  have hcount : ∀ a ∈ CrcRecords, (tickEnd g c).cell a = (crcReport r).cell a := by
    intro a ha
    have h1 : 0x8C00 ≤ a := ha.1
    unfold tickEnd
    rw [hbody]
    refine (frame_countUp _ _ _).cell_eq ?_
    rintro (rfl | rfl) <;> simp at h1
  have hsilent : Silent (crcReport r) (tickEnd g c) := by
    unfold tickEnd
    rw [hbody]
    exact silent_countUp _ _ _
  by_cases h64 : t % 64 = 0
  · have hrep := crcReport_reported r (by omega)
    have hsends := hrep.sends
    rw [hseat, hs, hlo, hhi] at hsends
    refine .reported h64 (fun sums' h1 h2 => ?_) [6, FT_CRC, seat, t % 65536 % 256,
      t % 65536 / 256, reportSum r % 256, reportSum r / 256] ?_ ?_
    · rw [hr] at h2
      exact (hrec.report hrep hb h64 hlo hhi sums' h1 h2).congr hcount id
    · rw [show t % 65536 % 256 = t % 256 by omega, show t % 65536 / 256 = t / 256 % 256 by omega]
      exact (hsends.then_silent hsilent.out hsilent.replies).after_silent hquiet.out hquiet.replies
    · rw [hr]
      exact .one (.report e t _ h64)
  · have hnone : crcReport r = r := if_pos (by omega)
    rw [hnone] at hcount hsilent
    exact .silent h64 ((hrec.pass h64).congr hcount id) (hquiet.trans hsilent)

/-! ### Steps and their pumps -/

section Steps

variable {k : Console} {c : Cpu} (o : Outside)

/-- A step that does not pump takes nothing off the link. -/
theorem takes_none (hp : pumping k = none) : takes k o = [] := by
  unfold takes
  rw [hp]

/-- A step that pumps takes what its poll delivers. -/
theorem takes_pump (hp : pumping k = some c) : takes k o = delivers o.poll := by
  unfold takes
  rw [hp]

theorem wire_of_quiet {wire rest : List ℕ} (hp : pumping k = none) (hw : takes k o ++ rest = wire) :
    wire = rest := by
  rw [← hw, takes_none o hp, List.nil_append]

/-- What the cartridge plays concerns neither the match nor the link. -/
theorem game_kept {c' : Cpu} (h : GameFrame c c') :
    (∀ a ∈ MatchCells ∪ CrcRecords, c'.cell a = c.cell a) ∧ Silent c c' := by
  have hp := Plays.game h
  exact ⟨fun a ha => hp.frame.cell_eq (kept_not_play ha), hp.silent⟩

/-- Outside a capture and a tick an observer notes what is handed on. -/
theorem noted_pump (v : Seen) (hdue : k.phase ≠ .due) (hrun : k.phase ≠ .run)
    (hp : pumping k = some c) : v.step k o = (pumpHanded SES_ONFRAME c o.poll).foldl Seen.note v := by
  rw [← dispatched_eq hp]
  unfold Seen.step
  cases hph : k.phase with
  | due => exact absurd hph hdue
  | run => exact absurd hph hrun
  | _ => rfl

/-- Otherwise it notes nothing. -/
theorem noted_none (v : Seen) (hdue : k.phase ≠ .due) (hrun : k.phase ≠ .run)
    (hp : pumping k = none) : v.step k o = v := by
  have hnone : dispatched k o = [] := by
    unfold dispatched
    rw [hp]
  unfold Seen.step
  rw [hnone]
  cases hph : k.phase with
  | due => exact absurd hph hdue
  | run => exact absurd hph hrun
  | _ => rfl

/-- A capture it notes as such. -/
theorem noted_due (v : Seen) (h : k.phase = .due) : v.step k o = v.capture k.cpu := by
  unfold Seen.step
  rw [h]

theorem noted_run (v : Seen) (h : k.phase = .run) : v.step k o = v.ticked o.game k.cpu := by
  unfold Seen.step
  rw [h]

end Steps

/-! ### The deferred push -/

section Pending

variable {c : Cpu}

/-- A host that pushes has noted its wait, and nothing else. -/
theorem RS_PENDING_push (h : Pushes c) : ∃ w g v, RS_PENDING c =
    RS_PUSH (((c.sto RS_PTMO w).sto RS_GATE g).sto RS_WAITED v) := by
  obtain ⟨hpend, hseat, hhold, hgate⟩ := h
  unfold RS_PENDING
  extract_lets c1 push
  rw [if_neg hpend, if_neg (by simpa using hseat), if_neg (by simpa using hhold)]
  by_cases hq : c1.cell SC_PHASE % 2 ≠ 0
  · rw [if_pos hq]
    exact ⟨_, _, _, rfl⟩
  · have hphase : c1.cell SC_PHASE = c.cell SC_PHASE := by simp [c1]
    have hwait : c1.cell RS_PTMO = (c.cell RS_PTMO + 1) % 256 := by simp [c1, cellWidth]
    rw [hphase] at hq
    rw [hphase, if_neg hq, hwait, if_neg (Nat.not_lt.mpr (hgate.resolve_left hq))]
    exact ⟨_, _, _, rfl⟩

/-- A console that does not push sends nothing. -/
theorem silent_RS_PENDING (h : ¬ Pushes c) : Silent c (RS_PENDING c) := by
  unfold RS_PENDING
  extract_lets c1 push
  have hphase : c1.cell SC_PHASE = c.cell SC_PHASE := by simp [c1]
  have hwait : c1.cell RS_PTMO = (c.cell RS_PTMO + 1) % 256 := by simp [c1, cellWidth]
  by_cases hpend : c.cell RS_PEND = 0
  · rw [if_pos hpend]
    exact .refl c
  rw [if_neg hpend]
  by_cases hseat : c.cell NET_SEAT ≠ 0
  · rw [if_pos hseat]
    exact .refl c
  rw [if_neg hseat]
  by_cases hhold : c.cell RESYNC_HOLD ≠ 0
  · rw [if_pos hhold]
    exact .refl c
  rw [if_neg hhold]
  have hno : ¬ (c.cell SC_PHASE % 2 ≠ 0 ∨ RS_PEND_MAX ≤ (c.cell RS_PTMO + 1) % 256) :=
    fun hor => h ⟨hpend, not_not.mp hseat, not_not.mp hhold, hor⟩
  rw [hphase, hwait, if_neg fun hq => hno (Or.inl hq),
    if_pos (Nat.not_le.mp fun hmax => hno (Or.inr hmax))]
  exact (Silent.refl c).sto

end Pending

end BoxingNetplay.Analysis
