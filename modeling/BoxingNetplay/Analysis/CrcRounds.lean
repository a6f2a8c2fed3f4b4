import BoxingNetplay.Analysis.CrcComparator
import BoxingNetplay.Library.Rounds

/-!
# Every round of checksums is compared once

The members of a match report their checksums at the same ticks, each in its own time.  As long as none is more
than 64 reports ahead of another, the comparator of either relay keeps the rounds that have begun and are not
over, never evicts one, and gives its verdict on each when the last report of it comes in
(`rounds_compared`).
-/

set_option autoImplicit false

namespace BoxingNetplay.Analysis

open BoxingNetplay.Library
open BoxingNetplay.Library.Rounds
open BoxingNetplay.Model
open BoxingNetplay.Model.IntvRelay (CRC_TICKS)

/-! ### Reports in the order they come in -/

/-- The payload of a CRC frame.
SOURCE: lockstep.asm:310-325 -/
def crcPayload (seat tick crc : ℕ) : List ℕ := [seat, tick % 256, tick / 256, crc % 256, crc / 256]

/-- The payloads of the reports of the seats in `ss`, each of which has made `c` before; `tick` is where a round
is reported and `sum` what a seat reports. -/
def arrivals (tick : ℕ → ℕ) (sum : ℕ → ℕ → ℕ) : (ℕ → ℕ) → List ℕ → List (List ℕ)
  | _, [] => []
  | c, s :: ss => crcPayload s (tick (c s)) (sum s (c s)) :: arrivals tick sum (bump c s) ss

/-- Whether the seats report one checksum for a round. -/
def agreed (n : ℕ) (sum : ℕ → ℕ → ℕ) (k : ℕ) : Bool := (List.range n).all fun s => sum s k = sum 0 k

/-- The seats with their checksums of a round. -/
def roundLine (n : ℕ) (sum : ℕ → ℕ → ℕ) (k : ℕ) : List (ℕ × ℕ) := (List.range n).map fun s => (s, sum s k)

/-- The mismatches among the first `m` rounds. -/
def roundMismatches (n : ℕ) (tick : ℕ → ℕ) (sum : ℕ → ℕ → ℕ) (m : ℕ) : List (ℕ × List (ℕ × ℕ)) :=
  ((List.range m).filter fun k => !agreed n sum k).map fun k => (tick k, roundLine n sum k)

/-- How many of them agree. -/
def roundsAgreed (n : ℕ) (sum : ℕ → ℕ → ℕ) (m : ℕ) : ℕ := ((List.range m).filter (agreed n sum)).length

section Members

variable {n s k : ℕ} {tick : ℕ → ℕ} {sum : ℕ → ℕ → ℕ} {c : ℕ → ℕ}

/-- The payload of a report has the seat, the tick and the checksum of it. -/
theorem crc_fields (s : ℕ) {t w : ℕ} : crcSeat (crcPayload s t w) = s ∧ crcTick (crcPayload s t w) = t ∧
    crcValue (crcPayload s t w) = w := by
  refine ⟨rfl, ?_, ?_⟩
  · have := Nat.mod_add_div t 256
    simp only [crcTick, crcPayload, List.getD_cons_succ, List.getD_cons_zero]
    omega
  · have := Nat.mod_add_div w 256
    simp only [crcValue, crcPayload, List.getD_cons_succ, List.getD_cons_zero]
    omega

/-- One more round adds a line when its members differ. -/
theorem roundMismatches_succ (n : ℕ) (tick : ℕ → ℕ) (sum : ℕ → ℕ → ℕ) (m : ℕ) :
    roundMismatches n tick sum (m + 1) =
      roundMismatches n tick sum m ++ if agreed n sum m then [] else [(tick m, roundLine n sum m)] := by
  rw [roundMismatches, filter_range_succ, List.map_append]
  congr 1
  cases agreed n sum m <;> rfl

/-- It is counted when they do not. -/
theorem roundsAgreed_succ (n : ℕ) (sum : ℕ → ℕ → ℕ) (m : ℕ) :
    roundsAgreed n sum (m + 1) = roundsAgreed n sum m + if agreed n sum m then 1 else 0 := by
  rw [roundsAgreed, filter_range_succ, List.length_append]
  congr 1
  cases agreed n sum m <;> rfl

/-- The checksums of a row are one if the round agrees. -/
theorem agreed_iff {e : List (ℕ × ℕ)} (hn : 0 < n) (he : e.Perm (roundLine n sum k)) :
    (e.map Prod.snd).dedup.length = 1 ↔ agreed n sum k = true := by
  have hmem : ∀ x, x ∈ e.map Prod.snd ↔ ∃ s < n, sum s k = x := by
    intro x
    rw [(he.map Prod.snd).mem_iff, roundLine, List.map_map, List.mem_map]
    simp only [List.mem_range, Function.comp_apply]
  have hne : e.map Prod.snd ≠ [] := by
    apply List.ne_nil_of_mem
    exact (hmem _).mpr ⟨0, hn, rfl⟩
  rw [dedup_length_one hne, agreed, List.all_eq_true]
  constructor
  · rintro ⟨v, hv⟩ s hs
    have h1 := hv _ ((hmem _).mpr ⟨s, List.mem_range.mp hs, rfl⟩)
    have h2 := hv _ ((hmem _).mpr ⟨0, hn, rfl⟩)
    exact decide_eq_true (h1.trans h2.symm)
  · intro hall
    refine ⟨sum 0 k, fun x hx => ?_⟩
    obtain ⟨s, hs, rfl⟩ := (hmem x).mp hx
    exact of_decide_eq_true (hall s (List.mem_range.mpr hs))

/-- A row is printed in the order of its seats. -/
theorem sortedItems_eq {e : List (ℕ × ℕ)} (he : e.Perm (roundLine n sum k)) :
    RelayServer.sortedItems e = roundLine n sum k := by
  have hperm : (RelayServer.sortedItems e).Perm (roundLine n sum k) := (List.mergeSort_perm e _).trans he
  have hsorted : (RelayServer.sortedItems e).Pairwise fun a b =>
      (a.1 < b.1 || (a.1 = b.1 && a.2 ≤ b.2)) = true := by
    apply List.pairwise_mergeSort
    · intro a b c hab hbc
      simp only [Bool.or_eq_true, Bool.and_eq_true, decide_eq_true_eq] at *
      omega
    · intro a b
      simp only [Bool.or_eq_true, Bool.and_eq_true, decide_eq_true_eq]
      omega
  have hline : (roundLine n sum k).Pairwise fun a b =>
      (a.1 < b.1 || (a.1 = b.1 && a.2 ≤ b.2)) = true := by
    rw [roundLine, List.pairwise_map]
    apply List.pairwise_lt_range.imp
    intro a b hab
    simp [hab]
  apply hperm.eq_of_pairwise _ hsorted hline
  intro a b _ _ hab hba
  simp only [Bool.or_eq_true, Bool.and_eq_true, decide_eq_true_eq] at hab hba
  apply Prod.ext <;> omega

/-! ### The log -/

/-- What the comparator has logged when each of `n` seats has made `c` reports, and the rounds it still has. -/
structure Logged (n : ℕ) (tick : ℕ → ℕ) (sum : ℕ → ℕ → ℕ) (c : ℕ → ℕ) (p : RelayServer.CrcLog) :
    Prop where
  rows : ∃ f, p.crc = Dict.table tick f (underway n c) ∧
    ∀ k ∈ underway n c, (f k).Perm ((reporters n c k).map fun s => (s, sum s k))
  crc_ok : p.crc_ok = roundsAgreed n sum (closed n c)
  mismatches : p.mismatches = roundMismatches n tick sum (closed n c)

/-- The rounds of a window have ticks of their own. -/
def Apart (tick : ℕ → ℕ) : Prop := ∀ j k, j < k → k ≤ j + CRC_TICKS → tick j ≠ tick k

/-- No seat is more than 64 reports ahead of another. -/
def Close (n : ℕ) (c : ℕ → ℕ) : Prop := ∀ i < n, ∀ j < n, c i ≤ c j + CRC_TICKS

/-- The console reports at every 64th tick, and its counter wraps after 65536. -/
theorem apart_reports : Apart fun k => 64 * k % 65536 := by
  intro j k hlt hle heq
  simp only [CRC_TICKS] at hle
  have hmod : 64 * j % 65536 = 64 * k % 65536 := heq
  omega

/-- Members that are close have at most 64 rounds begun and not over. -/
theorem Close.begun_le (h : Close n c) (hn : 0 < n) : begun n c ≤ closed n c + CRC_TICKS := by
  obtain ⟨-, i, hi, hat⟩ := begun_spec hn c
  obtain ⟨-, j, hj, hat'⟩ := closed_spec hn c
  rw [← hat, ← hat']
  exact h i hi j hj

theorem Close.underway_length (h : Close n c) (hn : 0 < n) : (underway n c).length ≤ CRC_TICKS := by
  have := h.begun_le hn
  rw [underway, List.length_range']
  omega

/-- Before the round of the last report is given up there are no more than 64 rows. -/
theorem underway_short {w : List ℕ} (hs : s < n) (hclose : Close n c) (hclose' : Close n (bump c s))
    (hw : w = if c s ∈ underway n c then underway n c else underway n c ++ [c s])
    (hcases : ((∀ j < n, c s < bump c s j) ∧ w = c s :: underway n (bump c s) ∧ c s = closed n c ∧
        closed n (bump c s) = closed n c + 1) ∨
      ((∃ j < n, bump c s j ≤ c s) ∧ w = underway n (bump c s) ∧ closed n (bump c s) = closed n c)) :
    w.length ≤ CRC_TICKS := by
  have hn : 0 < n := Nat.zero_lt_of_lt hs
  rcases hcases with ⟨-, -, hat, -⟩ | ⟨-, hw', -⟩
  · by_cases hmem : c s ∈ underway n c
    · rw [hw, if_pos hmem]
      exact hclose.underway_length hn
    · -- everybody was at this round, which nobody had reported for
      have hnil : underway n c = [] := by
        apply List.eq_nil_iff_forall_not_mem.mpr
        intro k hk
        rw [mem_underway hn] at hk hmem
        omega
      rw [hw, if_neg hmem, hnil]
      exact Nat.le_of_ble_eq_true rfl
  · rw [hw']
    exact hclose'.underway_length hn

/-- The row of the round that a seat reports for. -/
theorem Logged.row {p : RelayServer.CrcLog} (h : Logged n tick sum c p) (hs : s < n)
    (htick : Apart tick) (hclose : Close n c) : ∃ f, p.crc = Dict.table tick f (underway n c) ∧
      (∀ k ∈ underway n c, (f k).Perm ((reporters n c k).map fun s => (s, sum s k))) ∧
      (∀ j ∈ underway n c, tick j = tick (c s) → j = c s) ∧
      ((Dict.get p.crc (tick (c s))).getD []).Perm ((reporters n c (c s)).map fun i => (i, sum i (c s))) := by
  have hn : 0 < n := Nat.zero_lt_of_lt hs
  obtain ⟨f, hf, hrows⟩ := h.rows
  have hlo := (closed_spec hn c).1 s hs
  have hhi := (begun_spec hn c).1 s hs
  have hlen := hclose.begun_le hn
  have hinj : ∀ j ∈ underway n c, tick j = tick (c s) → j = c s := by
    intro j hj heq
    rw [mem_underway hn] at hj
    by_contra hne
    rcases Nat.lt_or_gt_of_ne hne with hlt | hgt
    · exact htick j (c s) hlt (by omega) heq
    · exact htick (c s) j hgt (by omega) heq.symm
  refine ⟨f, hf, hrows, hinj, ?_⟩
  rw [hf]
  by_cases hmem : c s ∈ underway n c
  · rw [Dict.get_table hmem hinj, Option.getD_some]
    exact hrows _ hmem
  · have hnone : Dict.get (Dict.table tick f (underway n c)) (tick (c s)) = none := by
      apply Dict.get_table_none
      intro j hj heq
      exact hmem (hinj j hj heq ▸ hj)
    have hbegun : begun n c ≤ c s := by
      rw [mem_underway hn] at hmem
      omega
    rw [hnone, reporters_none hn hbegun]
    exact List.Perm.refl _

/-- The checksum of a seat that has none yet is added. -/
theorem set_absent {d : List (ℕ × ℕ)} {l : List ℕ} {v : ℕ} (hd : d.Perm (l.map fun i => (i, sum i k)))
    (hs : s ∉ l) : Dict.set d s v = d ++ [(s, v)] := by
  have hnone : Dict.get d s = none := by
    apply Dict.get_none
    intro e he
    obtain ⟨i, hi, rfl⟩ := List.mem_map.mp (hd.mem_iff.mp he)
    exact fun heq => hs (heq ▸ hi)
  rw [Dict.set, hnone]
  rfl

/-- A dictionary of at most 64 rows loses none. -/
theorem popLowest_short {d : List (ℕ × List (ℕ × ℕ))} (h : d.length ≤ 64) : RelayServer.popLowest d = d := by
  rw [RelayServer.popLowest, if_neg (Nat.not_lt.mpr h)]

/-- The tables after a report of one seat, before its round is looked at: the window `w` has the round of the
report, whose row has the new checksum in it, and no row is evicted. -/
theorem Logged.entered {p : RelayServer.CrcLog} (h : Logged n tick sum c p) (hs : s < n)
    (htick : Apart tick) (hclose : Close n c) (hclose' : Close n (bump c s)) : ∃ f e w,
      e = Dict.set ((Dict.get p.crc (tick (c s))).getD []) s (sum s (c s)) ∧
      e.Perm ((reporters n (bump c s) (c s)).map fun i => (i, sum i (c s))) ∧
      RelayServer.popLowest (Dict.set p.crc (tick (c s)) e) = Dict.table tick f w ∧
      (∀ k ∈ w, (f k).Perm ((reporters n (bump c s) k).map fun i => (i, sum i k))) ∧
      (((∀ j < n, c s < bump c s j) ∧ w = c s :: underway n (bump c s) ∧ c s = closed n c ∧
          closed n (bump c s) = closed n c + 1) ∨
        ((∃ j < n, bump c s j ≤ c s) ∧ w = underway n (bump c s) ∧ closed n (bump c s) = closed n c)) := by
  obtain ⟨f, hf, hrows, hinj, hrow⟩ := h.row hs htick hclose
  obtain ⟨e, he⟩ : ∃ e, e = Dict.set ((Dict.get p.crc (tick (c s))).getD []) s (sum s (c s)) := ⟨_, rfl⟩
  have hentry : e.Perm ((reporters n (bump c s) (c s)).map fun i => (i, sum i (c s))) := by
    rw [he, set_absent hrow (reporters_self n c s)]
    apply (hrow.append_right _).trans
    rw [← show [s].map (fun i => (i, sum i (c s))) = [(s, sum s (c s))] from rfl, ← List.map_append]
    exact ((reporters_bump_self hs c).map _).symm
  obtain ⟨w, hw, hcases⟩ := underway_bump hs c
  refine ⟨Function.update f (c s) e, e, w, he, hentry, ?_, fun k hk => ?_, hcases⟩
  · have hshort : w.length ≤ 64 := underway_short hs hclose hclose' hw hcases
    rw [hf, Dict.set_table hinj, ← hw]
    apply popLowest_short
    rw [Dict.length_table]
    exact hshort
  · by_cases hks : k = c s
    · rw [hks, Function.update_self]
      exact hentry
    · rw [Function.update_of_ne hks, reporters_bump_of_ne c hks]
      apply hrows k
      rw [hw] at hk
      split at hk
      · exact hk
      · rcases List.mem_append.mp hk with hk | hk
        · exact hk
        · exact absurd (List.mem_singleton.mp hk) hks

/-- A report of one seat. -/
theorem Logged.log_crc {p : RelayServer.CrcLog} (h : Logged n tick sum c p) (hs : s < n)
    (htick : Apart tick) (hclose : Close n c) (hclose' : Close n (bump c s)) :
    Logged n tick sum (bump c s)
      (RelayServer.log_crc p n (crcPayload s (tick (c s)) (sum s (c s)))) := by
  have hn : 0 < n := Nat.zero_lt_of_lt hs
  obtain ⟨f, e, w, he, hentry, hpop, hrows, hcases⟩ := h.entered hs htick hclose hclose'
  obtain ⟨hseat, htk, hval⟩ := crc_fields s (t := tick (c s)) (w := sum s (c s))
  unfold RelayServer.log_crc
  rw [hseat, htk, hval]
  simp only [← he, hpop]
  rcases hcases with ⟨hall, hw, hat, hnext⟩ | ⟨⟨j, hj, hjs⟩, hw, hsame⟩
  · -- the last report of the round
    have hline : e.Perm (roundLine n sum (c s)) := by
      rw [reporters_all hall] at hentry
      exact hentry
    have hlen : ¬ e.length < n := by
      rw [hline.length_eq, roundLine, List.length_map, List.length_range]
      exact Nat.lt_irrefl n
    have hkept : ∀ k ∈ underway n (bump c s),
        (f k).Perm ((reporters n (bump c s) k).map fun i => (i, sum i k)) := by
      intro k hk
      apply hrows
      rw [hw]
      exact List.mem_cons_of_mem _ hk
    rw [if_neg hlen, hw]
    simp only [Dict.del_table]
    by_cases hagree : agreed n sum (c s) = true
    · rw [if_neg (not_not.mpr ((agreed_iff hn hline).mpr hagree))]
      refine ⟨⟨f, rfl, hkept⟩, ?_, ?_⟩
      · rw [hnext, roundsAgreed_succ, ← hat, if_pos hagree, h.crc_ok, hat]
      · rw [hnext, roundMismatches_succ, ← hat, if_pos hagree, List.append_nil, hat]
        exact h.mismatches
    · rw [if_pos fun hone => hagree ((agreed_iff hn hline).mp hone)]
      refine ⟨⟨f, rfl, hkept⟩, ?_, ?_⟩
      · rw [hnext, roundsAgreed_succ, ← hat, if_neg hagree, Nat.add_zero, hat]
        exact h.crc_ok
      · rw [hnext, roundMismatches_succ, ← hat, if_neg hagree, sortedItems_eq hline, hat]
        exact congrArg (· ++ _) h.mismatches
  · -- somebody has yet to report for the round
    have hlen : e.length < n := by
      rw [hentry.length_eq, List.length_map]
      exact reporters_length_lt hj hjs
    rw [if_pos hlen]
    refine ⟨⟨f, congrArg _ hw, fun k hk => hrows k (hw ▸ hk)⟩, ?_, ?_⟩
    · rw [hsame]
      exact h.crc_ok
    · rw [hsame]
      exact h.mismatches

/-! ### Runs -/

/-- Nobody has reported for anything. -/
theorem logged_start (hn : 0 < n) (tick : ℕ → ℕ) (sum : ℕ → ℕ → ℕ) :
    Logged n tick sum (fun _ => 0) RelayServer.CrcLog.start := by
  have hclosed : closed n (fun _ => 0) = 0 := closed_eq (fun _ _ => Nat.le_refl 0) ⟨0, hn, rfl⟩
  have hbegun : begun n (fun _ => 0) = 0 := begun_eq (fun _ _ => Nat.le_refl 0) ⟨0, hn, rfl⟩
  have hnil : underway n (fun _ => 0) = [] := by
    rw [underway, hbegun, hclosed]
    rfl
  refine ⟨⟨fun _ => [], ?_, ?_⟩, ?_, ?_⟩
  · rw [hnil]
    rfl
  · intro k hk
    rw [hnil] at hk
    cases hk
  · rw [hclosed]
    rfl
  · rw [hclosed]
    rfl

/-- How many reports each seat has made after those of `ss`. -/
def made (c : ℕ → ℕ) (ss : List ℕ) : ℕ → ℕ := fun s => c s + ss.count s

/-- From the start on, what has been reported is counted in the list. -/
theorem made_zero (ss : List ℕ) : made (fun _ => 0) ss = fun s => ss.count s := by
  funext s
  exact Nat.zero_add _

/-- Without reports no count goes up. -/
theorem made_nil (c : ℕ → ℕ) : made c [] = c := rfl

/-- The first report is counted first. -/
theorem made_cons (c : ℕ → ℕ) (s : ℕ) (ss : List ℕ) : made c (s :: ss) = made (bump c s) ss := by
  funext i
  simp only [made, List.count_cons]
  by_cases hi : i = s
  · subst hi
    rw [bump_self, beq_self_eq_true, if_pos rfl]
    omega
  · rw [bump_of_ne c hi, if_neg (by simpa using Ne.symm hi)]
    omega

/-- Reports that come in close to one another. -/
theorem Logged.run {ss : List ℕ} (htick : Apart tick) {p : RelayServer.CrcLog} (h : Logged n tick sum c p)
    (hss : ∀ s ∈ ss, s < n) (hclose : ∀ q, q <+: ss → Close n (made c q)) :
    Logged n tick sum (made c ss)
      ((arrivals tick sum c ss).foldl (fun p x => RelayServer.log_crc p n x) p) := by
  induction ss generalizing c p with
  | nil => exact h
  | cons s ss ih =>
    have hnow : Close n c := hclose [] List.nil_prefix
    have hnext : Close n (bump c s) := by
      have hone := hclose [s] ⟨ss, rfl⟩
      rwa [made_cons, made_nil] at hone
    rw [made_cons, arrivals, List.foldl_cons]
    apply ih (h.log_crc (hss s List.mem_cons_self) htick hnow hnext)
    · intro i hi
      exact hss i (List.mem_cons_of_mem s hi)
    · intro q hq
      rw [← made_cons]
      exact hclose (s :: q) (List.cons_prefix_cons.mpr ⟨rfl, hq⟩)

/-- The reports are those of the seats that make them. -/
theorem arrivals_seats {ss : List ℕ} (hss : ∀ s ∈ ss, s < n) :
    ∀ x ∈ arrivals tick sum c ss, crcSeat x < n := by
  induction ss generalizing c with
  | nil => exact List.forall_mem_nil _
  | cons s ss ih =>
    rw [arrivals, List.forall_mem_cons]
    exact ⟨hss s List.mem_cons_self, ih fun i hi => hss i (List.mem_cons_of_mem s hi)⟩

end Members

/-- What the two relays have in their tables when each of `n` seats has made `c` reports: the rounds that have
begun and are not over, each with the checksums reported for it so far.  They are the rows of the
dictionary of the Python relay, which the slots of the C relay hold. -/
structure RoundsKept (n : ℕ) (tick : ℕ → ℕ) (sum : ℕ → ℕ → ℕ) (c : ℕ → ℕ) (r : IntvRelay.CrcLog)
    (p : RelayServer.CrcLog) : Prop where
  rows : ∃ f, p.crc = Dict.table tick f (underway n c) ∧
    ∀ k ∈ underway n c, (f k).Perm ((reporters n c k).map fun s => (s, sum s k))
  slots : TableHolds r.crc p.crc
  count : r.ncrc = begun n c - closed n c

/-- As long as no member of a match of two to four gets more than 64 reports ahead of another, whatever order
the reports come in, both relays log a mismatch for each round that is over and in which two members
differ, with the checksums of all, count the rounds that agree, and keep exactly the rounds that have begun and
are not over, each with what has been reported for it.
SOURCE: intv-relay.c:1136-1247, intv_relay_server.py:469-490 -/
theorem rounds_compared (n : ℕ) (hn : 2 ≤ n ∧ n ≤ 4) (tick : ℕ → ℕ) (sum : ℕ → ℕ → ℕ) (ss : List ℕ)
    (hss : ∀ s ∈ ss, s < n) (htick : Apart tick)
    (hclose : ∀ q, q <+: ss → Close n fun s => q.count s) :
    (relayLog n (arrivals tick sum (fun _ => 0) ss)).mismatches =
        roundMismatches n tick sum (closed n fun s => ss.count s) ∧
      (relayLog n (arrivals tick sum (fun _ => 0) ss)).crc_ok =
        roundsAgreed n sum (closed n fun s => ss.count s) % 2 ^ 32 ∧
      RoundsKept n tick sum (fun s => ss.count s) (relayLog n (arrivals tick sum (fun _ => 0) ss))
        (serverLog n (arrivals tick sum (fun _ => 0) ss)) ∧
      (relayLog n (arrivals tick sum (fun _ => 0) ss)).reached = [] ∧
      (serverLog n (arrivals tick sum (fun _ => 0) ss)).mismatches =
        roundMismatches n tick sum (closed n fun s => ss.count s) ∧
      (serverLog n (arrivals tick sum (fun _ => 0) ss)).crc_ok =
        roundsAgreed n sum (closed n fun s => ss.count s) := by
  have hpos : 0 < n := by omega
  have hlog : Logged n tick sum (fun s => ss.count s) (serverLog n (arrivals tick sum (fun _ => 0) ss)) := by
    rw [← made_zero ss]
    apply (logged_start hpos tick sum).run htick hss
    intro q hq
    rw [made_zero q]
    exact hclose q hq
  have hagree : Agree n (relayLog n (arrivals tick sum (fun _ => 0) ss))
      (serverLog n (arrivals tick sum (fun _ => 0) ss)) := by
    apply (agree_start n).run ⟨hpos, hn.2⟩
    intro x hx
    have := arrivals_seats hss x hx
    omega
  refine ⟨?_, ?_, ?_, hagree.reached, hlog.mismatches, hlog.crc_ok⟩
  · rw [hagree.mismatches]
    exact hlog.mismatches
  · rw [hagree.crc_ok, hlog.crc_ok]
  · refine ⟨hlog.rows, hagree.table, ?_⟩
    obtain ⟨f, hf, -⟩ := hlog.rows
    rw [hagree.ncrc, hf, Dict.length_table, underway, List.length_range']

/-- The host is one report ahead in the end, and the two differ in the second round. -/
theorem rounds_compared_two :
    (relayLog 2 (arrivals (fun k => 64 * k % 65536) (fun s k => if s = 1 ∧ k = 1 then 7 else 5) (fun _ => 0)
      [0, 0, 1, 0, 1])).mismatches = [(64, [(0, 5), (1, 7)])] ∧
    (relayLog 2 (arrivals (fun k => 64 * k % 65536) (fun s k => if s = 1 ∧ k = 1 then 7 else 5) (fun _ => 0)
      [0, 0, 1, 0, 1])).ncrc = 1 := by
  have hclose : ∀ q, q <+: [0, 0, 1, 0, 1] → Close 2 fun s => q.count s := by
    intro q hq i _ j _
    have h1 : q.count i ≤ q.length := List.count_le_length
    have h2 : q.length ≤ 5 := hq.length_le
    simp only [IntvRelay.CRC_TICKS]
    omega
  obtain ⟨hlines, -, hkept, -⟩ := rounds_compared 2 (by decide) (fun k => 64 * k % 65536)
    (fun s k => if s = 1 ∧ k = 1 then 7 else 5) [0, 0, 1, 0, 1] (by decide) apart_reports hclose
  rw [hlines, hkept.count]
  decide

end BoxingNetplay.Analysis
