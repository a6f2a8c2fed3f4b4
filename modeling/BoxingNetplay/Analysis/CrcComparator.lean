import BoxingNetplay.Model.CrcLog
import Mathlib.Data.List.Dedup
import Mathlib.Data.List.Sort

/-!
# The two CRC comparators agree

The rows of the C relay hold the outer dictionary of the Python relay and the slots of a row the inner one.
A call of `log_crc` keeps it so, through the insertion, the eviction and the completion of a row; the
verdict it logs is read off a row that may just have been evicted.
-/

set_option autoImplicit false

namespace BoxingNetplay.Analysis

open BoxingNetplay.Library
open BoxingNetplay.Library.SlotTable
open BoxingNetplay.Model
open BoxingNetplay.Model.IntvRelay

/-! ### Rows and tables -/

/-- A row holds the checksums of a tick. -/
structure RowHolds (row : CrcRow) (entry : List (ℕ × ℕ)) : Prop where
  slots : Holds CrcSlot.in_use CrcSlot.seat (fun s crc => s.crc = crc) CRC_SEATS row.s entry
  nseats : row.nseats = entry.length
  seats : ∀ p ∈ entry, p.1 < 256

/-- The rows hold the ticks. -/
abbrev TableHolds (t : ℕ → CrcRow) (d : List (ℕ × List (ℕ × ℕ))) : Prop :=
  Holds CrcRow.in_use CrcRow.tick RowHolds (CRC_TICKS + 1) t d

/-- A fresh row holds no checksums. -/
theorem rowHolds_fresh (tick : ℕ) : RowHolds (CrcRow.fresh tick) [] :=
  ⟨Holds.empty fun _ _ => rfl, rfl, fun _ h => nomatch h⟩

/-- A seat's checksum goes into a row that is not full. -/
theorem putSeat_spec {row : CrcRow} {e : List (ℕ × ℕ)} (h : RowHolds row e) {seat : ℕ} (crc : ℕ)
    (hseat : seat < 256) (hlen : e.length < CRC_SEATS) :
    ∃ row', putSeat row seat crc = some row' ∧ RowHolds row' (Dict.set e seat crc) ∧
      row'.in_use = row.in_use ∧ row'.tick = row.tick := by
  have hseats : ∀ p ∈ Dict.set e seat crc, p.1 < 256 := by
    intro p hp
    rcases Dict.mem_set hp with rfl | ⟨hmem, -⟩
    · exact hseat
    · exact h.seats p hmem
  unfold putSeat
  cases hf : findKey CrcSlot.in_use CrcSlot.seat CRC_SEATS row.s seat with
  | some i =>
    obtain ⟨hi, hu, hk⟩ := findKey_some hf
    obtain ⟨b, hb, -⟩ := h.slots.get_of_find hf
    have hset := h.slots.set (x := { row.s i with crc := crc }) (b := crc) hi hu rfl (Or.inl ⟨hu, rfl⟩)
    rw [show CrcSlot.seat { row.s i with crc := crc } = seat from hk] at hset
    refine ⟨_, rfl, ⟨hset, ?_, hseats⟩, rfl, rfl⟩
    rw [Dict.length_set_some hb]
    exact h.nseats
  | none =>
    have hnone := h.slots.get_of_none hf
    obtain ⟨i, hfree⟩ := h.slots.exists_free hlen
    obtain ⟨hi, hu⟩ := findFree_some hfree
    have hset := h.slots.set (x := ⟨true, seat, crc⟩) (b := crc) hi rfl rfl (Or.inr ⟨hu, hnone⟩)
    rw [hfree]
    refine ⟨_, rfl, ⟨hset, ?_, hseats⟩, rfl, rfl⟩
    rw [Dict.length_set_none hnone]
    exact congrArg (· + 1) h.nseats

/-- The row of a tick, found or taken: it holds the tick's checksums, and once it is written the table holds
the dictionary with the tick set. -/
structure RowFound (r : CrcLog) (d : List (ℕ × List (ℕ × ℕ))) (tick i : ℕ) (r' : CrcLog) : Prop where
  lt : i < CRC_TICKS + 1
  row : RowHolds (r'.crc i) ((Dict.get d tick).getD [])
  in_use : (r'.crc i).in_use = true
  tick_eq : (r'.crc i).tick = tick
  write : ∀ (row' : CrcRow) (e : List (ℕ × ℕ)), row'.in_use = true → row'.tick = tick → RowHolds row' e →
    TableHolds (Function.update r'.crc i row') (Dict.set d tick e)
  ncrc : ∀ e : List (ℕ × ℕ), r'.ncrc = (Dict.set d tick e).length
  rest : r'.crc_ok = r.crc_ok ∧ r'.mismatches = r.mismatches ∧ r'.reached = r.reached

/-- Such a row there always is. -/
theorem crcRow_spec {r : CrcLog} {d : List (ℕ × List (ℕ × ℕ))} (h : TableHolds r.crc d)
    (hn : r.ncrc = d.length) (hlen : d.length ≤ CRC_TICKS) (tick : ℕ) :
    ∃ i r', crcRow r tick = some (i, r') ∧ RowFound r d tick i r' := by
  unfold crcRow
  cases hf : findKey CrcRow.in_use CrcRow.tick (CRC_TICKS + 1) r.crc tick with
  | some i =>
    obtain ⟨hi, hu, hk⟩ := findKey_some hf
    obtain ⟨e, he, hrow⟩ := h.get_of_find hf
    refine ⟨i, r, rfl, hi, by rw [he]; exact hrow, hu, hk, fun row' e' hu' hk' hrow' => ?_,
      fun e' => ?_, rfl, rfl, rfl⟩
    · rw [← hk']
      exact h.set hi hu' hrow' (Or.inl ⟨hu, hk.trans hk'.symm⟩)
    · rw [Dict.length_set_some he, hn]
  | none =>
    have hnone := h.get_of_none hf
    obtain ⟨i, hfree⟩ := h.exists_free (Nat.lt_succ_of_le hlen)
    obtain ⟨hi, hu⟩ := findFree_some hfree
    have hself : Function.update r.crc i (CrcRow.fresh tick) i = CrcRow.fresh tick :=
      Function.update_self ..
    rw [hfree]
    refine ⟨i, _, rfl, hi, ?_, ?_, ?_, fun row' e' hu' hk' hrow' => ?_, fun e' => ?_, rfl, rfl, rfl⟩
    · show RowHolds (Function.update r.crc i (CrcRow.fresh tick) i) _
      rw [hself, hnone]
      exact rowHolds_fresh tick
    · exact congrArg CrcRow.in_use hself
    · exact congrArg CrcRow.tick hself
    · rw [Function.update_idem, ← hk']
      exact h.set hi hu' hrow' (Or.inr ⟨hu, hk' ▸ hnone⟩)
    · rw [Dict.length_set_none hnone, ← hn]

/-- What an eviction leaves: the dictionary's, and every row as it was but for its flag. -/
structure Evicted (r r' : CrcLog) (d : List (ℕ × List (ℕ × ℕ))) : Prop where
  table : TableHolds r'.crc (RelayServer.popLowest d)
  ncrc : r'.ncrc = (RelayServer.popLowest d).length
  short : (RelayServer.popLowest d).length ≤ CRC_TICKS
  sub : (RelayServer.popLowest d).Sublist d
  row : ∀ i, (r'.crc i).tick = (r.crc i).tick ∧ (r'.crc i).nseats = (r.crc i).nseats ∧
    (r'.crc i).s = (r.crc i).s
  flag : ∀ i, (r'.crc i).in_use = true → (r.crc i).in_use = true
  rest : r'.crc_ok = r.crc_ok ∧ r'.mismatches = r.mismatches ∧ r'.reached = r.reached

/-- A row that is given up. -/
theorem dropRow_row (r : CrcLog) (i j : ℕ) :
    ((dropRow r i).crc j).tick = (r.crc j).tick ∧ ((dropRow r i).crc j).nseats = (r.crc j).nseats ∧
      ((dropRow r i).crc j).s = (r.crc j).s := by
  unfold dropRow
  by_cases hj : j = i
  · rw [hj]
    simp
  · simp [hj]

/-- This is what giving up a row does. -/
theorem evict_spec {r : CrcLog} {d : List (ℕ × List (ℕ × ℕ))} (h : TableHolds r.crc d)
    (hn : r.ncrc = d.length) (hlen : d.length ≤ CRC_TICKS + 1) : Evicted r (evict r) d := by
  unfold evict
  by_cases hbig : CRC_TICKS < r.ncrc
  · have hne : d ≠ [] := by
      rintro rfl
      rw [hn] at hbig
      exact absurd hbig (Nat.not_lt_zero _)
    obtain ⟨i, hi, hu, hlow, hmin⟩ := h.min_key hne
    have hpop : RelayServer.popLowest d = Dict.del d (r.crc i).tick := by
      rw [RelayServer.popLowest, if_pos (by rw [← hn]; exact hbig), hmin]
    obtain ⟨b, hb, -⟩ := h.there i hi hu
    have hdel := Dict.length_del_some (Dict.get_eq h.nodup hb)
    rw [if_pos hbig, hlow]
    refine ⟨?_, ?_, ?_, ?_, dropRow_row r i, fun j hj => ?_, rfl, rfl, rfl⟩
    · rw [hpop]
      exact h.del hi hu rfl
    · rw [hpop, hdel, ← hn]
      rfl
    · rw [hpop, hdel]
      omega
    · rw [hpop]
      exact Dict.del_sublist d _
    · by_cases hji : j = i
      · rw [hji]
        exact hu
      · have hother : (dropRow r i).crc j = r.crc j := Function.update_of_ne hji _ _
        rwa [hother] at hj
  · have hpop : RelayServer.popLowest d = d := by
      rw [RelayServer.popLowest, if_neg (by rw [← hn]; exact hbig)]
    rw [if_neg hbig]
    refine ⟨?_, ?_, ?_, ?_, fun i => ⟨rfl, rfl, rfl⟩, fun _ hi => hi, rfl, rfl, rfl⟩
    · rw [hpop]
      exact h
    · rw [hpop]
      exact hn
    · rw [hpop]
      omega
    · rw [hpop]

/-! ### Verdicts -/

/-- The loop over the slots of a row has seen one checksum only. -/
theorem agrees_foldl (row : CrcRow) (l : List ℕ) (seen first : ℕ) (agree : Bool) (hseen : seen ≠ 0) :
    (l.foldl (fun (acc : ℕ × ℕ × Bool) i =>
      if (row.s i).in_use = false then acc
      else if acc.1 = 0 then (acc.1 + 1, (row.s i).crc, acc.2.2)
      else (acc.1 + 1, acc.2.1, if (row.s i).crc ≠ acc.2.1 then false else acc.2.2))
      (seen, first, agree)).2.2 = true ↔
    agree = true ∧ ∀ i ∈ l, (row.s i).in_use = true → (row.s i).crc = first := by
  induction l generalizing seen agree with
  | nil => simp
  | cons j l ih =>
    rw [List.foldl_cons]
    cases hu : (row.s j).in_use with
    | false =>
      rw [if_pos rfl, ih seen agree hseen]
      simp [hu]
    | true =>
      rw [if_neg (by simp), if_neg hseen, ih _ _ (Nat.succ_ne_zero _)]
      by_cases hc : (row.s j).crc = first
      · rw [if_neg (not_not.mpr hc)]
        simp [hc]
      · rw [if_pos hc]
        simp [hc, hu]

/-- The loop says that a row agrees exactly when all its checksums are one. -/
theorem rowAgrees_iff (row : CrcRow) : rowAgrees row = true ↔
    ∃ v, ∀ i < CRC_SEATS, (row.s i).in_use = true → (row.s i).crc = v := by
  have hloop : ∀ l : List ℕ, ((l.foldl (fun (acc : ℕ × ℕ × Bool) i =>
      if (row.s i).in_use = false then acc
      else if acc.1 = 0 then (acc.1 + 1, (row.s i).crc, acc.2.2)
      else (acc.1 + 1, acc.2.1, if (row.s i).crc ≠ acc.2.1 then false else acc.2.2))
      (0, 0, true)).2.2 = true ↔
      ∃ v, ∀ i ∈ l, (row.s i).in_use = true → (row.s i).crc = v) := by
    intro l
    induction l with
    | nil => simp
    | cons j l ih =>
      rw [List.foldl_cons]
      cases hu : (row.s j).in_use with
      | false =>
        rw [if_pos rfl, ih]
        simp [hu]
      | true =>
        rw [if_neg (by simp), if_pos rfl, agrees_foldl row l _ _ _ (Nat.succ_ne_zero _)]
        constructor
        · rintro ⟨-, h⟩
          refine ⟨(row.s j).crc, fun i hi hui => ?_⟩
          rcases List.mem_cons.mp hi with rfl | hi
          · rfl
          · exact h i hi hui
        · rintro ⟨v, h⟩
          refine ⟨rfl, fun i hi hui => ?_⟩
          rw [h i (List.mem_cons_of_mem _ hi) hui, h j List.mem_cons_self hu]
  unfold rowAgrees
  rw [hloop]
  simp only [List.mem_range]

/-- A set of values has one element exactly when they are one. -/
theorem dedup_length_one {l : List ℕ} (hne : l ≠ []) :
    l.dedup.length = 1 ↔ ∃ v, ∀ x ∈ l, x = v := by
  constructor
  · intro h
    obtain ⟨v, hv⟩ := List.length_eq_one_iff.mp h
    exact ⟨v, fun x hx => by simpa [hv] using List.mem_dedup.mpr hx⟩
  · rintro ⟨v, hv⟩
    obtain ⟨x, hx⟩ := List.exists_mem_of_ne_nil l hne
    have hsub : ∀ y ∈ l.dedup, y = x := fun y hy =>
      (hv y (List.mem_dedup.mp hy)).trans (hv x hx).symm
    have hle : l.dedup.length ≤ [x].length :=
      (l.nodup_dedup.subperm fun y hy => by simp [hsub y hy]).length_le
    have hpos : 0 < l.dedup.length := List.length_pos_of_mem (List.mem_dedup.mpr hx)
    simp only [List.length_singleton] at hle
    omega

/-- Both relays find the same checksums agreeing. -/
theorem agrees_eq {row : CrcRow} {e : List (ℕ × ℕ)} (h : RowHolds row e) (hne : e ≠ []) :
    rowAgrees row = true ↔ (e.map Prod.snd).dedup.length = 1 := by
  rw [rowAgrees_iff, dedup_length_one (by simpa using hne)]
  apply exists_congr
  intro v
  constructor
  · intro hall x hx
    obtain ⟨p, hp, rfl⟩ := List.mem_map.mp hx
    obtain ⟨i, hi, hu, -, hc⟩ := h.slots.back p hp
    rw [← hc]
    exact hall i hi hu
  · intro hall i hi hu
    obtain ⟨b, hb, hc⟩ := h.slots.there i hi hu
    rw [hc]
    exact hall b (List.mem_map.mpr ⟨_, hb, rfl⟩)

/-! ### The printed line -/

/-- The entries of the keys below a bound, in their order. -/
def upTo (e : List (ℕ × ℕ)) (m : ℕ) : List (ℕ × ℕ) :=
  (List.range m).filterMap fun p => (Dict.get e p).map fun crc => (p, crc)

/-- These are the entries the dictionary has below the bound. -/
theorem mem_upTo {e : List (ℕ × ℕ)} {m : ℕ} {p : ℕ × ℕ} :
    p ∈ upTo e m ↔ p.1 < m ∧ Dict.get e p.1 = some p.2 := by
  simp only [upTo, List.mem_filterMap, List.mem_range, Option.map_eq_some_iff]
  constructor
  · rintro ⟨k, hk, crc, hget, rfl⟩
    exact ⟨hk, hget⟩
  · rintro ⟨hk, hget⟩
    exact ⟨p.1, hk, p.2, hget, rfl⟩

/-- The next key adds its entry, if it has one. -/
theorem upTo_succ (e : List (ℕ × ℕ)) (m : ℕ) :
    upTo e (m + 1) = upTo e m ++ ((Dict.get e m).map fun crc => (m, crc)).toList := by
  unfold upTo
  rw [List.range_succ, List.filterMap_append]
  cases hget : Dict.get e m with
  | none => simp [hget]
  | some crc => simp [hget]

/-- Their keys go up. -/
theorem upTo_pairwise (e : List (ℕ × ℕ)) (m : ℕ) : (upTo e m).Pairwise fun a b => a.1 < b.1 := by
  apply List.Pairwise.filterMap _ _ List.pairwise_lt_range
  intro a a' hlt b hb b' hb'
  simp only [Option.map_eq_some_iff] at hb hb'
  obtain ⟨-, -, rfl⟩ := hb
  obtain ⟨-, -, rfl⟩ := hb'
  exact hlt

/-- There are no more of them than entries. -/
theorem upTo_length (e : List (ℕ × ℕ)) (m : ℕ) : (upTo e m).length ≤ e.length := by
  have hnodup : (upTo e m).Nodup := (upTo_pairwise e m).imp fun h heq => by
    rw [heq] at h
    exact Nat.lt_irrefl _ h
  exact (hnodup.subperm fun p hp => Dict.mem_of_get (mem_upTo.mp hp).2).length_le

/-- The slots a pass of the print loop emits. -/
theorem emit_foldl (row : CrcRow) (pass : ℕ) (l : List ℕ) (out : List (ℕ × ℕ)) :
    l.foldl (fun out i =>
      if (row.s i).in_use && (row.s i).seat = pass then out ++ [((row.s i).seat, (row.s i).crc)]
      else out) out =
    out ++ (l.filter fun i => (row.s i).in_use && (row.s i).seat = pass).map
      fun i => ((row.s i).seat, (row.s i).crc) := by
  induction l generalizing out with
  | nil => simp
  | cons j l ih =>
    rw [List.foldl_cons, List.filter_cons]
    split
    · rw [ih, List.map_cons, List.append_assoc, List.singleton_append]
    · exact ih out

/-- They are the entry of its seat. -/
theorem emitted {row : CrcRow} {e : List (ℕ × ℕ)} (h : RowHolds row e) (pass : ℕ) :
    ((List.range CRC_SEATS).filter fun i => (row.s i).in_use && (row.s i).seat = pass).map
      (fun i => ((row.s i).seat, (row.s i).crc)) =
    ((Dict.get e pass).map fun crc => (pass, crc)).toList := by
  cases hget : Dict.get e pass with
  | none =>
    have hempty : ((List.range CRC_SEATS).filter fun i =>
        (row.s i).in_use && (row.s i).seat = pass) = [] := by
      rw [List.filter_eq_nil_iff]
      intro i hi hp
      simp only [Bool.and_eq_true, decide_eq_true_eq] at hp
      obtain ⟨b, hb, -⟩ := h.slots.there i (List.mem_range.mp hi) hp.1
      exact Dict.ne_of_get_none hget _ hb hp.2
    rw [hempty]
    rfl
  | some crc =>
    obtain ⟨i, hi, hu, hk, hc⟩ := h.slots.back _ (Dict.mem_of_get hget)
    have hone : ((List.range CRC_SEATS).filter fun j =>
        (row.s j).in_use && (row.s j).seat = pass) = [i] := by
      have hcongr : ((List.range CRC_SEATS).filter fun j =>
          (row.s j).in_use && (row.s j).seat = pass) =
          (List.range CRC_SEATS).filter fun j => j == i := by
        apply List.filter_congr
        intro j hj
        rw [Bool.eq_iff_iff]
        simp only [Bool.and_eq_true, decide_eq_true_eq, beq_iff_eq]
        constructor
        · rintro ⟨huj, hkj⟩
          exact h.slots.inj j (List.mem_range.mp hj) i hi huj hu (hkj.trans hk.symm)
        · rintro rfl
          exact ⟨hu, hk⟩
      rw [hcongr, List.filter_beq, List.count_eq_one_of_mem List.nodup_range (List.mem_range.mpr hi)]
      rfl
    rw [hone]
    have hseat : (row.s i).seat = pass := hk
    have hcrc : (row.s i).crc = crc := hc
    simp [hseat, hcrc]

/-- After `m` passes the entries of the seats below `m` are printed: the loop stops early only when all
are. -/
theorem print_passes {row : CrcRow} {e : List (ℕ × ℕ)} (h : RowHolds row e) (m : ℕ) :
    (List.range m).foldl (fun out pass =>
      if out.length < row.nseats then
        (List.range CRC_SEATS).foldl (fun out i =>
          if (row.s i).in_use && (row.s i).seat = pass then out ++ [((row.s i).seat, (row.s i).crc)]
          else out) out
      else out) [] = upTo e m := by
  induction m with
  | zero => rfl
  | succ m ih =>
    have hsucc := upTo_succ e m
    rw [List.range_succ (n := m), List.foldl_append, List.foldl_cons, List.foldl_nil, ih]
    by_cases hmore : (upTo e m).length < row.nseats
    · rw [if_pos hmore, emit_foldl, emitted h, hsucc]
    · have hall := upTo_length e (m + 1)
      rw [h.nseats] at hmore
      rw [hsucc, List.length_append] at hall
      have hnil : ((Dict.get e m).map fun crc => (m, crc)).toList = [] :=
        List.eq_nil_of_length_eq_zero (by omega)
      rw [if_neg (by rw [h.nseats]; exact hmore), hsucc, hnil, List.append_nil]

/-- Both relays print the same line. -/
theorem mismatchLine_eq {row : CrcRow} {e : List (ℕ × ℕ)} (h : RowHolds row e) :
    mismatchLine row = RelayServer.sortedItems e := by
  have hline : mismatchLine row = upTo e 256 := print_passes h 256
  have hperm : (RelayServer.sortedItems e).Perm e := List.mergeSort_perm e _
  have hle : (RelayServer.sortedItems e).Pairwise fun a b =>
      (a.1 < b.1 || (a.1 = b.1 && a.2 ≤ b.2)) = true := by
    apply List.pairwise_mergeSort
    · intro a b c hab hbc
      simp only [Bool.or_eq_true, Bool.and_eq_true, decide_eq_true_eq] at *
      omega
    · intro a b
      simp only [Bool.or_eq_true, Bool.and_eq_true, decide_eq_true_eq]
      omega
  have hkeys : (RelayServer.sortedItems e).Pairwise fun a b => a.1 ≠ b.1 :=
    List.pairwise_map.mp ((hperm.map Prod.fst).nodup_iff.mpr h.slots.nodup)
  have hlt : (RelayServer.sortedItems e).Pairwise fun a b => a.1 < b.1 :=
    (hle.and hkeys).imp fun ⟨hab, hne⟩ => by
      simp only [Bool.or_eq_true, Bool.and_eq_true, decide_eq_true_eq] at hab
      omega
  rw [hline]
  have : Std.Antisymm fun a b : ℕ × ℕ => a.1 < b.1 :=
    ⟨fun a b hab hba => absurd hab (Nat.lt_asymm hba)⟩
  have : Std.Irrefl fun a b : ℕ × ℕ => a.1 < b.1 := ⟨fun a => Nat.lt_irrefl _⟩
  apply (upTo_pairwise e 256).eq_of_mem_iff hlt
  intro p
  rw [mem_upTo, hperm.mem_iff]
  constructor
  · rintro ⟨-, hget⟩
    exact Dict.mem_of_get hget
  · intro hp
    exact ⟨h.seats p hp, Dict.get_eq h.slots.nodup hp⟩

/-! ### Runs -/

/-- The two logs of one match of `n` members. -/
structure Agree (n : ℕ) (r : IntvRelay.CrcLog) (p : RelayServer.CrcLog) : Prop where
  table : TableHolds r.crc p.crc
  ncrc : r.ncrc = p.crc.length
  bound : p.crc.length ≤ CRC_TICKS
  short : ∀ x ∈ p.crc, x.2.length < n
  crc_ok : r.crc_ok = p.crc_ok % 2 ^ 32
  mismatches : r.mismatches = p.mismatches
  reached : r.reached = []

/-- When a match starts both logs are empty. -/
theorem agree_start (n : ℕ) : Agree n IntvRelay.CrcLog.start RelayServer.CrcLog.start :=
  ⟨Holds.empty fun _ _ => rfl, rfl, Nat.zero_le _, fun _ h => (nomatch h), rfl, rfl, rfl⟩

/-- A completed row is given up if it still is in use; the dictionary loses its tick. -/
theorem complete_spec {r : IntvRelay.CrcLog} {d : List (ℕ × List (ℕ × ℕ))} {i : ℕ}
    (h : TableHolds r.crc d) (hn : r.ncrc = d.length) (hi : i < CRC_TICKS + 1)
    (hgone : (r.crc i).in_use = false → Dict.get d (r.crc i).tick = none) :
    ∃ r', (if (r.crc i).in_use = true then dropRow r i else r) = r' ∧
      TableHolds r'.crc (Dict.del d (r.crc i).tick) ∧ r'.ncrc = (Dict.del d (r.crc i).tick).length ∧
      r'.crc_ok = r.crc_ok ∧ r'.mismatches = r.mismatches ∧ r'.reached = r.reached := by
  refine ⟨_, rfl, ?_⟩
  cases hu : (r.crc i).in_use with
  | true =>
    obtain ⟨b, hb, -⟩ := h.there i hi hu
    rw [if_pos rfl, Dict.length_del_some (Dict.get_eq h.nodup hb), ← hn]
    exact ⟨h.del hi hu rfl, rfl, rfl, rfl, rfl⟩
  | false =>
    rw [if_neg (by simp), Dict.del_none (hgone hu)]
    exact ⟨h, hn, rfl, rfl, rfl⟩

/-- One payload, handled by both. -/
theorem Agree.log_crc {n : ℕ} {r : IntvRelay.CrcLog} {p : RelayServer.CrcLog} (h : Agree n r p)
    (hn : 0 < n ∧ n ≤ 4) (payload : List ℕ) (hseat : crcSeat payload < 256) :
    Agree n (IntvRelay.log_crc r n payload) (RelayServer.log_crc p n payload) := by
  obtain ⟨i, r1, hfind, hfound⟩ := crcRow_spec h.table h.ncrc h.bound (crcTick payload)
  -- the row holds fewer checksums than the room has members
  have hshort : ((Dict.get p.crc (crcTick payload)).getD []).length < n := by
    cases hget : Dict.get p.crc (crcTick payload) with
    | none => exact hn.1
    | some e => exact h.short _ (Dict.mem_of_get hget)
  obtain ⟨row, hput, hrow, hu, hk⟩ := putSeat_spec hfound.row (crcValue payload) hseat
    (Nat.lt_of_lt_of_le hshort (Nat.le_trans hn.2 (by decide)))
  unfold IntvRelay.log_crc RelayServer.log_crc
  rw [hfind]
  simp only [hput]
  generalize he : Dict.set ((Dict.get p.crc (crcTick payload)).getD []) (crcSeat payload)
    (crcValue payload) = e at hrow ⊢
  generalize hd : Dict.set p.crc (crcTick payload) e = d
  have htable : TableHolds (Function.update r1.crc i row) d :=
    hd ▸ hfound.write row e (hu.trans hfound.in_use) (hk.trans hfound.tick_eq) hrow
  have hncrc : r1.ncrc = d.length := hd ▸ hfound.ncrc e
  have hlen : d.length ≤ CRC_TICKS + 1 := by
    rw [← hd]
    cases hget : Dict.get p.crc (crcTick payload) with
    | none => rw [Dict.length_set_none hget]; exact Nat.succ_le_succ h.bound
    | some e' => rw [Dict.length_set_some hget]; exact Nat.le_succ_of_le h.bound
  have hmem : ∀ x ∈ d, x.1 ≠ crcTick payload → x.2.length < n := by
    intro x hx hne
    rcases Dict.mem_set (hd ▸ hx) with rfl | ⟨hx, -⟩
    · exact absurd rfl hne
    · exact h.short x hx
  have hat : Function.update r1.crc i row i = row := Function.update_self ..
  have hev := evict_spec (r := { r1 with crc := Function.update r1.crc i row }) htable hncrc hlen
  generalize hr2 : evict { r1 with crc := Function.update r1.crc i row } = r2 at hev ⊢
  have hok : r2.crc_ok = p.crc_ok % 2 ^ 32 := hev.rest.1.trans (hfound.rest.1.trans h.crc_ok)
  have hmis : r2.mismatches = p.mismatches := hev.rest.2.1.trans (hfound.rest.2.1.trans h.mismatches)
  have hreach : r2.reached = [] := hev.rest.2.2.trans (hfound.rest.2.2.trans h.reached)
  have htick2 : (r2.crc i).tick = row.tick := (hev.row i).1.trans (congrArg CrcRow.tick hat)
  have hnseats2 : (r2.crc i).nseats = row.nseats :=
    (hev.row i).2.1.trans (congrArg CrcRow.nseats hat)
  have hs2 : (r2.crc i).s = row.s := (hev.row i).2.2.trans (congrArg CrcRow.s hat)
  have hrow2 : RowHolds (r2.crc i) e := ⟨hs2 ▸ hrow.slots, hnseats2.trans hrow.nseats, hrow.seats⟩
  have htick : (r2.crc i).tick = crcTick payload := htick2.trans (hk.trans hfound.tick_eq)
  rw [hrow2.nseats]
  by_cases hfew : e.length < n
  · rw [if_pos hfew, if_pos hfew]
    refine ⟨hev.table, hev.ncrc, hev.short, fun x hx => ?_, hok, hmis, hreach⟩
    by_cases hxt : x.1 = crcTick payload
    · have hx' : (crcTick payload, x.2) ∈ Dict.set p.crc (crcTick payload) e := by
        rw [hd, ← hxt]
        exact hev.sub.subset hx
      rcases Dict.mem_set hx' with heq | ⟨-, hne⟩
      · rw [(Prod.mk.inj heq).2]
        exact hfew
      · exact absurd rfl hne
    · exact hmem x (hev.sub.subset hx) hxt
  · rw [if_neg hfew, if_neg hfew]
    have hne : e ≠ [] := by
      rintro rfl
      exact hfew hn.1
    -- a row that is not in use any more was evicted, and its tick with it
    have hgone : (r2.crc i).in_use = false →
        Dict.get (RelayServer.popLowest d) (r2.crc i).tick = none := by
      intro hu2
      apply Dict.get_none
      intro x hx hxk
      obtain ⟨j, hj, huj, hkj, -⟩ := hev.table.back x hx
      have huj1 := hev.flag j huj
      have hkj1 : (Function.update r1.crc i row j).tick = (Function.update r1.crc i row i).tick := by
        rw [hat, ← htick2, ← hxk, ← hkj]
        exact (hev.row j).1.symm
      have hji := htable.inj j hj i hfound.lt huj1 (by rw [hat, hu]; exact hfound.in_use) hkj1
      rw [hji, hu2] at huj
      cases huj
    obtain ⟨r3, hr3, htable3, hn3, hok3, hmis3, hreach3⟩ :=
      complete_spec hev.table hev.ncrc hfound.lt hgone
    rw [htick] at htable3 hn3
    have hbound3 : (Dict.del (RelayServer.popLowest d) (crcTick payload)).length ≤ CRC_TICKS :=
      Nat.le_trans (Dict.del_sublist _ _).length_le hev.short
    have hshort3 : ∀ x ∈ Dict.del (RelayServer.popLowest d) (crcTick payload), x.2.length < n := by
      intro x hx
      obtain ⟨hx, hxt⟩ := (Dict.mem_del hev.table.nodup _ x).mp hx
      exact hmem x (hev.sub.subset hx) hxt
    have hagree := agrees_eq hrow2 hne
    rw [hr3]
    by_cases ha : rowAgrees (r2.crc i) = true
    · rw [if_pos ha, if_neg (not_not.mpr (hagree.mp ha))]
      refine ⟨htable3, hn3, hbound3, hshort3, ?_, hmis3.trans hmis, hreach3.trans hreach⟩
      rw [hok3, hok, Nat.mod_add_mod]
    · rw [if_neg ha, if_pos (mt hagree.mpr ha), mismatchLine_eq hrow2, hmis3, hmis]
      exact ⟨htable3, hn3, hbound3, hshort3, hok3.trans hok, rfl, hreach3.trans hreach⟩

/-- And a whole match of them. -/
theorem Agree.run {n : ℕ} {r : IntvRelay.CrcLog} {p : RelayServer.CrcLog} (h : Agree n r p)
    (hn : 0 < n ∧ n ≤ 4) (payloads : List (List ℕ)) (hseat : ∀ x ∈ payloads, crcSeat x < 256) :
    Agree n (payloads.foldl (fun r x => IntvRelay.log_crc r n x) r)
      (payloads.foldl (fun p x => RelayServer.log_crc p n x) p) := by
  induction payloads generalizing r p with
  | nil => exact h
  | cons x xs ih =>
    exact ih (h.log_crc hn x (hseat x List.mem_cons_self)) fun y hy =>
      hseat y (List.mem_cons_of_mem _ hy)

/-- The log of the C relay after the CRC payloads of a match of `n` members. -/
def relayLog (n : ℕ) (payloads : List (List ℕ)) : IntvRelay.CrcLog :=
  payloads.foldl (fun r x => IntvRelay.log_crc r n x) IntvRelay.CrcLog.start

/-- The log of the Python relay after them. -/
def serverLog (n : ℕ) (payloads : List (List ℕ)) : RelayServer.CrcLog :=
  payloads.foldl (fun p x => RelayServer.log_crc p n x) RelayServer.CrcLog.start

/-- In a match of two to four members both relays log the same mismatches; the C relay counts the rounds that
agree modulo `2 ^ 32`, takes none of the branches for a full table or row, and counts the rows
in use, which are at most 64. -/
theorem comparators_agree (n : ℕ) (hn : 2 ≤ n ∧ n ≤ 4) (payloads : List (List ℕ))
    (hlen : ∀ x ∈ payloads, x.length = 5) (hbyte : ∀ x ∈ payloads, ∀ b ∈ x, b < 256) :
    (relayLog n payloads).mismatches = (serverLog n payloads).mismatches ∧
    (relayLog n payloads).crc_ok = (serverLog n payloads).crc_ok % 2 ^ 32 ∧
    (relayLog n payloads).reached = [] ∧
    (relayLog n payloads).ncrc =
      (live CrcRow.in_use (CRC_TICKS + 1) (relayLog n payloads).crc).card ∧
    (relayLog n payloads).ncrc ≤ 64 := by
  have hseat : ∀ x ∈ payloads, crcSeat x < 256 := by
    intro x hx
    have hpos : 0 < x.length := by rw [hlen x hx]; decide
    unfold crcSeat
    rw [List.getD_eq_getElem?_getD, List.getElem?_eq_getElem hpos, Option.getD_some]
    exact hbyte x hx _ (List.getElem_mem hpos)
  have h := (agree_start n).run ⟨by omega, hn.2⟩ payloads hseat
  refine ⟨h.mismatches, h.crc_ok, h.reached, ?_, ?_⟩
  · exact h.ncrc.trans h.table.card_live.symm
  · exact h.ncrc.trans_le h.bound

/-- A match of two in which seat 0 reports 66 ticks, two more than are kept.  The tick 65 is finished by
a seat that is not in the match; seat 1 differs at the tick 64 and agrees at 63, and the row it
finds for the tick 0 has been evicted. -/
def crowdedMatch : List (List ℕ) :=
  (List.range 66).map (fun tick => [0, tick, 0, 1, 2]) ++
    [[7, 65, 0, 1, 2], [1, 64, 0, 3, 2], [1, 63, 0, 1, 2], [1, 0, 0, 1, 2]]

/-- Both relays log the one mismatch and count the two rounds that agree. -/
theorem crowded_match :
    (relayLog 2 crowdedMatch).mismatches = [(64, [(0, 0x201), (1, 0x203)])] ∧
    (serverLog 2 crowdedMatch).mismatches = [(64, [(0, 0x201), (1, 0x203)])] ∧
    (relayLog 2 crowdedMatch).crc_ok = 2 ∧ (serverLog 2 crowdedMatch).crc_ok % 2 ^ 32 = 2 ∧
    (relayLog 2 crowdedMatch).reached = [] ∧ (relayLog 2 crowdedMatch).ncrc = 62 ∧
    (live CrcRow.in_use (CRC_TICKS + 1) (relayLog 2 crowdedMatch).crc).card = 62 := by
  obtain ⟨hmis, hok, hreach, hrows, -⟩ :=
    comparators_agree 2 (by decide) crowdedMatch (by decide) (by decide)
  have hlines : (relayLog 2 crowdedMatch).mismatches = [(64, [(0, 0x201), (1, 0x203)])] := by
    decide +kernel
  have hagreed : (relayLog 2 crowdedMatch).crc_ok = 2 := by decide +kernel
  have hcount : (relayLog 2 crowdedMatch).ncrc = 62 := by decide +kernel
  exact ⟨hlines, hmis.symm.trans hlines, hagreed, hok.symm.trans hagreed, hreach, hcount,
    hrows.symm.trans hcount⟩

/-- A round of two members whose seats agree. -/
def agreedRound : List (List ℕ) := [[0, 9, 0, 1, 2], [1, 9, 0, 1, 2]]

/-- `k` of them leave the Python relay's log empty but for its count. -/
theorem serverLog_rounds (k : ℕ) :
    serverLog 2 (List.replicate k agreedRound).flatten = ⟨[], k, []⟩ := by
  unfold serverLog
  induction k with
  | zero => rfl
  | succ k ih =>
    rw [List.replicate_succ', List.flatten_append, List.foldl_append, ih]
    rfl

/-- The counts come apart after `2 ^ 32` rounds. -/
theorem counts_differ : ¬ ∀ (n : ℕ) (payloads : List (List ℕ)), 2 ≤ n ∧ n ≤ 4 →
    (∀ x ∈ payloads, x.length = 5) → (∀ x ∈ payloads, ∀ b ∈ x, b < 256) →
    (relayLog n payloads).crc_ok = (serverLog n payloads).crc_ok := by
  intro h
  obtain ⟨k, hk⟩ : ∃ k : ℕ, k = 2 ^ 32 := ⟨_, rfl⟩
  have hmem : ∀ x ∈ (List.replicate k agreedRound).flatten, x ∈ agreedRound := by
    intro x hx
    obtain ⟨l, hl, hxl⟩ := List.mem_flatten.mp hx
    rwa [List.eq_of_mem_replicate hl] at hxl
  have hround : ∀ x ∈ agreedRound, x.length = 5 ∧ (∀ b ∈ x, b < 256) ∧ crcSeat x < 256 := by decide
  have heq := h 2 (List.replicate k agreedRound).flatten (by decide)
    (fun x hx => (hround x (hmem x hx)).1) (fun x hx => (hround x (hmem x hx)).2.1)
  have hagree := (agree_start 2).run (by decide) (List.replicate k agreedRound).flatten
    fun x hx => (hround x (hmem x hx)).2.2
  have hmod : (relayLog 2 (List.replicate k agreedRound).flatten).crc_ok =
      (serverLog 2 (List.replicate k agreedRound).flatten).crc_ok % 2 ^ 32 := hagree.crc_ok
  rw [heq, serverLog_rounds k, hk] at hmod
  exact absurd hmod (by decide)

end BoxingNetplay.Analysis
