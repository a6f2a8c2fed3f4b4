import BoxingNetplay.Analysis.CrcRounds

/-!
# The comparator of protocol 1

Two clients log their checksums, each in its own table, and a report takes the partner's entry for its tick out
when there is one.  The tables hold two dictionaries with no tick in common, and there is always a free slot
(`pair_log_refines`).  As long as neither client is more than 64 reports ahead, each round is compared once,
by the one that reports second (`pair_rounds_compared`).
-/

set_option autoImplicit false

namespace BoxingNetplay.Analysis

open BoxingNetplay.Library
open BoxingNetplay.Library.SlotTable
open BoxingNetplay.Library.Rounds
open BoxingNetplay.Model
open BoxingNetplay.Model.IntvRelay

/-! ### One client -/

/-- The lowest tick goes when there is one too many. -/
def dropLowest (d : List (ℕ × ℕ)) : List (ℕ × ℕ) :=
  if CRC_TICKS < d.length then
    match (d.map Prod.fst).min? with
    | some tick => Dict.del d tick
    | none => d
  else d

/-- A client's table holds its dictionary. -/
structure Keeps (c : ClientCrc) (d : List (ℕ × ℕ)) : Prop where
  table : SlotTable.Holds CrcEntry.in_use CrcEntry.tick (fun e w => e.crc = w) (CRC_TICKS + 1) c.crclog d
  count : c.ncrclog = d.length
  bound : d.length ≤ CRC_TICKS

section Client

variable {c : ClientCrc} {d : List (ℕ × ℕ)} {tick w : ℕ}

/-- When a pair starts the table is empty, as is the dictionary. -/
theorem keeps_start : Keeps ClientCrc.start [] :=
  ⟨Holds.empty fun _ _ => rfl, rfl, Nat.zero_le _⟩

/-- Counting a round that agrees changes neither. -/
theorem Keeps.agree (h : Keeps c d) : Keeps c.agree d := ⟨h.table, h.count, h.bound⟩

/-- The entry of a tick is given up. -/
theorem Keeps.release {i : ℕ} (h : Keeps c d)
    (hf : findKey CrcEntry.in_use CrcEntry.tick (CRC_TICKS + 1) c.crclog tick = some i) :
    Dict.get d tick = some (c.crclog i).crc ∧ Keeps (c.release i) (Dict.del d tick) := by
  obtain ⟨hi, hu, hk⟩ := findKey_some hf
  obtain ⟨w, hget, hw⟩ := h.table.get_of_find hf
  have hlen := Dict.length_del_some hget
  refine ⟨hw ▸ hget, ?_, ?_, ?_⟩
  · have hdel := h.table.del (x := { c.crclog i with in_use := false }) hi hu rfl
    rwa [hk] at hdel
  · rw [hlen, ← h.count]
    rfl
  · rw [hlen]
    exact Nat.le_trans (Nat.sub_le _ 1) h.bound

/-- The entry of a tick is set, in its slot or in a free one: there is always one. -/
theorem Keeps.stored (h : Keeps c d) (tick crc : ℕ) : ∃ c', c.put tick crc = some c' ∧
    SlotTable.Holds CrcEntry.in_use CrcEntry.tick (fun e w => e.crc = w) (CRC_TICKS + 1) c'.crclog
      (Dict.set d tick crc) ∧
    c'.ncrclog = (Dict.set d tick crc).length ∧ c'.crc_ok = c.crc_ok := by
  unfold ClientCrc.put
  cases hf : findKey CrcEntry.in_use CrcEntry.tick (CRC_TICKS + 1) c.crclog tick with
  | some i =>
    obtain ⟨hi, hu, hk⟩ := findKey_some hf
    obtain ⟨w, hget, -⟩ := h.table.get_of_find hf
    refine ⟨_, rfl, ?_, ?_, rfl⟩
    · have hset := h.table.set (x := { c.crclog i with crc := crc }) (b := crc) hi hu rfl
        (Or.inl ⟨hu, rfl⟩)
      rwa [show ({ c.crclog i with crc := crc } : CrcEntry).tick = tick from hk] at hset
    · rw [Dict.length_set_some hget]
      exact h.count
  | none =>
    have hnone := h.table.get_of_none hf
    obtain ⟨i, hfree⟩ := h.table.exists_free (Nat.lt_succ_of_le h.bound)
    obtain ⟨hi, hu⟩ := findFree_some hfree
    rw [hfree]
    refine ⟨_, rfl, ?_, ?_, rfl⟩
    · exact h.table.set (x := ⟨true, tick, crc⟩) (b := crc) hi rfl rfl (Or.inr ⟨hu, hnone⟩)
    · rw [Dict.length_set_none hnone]
      exact congrArg (· + 1) h.count

/-- A checksum goes in, and the lowest tick out when there is one too many. -/
theorem Keeps.put (h : Keeps c d) (tick crc : ℕ) :
    ∃ c', c.put tick crc = some c' ∧ Keeps c'.evict (dropLowest (Dict.set d tick crc)) ∧
      c'.evict.crc_ok = c.crc_ok := by
  obtain ⟨c', heq, htable, hcount, hok⟩ := h.stored tick crc
  have hlen : (Dict.set d tick crc).length ≤ CRC_TICKS + 1 := by
    have hbound := h.bound
    cases hget : Dict.get d tick with
    | some w =>
      rw [Dict.length_set_some hget]
      omega
    | none =>
      rw [Dict.length_set_none hget]
      omega
  refine ⟨c', heq, ?_⟩
  unfold ClientCrc.evict dropLowest
  rw [hcount]
  by_cases hbig : CRC_TICKS < (Dict.set d tick crc).length
  · have hne : Dict.set d tick crc ≠ [] := by
      intro hnil
      rw [hnil] at hbig
      exact absurd hbig (Nat.not_lt.mpr (Nat.zero_le _))
    obtain ⟨i, hi, hu, hlow, hmin⟩ := htable.min_key hne
    obtain ⟨w, hw, -⟩ := htable.there i hi hu
    have hdel := Dict.length_del_some (Dict.get_eq htable.nodup hw)
    rw [if_pos hbig, if_pos hbig, hlow, hmin]
    dsimp only
    have htaken := htable.del (x := { c'.crclog i with in_use := false }) hi hu rfl
    refine ⟨⟨htaken, ?_, ?_⟩, hok⟩
    · rw [hdel, ← hcount]
      rfl
    · rw [hdel]
      omega
  · rw [if_neg hbig, if_neg hbig]
    exact ⟨⟨htable, hcount, Nat.not_lt.mp hbig⟩, hok⟩

end Client

/-! ### Both clients -/

/-- Two logs as dictionaries, with what has been logged; the counts of agreed pairs are not reduced. -/
structure PairDict where
  logs : ℕ → List (ℕ × ℕ)
  crc_ok : ℕ → ℕ
  mismatches : List (ℕ × (ℕ × ℕ) × (ℕ × ℕ))

namespace PairDict

/-- At the start nothing is in them. -/
def start : PairDict := ⟨fun _ => [], fun _ => 0, []⟩

/-- The client `x` reports `w` for a tick, and its partner is `y`. -/
def report (p : PairDict) (x y tick w : ℕ) : PairDict :=
  match Dict.get (p.logs y) tick with
  | some v =>
    let p := { p with logs := Function.update p.logs y (Dict.del (p.logs y) tick) }
    if v = w then { p with crc_ok := bump (bump p.crc_ok x) y }
    else { p with mismatches := p.mismatches ++ [(tick, (x, w), (y, v))] }
  | none => { p with logs := Function.update p.logs x (dropLowest (Dict.set (p.logs x) tick w)) }

end PairDict

/-- The tables of the clients hold the dictionaries, and their counts are those. -/
structure ClientsKeep (cs : ℕ → ClientCrc) (logs : ℕ → List (ℕ × ℕ)) (ok : ℕ → ℕ) : Prop where
  keeps : ∀ z, Keeps (cs z) (logs z)
  crc_ok : ∀ z, (cs z).crc_ok = ok z % 2 ^ 32

namespace ClientsKeep

variable {cs : ℕ → ClientCrc} {logs : ℕ → List (ℕ × ℕ)} {ok : ℕ → ℕ} {x : ℕ} {c : ClientCrc}
  {d : List (ℕ × ℕ)}

/-- The log of one client changes. -/
theorem store (h : ClientsKeep cs logs ok) (hc : Keeps c d) (hok : c.crc_ok = (cs x).crc_ok) :
    ClientsKeep (Function.update cs x c) (Function.update logs x d) ok := by
  refine ⟨fun z => ?_, fun z => ?_⟩ <;> by_cases hz : z = x
  · subst hz
    rw [Function.update_self, Function.update_self]
    exact hc
  · rw [Function.update_of_ne hz, Function.update_of_ne hz]
    exact h.keeps z
  · subst hz
    rw [Function.update_self, hok]
    exact h.crc_ok z
  · rw [Function.update_of_ne hz]
    exact h.crc_ok z

/-- A client counts a pair that agrees. -/
theorem agree (h : ClientsKeep cs logs ok) (x : ℕ) :
    ClientsKeep (Function.update cs x (cs x).agree) logs (bump ok x) := by
  refine ⟨fun z => ?_, fun z => ?_⟩ <;> by_cases hz : z = x
  · subst hz
    rw [Function.update_self]
    exact (h.keeps z).agree
  · rw [Function.update_of_ne hz]
    exact h.keeps z
  · subst hz
    rw [Function.update_self, bump_self, ClientCrc.agree, h.crc_ok z, Nat.mod_add_mod]
  · rw [Function.update_of_ne hz, bump_of_ne _ hz]
    exact h.crc_ok z

end ClientsKeep

/-- The log holds the dictionaries, and no tick is in those of both `a` and `b`. -/
structure PairKeeps (a b : ℕ) (l : CrcPair) (p : PairDict) : Prop where
  clients : ClientsKeep l.clients p.logs p.crc_ok
  mismatches : l.mismatches = p.mismatches
  reached : l.reached = false
  apart : ∀ tick, Dict.get (p.logs a) tick = none ∨ Dict.get (p.logs b) tick = none

section Pair

variable {a b x y : ℕ} {l : CrcPair} {p : PairDict}

/-- The partner of the first of two clients is the second. -/
theorem crcPartner_fst (h : a ≠ b) : crcPartner [a, b] a = some b := by
  simp [crcPartner, h.symm]

theorem crcPartner_snd (h : a ≠ b) : crcPartner [a, b] b = some a := by
  simp [crcPartner, h]

theorem pairKeeps_start (a b : ℕ) : PairKeeps a b CrcPair.start PairDict.start :=
  ⟨⟨fun _ => keeps_start, fun _ => rfl⟩, rfl, rfl, fun _ => Or.inl rfl⟩

/-- It does not matter which of the two is named first. -/
theorem PairKeeps.symm (h : PairKeeps a b l p) : PairKeeps b a l p :=
  ⟨h.clients, h.mismatches, h.reached, fun tick => (h.apart tick).symm⟩

/-- Dropping the lowest tick brings no other into the dictionary. -/
theorem get_dropLowest_none {d : List (ℕ × ℕ)} {k : ℕ} (h : Dict.get d k = none) :
    Dict.get (dropLowest d) k = none := by
  unfold dropLowest
  split
  · split
    · exact Dict.get_del_none h _
    · exact h
  · exact h

/-- A report of one of the two. -/
theorem PairKeeps.log_crc_v1 (h : PairKeeps x y l p) (hne : x ≠ y) {members : List ℕ}
    (hp : crcPartner members x = some y) (payload : List ℕ) :
    PairKeeps x y (IntvRelay.log_crc_v1 l members x payload)
      (p.report x y (crcTickV1 payload) (crcValueV1 payload)) := by
  unfold IntvRelay.log_crc_v1 PairDict.report
  rw [hp]
  dsimp only
  cases hf : findKey CrcEntry.in_use CrcEntry.tick (CRC_TICKS + 1) (l.clients y).crclog
      (crcTickV1 payload) with
  | some i =>
    -- the partner has reported the tick
    obtain ⟨hget, hrelease⟩ := (h.clients.keeps y).release hf
    have hclients := h.clients.store (x := y) hrelease rfl
    have hapart : ∀ tick,
        Dict.get (Function.update p.logs y (Dict.del (p.logs y) (crcTickV1 payload)) x) tick = none ∨
        Dict.get (Function.update p.logs y (Dict.del (p.logs y) (crcTickV1 payload)) y) tick = none := by
      intro tick
      rw [Function.update_of_ne hne, Function.update_self]
      exact (h.apart tick).imp_right fun hnone => Dict.get_del_none hnone _
    rw [hget]
    dsimp only
    by_cases hw : ((l.clients y).crclog i).crc = crcValueV1 payload
    · rw [if_neg (not_not.mpr hw), if_pos hw]
      exact ⟨(hclients.agree x).agree y, h.mismatches, h.reached, hapart⟩
    · rw [if_pos hw, if_neg hw]
      exact ⟨hclients, congrArg (· ++ _) h.mismatches, h.reached, hapart⟩
  | none =>
    have hnone := (h.clients.keeps y).table.get_of_none hf
    obtain ⟨c, hput, hkeeps, hok⟩ := (h.clients.keeps x).put (crcTickV1 payload) (crcValueV1 payload)
    rw [hnone, hput]
    refine ⟨h.clients.store hkeeps hok, h.mismatches, h.reached, fun tick => ?_⟩
    dsimp only
    rw [Function.update_self, Function.update_of_ne (Ne.symm hne)]
    by_cases htick : tick = crcTickV1 payload
    · right
      rw [htick]
      exact hnone
    · exact (h.apart tick).imp_left fun hx => get_dropLowest_none (Dict.get_set_none hx htick)

/-- The log of a match of `a` and `b` after some reports, each with its client. -/
def pairLog (a b : ℕ) (xs : List (ℕ × List ℕ)) : CrcPair :=
  xs.foldl (fun l x => IntvRelay.log_crc_v1 l [a, b] x.1 x.2) CrcPair.start

/-- The other of the two. -/
def partnerOf (a b x : ℕ) : ℕ := if x = a then b else a

/-- The same log as dictionaries. -/
def pairDict (a b : ℕ) (xs : List (ℕ × List ℕ)) : PairDict :=
  xs.foldl (fun p x => p.report x.1 (partnerOf a b x.1) (crcTickV1 x.2) (crcValueV1 x.2)) PairDict.start

/-- Any reports of the two keep it so. -/
theorem PairKeeps.run (hne : a ≠ b) {xs : List (ℕ × List ℕ)} (hxs : ∀ x ∈ xs, x.1 = a ∨ x.1 = b)
    (h : PairKeeps a b l p) :
    PairKeeps a b (xs.foldl (fun l x => IntvRelay.log_crc_v1 l [a, b] x.1 x.2) l)
      (xs.foldl (fun p x => p.report x.1 (partnerOf a b x.1) (crcTickV1 x.2) (crcValueV1 x.2)) p) := by
  induction xs generalizing l p with
  | nil => exact h
  | cons x xs ih =>
    rw [List.foldl_cons, List.foldl_cons]
    apply ih fun z hz => hxs z (List.mem_cons_of_mem x hz)
    rcases hxs x List.mem_cons_self with hx | hx
    · rw [hx, partnerOf, if_pos rfl]
      exact h.log_crc_v1 hne (crcPartner_fst hne) x.2
    · rw [hx, partnerOf, if_neg (Ne.symm hne)]
      exact (h.symm.log_crc_v1 (Ne.symm hne) (crcPartner_snd hne) x.2).symm

end Pair

/-- Whatever the two clients of a match report, and in whatever order, their tables hold dictionaries in which a
report deletes the partner's entry of its tick or sets its own, and evicts the lowest of more than 64; the
mismatches and the counts are those of the dictionaries, no tick is in both, and there always was a
free slot.
SOURCE: intv-relay.c:1069-1134 -/
theorem pair_log_refines {a b : ℕ} (hne : a ≠ b) (xs : List (ℕ × List ℕ))
    (hxs : ∀ x ∈ xs, x.1 = a ∨ x.1 = b) :
    (pairLog a b xs).mismatches = (pairDict a b xs).mismatches ∧
      (∀ x, ((pairLog a b xs).clients x).crc_ok = (pairDict a b xs).crc_ok x % 2 ^ 32) ∧
      (∀ x, Keeps ((pairLog a b xs).clients x) ((pairDict a b xs).logs x)) ∧
      (∀ tick, Dict.get ((pairDict a b xs).logs a) tick = none ∨
        Dict.get ((pairDict a b xs).logs b) tick = none) ∧
      (pairLog a b xs).reached = false := by
  have h := (pairKeeps_start a b).run hne hxs
  exact ⟨h.mismatches, h.clients.crc_ok, h.clients.keeps, h.apart, h.reached⟩

/-- A pair of reports that differ, and one of the next tick. -/
theorem pair_log_refines_three : Keeps
    ((pairLog 4 7 [(4, [9, 0, 1, 2]), (7, [9, 0, 1, 3]), (4, [10, 0, 1, 2])]).clients 4) [(10, 513)] :=
  (pair_log_refines (by decide) [(4, [9, 0, 1, 2]), (7, [9, 0, 1, 3]), (4, [10, 0, 1, 2])]
    (by decide)).2.2.1 4

/-! ### Rounds -/

/-- The payload of a CRC frame of protocol 1. -/
def crcPayloadV1 (tick crc : ℕ) : List ℕ := [tick % 256, tick / 256, crc % 256, crc / 256]

/-- The reports of the clients in `ss`, each of which has made `c` before. -/
def arrivalsV1 (tick : ℕ → ℕ) (sum : ℕ → ℕ → ℕ) : (ℕ → ℕ) → List ℕ → List (ℕ × List ℕ)
  | _, [] => []
  | c, x :: ss => (x, crcPayloadV1 (tick (c x)) (sum x (c x))) :: arrivalsV1 tick sum (bump c x) ss

/-- In the order `ss` in which the reports come in the client `x` reports for the round `k` when `y` already
has. -/
def Second (ss : List ℕ) (x y k : ℕ) : Prop :=
  ∃ q r, ss = q ++ x :: r ∧ q.count x = k ∧ k < q.count y

/-- The line of a round in which the clients differ names first the one that reports second. -/
def PairLine (tick : ℕ → ℕ) (sum : ℕ → ℕ → ℕ) (ss : List ℕ) (a b k : ℕ)
    (m : ℕ × (ℕ × ℕ) × (ℕ × ℕ)) : Prop :=
  (Second ss a b k ∧ m = (tick k, (a, sum a k), (b, sum b k))) ∨
    (Second ss b a k ∧ m = (tick k, (b, sum b k), (a, sum a k)))

/-- What is in the logs when the clients have reported in the order `ss`, each of them `c` times, and what has
been logged. -/
structure PairLogged (tick : ℕ → ℕ) (sum : ℕ → ℕ → ℕ) (ss : List ℕ) (a b : ℕ) (c : ℕ → ℕ)
    (p : PairDict) : Prop where
  counts : ∀ z, ss.count z = c z
  fst : p.logs a = Dict.table tick (sum a) (List.range' (c b) (c a - c b))
  snd : p.logs b = Dict.table tick (sum b) (List.range' (c a) (c b - c a))
  fst_ok : p.crc_ok a = ((List.range (min (c a) (c b))).filter fun k => sum a k = sum b k).length
  snd_ok : p.crc_ok b = ((List.range (min (c a) (c b))).filter fun k => sum a k = sum b k).length
  lines : List.Forall₂ (PairLine tick sum ss a b)
    ((List.range (min (c a) (c b))).filter fun k => sum a k ≠ sum b k) p.mismatches

section Rounds

variable {tick : ℕ → ℕ} {sum : ℕ → ℕ → ℕ} {ss : List ℕ} {a b x y k : ℕ} {c : ℕ → ℕ} {p : PairDict}

/-- The payload of a report has its tick and its checksum. -/
theorem crcPayloadV1_fields (t w : ℕ) :
    crcTickV1 (crcPayloadV1 t w) = t ∧ crcValueV1 (crcPayloadV1 t w) = w := by
  have h1 := Nat.mod_add_div t 256
  have h2 := Nat.mod_add_div w 256
  constructor
  · simp only [crcTickV1, crcPayloadV1, List.getD_cons_succ, List.getD_cons_zero]
    omega
  · simp only [crcValueV1, crcPayloadV1, List.getD_cons_succ, List.getD_cons_zero]
    omega

/-- Only one of the two reports second. -/
theorem Second.not_symm (h : Second ss x y k) : ¬ Second ss y x k := by
  rintro ⟨q', r', hss', hy', hx'⟩
  obtain ⟨q, r, hss, hx, hy⟩ := h
  have hq : q <+: ss := ⟨x :: r, hss.symm⟩
  have hq' : q' <+: ss := ⟨y :: r', hss'.symm⟩
  rcases Nat.le_total q.length q'.length with hle | hle
  · have hcount := (List.prefix_of_prefix_length_le hq hq' hle).sublist.count_le y
    omega
  · have hcount := (List.prefix_of_prefix_length_le hq' hq hle).sublist.count_le x
    omega

/-- Who reports second stays so when more reports come in. -/
theorem Second.concat (h : Second ss x y k) (z : ℕ) : Second (ss ++ [z]) x y k := by
  obtain ⟨q, r, rfl, hx, hy⟩ := h
  exact ⟨q, r ++ [z], by rw [List.append_assoc, List.cons_append], hx, hy⟩

/-- The line of a round stays its line when another report comes in. -/
theorem PairLine.concat {m : ℕ × (ℕ × ℕ) × (ℕ × ℕ)} (h : PairLine tick sum ss a b k m) (z : ℕ) :
    PairLine tick sum (ss ++ [z]) a b k m :=
  h.imp (And.imp_left fun hs => hs.concat z) (And.imp_left fun hs => hs.concat z)

/-- One more report of one of them. -/
theorem count_concat (h : ∀ z, ss.count z = c z) (x : ℕ) : ∀ z, (ss ++ [x]).count z = bump c x z := by
  intro z
  rw [List.count_append, h z]
  by_cases hz : z = x
  · rw [hz, bump_self, List.count_singleton_self]
  · rw [bump_of_ne c hz, List.count_singleton, if_neg (by simpa using Ne.symm hz), Nat.add_zero]

/-- It does not matter which of the two is named first. -/
theorem PairLogged.symm (h : PairLogged tick sum ss a b c p) : PairLogged tick sum ss b a c p := by
  have heq : (fun k => decide (sum b k = sum a k)) = fun k => decide (sum a k = sum b k) := by
    funext k
    exact decide_eq_decide.mpr eq_comm
  have hne : (fun k => decide (sum b k ≠ sum a k)) = fun k => decide (sum a k ≠ sum b k) := by
    funext k
    exact decide_eq_decide.mpr ne_comm
  refine ⟨h.counts, h.snd, h.fst, ?_, ?_, ?_⟩
  · rw [heq, Nat.min_comm]
    exact h.snd_ok
  · rw [heq, Nat.min_comm]
    exact h.fst_ok
  · rw [hne, Nat.min_comm]
    exact h.lines.imp fun k m hm => hm.symm

/-- The one that is behind reports: the round is over. -/
theorem PairLogged.second (h : PairLogged tick sum ss x y c p) (hne : x ≠ y) (hlt : c x < c y) :
    PairLogged tick sum (ss ++ [x]) x y (bump c x) (p.report x y (tick (c x)) (sum x (c x))) := by
  have hsecond : Second (ss ++ [x]) x y (c x) := ⟨ss, [], rfl, h.counts x, by rw [h.counts y]; exact hlt⟩
  have hy : bump c x y = c y := bump_of_ne c (Ne.symm hne)
  have hsucc : c y - c x = (c y - (c x + 1)) + 1 := by omega
  have hlog : p.logs y = Dict.table tick (sum y) (c x :: List.range' (c x + 1) (c y - (c x + 1))) := by
    rw [h.snd, hsucc, List.range'_succ]
  have hget : Dict.get (p.logs y) (tick (c x)) = some (sum y (c x)) := by
    rw [hlog, Dict.table, List.map_cons, Dict.get, List.find?_cons_of_pos (by simp)]
    rfl
  have hmin : min (c x) (c y) = c x := Nat.min_eq_left (Nat.le_of_lt hlt)
  have hmin' : min (c x + 1) (c y) = c x + 1 := Nat.min_eq_left hlt
  have hmine : p.logs x = Dict.table tick (sum x) (List.range' (c y) (c x + 1 - c y)) := by
    rw [h.fst, Nat.sub_eq_zero_of_le (Nat.le_of_lt hlt), Nat.sub_eq_zero_of_le hlt]
  have hyours : Dict.del (p.logs y) (tick (c x)) =
      Dict.table tick (sum y) (List.range' (c x + 1) (c y - (c x + 1))) := by
    rw [hlog, Dict.del_table]
  unfold PairDict.report
  rw [hget]
  dsimp only
  by_cases hsame : sum y (c x) = sum x (c x)
  · rw [if_pos hsame]
    have hcount : ((List.range (c x + 1)).filter fun k => sum x k = sum y k).length =
        ((List.range (c x)).filter fun k => sum x k = sum y k).length + 1 := by
      rw [filter_range_succ, List.length_append, if_pos (decide_eq_true hsame.symm)]
      rfl
    have hlines : ((List.range (c x + 1)).filter fun k => sum x k ≠ sum y k) =
        (List.range (c x)).filter fun k => sum x k ≠ sum y k := by
      rw [filter_range_succ, if_neg (by simpa using hsame.symm), List.append_nil]
    refine ⟨count_concat h.counts x, ?_, ?_, ?_, ?_, ?_⟩ <;> dsimp only <;> rw [bump_self c x, hy]
    · rw [Function.update_of_ne hne]
      exact hmine
    · rw [Function.update_self]
      exact hyours
    · rw [hmin', hcount, bump_of_ne _ hne, bump_self, h.fst_ok, hmin]
    · rw [hmin', hcount, bump_self, bump_of_ne _ (Ne.symm hne), h.snd_ok, hmin]
    · rw [hmin', hlines, ← hmin]
      exact h.lines.imp fun _ _ hm => hm.concat x
  · rw [if_neg hsame]
    have hdiff : sum x (c x) ≠ sum y (c x) := Ne.symm hsame
    have hcount : ((List.range (c x + 1)).filter fun k => sum x k = sum y k).length =
        ((List.range (c x)).filter fun k => sum x k = sum y k).length := by
      rw [filter_range_succ, if_neg (by simpa using hdiff), List.append_nil]
    have hlines : ((List.range (c x + 1)).filter fun k => sum x k ≠ sum y k) =
        ((List.range (c x)).filter fun k => sum x k ≠ sum y k) ++ [c x] := by
      rw [filter_range_succ, if_pos (decide_eq_true hdiff)]
    refine ⟨count_concat h.counts x, ?_, ?_, ?_, ?_, ?_⟩ <;> dsimp only <;> rw [bump_self c x, hy]
    · rw [Function.update_of_ne hne]
      exact hmine
    · rw [Function.update_self]
      exact hyours
    · rw [hmin', hcount, h.fst_ok, hmin]
    · rw [hmin', hcount, h.snd_ok, hmin]
    · rw [hmin', hlines]
      have hbefore := h.lines.imp fun _ _ hm => hm.concat x
      rw [hmin] at hbefore
      exact List.rel_append hbefore (List.Forall₂.cons (Or.inl ⟨hsecond, rfl⟩) List.Forall₂.nil)

/-- The one that is not behind reports: its round waits for the other. -/
theorem PairLogged.first (h : PairLogged tick sum ss x y c p) (hne : x ≠ y) (hle : c y ≤ c x)
    (htick : Apart tick) (hclose : c x + 1 ≤ c y + CRC_TICKS) :
    PairLogged tick sum (ss ++ [x]) x y (bump c x) (p.report x y (tick (c x)) (sum x (c x))) := by
  have hy : bump c x y = c y := bump_of_ne c (Ne.symm hne)
  have hlog : p.logs y = [] := by
    rw [h.snd, Nat.sub_eq_zero_of_le hle]
    rfl
  have hget : Dict.get (p.logs y) (tick (c x)) = none := by
    rw [hlog]
    rfl
  have hmin : min (c x) (c y) = c y := Nat.min_eq_right hle
  have hmin' : min (c x + 1) (c y) = c y := Nat.min_eq_right (Nat.le_succ_of_le hle)
  have hinj : ∀ j ∈ List.range' (c y) (c x - c y), tick j = tick (c x) → j = c x := by
    intro j hj heq
    rw [List.mem_range'_1] at hj
    exact absurd heq (htick j (c x) (by omega) (by omega))
  have hnew : c x ∉ List.range' (c y) (c x - c y) := by
    rw [List.mem_range'_1]
    omega
  have hset : Dict.set (p.logs x) (tick (c x)) (sum x (c x)) =
      Dict.table tick (sum x) (List.range' (c y) (c x + 1 - c y)) := by
    rw [h.fst, Dict.set_table hinj, if_neg hnew, Function.update_eq_self, Nat.succ_sub hle,
      List.range'_concat]
    congr 3
    omega
  have hdrop : dropLowest (Dict.set (p.logs x) (tick (c x)) (sum x (c x))) =
      Dict.table tick (sum x) (List.range' (c y) (c x + 1 - c y)) := by
    unfold dropLowest
    rw [hset, Dict.length_table, List.length_range', if_neg (by omega)]
  unfold PairDict.report
  rw [hget]
  refine ⟨count_concat h.counts x, ?_, ?_, ?_, ?_, ?_⟩
  · rw [bump_self, hy]
    exact (Function.update_self ..).trans hdrop
  · rw [bump_self, hy, Nat.sub_eq_zero_of_le (Nat.le_succ_of_le hle)]
    exact (Function.update_of_ne (Ne.symm hne) ..).trans hlog
  · rw [bump_self, hy, hmin', ← hmin]
    exact h.fst_ok
  · rw [bump_self, hy, hmin', ← hmin]
    exact h.snd_ok
  · rw [bump_self, hy, hmin', ← hmin]
    exact h.lines.imp fun _ _ hm => hm.concat x

/-- A report of one of the two. -/
theorem PairLogged.report (h : PairLogged tick sum ss x y c p) (hne : x ≠ y) (htick : Apart tick)
    (hclose : c x + 1 ≤ c y + CRC_TICKS) :
    PairLogged tick sum (ss ++ [x]) x y (bump c x) (p.report x y (tick (c x)) (sum x (c x))) := by
  rcases Nat.lt_or_ge (c x) (c y) with hlt | hge
  · exact h.second hne hlt
  · exact h.first hne hge htick hclose

/-- When nobody has reported nothing is in the logs. -/
theorem pairLogged_start (tick : ℕ → ℕ) (sum : ℕ → ℕ → ℕ) (a b : ℕ) :
    PairLogged tick sum [] a b (fun _ => 0) PairDict.start :=
  ⟨fun _ => rfl, rfl, rfl, rfl, rfl, List.Forall₂.nil⟩

/-- Reports that come in close to one another. -/
theorem PairLogged.run {past : List ℕ} (hne : a ≠ b) (htick : Apart tick)
    (h : PairLogged tick sum past a b c p) (hss : ∀ x ∈ ss, x = a ∨ x = b)
    (hclose : ∀ q, q <+: ss → made c q a ≤ made c q b + CRC_TICKS ∧ made c q b ≤ made c q a + CRC_TICKS) :
    PairLogged tick sum (past ++ ss) a b (made c ss) ((arrivalsV1 tick sum c ss).foldl
      (fun p x => p.report x.1 (partnerOf a b x.1) (crcTickV1 x.2) (crcValueV1 x.2)) p) := by
  induction ss generalizing past c p with
  | nil =>
    rw [List.append_nil]
    exact h
  | cons s ss ih =>
    have hone := hclose [s] ⟨ss, rfl⟩
    rw [made_cons, made_nil] at hone
    rw [made_cons, arrivalsV1, List.foldl_cons, (crcPayloadV1_fields _ _).1, (crcPayloadV1_fields _ _).2]
    have hstep : PairLogged tick sum (past ++ [s]) a b (bump c s)
        (p.report s (partnerOf a b s) (tick (c s)) (sum s (c s))) := by
      rcases hss s List.mem_cons_self with rfl | rfl
      · rw [partnerOf, if_pos rfl]
        rw [bump_self, bump_of_ne c (Ne.symm hne)] at hone
        exact h.report hne htick hone.1
      · rw [partnerOf, if_neg (Ne.symm hne)]
        rw [bump_self, bump_of_ne c hne] at hone
        exact (h.symm.report (Ne.symm hne) htick hone.2).symm
    rw [List.append_cons past s ss]
    apply ih hstep
    · intro i hi
      exact hss i (List.mem_cons_of_mem s hi)
    · intro q hq
      rw [← made_cons]
      exact hclose (s :: q) (List.cons_prefix_cons.mpr ⟨rfl, hq⟩)

/-- The reports are those of the two clients. -/
theorem arrivalsV1_clients (hss : ∀ x ∈ ss, x = a ∨ x = b) :
    ∀ x ∈ arrivalsV1 tick sum c ss, x.1 = a ∨ x.1 = b := by
  induction ss generalizing c with
  | nil => exact List.forall_mem_nil _
  | cons s ss ih =>
    rw [arrivalsV1, List.forall_mem_cons]
    exact ⟨hss s List.mem_cons_self, ih fun i hi => hss i (List.mem_cons_of_mem s hi)⟩

end Rounds

/-- As long as neither client gets more than 64 reports ahead of the other, whatever order the reports come in,
the relay logs a mismatch for each round that both have reported and in which they differ, when the second of the
two reports comes in, counts the rounds that agree for both, and keeps in each table exactly the reports by
which its client is ahead.
SOURCE: intv-relay.c:1069-1134 -/
theorem pair_rounds_compared {a b : ℕ} (hne : a ≠ b) (tick : ℕ → ℕ) (sum : ℕ → ℕ → ℕ) (ss : List ℕ)
    (hss : ∀ x ∈ ss, x = a ∨ x = b) (htick : Apart tick)
    (hclose : ∀ q, q <+: ss → q.count a ≤ q.count b + CRC_TICKS ∧ q.count b ≤ q.count a + CRC_TICKS) :
    List.Forall₂ (PairLine tick sum ss a b)
        ((List.range (min (ss.count a) (ss.count b))).filter fun k => sum a k ≠ sum b k)
        (pairLog a b (arrivalsV1 tick sum (fun _ => 0) ss)).mismatches ∧
      (∀ x, x = a ∨ x = b → ((pairLog a b (arrivalsV1 tick sum (fun _ => 0) ss)).clients x).crc_ok =
        ((List.range (min (ss.count a) (ss.count b))).filter fun k => sum a k = sum b k).length % 2 ^ 32) ∧
      Keeps ((pairLog a b (arrivalsV1 tick sum (fun _ => 0) ss)).clients a)
        (Dict.table tick (sum a) (List.range' (ss.count b) (ss.count a - ss.count b))) ∧
      Keeps ((pairLog a b (arrivalsV1 tick sum (fun _ => 0) ss)).clients b)
        (Dict.table tick (sum b) (List.range' (ss.count a) (ss.count b - ss.count a))) ∧
      (pairLog a b (arrivalsV1 tick sum (fun _ => 0) ss)).reached = false := by
  have hlog : PairLogged tick sum ss a b (fun s => ss.count s)
      (pairDict a b (arrivalsV1 tick sum (fun _ => 0) ss)) := by
    rw [← made_zero ss]
    apply (pairLogged_start tick sum a b).run hne htick hss
    intro q hq
    rw [made_zero q]
    exact hclose q hq
  have hkeeps := (pairKeeps_start a b).run hne (@arrivalsV1_clients tick sum ss a b (fun _ => 0) hss)
  refine ⟨?_, ?_, ?_, ?_, hkeeps.reached⟩
  · rw [show (pairLog a b _).mismatches = _ from hkeeps.mismatches]
    exact hlog.lines
  · intro x hx
    rw [show ((pairLog a b _).clients x).crc_ok = _ from hkeeps.clients.crc_ok x]
    congr 1
    rcases hx with rfl | rfl
    · exact hlog.fst_ok
    · exact hlog.snd_ok
  · rw [← hlog.fst]
    exact hkeeps.clients.keeps a
  · rw [← hlog.snd]
    exact hkeeps.clients.keeps b

/-- The clients 4 and 7 differ in the second round, which 7 is the second to report; after that 4 is one report
ahead. -/
theorem pair_rounds_compared_three :
    (pairLog 4 7 (arrivalsV1 (fun k => 64 * k % 65536) (fun s k => if s = 7 ∧ k = 1 then 7 else 5)
      (fun _ => 0) [4, 4, 7, 4, 7])).mismatches = [(64, (7, 7), (4, 5))] ∧
    Keeps ((pairLog 4 7 (arrivalsV1 (fun k => 64 * k % 65536) (fun s k => if s = 7 ∧ k = 1 then 7 else 5)
      (fun _ => 0) [4, 4, 7, 4, 7])).clients 4) [(128, 5)] := by
  have hclose : ∀ q, q <+: [4, 4, 7, 4, 7] →
      q.count 4 ≤ q.count 7 + CRC_TICKS ∧ q.count 7 ≤ q.count 4 + CRC_TICKS := by
    intro q hq
    have h1 : q.count 4 ≤ q.length := List.count_le_length
    have h2 : q.count 7 ≤ q.length := List.count_le_length
    have h3 : q.length ≤ 5 := hq.length_le
    simp only [CRC_TICKS]
    omega
  obtain ⟨hlines, -, hkeeps, -⟩ := pair_rounds_compared (by decide) (fun k => 64 * k % 65536)
    (fun s k => if s = 7 ∧ k = 1 then 7 else 5) [4, 4, 7, 4, 7] (by decide) apart_reports hclose
  refine ⟨?_, hkeeps⟩
  rw [show ((List.range (min ([4, 4, 7, 4, 7].count 4) ([4, 4, 7, 4, 7].count 7))).filter fun k =>
    (if (4 : ℕ) = 7 ∧ k = 1 then 7 else 5) ≠ (if (7 : ℕ) = 7 ∧ k = 1 then 7 else 5)) = [1] from rfl] at hlines
  obtain ⟨m, _, hm, hnil, heq⟩ := List.forall₂_cons_left_iff.mp hlines
  rw [List.forall₂_nil_left_iff] at hnil
  rw [heq, hnil]
  have hsecond : Second [4, 4, 7, 4, 7] 7 4 1 := ⟨[4, 4, 7, 4], [], rfl, rfl, by decide⟩
  rcases hm with ⟨hfirst, -⟩ | ⟨-, rfl⟩
  · exact absurd hsecond hfirst.not_symm
  · rfl

end BoxingNetplay.Analysis
