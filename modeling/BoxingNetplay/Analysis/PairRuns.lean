import BoxingNetplay.Analysis.Pairing

/-!
# Runs of two consoles

Every run of two consoles implements a run of the delay line (`joined`): there are a line and checksums for
either side such that both consoles are where the line says, the notes of the two observers fit together
(`Told`, `Mail`), and the pushes are accounted for (`Noticed`, `Caused`).
-/

set_option autoImplicit false

namespace BoxingNetplay.Analysis

open BoxingNetplay.Library
open BoxingNetplay.Library.Delay (Node Letter Sys Inv Requests put)
open BoxingNetplay.Model
open BoxingNetplay.Interface

/-! ### The ticks that have run -/

/-- Tick `a` of epoch `e` is one for which a node has announced its input, or needs none. -/
def Announced (d : ℕ) (n : Node) (base : ℕ → ℕ) (e a : ℕ) : Prop :=
  e < n.epoch ∨ (e = n.epoch ∧ base e + a < n.top) ∨ (n.epoch < e ∧ a < d)

/-- Every tick an observer has noted ran on the inputs of that tick. -/
structure Told (d : ℕ) (s : Line) (v : Seen) : Prop where
  cells : ∀ {e a x}, v.played e a = some x →
    x = (cellsAt (s.hostIn e) (s.base e + a), cellsAt (s.guestIn e) (s.base e + a))
  host : ∀ {e a x}, v.played e a = some x → Announced d s.host s.base e a ∧ e ≤ s.host.epoch
  guest : ∀ {e a x}, v.played e a = some x → Announced d s.guest s.base e a

section Told

variable {d : ℕ} {s s' : Line} {v v' : Seen} {ls : List Post} {bytes : List ℕ}

/-- A tick that has just run. -/
theorem Told.replayed {n : Node} (h : Told d s v) (hr : Replayed s n v v')
    (hage : s.base n.epoch + v.age = n.tick) (hn : n.tick < n.mark → n.tick < n.top →
      (Announced d s.host s.base n.epoch v.age ∧ n.epoch ≤ s.host.epoch) ∧
        Announced d s.guest s.base n.epoch v.age) : Told d s v' := by
  rcases hr with hsame | ⟨hmark, htop, hput⟩
  · refine ⟨fun hx => ?_, fun hx => ?_, fun hx => ?_⟩ <;> rw [hsame] at hx
    · exact h.cells hx
    · exact h.host hx
    · exact h.guest hx
  · obtain ⟨hhost, hguest⟩ := hn hmark htop
    have hcase : ∀ {e a x}, v'.played e a = some x → (e = n.epoch ∧ a = v.age ∧
        x = (cellsAt (s.hostIn e) (s.base e + a), cellsAt (s.guestIn e) (s.base e + a))) ∨
          v.played e a = some x := by
      intro e a x hx
      rw [hput] at hx
      by_cases heq : e = n.epoch ∧ a = v.age
      · obtain ⟨rfl, rfl⟩ := heq
        rw [Delay.put_self] at hx
        cases hx
        rw [hage]
        exact Or.inl ⟨rfl, rfl, rfl⟩
      · rw [Delay.put_of_ne _ _ fun he => fun ha => heq ⟨he, ha⟩] at hx
        exact Or.inr hx
    refine ⟨fun hx => ?_, fun hx => ?_, fun hx => ?_⟩
    · rcases hcase hx with ⟨-, -, hx⟩ | hx
      · exact hx
      · exact h.cells hx
    · rcases hcase hx with ⟨rfl, rfl, -⟩ | hx
      · exact hhost
      · exact h.host hx
    · rcases hcase hx with ⟨rfl, rfl, -⟩ | hx
      · exact hguest
      · exact h.guest hx

/-- A turn of the host settles nothing that was settled. -/
theorem Told.hostTurn (h : Told d s v) (ht : HostTurn d s s' ls bytes) : Told d s' v := by
  have hahead := ht.ahead
  refine ⟨fun {e a x} hx => ?_, fun {e a x} hx => ?_, fun {e a x} hx => ?_⟩
  · obtain ⟨hann, hle⟩ := h.host hx
    have hcells : cellsAt (s'.hostIn e) (s.base e + a) = cellsAt (s.hostIn e) (s.base e + a) := by
      apply cellsAt_congr
      intro k hk
      apply ht.hostIn e k
      rcases hann with h1 | ⟨h1, h2⟩ | ⟨h1, -⟩ <;> omega
    rw [ht.base e hle, ht.guestIn, hcells]
    exact h.cells hx
  · obtain ⟨hann, hle⟩ := h.host hx
    unfold Announced at hann ⊢
    rw [ht.base e hle]
    omega
  · have hann := h.guest hx
    unfold Announced at hann ⊢
    rw [ht.base e (h.host hx).2, ht.guest]
    exact hann

/-- Nor does one of the guest. -/
theorem Told.guestTurn (h : Told d s v) (hi : Inv d 16 s') (ht : GuestTurn d s s' ls bytes) :
    Told d s' v := by
  have hahead := ht.ahead
  refine ⟨fun {e a x} hx => ?_, fun {e a x} hx => ?_, fun {e a x} hx => ?_⟩
  · have hann := h.guest hx
    have hcells : cellsAt (s'.guestIn e) (s.base e + a) = cellsAt (s.guestIn e) (s.base e + a) := by
      apply cellsAt_congr
      intro k hk
      apply ht.guestIn e k
      intro he
      rcases hann with h1 | ⟨h1, h2⟩ | ⟨h1, -⟩ <;> omega
    rw [ht.base, ht.hostIn, hcells]
    exact h.cells hx
  · rw [ht.host, ht.base]
    exact h.host hx
  · have hann := h.guest hx
    have htop : s'.base s'.guest.epoch + d ≤ s'.guest.top := by
      have hbase := hi.guestBase
      cases hs : s'.guest.sent with
      | true =>
        have := hi.guestSent hs
        omega
      | false =>
        have := hi.guestDue hs
        omega
    unfold Announced at hann ⊢
    by_cases he : e = s'.guest.epoch
    · subst he
      rw [ht.base] at htop ⊢
      omega
    · rw [ht.base]
      omega

end Told

/-! ### The frames that are handed on -/

/-- What a reader's notes `v` have to do with those of the writer, when `ls` is still on its way: each INPUT
frame is handed on in its turn, and is stored if the reader is in the epoch it was written in. -/
structure Mail (sums : ℕ → ℕ → Option ℕ) (w v : Seen) (ls : List Post) : Prop where
  count : v.inputs.length ≤ w.wrote.length
  left : w.wrote.drop v.inputs.length = ls.filterMap inputEpoch
  stored : ∀ {i e : ℕ} {b : Bool}, v.inputs[i]? = some (e, b) → (b = true ↔ w.wrote[i]? = some e)
  truth : Truthful sums ls

section Mail

variable {sums sums' : ℕ → ℕ → Option ℕ} {w w' v v' : Seen} {ls ms read rest : List Post}

/-- The writer writes. -/
theorem Mail.write (h : Mail sums w v ls) (hn : Noted w w' ms read) (hs : Summed sums sums' ms) :
    Mail sums' w' v (ls ++ ms) := by
  have hwrote := hn.wrote
  refine ⟨?_, ?_, fun {i e b} hi => ?_, h.truth.append hs⟩
  · rw [hwrote, List.length_append]
    exact Nat.le_add_right_of_le h.count
  · rw [hwrote, List.drop_append_of_le_length h.count, h.left, List.filterMap_append]
  · have hlt : i < w.wrote.length := by
      have := (List.getElem?_eq_some_iff.mp hi).1
      exact Nat.lt_of_lt_of_le this h.count
    rw [hwrote, List.getElem?_append_left hlt]
    exact h.stored hi

/-- The reader reads. -/
theorem Mail.handed (h : Mail sums w v (read ++ rest)) (hn : Noted v v' ms read) :
    Mail sums w v' rest := by
  obtain ⟨xs, hxs, hall⟩ := hn.inputs
  have hlen := hall.length_eq
  have hleft := h.left
  rw [List.filterMap_append] at hleft
  have hcount := congrArg List.length hleft
  rw [List.length_drop, List.length_append] at hcount
  have hfit := h.count
  refine ⟨?_, ?_, fun {i e b} hi => ?_, h.truth.tail⟩
  · rw [hxs, List.length_append]
    omega
  · rw [hxs, List.length_append, hlen, ← List.drop_drop, hleft, List.drop_left]
  · rw [hxs] at hi
    by_cases hlt : i < v.inputs.length
    · rw [List.getElem?_append_left hlt] at hi
      exact h.stored hi
    · rw [List.getElem?_append_right (Nat.not_lt.mp hlt)] at hi
      obtain ⟨hi', heq⟩ := List.getElem?_eq_some_iff.mp hi
      have hrel := hall.get hi' (hlen ▸ hi')
      rw [List.get_eq_getElem, List.get_eq_getElem, heq] at hrel
      -- the frame read in this place is the one written in it
      have hdrop : (w.wrote.drop v.inputs.length)[i - v.inputs.length]? =
          some (read.filterMap inputEpoch)[i - v.inputs.length] := by
        rw [hleft, List.getElem?_append_left (hlen ▸ hi'), List.getElem?_eq_getElem (hlen ▸ hi')]
      rw [List.getElem?_drop, show v.inputs.length + (i - v.inputs.length) = i by omega] at hdrop
      rw [hdrop]
      exact hrel.trans ⟨fun h => congrArg some h.symm, fun h => (Option.some.inj h).symm⟩

end Mail

/-! ### Both consoles -/

/-- No console shows its roster with a push wanted. -/
def Unasked (a : Side) : Prop := ∀ c, a.party = .roster c → c.cell RS_PEND = 0

/-- With a delay of 16 or more nobody pushes. -/
def Short (d : ℕ) (a : Side) : Prop := 0 < a.seen.epoch → d < 16

/-- Nobody has left, and nobody has pushed with such a delay. -/
def Regular (d : ℕ) (a : Side) : Prop := Up a ∧ Short d a

/-- Two consoles on the line `s` with the checksums `sumsH` and `sumsG`. -/
structure Joined (d : ℕ) (clean : Prop) (net : Net) (s : Line) (sumsH sumsG : ℕ → ℕ → Option ℕ) :
    Prop where
  inv : Inv d 16 s
  requests : Requests s
  origin : s.base 0 = 0
  hostOn : s.host.ended = false
  guestOn : s.guest.ended = false
  short : 0 < s.host.epoch → d < 16
  host : HostSide d sumsH s net.host
  guest : GuestSide d sumsG s net.guest
  hostTold : Told d s net.host.seen
  guestTold : Told d s net.guest.seen
  toGuest : Mail sumsH net.host.seen net.guest.seen s.toGuest
  toHost : Mail sumsG net.guest.seen net.host.seen s.toHost
  noticed : Noticed s sumsH sumsG
  caused : clean → Caused s sumsH sumsG

namespace Joined

variable {d : ℕ} {clean : Prop} {net : Net} {s : Line} {sumsH sumsG : ℕ → ℕ → Option ℕ} {a : Side}
  {bytes : List ℕ}

/-- The notes about the host. -/
theorem hostSeen (h : Joined d clean net s sumsH sumsG) :
    Watches d net.host.seen s.host s.base s.hostIn sumsH := h.host.seen h.origin

theorem guestSeen (h : Joined d clean net s sumsH sumsG) :
    Watches d net.guest.seen s.guest s.base s.guestIn sumsG := h.guest.seen h.origin

/-- A turn of the host. -/
theorem hostTurn (h : Joined d clean net s sumsH sumsG) (hd : 1 ≤ d ∧ d ≤ 127)
    (ht : SideTurn d 0 net.host a bytes) (hup : Up a) (hs : Short d a) (hc : clean → Unasked a) :
    ∃ s' sumsH' ls read, HostTurned d sumsH sumsH' s s' net.host a bytes ls read ∧
      Joined d clean ⟨a, net.guest.post bytes⟩ s' sumsH' sumsG := by
  obtain ⟨sumsH', s', ls, read, hm⟩ :=
    h.host.turn h.inv h.requests h.origin hd h.short h.guestOn ht hup
  have hle := h.inv.epoch_le
  have horigin : s'.base 0 = 0 := (hm.turn.base 0 (Nat.zero_le _)).trans h.origin
  have hguest := hm.turn.guest
  have hseen := hm.side.seen horigin
  refine ⟨s', sumsH', ls, read, hm, hm.inv, hm.requests, horigin, hm.running, ?_, fun hpos => ?_, hm.side,
    h.guest.other hd.1 hm.inv hm.requests hm.turn, ?_, h.guestTold.hostTurn hm.turn, ?_, ?_, ?_,
    fun hclean => ?_⟩
  · rw [hguest]
    exact h.guestOn
  · exact hs (by rw [hseen.epoch]; exact hpos)
  · refine (h.hostTold.replayed hm.replayed h.hostSeen.age fun hmark htop => ?_).hostTurn hm.turn
    have hage := h.hostSeen.age
    refine ⟨⟨Or.inr (Or.inl ⟨rfl, by omega⟩), Nat.le_refl _⟩, ?_⟩
    rcases h.inv.epochs with ⟨he, -⟩ | ⟨hlt, -⟩
    · have hup := (h.inv.up h.short he).le
      exact Or.inr (Or.inl ⟨he.symm, by omega⟩)
    · have hstill := (h.inv.fairNow h.guestOn).still (h.short (by omega)) hlt
      exact Or.inr (Or.inr ⟨hlt, by omega⟩)
  · rw [hm.turn.toGuest]
    exact h.toGuest.write hm.noted hm.summed
  · have hmail := h.toHost
    rw [hm.split] at hmail
    exact hmail.handed hm.noted
  · rcases hm.took with htook | ⟨-, hnone⟩
    · exact h.noticed.host hle hm.turn hm.summed htook
    · intro _ u w w' hw
      rw [hnone] at hw
      cases hw
  · rcases hm.took with htook | ⟨⟨c, hc', hwanted⟩, -⟩
    · exact (h.caused hclean).host hle h.toHost.truth hm.turn hm.summed htook
    · exact absurd (hc hclean c hc') hwanted

/-- A turn of the guest. -/
theorem guestTurn (h : Joined d clean net s sumsH sumsG) (hd : 1 ≤ d ∧ d ≤ 127)
    (ht : SideTurn d 1 net.guest a bytes) (hup : Up a) (hc : clean → Unasked a) :
    ∃ s' sumsG' ls read, GuestTurned d sumsG sumsG' s s' net.guest a bytes ls read ∧
      Joined d clean ⟨net.host.post bytes, a⟩ s' sumsH sumsG' := by
  obtain ⟨sumsG', s', ls, read, hm⟩ :=
    h.guest.turn h.inv h.requests h.origin hd h.short h.hostOn ht hup
  have hhost := hm.turn.host
  have horigin : s'.base 0 = 0 := by
    rw [hm.turn.base]
    exact h.origin
  refine ⟨s', sumsG', ls, read, hm, hm.inv, hm.requests, horigin, ?_, hm.running, fun hpos => ?_,
    h.host.other hd.1 h.short hm.inv hm.requests hm.turn, hm.side,
    h.hostTold.guestTurn hm.inv hm.turn, ?_, ?_, ?_, ?_, fun hclean => ?_⟩
  · rw [hhost]
    exact h.hostOn
  · rw [hhost] at hpos
    exact h.short hpos
  · refine (h.guestTold.replayed hm.replayed h.guestSeen.age fun hmark htop => ?_).guestTurn hm.inv
      hm.turn
    have hage := h.guestSeen.age
    have hle := h.inv.epoch_le
    refine ⟨⟨?_, hle⟩, Or.inr (Or.inl ⟨rfl, by omega⟩)⟩
    rcases h.inv.epochs with ⟨he, hm⟩ | ⟨hlt, -⟩
    · exact Or.inr (Or.inl ⟨he, by omega⟩)
    · exact Or.inl hlt
  · have hmail := h.toGuest
    rw [hm.split] at hmail
    exact hmail.handed hm.noted
  · rw [hm.turn.toHost]
    exact h.toHost.write hm.noted hm.summed
  · rcases hm.took with htook | ⟨-, hnone⟩
    · exact h.noticed.guest (fun e u hu => (h.guestSeen.past e u hu).1) hm.turn hm.summed htook
    · intro _ u w w' _ hw'
      rw [hnone] at hw'
      cases hw'
  · rcases hm.took with htook | ⟨⟨c, hc', hwanted⟩, -⟩
    · exact (h.caused hclean).guest h.toGuest.truth hm.turn hm.summed htook
    · exact absurd (hc hclean c hc') hwanted

end Joined

/-- Before either has its START. -/
theorem joined_lobby (d : ℕ) (clean : Prop) : Joined d clean
    ⟨⟨.lobby, [], .fresh⟩, ⟨.lobby, [], .fresh⟩⟩ (Sys.start d false) (fun _ _ => none)
      fun _ _ => none := by
  have htold : Told d (Sys.start d false) .fresh := by
    refine ⟨fun hx => ?_, fun hx => ?_, fun hx => ?_⟩ <;> cases hx
  have hmail : Mail (fun _ _ => none) .fresh .fresh [] := by
    refine ⟨Nat.le_refl _, rfl, fun hi => ?_, List.forall_mem_nil _⟩
    cases hi
  refine ⟨.start d 16 false, .start d false, rfl, rfl, rfl, fun h => absurd h (Nat.lt_irrefl _),
    .lobby rfl rfl rfl rfl (.nil d 1), .lobby rfl rfl rfl rfl rfl (.nil d 0), htold, htold, hmail,
    hmail, fun _ _ _ _ hw => ?_, fun _ => ⟨fun ha => ?_, List.forall_mem_nil _, fun hp => ?_,
      fun hpos => absurd hpos (Nat.lt_irrefl _), fun ha => ?_⟩⟩
  · cases hw
  · cases ha
  · cases hp
  · cases ha

/-- Every run of two consoles is on the line. -/
theorem joined {d : ℕ} {P : Side → Prop} {net : Net} (h : PairRun d P net) (hd : 1 ≤ d ∧ d ≤ 127)
    (hup : ∀ a, P a → Up a) (hs : ∀ a, P a → Short d a) :
    ∃ s sumsH sumsG, Joined d (∀ a, P a → Unasked a) net s sumsH sumsG := by
  induction h with
  | lobby => exact ⟨_, _, _, joined_lobby d _⟩
  | host _ ht hp ih =>
    obtain ⟨s, sumsH, sumsG, hj⟩ := ih
    obtain ⟨s', sumsH', -, -, -, hj'⟩ := hj.hostTurn hd ht (hup _ hp) (hs _ hp) fun hc => hc _ hp
    exact ⟨s', sumsH', sumsG, hj'⟩
  | guest _ ht hp ih =>
    obtain ⟨s, sumsH, sumsG, hj⟩ := ih
    obtain ⟨s', sumsG', -, -, -, hj'⟩ := hj.guestTurn hd ht (hup _ hp) fun hc => hc _ hp
    exact ⟨s', sumsH, sumsG', hj'⟩

end BoxingNetplay.Analysis
