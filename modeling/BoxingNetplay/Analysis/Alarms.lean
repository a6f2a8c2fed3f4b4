import BoxingNetplay.Analysis.GuestTurns
import BoxingNetplay.Analysis.HostTurns

/-!
# Checksums of both sides

What the checksums of the two consoles have to do with the pushes that are pending, asked for and made.
A disagreement in the current epoch is still under way in a report, or somebody wants a push because of it
(`Noticed`); and nobody wants or makes one without a disagreement, nor is a request lost (`Caused`).  Both
are kept by the turns of either side.
-/

set_option autoImplicit false

namespace BoxingNetplay.Analysis

open BoxingNetplay.Library
open BoxingNetplay.Library.Delay (Node Letter Sys Inv)
open BoxingNetplay.Model
open BoxingNetplay.Interface

/-- In epoch `e` the two have computed different checksums for one tick. -/
def Differ (sumsH sumsG : ℕ → ℕ → Option ℕ) (e : ℕ) : Prop :=
  ∃ u w w', sumsH e u = some w ∧ sumsG e u = some w' ∧ w ≠ w'

/-- The reports among some letters are of the checksums of their writer. -/
def Truthful (sums : ℕ → ℕ → Option ℕ) (ls : List Post) : Prop :=
  ∀ l ∈ ls, ∀ w, l.body = .report w → sums l.epoch l.tick = some w

/-- The report of a tick is among some letters. -/
def Underway (ls : List Post) (e u w : ℕ) : Prop :=
  ∃ l ∈ ls, l.body = .report w ∧ l.epoch = e ∧ l.tick = u

section Letters

variable {sums sums' : ℕ → ℕ → Option ℕ} {ls ms read rest : List Post} {e u w : ℕ}

/-- Letters with checksums that have been noted may be added to truthful ones. -/
theorem Truthful.append (h : Truthful sums ls) (hs : Summed sums sums' ms) :
    Truthful sums' (ls ++ ms) := by
  intro l hl w hw
  rcases List.mem_append.mp hl with hl | hl
  · exact hs.keep _ _ _ (h l hl w hw)
  · exact hs.said l hl w hw

/-- What is left of truthful letters once some are read is truthful. -/
theorem Truthful.tail (h : Truthful sums (read ++ rest)) : Truthful sums rest :=
  fun l hl => h l (List.mem_append_right _ hl)

/-- A report that is under way stays so when letters are added. -/
theorem Underway.append (h : Underway ls e u w) (ms : List Post) : Underway (ls ++ ms) e u w := by
  obtain ⟨l, hl, hrest⟩ := h
  exact ⟨l, List.mem_append_left _ hl, hrest⟩

/-- A new checksum is under way. -/
theorem Underway.new (h : (⟨e, u, .report w⟩ : Post) ∈ ms) (ls : List Post) :
    Underway (ls ++ ms) e u w := ⟨_, List.mem_append_right _ h, rfl, rfl, rfl⟩

/-- Either it is read or it still is under way. -/
theorem Underway.split (h : Underway (read ++ rest) e u w) : Underway read e u w ∨ Underway rest e u w := by
  obtain ⟨l, hl, hrest⟩ := h
  rcases List.mem_append.mp hl with hl | hl
  · exact Or.inl ⟨l, hl, hrest⟩
  · exact Or.inr ⟨l, hl, hrest⟩

end Letters

/-! ### No disagreement goes unnoticed -/

/-- In the epoch both are in, two checksums of a tick are the same, or a push is wanted, or one of them
is still under way. -/
def Noticed (s : Line) (sumsH sumsG : ℕ → ℕ → Option ℕ) : Prop :=
  s.guest.epoch = s.host.epoch → ∀ u w w', sumsH s.host.epoch u = some w →
    sumsG s.host.epoch u = some w' → w = w' ∨ s.pend = true ∨ s.asked = true ∨
      Underway s.toGuest s.host.epoch u w ∨ Underway s.toHost s.host.epoch u w'

section Noticed

variable {d : ℕ} {s s' : Line} {sumsH sumsH' sumsG sumsG' : ℕ → ℕ → Option ℕ} {ls read : List Post}
  {bytes : List ℕ}

/-- A turn of the host. -/
theorem Noticed.host (h : Noticed s sumsH sumsG) (hle : s.guest.epoch ≤ s.host.epoch)
    (ht : HostTurn d s s' ls bytes) (hs : Summed sumsH sumsH' ls) (hr : HostTook sumsH s s' read) :
    Noticed s' sumsH' sumsG := by
  intro he u w w' hw hw'
  have hsame : s'.host.epoch = s.host.epoch := by
    have hahead := ht.ahead
    rw [ht.guest] at he
    omega
  rw [ht.guest, hsame] at he
  rw [hsame] at hw hw' ⊢
  rw [ht.asked, ht.toGuest]
  rcases hs.new _ u w hw with hold | hmem
  · rcases h he u w w' hold hw' with heq | hp | ha | hg | hh
    · exact Or.inl heq
    · rcases hr.kept hp with hp | hlt
      · exact Or.inr (Or.inl hp)
      · omega
    · exact Or.inr (Or.inr (Or.inl ha))
    · exact Or.inr (Or.inr (Or.inr (Or.inl (hg.append ls))))
    · rw [hr.split] at hh
      rcases hh.split with ⟨l, hl, hb, hle, ht⟩ | hrest
      · subst ht
        rw [← hle] at hold
        rcases hr.compared l hl w' w hb hle hold with heq | hp
        · exact Or.inl heq.symm
        · exact Or.inr (Or.inl hp)
      · exact Or.inr (Or.inr (Or.inr (Or.inr hrest)))
  · exact Or.inr (Or.inr (Or.inr (Or.inl (Underway.new hmem _))))

/-- A turn of the guest, which has no checksums of epochs it is not in yet. -/
theorem Noticed.guest (h : Noticed s sumsH sumsG) (hpast : ∀ e u, sumsG e u ≠ none → e ≤ s.guest.epoch)
    (ht : GuestTurn d s s' ls bytes) (hs : Summed sumsG sumsG' ls)
    (hr : GuestTook sumsG s s' ls read) : Noticed s' sumsH sumsG' := by
  intro he u w w' hw hw'
  rw [ht.host] at he hw hw' ⊢
  rw [ht.pend, ht.toHost]
  rcases hs.new _ u w' hw' with hold | hmem
  · have hback := hpast _ u (by rw [hold]; exact Option.some_ne_none _)
    have hahead := ht.ahead
    have hsame : s.guest.epoch = s.host.epoch := by omega
    rcases h hsame u w w' hw hold with heq | hp | ha | hg | hh
    · exact Or.inl heq
    · exact Or.inr (Or.inl hp)
    · rcases hr.kept ha with ha | hlt
      · exact Or.inr (Or.inr (Or.inl ha))
      · omega
    · rw [hr.split] at hg
      rcases hg.split with ⟨l, hl, hb, hle, ht⟩ | hrest
      · subst ht
        rw [← hle] at hold
        rcases hr.compared l hl w w' hb (hle.trans he.symm) hold with heq | ha
        · exact Or.inl heq
        · exact Or.inr (Or.inr (Or.inl ha))
      · exact Or.inr (Or.inr (Or.inr (Or.inl hrest)))
    · exact Or.inr (Or.inr (Or.inr (Or.inr (hh.append ls))))
  · exact Or.inr (Or.inr (Or.inr (Or.inr (Underway.new hmem _))))

end Noticed

/-! ### No push without a disagreement -/

/-- Whoever wants a push has seen a disagreement, or was asked by the guest which has; and a request of the
guest is under way, noted by the host or being answered. -/
structure Caused (s : Line) (sumsH sumsG : ℕ → ℕ → Option ℕ) : Prop where
  asked : s.asked = true → Differ sumsH sumsG s.guest.epoch
  requests : ∀ l ∈ s.toHost, l.body = .ask → Differ sumsH sumsG l.epoch
  pend : s.pend = true → ∃ e, Differ sumsH sumsG e
  pushed : 0 < s.host.epoch → ∃ e, Differ sumsH sumsG e
  kept : s.asked = true → (∃ l ∈ s.toHost, l.body = .ask ∧ l.epoch = s.guest.epoch) ∨
    s.pend = true ∨ s.guest.epoch < s.host.epoch

section Caused

variable {d : ℕ} {s s' : Line} {sumsH sumsH' sumsG sumsG' : ℕ → ℕ → Option ℕ} {ls read : List Post}
  {bytes : List ℕ}

/-- Checksums are not forgotten. -/
theorem Differ.mono {e : ℕ} (h : Differ sumsH sumsG e)
    (hH : ∀ e u w, sumsH e u = some w → sumsH' e u = some w)
    (hG : ∀ e u w, sumsG e u = some w → sumsG' e u = some w) : Differ sumsH' sumsG' e := by
  obtain ⟨u, w, w', hw, hw', hne⟩ := h
  exact ⟨u, w, w', hH _ _ _ hw, hG _ _ _ hw', hne⟩

/-- A turn of the host. -/
theorem Caused.host (h : Caused s sumsH sumsG) (hle : s.guest.epoch ≤ s.host.epoch)
    (htrue : Truthful sumsG s.toHost) (ht : HostTurn d s s' ls bytes)
    (hs : Summed sumsH sumsH' ls) (hr : HostTook sumsH s s' read) : Caused s' sumsH' sumsG := by
  have hmono : ∀ {e}, Differ sumsH sumsG e → Differ sumsH' sumsG e := fun hd =>
    hd.mono hs.keep fun _ _ _ => id
  have hany : (∃ e, Differ sumsH sumsG e) → ∃ e, Differ sumsH' sumsG e := fun ⟨e, he⟩ =>
    ⟨e, hmono he⟩
  have hread : ∀ l ∈ read, l ∈ s.toHost := fun l hl => hr.split ▸ List.mem_append_left _ hl
  have hleft : ∀ l ∈ s'.toHost, l ∈ s.toHost := fun l hl => hr.split ▸ List.mem_append_right _ hl
  have hahead := ht.ahead
  refine ⟨fun ha => ?_, fun l hl hb => hmono (h.requests l (hleft l hl) hb), fun hp => ?_,
    fun hpos => ?_, fun ha => ?_⟩
  · rw [ht.guest]
    exact hmono (h.asked (ht.asked ▸ ha))
  · cases hold : s.pend with
    | true => exact hany (h.pend hold)
    | false =>
      obtain ⟨l, hl, hask | ⟨w, w', hb, hw, hne⟩⟩ := hr.cause hold hp
      · exact hany ⟨_, h.requests l (hread l hl) hask⟩
      · exact hany ⟨l.epoch, l.tick, w', w, hw, htrue l (hread l hl) w hb, hne.symm⟩
  · by_cases hlt : s.host.epoch < s'.host.epoch
    · exact hany (h.pend (hr.pushes hlt))
    · exact hany (h.pushed (by omega))
  · rw [ht.guest]
    rcases h.kept (ht.asked ▸ ha) with ⟨l, hl, hb, he⟩ | hp | hlt
    · rw [hr.split] at hl
      rcases List.mem_append.mp hl with hl | hl
      · exact Or.inr (Or.inl (hr.asks l hl hb))
      · exact Or.inl ⟨l, hl, hb, he⟩
    · rcases hr.kept hp with hp | hlt
      · exact Or.inr (Or.inl hp)
      · exact Or.inr (Or.inr (by omega))
    · exact Or.inr (Or.inr (by omega))

/-- A turn of the guest. -/
theorem Caused.guest (h : Caused s sumsH sumsG) (htrue : Truthful sumsH s.toGuest)
    (ht : GuestTurn d s s' ls bytes) (hs : Summed sumsG sumsG' ls)
    (hr : GuestTook sumsG s s' ls read) : Caused s' sumsH sumsG' := by
  have hmono : ∀ {e}, Differ sumsH sumsG e → Differ sumsH sumsG' e := fun hd =>
    hd.mono (fun _ _ _ => id) hs.keep
  have hany : (∃ e, Differ sumsH sumsG e) → ∃ e, Differ sumsH sumsG' e := fun ⟨e, he⟩ =>
    ⟨e, hmono he⟩
  have hnew : ∀ x ∈ ls, x.body = .ask → Differ sumsH sumsG' x.epoch := by
    intro x hx hb
    obtain ⟨l, hl, w, w', hw, he, hw', hne⟩ := hr.cause x hx hb
    have hmem : l ∈ s.toGuest := hr.split ▸ List.mem_append_left _ hl
    rw [← he]
    exact hmono ⟨l.tick, w, w', htrue l hmem w hw, hw', hne⟩
  refine ⟨fun ha => ?_, fun l hl hb => ?_, fun hp => hany (h.pend (ht.pend ▸ hp)), fun hpos => ?_,
    fun ha => ?_⟩
  · rcases hr.asked ha with ⟨hold, he⟩ | ⟨x, hx, hb, he⟩
    · rw [he]
      exact hmono (h.asked hold)
    · exact he ▸ hnew x hx hb
  · rw [ht.toHost] at hl
    rcases List.mem_append.mp hl with hl | hl
    · exact hmono (h.requests l hl hb)
    · exact hnew l hl hb
  · rw [ht.host] at hpos
    exact hany (h.pushed hpos)
  · rw [ht.toHost, ht.pend, ht.host]
    rcases hr.asked ha with ⟨hold, he⟩ | ⟨x, hx, hb, he⟩
    · rw [he]
      rcases h.kept hold with ⟨l, hl, hrest⟩ | hrest
      · exact Or.inl ⟨l, List.mem_append_left _ hl, hrest⟩
      · exact Or.inr hrest
    · exact Or.inl ⟨x, List.mem_append_right _ hx, hb, he⟩

end Caused

end BoxingNetplay.Analysis
