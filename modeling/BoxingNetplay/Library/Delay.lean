import Mathlib.Data.List.Basic
import Mathlib.Data.List.Pairwise
import Mathlib.Tactic.Common

/-!
# Delayed lockstep over two FIFO links

Two nodes run the same simulation.  At tick `t` of its epoch a node writes the input it captures
for tick `t + d` to the other, and it runs tick `t` once the other's input for `t` has
arrived.  One of them, the host, may restart both: it moves to tick `t + J` of a new epoch at
once, and the guest follows when the host's closing letter reaches it.  Ticks are unbounded
here; what a node keeps of them in counters and rings of bounded size is its own affair, and
the bounds below say how much it needs.

A node announces its own inputs below `top` and has the other's below `mark`.  The letters
to the guest are a path from the guest's mark to the host's top, through the restarts between
them (`Path`).  As long as `d < J`, or while there was no restart, the letters to the host of
the host's own epoch are such a path too (`Fresh`) and the others are stale and ignored.  How far
the host can be from the sender of a letter to it is bounded for every `d` (`Fair`).

Who may ask for a restart is a matter of its own (`Requests`): when an epoch ends because of a
letter of the guest, and the guest asks at most once in an epoch, the host is only a few
restarts ahead of what it is going to read.
-/

set_option autoImplicit false

namespace BoxingNetplay.Library.Delay

/-- What a letter says: an input, a report of the state, a request to restart, or a part of a
restart. -/
inductive Body (α β : Type) where
  | input (v : α)
  | report (w : β)
  | ask
  | opening (r : ℕ)
  | part
  | closing (r : ℕ)

/-- A letter, with the epoch and the tick of its sender when it was written. -/
structure Letter (α β : Type) where
  epoch : ℕ
  tick : ℕ
  body : Body α β

/-- One node: its epoch and tick, the first tick of which its own input is not announced, the
first of which the other's is not known, whether it has captured for this tick, and
whether it has run a tick past its mark, which is its last. -/
structure Node where
  epoch : ℕ
  tick : ℕ
  top : ℕ
  mark : ℕ
  sent : Bool
  ended : Bool

/-- Both nodes, the letters under way, the inputs captured in an epoch for a tick, the
tick each epoch begins at, whether a restart is pending at the host, whether the guest has
asked in this epoch, and the tick of the restart the guest is in. -/
structure Sys (α β : Type) where
  host : Node
  guest : Node
  toHost : List (Letter α β)
  toGuest : List (Letter α β)
  hostIn : ℕ → ℕ → Option α
  guestIn : ℕ → ℕ → Option α
  base : ℕ → ℕ
  pend : Bool
  asked : Bool
  hold : Option ℕ

variable {α β : Type}

/-- Record an input. -/
def put (f : ℕ → ℕ → Option α) (e n : ℕ) (v : α) : ℕ → ℕ → Option α :=
  fun e' n' => if e' = e ∧ n' = n then some v else f e' n'

/-- What was put is there. -/
theorem put_self (f : ℕ → ℕ → Option α) (e n : ℕ) (v : α) : put f e n v e n = some v :=
  if_pos ⟨rfl, rfl⟩

/-- Every other entry is as it was. -/
theorem put_of_ne (f : ℕ → ℕ → Option α) {e n e' n' : ℕ} (v : α) (h : e' = e → n' ≠ n) :
    put f e n v e' n' = f e' n' := if_neg fun heq => h heq.1 heq.2

/-! ### Letters to the guest -/

/-- The letters that take a guest of epoch `e` with the host's inputs below `m`, in a restart
to `r` or not, to epoch `e'` and `m'`. -/
inductive Path (d J : ℕ) (base : ℕ → ℕ) (ins : ℕ → ℕ → Option α) :
    ℕ → ℕ → Option ℕ → List (Letter α β) → ℕ → ℕ → Prop where
  | nil (e m : ℕ) : Path d J base ins e m none [] e m
  | input {e m t e' m' : ℕ} {v : α} {q : List (Letter α β)} (ht : t + d = m)
      (hv : ins e m = some v) (h : Path d J base ins e (m + 1) none q e' m') :
      Path d J base ins e m none (⟨e, t, .input v⟩ :: q) e' m'
  | report {e m t e' m' : ℕ} {q : List (Letter α β)} (w : β) (ht : t + d + 1 = m)
      (h : Path d J base ins e m none q e' m') :
      Path d J base ins e m none (⟨e, t, .report w⟩ :: q) e' m'
  | opening {e m r e' m' : ℕ} {q : List (Letter α β)} (j t : ℕ)
      (h : Path d J base ins e m (some r) q e' m') :
      Path d J base ins e m none (⟨j, t, .opening r⟩ :: q) e' m'
  | part {e m r e' m' : ℕ} {q : List (Letter α β)} (j t : ℕ)
      (h : Path d J base ins e m (some r) q e' m') :
      Path d J base ins e m (some r) (⟨j, t, .part⟩ :: q) e' m'
  | closing {e m r e' m' : ℕ} {q : List (Letter α β)} (j t : ℕ) (hb : base (e + 1) = r)
      (hm : m + J = r + d) (h : Path d J base ins (e + 1) (r + d) none q e' m') :
      Path d J base ins e m (some r) (⟨j, t, .closing r⟩ :: q) e' m'

namespace Path

variable {d J : ℕ} {base : ℕ → ℕ} {ins : ℕ → ℕ → Option α} {e m e' m' e'' m'' : ℕ}
  {o : Option ℕ} {q q' : List (Letter α β)}

/-- Paths compose. -/
theorem append (h : Path d J base ins e m o q e' m')
    (h' : Path d J base ins e' m' none q' e'' m'') : Path d J base ins e m o (q ++ q') e'' m'' := by
  induction h with
  | nil e m => exact h'
  | input ht hv _ ih => exact .input ht hv (ih h')
  | report w ht _ ih => exact .report w ht (ih h')
  | opening j t _ ih => exact .opening j t (ih h')
  | part j t _ ih => exact .part j t (ih h')
  | closing j t hb hm _ ih => exact .closing j t hb hm (ih h')

/-- A path ends in its own epoch, further on, or in a later one; then the restart that
ends its own epoch comes `J` ticks after its last input was captured. -/
theorem mono (h : Path d J base ins e m o q e' m') :
    (e = e' ∧ m ≤ m') ∨ (e < e' ∧ m + J ≤ base (e + 1) + d) := by
  induction h with
  | nil e m => exact Or.inl ⟨rfl, Nat.le_refl m⟩
  | input _ _ _ ih =>
    rcases ih with ⟨h1, h2⟩ | ⟨h1, h2⟩
    · exact Or.inl ⟨h1, by omega⟩
    · exact Or.inr ⟨h1, by omega⟩
  | report w _ _ ih => exact ih
  | opening j t _ ih => exact ih
  | part j t _ ih => exact ih
  | closing j t hb hm _ ih =>
    refine Or.inr ⟨?_, hb ▸ Nat.le_of_eq hm⟩
    rcases ih with ⟨h1, -⟩ | ⟨h1, -⟩ <;> omega

/-- A guest in a restart is followed by the end of its epoch. -/
theorem of_hold {r : ℕ} (h : Path d J base ins e m (some r) q e' m') :
    e < e' ∧ base (e + 1) = r := by
  generalize ho : some r = o at h
  induction h with
  | nil => cases ho
  | input => cases ho
  | report => cases ho
  | opening => cases ho
  | part j t _ ih => exact ih ho
  | closing j t hb hm h ih =>
    cases ho
    refine ⟨?_, hb⟩
    rcases h.mono with ⟨h1, -⟩ | ⟨h1, -⟩ <;> omega

/-- On a path within one epoch are inputs and reports only. -/
theorem level (h : Path d J base ins e m o q e' m') (he : e = e') :
    o = none ∧ ∀ l ∈ q, (∃ v, l.body = .input v) ∨ ∃ w, l.body = .report w := by
  induction h with
  | nil e m => exact ⟨rfl, List.forall_mem_nil _⟩
  | @input e m t e' m' v q ht hv h ih =>
    exact ⟨rfl, List.forall_mem_cons.mpr ⟨Or.inl ⟨v, rfl⟩, (ih he).2⟩⟩
  | report w ht h ih => exact ⟨rfl, List.forall_mem_cons.mpr ⟨Or.inr ⟨w, rfl⟩, (ih he).2⟩⟩
  | opening j t h _ =>
    have := h.of_hold.1
    omega
  | part j t h _ =>
    have := h.of_hold.1
    omega
  | closing j t hb hm h _ =>
    rcases h.mono with ⟨h1, -⟩ | ⟨h1, -⟩ <;> omega

/-- A report on it is of its first epoch or a later one, and of the first one only if it comes after the
inputs up to its tick. -/
theorem of_report (h : Path d J base ins e m o q e' m') {l : Letter α β} (hl : l ∈ q) {w : β}
    (hb : l.body = .report w) : e ≤ l.epoch ∧ (l.epoch = e → m ≤ l.tick + d + 1) := by
  induction h with
  | nil => cases hl
  | input _ _ _ ih =>
    rcases List.mem_cons.mp hl with rfl | hl
    · cases hb
    · obtain ⟨h1, h2⟩ := ih hl
      exact ⟨h1, fun he => by have := h2 he; omega⟩
  | report w' ht _ ih =>
    rcases List.mem_cons.mp hl with rfl | hl
    · exact ⟨Nat.le_refl _, fun _ => Nat.le_of_eq ht.symm⟩
    · exact ih hl
  | opening j t _ ih =>
    rcases List.mem_cons.mp hl with rfl | hl
    · cases hb
    · exact ih hl
  | part j t _ ih =>
    rcases List.mem_cons.mp hl with rfl | hl
    · cases hb
    · exact ih hl
  | closing j t _ _ _ ih =>
    rcases List.mem_cons.mp hl with rfl | hl
    · cases hb
    · have hlater := (ih hl).1
      exact ⟨by omega, fun he => by omega⟩

/-- Only inputs below the end of the path, and the restarts on it, matter. -/
theorem congr {base' : ℕ → ℕ} {ins' : ℕ → ℕ → Option α} (h : Path d J base ins e m o q e' m')
    (hb : ∀ k ≤ e', base' k = base k)
    (hi : ∀ k n, k < e' ∨ k = e' ∧ n < m' → ins' k n = ins k n) :
    Path d J base' ins' e m o q e' m' := by
  induction h with
  | nil e m => exact .nil e m
  | input ht hv h ih =>
    refine .input ht ?_ (ih hb hi)
    rw [hi _ _ ?_, hv]
    rcases h.mono with h1 | ⟨h1, -⟩
    · exact Or.inr ⟨h1.1, by omega⟩
    · exact Or.inl h1
  | report w ht _ ih => exact .report w ht (ih hb hi)
  | opening j t _ ih => exact .opening j t (ih hb hi)
  | part j t _ ih => exact .part j t (ih hb hi)
  | closing j t hbase hm h ih =>
    refine .closing j t ?_ hm (ih hb hi)
    rw [hb _ ?_, hbase]
    rcases h.mono with ⟨h1, -⟩ | ⟨h1, -⟩ <;> omega

/-- The letters of a restart. -/
theorem restart {r : ℕ} (n j t : ℕ) (hb : base (e + 1) = r) (hm : m + J = r + d) :
    Path d J base ins e m none (⟨j, t, .opening r⟩ ::
      (List.replicate n ⟨j, t, .part⟩ ++ [⟨j, t, .closing r⟩]) : List (Letter α β)) (e + 1)
      (r + d) := by
  refine .opening j t ?_
  induction n with
  | zero => exact .closing j t hb hm (.nil _ _)
  | succ n ih => exact .part j t ih

end Path

/-! ### Letters to the host -/

/-- The inputs of the host's epoch `e` among the letters to it, from its mark `m` to the
guest's top `m'`.  Only the first input of an epoch may be left out: the guest may
begin an epoch past the point where it captures. -/
inductive Fresh (d b e : ℕ) (ins : ℕ → Option α) : ℕ → List (Letter α β) → ℕ → Prop where
  | nil (m : ℕ) : Fresh d b e ins m [] m
  | input {m t n m' : ℕ} {v : α} {q : List (Letter α β)} (ht : t + d = n)
      (hn : n = m ∨ (n = m + 1 ∧ m = b + d ∧ ins m = none)) (hv : ins n = some v)
      (h : Fresh d b e ins (n + 1) q m') : Fresh d b e ins m (⟨e, t, .input v⟩ :: q) m'
  | other {m m' : ℕ} {l : Letter α β} {q : List (Letter α β)}
      (hl : l.epoch = e → ∀ v, l.body ≠ .input v) (h : Fresh d b e ins m q m') :
      Fresh d b e ins m (l :: q) m'

namespace Fresh

variable {d b e : ℕ} {ins : ℕ → Option α} {m m' m'' : ℕ} {q q' : List (Letter α β)}

/-- They compose. -/
theorem append (h : Fresh d b e ins m q m') (h' : Fresh d b e ins m' q' m'') :
    Fresh d b e ins m (q ++ q') m'' := by
  induction h with
  | nil m => exact h'
  | input ht hn hv _ ih => exact .input ht hn hv (ih h')
  | other hl _ ih => exact .other hl (ih h')

/-- They advance. -/
theorem le (h : Fresh d b e ins m q m') : m ≤ m' := by
  induction h with
  | nil m => exact Nat.le_refl m
  | input _ hn _ _ ih => omega
  | other _ _ ih => exact ih

/-- Letters of other epochs do not. -/
theorem stale (h : ∀ l ∈ q, l.epoch ≠ e) : Fresh d b e ins m q m := by
  induction q with
  | nil => exact .nil m
  | cons l q ih =>
    refine .other (fun he => absurd he (h l List.mem_cons_self)) (ih fun x hx => ?_)
    exact h x (List.mem_cons_of_mem _ hx)

/-- Only inputs below the guest's top matter. -/
theorem congr {ins' : ℕ → Option α} (h : Fresh d b e ins m q m') (hi : ∀ n < m', ins' n = ins n) :
    Fresh d b e ins' m q m' := by
  induction h with
  | nil m => exact .nil m
  | input ht hn hv h ih =>
    have hle := h.le
    refine .input ht ?_ (by rw [hi _ (by omega), hv]) (ih hi)
    rcases hn with hn | ⟨h1, h2, h3⟩
    · exact Or.inl hn
    · exact Or.inr ⟨h1, h2, by rw [hi _ (by omega), h3]⟩
  | other hl _ ih => exact .other hl (ih hi)

/-- What the first letter is when it is an input of the host's epoch. -/
theorem front {t : ℕ} {v : α} (h : Fresh d b e ins m (⟨e, t, .input v⟩ :: q) m') :
    (t + d = m ∨ (t + d = m + 1 ∧ m = b + d ∧ ins m = none)) ∧
      ins (t + d) = some v ∧ Fresh d b e ins (t + d + 1) q m' := by
  cases h with
  | input ht hn hv h =>
    subst ht
    exact ⟨hn, hv, h⟩
  | other hl _ => exact absurd rfl (hl rfl v)

/-- What is behind a letter that is not. -/
theorem tail {l : Letter α β} (h : Fresh d b e ins m (l :: q) m')
    (hl : l.epoch = e → ∀ v, l.body ≠ .input v) : Fresh d b e ins m q m' := by
  cases h with
  | input _ _ _ _ => exact absurd rfl (hl rfl _)
  | other _ h => exact h

end Fresh

/-! ### The invariant -/

/-- How far a host in epoch `e` with mark `m` may be from the guest at tick `t` of epoch `j`:
the restarts since are near one another, and in the epochs since it has run no
tick that needs an input of theirs.  The last two are for delays shorter than a jump. -/
structure Fair (d J : ℕ) (base : ℕ → ℕ) (e m j t : ℕ) : Prop where
  begun : j < e → t + J ≤ base (j + 1) + d ∧ base (j + 1) ≤ t + 2 * d + J + 2
  next : ∀ k, j < k → k < e → base (k + 1) ≤ base k + 2 * d + J + 2
  waiting : j < e → m ≤ base e + 2 * d + 1
  since : j = e → base e ≤ t
  near : j = e → m ≤ t + 2 * d + 1
  still : d < J → j < e → m = base e + d
  close : (0 < e → d < J) → j = e → m ≤ t + d + 1

/-- The order of two letters of the guest. -/
def Before (l l' : Letter α β) : Prop :=
  l.epoch < l'.epoch ∨ (l.epoch = l'.epoch ∧ l.tick ≤ l'.tick)

/-- What holds of two nodes and the letters between them.  `J` is how far a restart jumps. -/
structure Inv (d J : ℕ) (s : Sys α β) : Prop where
  hostTop : s.host.top = s.host.tick + d + s.host.sent.toNat
  hostRead : s.host.tick ≤ s.host.mark + s.host.ended.toNat
  hostBase : s.base s.host.epoch ≤ s.host.tick
  hostMark : s.base s.host.epoch + d ≤ s.host.mark
  guestSent : s.guest.sent = true → s.guest.top = s.guest.tick + d + 1
  guestDue : s.guest.sent = false → s.guest.top = s.guest.tick + d ∨
    (s.guest.top + 1 = s.guest.tick + d ∧ s.guest.tick = s.base s.guest.epoch + 1)
  guestRead : s.guest.tick ≤ s.guest.mark + s.guest.ended.toNat
  guestBase : s.base s.guest.epoch ≤ s.guest.tick
  guestMark : s.base s.guest.epoch + d ≤ s.guest.mark
  mono : ∀ k < s.host.epoch, s.base k + J ≤ s.base (k + 1)
  down : Path d J s.base s.hostIn s.guest.epoch s.guest.mark s.hold s.toGuest s.host.epoch
    s.host.top
  up : (0 < s.host.epoch → d < J) → s.guest.epoch = s.host.epoch →
    Fresh d (s.base s.host.epoch) s.host.epoch (s.guestIn s.host.epoch) s.host.mark s.toHost
      s.guest.top
  sorted : s.toHost.Pairwise Before
  behind : ∀ l ∈ s.toHost, l.epoch < s.guest.epoch ∨
    (l.epoch = s.guest.epoch ∧ l.tick ≤ s.guest.tick ∧ l.tick ≤ s.guest.mark)
  fair : ∀ l ∈ s.toHost, Fair d J s.base s.host.epoch s.host.mark l.epoch l.tick
  fairNow : s.guest.ended = false →
    Fair d J s.base s.host.epoch s.host.mark s.guest.epoch s.guest.tick
  hostNew : ∀ e n, s.hostIn e n ≠ none →
    (e < s.host.epoch ∨ (e = s.host.epoch ∧ n < s.host.top)) ∧ s.base e + d ≤ n
  guestNew : ∀ e n, s.guestIn e n ≠ none →
    (e < s.guest.epoch ∨ (e = s.guest.epoch ∧ n < s.guest.top)) ∧ s.base e + d ≤ n

namespace Inv

variable {d J : ℕ} {s : Sys α β}

/-- The guest is in the host's epoch or an earlier one; in the same one, its mark is at most the
host's top. -/
theorem epochs (h : Inv d J s) : (s.guest.epoch = s.host.epoch ∧ s.guest.mark ≤ s.host.top) ∨
    (s.guest.epoch < s.host.epoch ∧ s.guest.mark + J ≤ s.base (s.guest.epoch + 1) + d) :=
  h.down.mono

/-- The guest's epoch is not ahead of the host's. -/
theorem epoch_le (h : Inv d J s) : s.guest.epoch ≤ s.host.epoch := by
  rcases h.epochs with ⟨h1, -⟩ | ⟨h1, -⟩ <;> omega

/-- A letter to the host is not from an epoch the guest has not begun. -/
theorem letter_le (h : Inv d J s) {l : Letter α β} (hl : l ∈ s.toHost) :
    l.epoch ≤ s.guest.epoch := by
  rcases h.behind l hl with h1 | ⟨h1, -⟩ <;> omega

/-- The epochs begin in order, a jump or more apart. -/
theorem base_mono (h : Inv d J s) {j k : ℕ} (hjk : j ≤ k) (hk : k ≤ s.host.epoch) :
    s.base j + J * (k - j) ≤ s.base k := by
  induction k with
  | zero =>
    rw [Nat.le_zero.mp hjk]
    exact Nat.le_refl _
  | succ k ih =>
    rcases Nat.lt_or_eq_of_le hjk with hlt | heq
    · have hstep := h.mono k (by omega)
      have hprev := ih (by omega) (by omega)
      rw [Nat.succ_sub (Nat.le_of_lt_succ hlt), Nat.mul_succ]
      omega
    · rw [heq, Nat.sub_self, Nat.mul_zero]
      exact Nat.le_refl _

/-- In one epoch the host is at most `2 d + 2` ticks ahead of the guest, and the guest `d + 2` of
the host. -/
theorem apart (h : Inv d J s) (he : s.guest.epoch = s.host.epoch) (ho : s.guest.ended = false) :
    s.host.tick ≤ s.guest.tick + 2 * d + 2 ∧ s.guest.tick ≤ s.host.tick + d + 1 := by
  have hnear := (h.fairNow ho).near he
  have hread := h.hostRead
  have hguest := h.guestRead
  have htop := h.hostTop
  have hsent : s.host.sent.toNat ≤ 1 := Bool.toNat_le _
  have hover : s.host.ended.toNat ≤ 1 := Bool.toNat_le _
  rw [ho] at hguest
  simp only [Bool.toNat_false] at hguest
  rcases h.epochs with ⟨-, hm⟩ | ⟨hlt, -⟩
  · omega
  · omega

/-- A host that has not captured for its tick is at most `2 d + 1` ticks behind its mark. -/
theorem host_ahead (h : Inv d J s) (hex : 0 < s.host.epoch → d < J) (ho : s.guest.ended = false)
    (hs : s.host.sent = false) : s.host.mark ≤ s.host.tick + 2 * d + 1 := by
  have htop := h.hostTop
  have hread := h.guestRead
  have hbase := h.hostBase
  rw [hs, Bool.toNat_false] at htop
  rw [ho, Bool.toNat_false] at hread
  rcases h.epochs with ⟨he, hm⟩ | ⟨hlt, -⟩
  · have hclose := (h.fairNow ho).close hex he
    omega
  · have hstill := (h.fairNow ho).still (hex (by omega)) hlt
    omega

/-- So is a guest, unless the host has restarted, and then it is not much further. -/
theorem guest_ahead (h : Inv d J s) (hex : 0 < s.host.epoch → d < J) (ho : s.guest.ended = false)
    (hh : s.host.ended = false) (hs : s.guest.sent = false) :
    s.guest.mark ≤ s.guest.tick + 2 * d + 1 ∨ (d < J ∧ s.guest.mark ≤ s.guest.tick + 3 * d + 2) := by
  have htop := h.hostTop
  have hsent := Bool.toNat_le s.host.sent
  have hread := h.hostRead
  have hdue := h.guestDue hs
  rw [hh, Bool.toNat_false] at hread
  rcases h.epochs with ⟨he, hm⟩ | ⟨hlt, hm⟩
  · have hup := (h.up hex he).le
    omega
  · have hbegun := ((h.fairNow ho).begun hlt).2
    exact Or.inr ⟨hex (by omega), by omega⟩

end Inv

/-- A restart is not far from the letters it makes stale. -/
theorem Fair.base_le {d J : ℕ} {base : ℕ → ℕ} {e m j t : ℕ} (h : Fair d J base e m j t) {k : ℕ}
    (hj : j < k) (hk : k ≤ e) : base k ≤ t + (2 * d + J + 2) * (k - j) := by
  induction k with
  | zero => omega
  | succ k ih =>
    rcases Nat.lt_or_eq_of_le (Nat.le_of_lt_succ hj) with hlt | rfl
    · have hstep := h.next k hlt (by omega)
      have hprev := ih hlt (by omega)
      rw [Nat.succ_sub (Nat.le_of_lt hlt), Nat.mul_succ]
      omega
    · have hfirst := (h.begun (by omega)).2
      rw [Nat.succ_sub (Nat.le_refl j), Nat.sub_self, Nat.mul_one]
      omega

/-! ### What the host does -/

namespace Sys

/-- The host captures `v` for tick `t + d`. -/
def hostCapture (d : ℕ) (s : Sys α β) (v : α) : Sys α β :=
  { s with
    host := { s.host with top := s.host.tick + d + 1, sent := true }
    hostIn := put s.hostIn s.host.epoch (s.host.tick + d) v
    toGuest := s.toGuest ++ [⟨s.host.epoch, s.host.tick, .input v⟩] }

/-- The host reports its state. -/
def hostReport (s : Sys α β) (w : β) : Sys α β :=
  { s with toGuest := s.toGuest ++ [⟨s.host.epoch, s.host.tick, .report w⟩] }

/-- The host finishes a tick, its last if `last`. -/
def hostTick (s : Sys α β) (last : Bool) : Sys α β :=
  { s with host := { s.host with tick := s.host.tick + 1, sent := false, ended := last } }

/-- The host restarts both nodes `J` ticks on, in `n` parts. -/
def hostRestart (d J n : ℕ) (s : Sys α β) : Sys α β :=
  let r := s.host.tick + J
  { s with
    host := ⟨s.host.epoch + 1, r, r + d, r + d, false, s.host.ended⟩
    base := fun k => if k = s.host.epoch + 1 then r else s.base k
    pend := false
    toGuest := s.toGuest ++ (⟨s.host.epoch, s.host.tick, .opening r⟩ ::
      (List.replicate n ⟨s.host.epoch, s.host.tick, .part⟩ ++
        [⟨s.host.epoch, s.host.tick, .closing r⟩])) }

/-- The host takes an input for tick `n`. -/
def hostInput (s : Sys α β) (n : ℕ) (q : List (Letter α β)) : Sys α β :=
  { s with host := { s.host with mark := n + 1 }, toHost := q }

/-- The host takes a letter that does not move its mark. -/
def hostTake (s : Sys α β) (pend : Bool) (q : List (Letter α β)) : Sys α β :=
  { s with pend := pend, toHost := q }

end Sys

namespace Inv

variable {d J : ℕ} {s : Sys α β}

/-- Capturing keeps the invariant. -/
theorem hostCapture (h : Inv d J s) (v : α) (hs : s.host.sent = false) :
    Inv d J (s.hostCapture d v) := by
  have htop := h.hostTop
  rw [hs] at htop
  simp only [Bool.toNat_false] at htop
  have hin : ∀ k n, k < s.host.epoch ∨ k = s.host.epoch ∧ n < s.host.top →
      put s.hostIn s.host.epoch (s.host.tick + d) v k n = s.hostIn k n := by
    intro k n hkn
    refine put_of_ne _ v ?_
    omega
  refine { h with hostTop := ?_, down := ?_, hostNew := ?_ }
  · simp only [Sys.hostCapture, Bool.toNat_true]
  · refine (h.down.congr (fun _ _ => rfl) hin).append (.input ?_ ?_ ?_)
    · omega
    · rw [show s.host.top = s.host.tick + d by omega]
      exact put_self _ _ _ v
    · rw [show s.host.top + 1 = s.host.tick + d + 1 by omega]
      exact .nil _ _
  · intro e n hne
    by_cases heq : e = s.host.epoch ∧ n = s.host.tick + d
    · obtain ⟨rfl, rfl⟩ := heq
      have hb := h.hostBase
      exact ⟨Or.inr ⟨rfl, Nat.lt_succ_self _⟩, by simp only [Sys.hostCapture]; omega⟩
    · have hold : s.hostIn e n ≠ none := by
        rw [← put_of_ne s.hostIn (e := s.host.epoch) (n := s.host.tick + d) v (by omega)]
        exact hne
      obtain ⟨h1, h2⟩ := h.hostNew e n hold
      refine ⟨?_, h2⟩
      simp only [Sys.hostCapture]
      omega

/-- So does reporting, after the capture. -/
theorem hostReport (h : Inv d J s) (w : β) (hs : s.host.sent = true) :
    Inv d J (s.hostReport w) := by
  have htop := h.hostTop
  rw [hs] at htop
  exact { h with down := h.down.append (.report w htop.symm (.nil _ _)) }

/-- So does finishing a tick whose input has arrived, or one last tick. -/
theorem hostTick (h : Inv d J s) (last : Bool) (hs : s.host.sent = true)
    (ht : s.host.tick + 1 ≤ s.host.mark + last.toNat) : Inv d J (s.hostTick last) := by
  have htop := h.hostTop
  rw [hs] at htop
  simp only [Bool.toNat_true] at htop
  have hbase := h.hostBase
  refine { h with hostTop := ?_, hostRead := ht, hostBase := ?_ }
  · simp only [Sys.hostTick, Bool.toNat_false]
    omega
  · simp only [Sys.hostTick]
    omega

/-- A restart is fair to whatever was written before it. -/
theorem Fair.restart {base : ℕ → ℕ} {e m j t T : ℕ} (h : Fair d J base e m j t) (hj : j ≤ e)
    (hT : T ≤ m + 1) (ht : j = e → t ≤ T + d) :
    Fair d J (fun k => if k = e + 1 then T + J else base k) (e + 1) (T + J + d) j t := by
  refine ⟨fun hlt => ?_, fun k hjk hk => ?_, fun _ => ?_, fun heq => ?_, fun heq => ?_,
    fun _ _ => ?_, fun _ heq => ?_⟩
  · rcases Nat.lt_or_eq_of_le hj with hlt' | rfl
    · rw [if_neg (by omega)]
      exact h.begun hlt'
    · have hnear := h.near rfl
      have hlate := ht rfl
      rw [if_pos rfl]
      omega
  · rcases Nat.lt_or_eq_of_le (Nat.le_of_lt_succ hk) with hk' | rfl
    · rw [if_neg (by omega), if_neg (by omega)]
      exact h.next k hjk hk'
    · -- the host cannot have gone far without the guest
      have hwait := h.waiting hjk
      rw [if_pos rfl, if_neg (by omega)]
      omega
  · rw [if_pos rfl]
    omega
  · omega
  · omega
  · rw [if_pos rfl]
  · omega

/-- A restart between two ticks keeps the invariant. -/
theorem hostRestart (h : Inv d J s) (n : ℕ) (hs : s.host.sent = false) :
    Inv d J (s.hostRestart d J n) := by
  have htop := h.hostTop
  rw [hs] at htop
  simp only [Bool.toNat_false] at htop
  have hread := h.hostRead
  have hover : s.host.ended.toNat ≤ 1 := Bool.toNat_le _
  have hgread := h.guestRead
  have hbase := h.hostBase
  have hge := h.epoch_le
  have hold : ∀ k ≤ s.host.epoch, (s.hostRestart d J n).base k = s.base k := fun k hk =>
    if_neg (by omega)
  have hnew : (s.hostRestart d J n).base (s.host.epoch + 1) = s.host.tick + J := if_pos rfl
  refine
    { h with
      hostTop := ?_, hostRead := ?_, hostBase := ?_, hostMark := ?_, guestDue := ?_, guestBase := ?_
      guestMark := ?_, mono := ?_, down := ?_, up := ?_, fair := ?_, fairNow := ?_
      hostNew := ?_, guestNew := ?_ }
  · simp only [Sys.hostRestart, Bool.toNat_false]
    omega
  · simp only [Sys.hostRestart]
    omega
  · exact Nat.le_of_eq hnew
  · refine Nat.le_of_eq ?_
    change (s.hostRestart d J n).base (s.host.epoch + 1) + d = s.host.tick + J + d
    rw [hnew]
  · intro hsent
    have hdue := h.guestDue hsent
    rw [← hold _ hge] at hdue
    exact hdue
  · have hgb := h.guestBase
    rw [← hold _ hge] at hgb
    exact hgb
  · have hgm := h.guestMark
    rw [← hold _ hge] at hgm
    exact hgm
  · intro k hk
    rcases Nat.lt_or_eq_of_le (Nat.le_of_lt_succ hk) with hk' | rfl
    · rw [hold k (by omega), hold (k + 1) (by omega)]
      exact h.mono k hk'
    · rw [hold _ (Nat.le_refl _), hnew]
      omega
  · refine (h.down.congr hold fun _ _ _ => rfl).append (Path.restart n _ _ hnew ?_)
    omega
  · intro _ he
    simp only [Sys.hostRestart] at he
    omega
  · intro l hl
    have hle := h.letter_le hl
    refine Fair.restart (h.fair l hl) (by omega) (by omega) (fun he => ?_)
    rcases h.behind l hl with hlt | ⟨heq, -, ht⟩
    · omega
    · rcases h.epochs with ⟨-, hm⟩ | ⟨hlt, -⟩ <;> omega
  · intro ho
    have ho' : s.guest.ended = false := ho
    rw [ho'] at hgread
    simp only [Bool.toNat_false] at hgread
    have he : s.guest.epoch = s.host.epoch → s.guest.tick ≤ s.host.tick + d := by
      intro he
      rcases h.epochs with ⟨-, hm⟩ | ⟨hlt, -⟩ <;> omega
    exact Fair.restart (h.fairNow ho) hge (by omega) he
  · intro e m hne
    obtain ⟨h1, h2⟩ := h.hostNew e m hne
    refine ⟨?_, by rw [hold e (by omega)]; exact h2⟩
    simp only [Sys.hostRestart]
    omega
  · intro e m hne
    obtain ⟨h1, h2⟩ := h.guestNew e m hne
    exact ⟨h1, by rw [hold e (by omega)]; exact h2⟩

/-- A letter of an earlier epoch whose input a host that reads nothing new would take. -/
theorem input_lt (h : Inv d J s) {l : Letter α β} (hl : l ∈ s.toHost) (hJ : d < J)
    (he : l.epoch < s.host.epoch) : l.tick + d < s.host.mark := by
  have hf := h.fair l hl
  have hb := (hf.begun he).1
  have hs := hf.still hJ he
  have hm := h.base_mono (j := l.epoch + 1) he (Nat.le_refl _)
  have hpos := Nat.zero_le (J * (s.host.epoch - (l.epoch + 1)))
  omega

/-- Taking a letter that does not move the mark keeps the invariant. -/
theorem hostTake (h : Inv d J s) (pend : Bool) {l : Letter α β} {q : List (Letter α β)}
    (hq : s.toHost = l :: q)
    (hl : (0 < s.host.epoch → d < J) → l.epoch = s.host.epoch → ∀ v, l.body ≠ .input v) :
    Inv d J (s.hostTake pend q) := by
  have hmem : ∀ x ∈ q, x ∈ s.toHost := fun x hx => hq ▸ List.mem_cons_of_mem l hx
  have hsorted := h.sorted
  rw [hq] at hsorted
  refine
    { h with
      up := fun hex he => ?_, sorted := hsorted.of_cons
      behind := fun x hx => h.behind x (hmem x hx), fair := fun x hx => h.fair x (hmem x hx) }
  have hup := h.up hex he
  rw [hq] at hup
  exact hup.tail (hl hex)

/-- Taking an input at or past the mark keeps the invariant. -/
theorem hostInput (h : Inv d J s) {l : Letter α β} {v : α} {q : List (Letter α β)}
    (hq : s.toHost = l :: q) (hl : l.body = .input v) (hn : s.host.mark ≤ l.tick + d) :
    Inv d J (s.hostInput (l.tick + d) q) := by
  have hmem : ∀ x ∈ q, x ∈ s.toHost := fun x hx => hq ▸ List.mem_cons_of_mem _ hx
  have hhead : l ∈ s.toHost := hq ▸ List.mem_cons_self
  have hsorted := h.sorted
  rw [hq, List.pairwise_cons] at hsorted
  have hge := h.epoch_le
  have hle := h.letter_le hhead
  have hread := h.hostRead
  have hmark := h.hostMark
  have hown := h.fair l hhead
  -- an input of an earlier epoch is not far past the beginning of this one
  have hfar : l.epoch < s.host.epoch → l.tick + J ≤ s.base s.host.epoch + d := by
    intro hlt
    have hb := (hown.begun hlt).1
    have hm := h.base_mono (j := l.epoch + 1) hlt (Nat.le_refl _)
    have hpos := Nat.zero_le (J * (s.host.epoch - (l.epoch + 1)))
    omega
  have hstale : d < J → ¬ l.epoch < s.host.epoch := by
    intro hJ hlt
    have := h.input_lt hhead hJ hlt
    omega
  have hfair : ∀ {j u : ℕ}, Fair d J s.base s.host.epoch s.host.mark j u →
      (l.epoch < j ∨ (l.epoch = j ∧ l.tick ≤ u)) →
      Fair d J s.base s.host.epoch (l.tick + d + 1) j u := by
    intro j u hf hj
    refine ⟨hf.begun, hf.next, fun hlt => ?_, hf.since, fun he => ?_, fun hJ hlt => ?_,
      fun hex he => ?_⟩
    · have := hfar (by omega)
      omega
    · have hsince := hf.since he
      rcases hj with hj | ⟨hj, hu⟩
      · have := hfar (by omega)
        omega
      · omega
    · exact absurd (show l.epoch < s.host.epoch by omega) (hstale hJ)
    · rcases hj with hj | ⟨hj, hu⟩
      · exact absurd (show l.epoch < s.host.epoch by omega) (hstale (hex (by omega)))
      · omega
  refine
    { h with
      hostRead := ?_, hostMark := ?_, up := fun hex he => ?_, sorted := hsorted.2
      behind := fun x hx => h.behind x (hmem x hx), fair := ?_, fairNow := ?_ }
  · simp only [Sys.hostInput]
    omega
  · simp only [Sys.hostInput]
    omega
  · have hup := h.up hex he
    have hsame : l.epoch = s.host.epoch := by
      by_contra hne
      have he' : s.guest.epoch = s.host.epoch := he
      have hlt : l.epoch < s.host.epoch := by omega
      exact hstale (hex (Nat.zero_lt_of_lt hlt)) hlt
    obtain ⟨j, t, b⟩ := l
    simp only at hl hsame
    subst hl hsame
    rw [hq] at hup
    exact hup.front.2.2
  · intro x hx
    exact hfair (h.fair x (hmem x hx)) (hsorted.1 x hx)
  · intro ho
    have hb := h.behind l hhead
    refine hfair (h.fairNow ho) ?_
    simp only [Sys.hostInput]
    omega

end Inv

/-! ### What the guest does -/

namespace Sys

/-- The letters to the host when the guest has written one more. -/
def post (s : Sys α β) (b : Body α β) : List (Letter α β) :=
  s.toHost ++ [⟨s.guest.epoch, s.guest.tick, b⟩]

/-- The guest captures `v` for tick `t + d`. -/
def guestCapture (d : ℕ) (s : Sys α β) (v : α) : Sys α β :=
  { s with
    guest := { s.guest with top := s.guest.tick + d + 1, sent := true }
    guestIn := put s.guestIn s.guest.epoch (s.guest.tick + d) v
    toHost := s.post (.input v) }

/-- The guest reports its state. -/
def guestReport (s : Sys α β) (w : β) : Sys α β := { s with toHost := s.post (.report w) }

/-- The guest asks for a restart. -/
def guestAsk (s : Sys α β) (q : List (Letter α β)) : Sys α β :=
  { s with asked := true, toGuest := q, toHost := s.post .ask }

/-- The guest finishes a tick, its last if `last`. -/
def guestTick (s : Sys α β) (last : Bool) : Sys α β :=
  { s with guest := { s.guest with tick := s.guest.tick + 1, sent := false, ended := last } }

/-- The guest takes an input. -/
def guestInput (s : Sys α β) (q : List (Letter α β)) : Sys α β :=
  { s with guest := { s.guest with mark := s.guest.mark + 1 }, toGuest := q }

/-- The guest takes a letter that moves nothing but the restart it is in. -/
def guestTake (s : Sys α β) (hold : Option ℕ) (q : List (Letter α β)) : Sys α β :=
  { s with hold := hold, toGuest := q }

/-- The guest restarts. -/
def guestRestart (d r : ℕ) (s : Sys α β) (q : List (Letter α β)) : Sys α β :=
  { s with
    guest := ⟨s.guest.epoch + 1, r, r + d, r + d, false, s.guest.ended⟩
    asked := false, hold := none, toGuest := q }

end Sys

namespace Inv

variable {d J : ℕ} {s : Sys α β}

/-- A letter written now goes behind the others. -/
theorem posted (h : Inv d J s) (b : Body α β) (ho : s.guest.ended = false) :
    (s.post b).Pairwise Before ∧ ∀ l ∈ s.post b,
      (l.epoch < s.guest.epoch ∨
        (l.epoch = s.guest.epoch ∧ l.tick ≤ s.guest.tick ∧ l.tick ≤ s.guest.mark)) ∧
        Fair d J s.base s.host.epoch s.host.mark l.epoch l.tick := by
  have hread := h.guestRead
  rw [ho] at hread
  refine ⟨List.pairwise_append.mpr ⟨h.sorted, List.pairwise_singleton _ _, ?_⟩, ?_⟩
  · intro x hx y hy
    rw [List.mem_singleton.mp hy]
    have hb := h.behind x hx
    simp only [Before]
    omega
  · intro l hl
    rcases List.mem_append.mp hl with hl | hl
    · exact ⟨h.behind l hl, h.fair l hl⟩
    · rw [List.mem_singleton.mp hl]
      exact ⟨Or.inr ⟨rfl, Nat.le_refl _, hread⟩, h.fairNow ho⟩

/-- Capturing keeps the invariant. -/
theorem guestCapture (h : Inv d J s) (v : α) (hs : s.guest.sent = false)
    (ho : s.guest.ended = false) : Inv d J (s.guestCapture d v) := by
  obtain ⟨hsorted, hall⟩ := h.posted (.input v) ho
  have hdue := h.guestDue hs
  have hnone : ∀ n, s.guest.top ≤ n → s.guestIn s.guest.epoch n = none := by
    intro n hn
    by_contra hne
    obtain ⟨h1, -⟩ := h.guestNew _ n hne
    omega
  have hin : ∀ n, n ≠ s.guest.tick + d →
      put s.guestIn s.guest.epoch (s.guest.tick + d) v s.guest.epoch n =
        s.guestIn s.guest.epoch n := fun n hn => put_of_ne _ v fun _ => hn
  refine
    { h with
      guestSent := fun _ => rfl, guestDue := fun hf => (nomatch hf), up := fun hex he => ?_
      sorted := hsorted, behind := fun l hl => (hall l hl).1, fair := fun l hl => (hall l hl).2
      guestNew := ?_ }
  · have he' : s.guest.epoch = s.host.epoch := he
    have hup := h.up hex he'
    rw [← he'] at hup
    change Fresh d (s.base s.host.epoch) s.host.epoch
      (put s.guestIn s.guest.epoch (s.guest.tick + d) v s.host.epoch) s.host.mark
      (s.post (.input v)) (s.guest.tick + d + 1)
    rw [← he']
    refine (hup.congr fun n hn => hin n (by omega)).append ?_
    refine .input rfl ?_ (put_self _ _ _ v) (.nil _)
    rcases hdue with hd | ⟨hd, hb⟩
    · exact Or.inl hd.symm
    · refine Or.inr ⟨hd.symm, by omega, ?_⟩
      rw [hin _ (by omega)]
      exact hnone _ (Nat.le_refl _)
  · intro e n hne
    have hbase := h.guestBase
    simp only [Sys.guestCapture] at hne ⊢
    by_cases heq : e = s.guest.epoch ∧ n = s.guest.tick + d
    · obtain ⟨rfl, rfl⟩ := heq
      exact ⟨Or.inr ⟨rfl, Nat.lt_succ_self _⟩, by omega⟩
    · rw [put_of_ne _ v (by omega)] at hne
      obtain ⟨h1, h2⟩ := h.guestNew e n hne
      exact ⟨by omega, h2⟩

/-- So does reporting. -/
theorem guestReport (h : Inv d J s) (w : β) (ho : s.guest.ended = false) :
    Inv d J (s.guestReport w) := by
  obtain ⟨hsorted, hall⟩ := h.posted (.report w) ho
  exact
    { h with
      up := fun hex he => (h.up hex he).append (.other (fun _ _ hb => by cases hb) (.nil _))
      sorted := hsorted, behind := fun l hl => (hall l hl).1, fair := fun l hl => (hall l hl).2 }

/-- Finishing a tick keeps the invariant: one captured for, or the first of an epoch. -/
theorem guestTick (h : Inv d J s) (last : Bool) (ho : s.guest.ended = false)
    (ht : s.guest.tick + 1 ≤ s.guest.mark + last.toNat)
    (hs : s.guest.sent = false → s.guest.tick = s.base s.guest.epoch) :
    Inv d J (s.guestTick last) := by
  have hbase := h.guestBase
  have hfair := h.fairNow ho
  refine { h with
    guestSent := fun hf => (nomatch hf), guestDue := fun _ => ?_, guestRead := ht
    guestBase := ?_, behind := fun l hl => ?_, fairNow := fun hlast => ?_ }
  · simp only [Sys.guestTick]
    cases hsent : s.guest.sent with
    | true =>
      have htop := h.guestSent hsent
      omega
    | false =>
      have hdue := h.guestDue hsent
      have hfirst := hs hsent
      omega
  · simp only [Sys.guestTick]
    omega
  · have hl' := h.behind l hl
    simp only [Sys.guestTick]
    omega
  · have hlast' : last = false := hlast
    rw [hlast'] at ht
    simp only [Bool.toNat_false] at ht
    refine ⟨fun hlt => ?_, hfair.next, hfair.waiting, fun he => ?_, fun he => ?_, hfair.still,
      fun hex he => ?_⟩
    · have hb := (hfair.begun hlt).2
      simp only [Sys.guestTick] at hlt hb ⊢
      rcases h.epochs with ⟨he, -⟩ | ⟨-, hm⟩ <;> omega
    · have hn := hfair.since he
      simp only [Sys.guestTick] at hn ⊢
      omega
    · have hn := hfair.near he
      simp only [Sys.guestTick]
      omega
    · have hn := hfair.close hex he
      simp only [Sys.guestTick]
      omega

/-- Taking an input keeps the invariant. -/
theorem guestInput (h : Inv d J s) {l : Letter α β} {v : α} {q : List (Letter α β)}
    (hq : s.toGuest = l :: q) (hl : l.body = .input v) :
    Inv d J (s.guestInput q) ∧ s.hold = none ∧ l.epoch = s.guest.epoch ∧
      l.tick + d = s.guest.mark ∧ s.hostIn s.guest.epoch s.guest.mark = some v := by
  have hdown := h.down
  rw [hq] at hdown
  have hread := h.guestRead
  have hmark := h.guestMark
  generalize hold : s.hold = o at hdown
  cases hdown with
  | input ht hv hpath =>
    cases hl
    refine ⟨{ h with
      guestRead := ?_, guestMark := ?_, down := ?_, behind := fun x hx => ?_ }, rfl, rfl, ht, hv⟩
    · simp only [Sys.guestInput]
      omega
    · simp only [Sys.guestInput]
      omega
    · simp only [Sys.guestInput, hold]
      exact hpath
    · have hb := h.behind x hx
      simp only [Sys.guestInput]
      omega
  | report w ht hpath => cases hl
  | opening j t hpath => cases hl
  | part j t hpath => cases hl
  | closing j t hb hm hpath => cases hl

/-- A report of the host is of the guest's epoch, and near its mark. -/
theorem of_report (h : Inv d J s) {l : Letter α β} {w : β} {q : List (Letter α β)}
    (hq : s.toGuest = l :: q) (hl : l.body = .report w) :
    l.epoch = s.guest.epoch ∧ l.tick + d + 1 = s.guest.mark ∧ s.hold = none := by
  have hdown := h.down
  rw [hq] at hdown
  generalize hold : s.hold = o at hdown
  cases hdown with
  | input ht hv hpath => cases hl
  | report w ht hpath => exact ⟨rfl, ht, rfl⟩
  | opening j t hpath => cases hl
  | part j t hpath => cases hl
  | closing j t hb hm hpath => cases hl

/-- A part of a restart is read in a restart. -/
theorem of_part (h : Inv d J s) {l : Letter α β} {q : List (Letter α β)}
    (hq : s.toGuest = l :: q) (hl : l.body = .part) : ∃ r, s.hold = some r := by
  have hdown := h.down
  rw [hq] at hdown
  generalize s.hold = o at hdown
  cases hdown with
  | input ht hv hpath => cases hl
  | report w ht hpath => cases hl
  | opening j t hpath => cases hl
  | part j t hpath => exact ⟨_, rfl⟩
  | closing j t hb hm hpath => cases hl

/-- Taking a report or a part of a restart keeps the invariant. -/
theorem guestSkip (h : Inv d J s) {l : Letter α β} {q : List (Letter α β)}
    (hq : s.toGuest = l :: q) (hl : (∃ w, l.body = .report w) ∨ l.body = .part) :
    Inv d J (s.guestTake s.hold q) := by
  have hdown := h.down
  rw [hq] at hdown
  refine { h with down := ?_ }
  simp only [Sys.guestTake]
  generalize s.hold = o at hdown ⊢
  cases hdown with
  | input ht hv hpath => rcases hl with ⟨w, hl⟩ | hl <;> cases hl
  | report w ht hpath => exact hpath
  | opening j t hpath => rcases hl with ⟨w, hl⟩ | hl <;> cases hl
  | part j t hpath => exact hpath
  | closing j t hb hm hpath => rcases hl with ⟨w, hl⟩ | hl <;> cases hl

/-- So does answering a report with a request. -/
theorem guestAsk (h : Inv d J s) {l : Letter α β} {w : β} {q : List (Letter α β)}
    (hq : s.toGuest = l :: q) (hl : l.body = .report w) (ho : s.guest.ended = false) :
    Inv d J (s.guestAsk q) := by
  have hskip := h.guestSkip hq (Or.inl ⟨w, hl⟩)
  obtain ⟨hsorted, hall⟩ := h.posted .ask ho
  exact
    { hskip with
      up := fun hex he => (h.up hex he).append (.other (fun _ _ hb => by cases hb) (.nil _))
      sorted := hsorted, behind := fun l hl => (hall l hl).1, fair := fun l hl => (hall l hl).2 }

/-- So does taking the beginning of a restart. -/
theorem guestOpening (h : Inv d J s) {l : Letter α β} {r : ℕ} {q : List (Letter α β)}
    (hq : s.toGuest = l :: q) (hl : l.body = .opening r) : Inv d J (s.guestTake (some r) q) := by
  have hdown := h.down
  rw [hq] at hdown
  refine { h with down := ?_ }
  simp only [Sys.guestTake]
  generalize s.hold = o at hdown
  cases hdown with
  | input ht hv hpath => cases hl
  | report w ht hpath => cases hl
  | opening j t hpath =>
    cases hl
    exact hpath
  | part j t hpath => cases hl
  | closing j t hb hm hpath => cases hl

/-- And its end, which restarts the guest. -/
theorem guestRestart (h : Inv d J s) {l : Letter α β} {r : ℕ} {q : List (Letter α β)}
    (hq : s.toGuest = l :: q) (hl : l.body = .closing r) (ho : s.guest.ended = false) :
    Inv d J (s.guestRestart d r q) ∧ s.hold = some r ∧ s.base (s.guest.epoch + 1) = r := by
  have hdown := h.down
  rw [hq] at hdown
  generalize hold : s.hold = o at hdown
  have hfair := h.fairNow ho
  cases hdown with
  | input ht hv hpath => cases hl
  | report w ht hpath => cases hl
  | opening j t hpath => cases hl
  | part j t hpath => cases hl
  | closing j t hb hm hpath =>
    cases hl
    have hmono := hpath.mono
    have hlt : s.guest.epoch < s.host.epoch := by omega
    have hwait := hfair.waiting hlt
    have hlater : ∀ l ∈ s.toHost, l.epoch < s.guest.epoch + 1 :=
      fun l hl => Nat.lt_succ_of_le (h.letter_le hl)
    refine ⟨?_, rfl, hb⟩
    refine { h with
      guestSent := fun hf => (nomatch hf), guestDue := fun _ => Or.inl rfl, guestRead := ?_
      guestBase := Nat.le_of_eq hb, guestMark := ?_, down := ?_, up := fun hex he => ?_
      behind := fun l hl => Or.inl (hlater l hl), fairNow := fun _ => ?_
      guestNew := fun e n hne => ?_ }
    · simp only [Sys.guestRestart]
      omega
    · simp only [Sys.guestRestart, hb]
      omega
    · exact hpath
    · simp only [Sys.guestRestart] at he ⊢
      have hstill := hfair.still (hex (by simp only [Sys.guestRestart]; omega)) hlt
      rw [← he, hb] at hstill
      rw [← hstill]
      exact Fresh.stale fun l hl => by
        have := hlater l hl
        omega
    · refine ⟨fun hnext => ?_, fun k hk => ?_, fun _ => hwait, fun he => ?_, fun he => ?_,
        fun hJ _ => hfair.still hJ hlt, fun hex he => ?_⟩
      · have hstep := hfair.next (s.guest.epoch + 1) (Nat.lt_succ_self _) hnext
        simp only [Sys.guestRestart] at hnext hstep ⊢
        omega
      · exact hfair.next k (Nat.lt_of_succ_lt hk)
      · simp only [Sys.guestRestart] at he ⊢
        rw [← he]
        exact Nat.le_of_eq hb
      · simp only [Sys.guestRestart] at he ⊢
        rw [← he, hb] at hwait
        omega
      · simp only [Sys.guestRestart] at he ⊢
        have hstill := hfair.still (hex (by simp only [Sys.guestRestart]; omega)) hlt
        rw [← he, hb] at hstill
        omega
    · obtain ⟨h1, h2⟩ := h.guestNew e n hne
      refine ⟨Or.inl ?_, h2⟩
      simp only [Sys.guestRestart]
      omega

end Inv

/-! ### Asking for restarts -/

/-- How many restarts the host has made, and is about to make, since what it reads was written: each
was asked for, by the guest at most once in an epoch, or followed from a report of the host's
own epoch. -/
structure Requests (s : Sys α β) : Prop where
  letters : ∀ l ∈ s.toHost, s.host.epoch + s.pend.toNat ≤ l.epoch + 2
  asks : ∀ l ∈ s.toHost, l.body = .ask → s.host.epoch + s.pend.toNat ≤ l.epoch + 1
  now : s.host.epoch + s.pend.toNat ≤ s.guest.epoch + 2
  unasked : s.asked = false → s.host.epoch + s.pend.toNat ≤ s.guest.epoch + 1
  once : s.toHost.Pairwise fun l l' => l.body = .ask → l'.body = .ask → l.epoch < l'.epoch
  past : s.asked = false → ∀ l ∈ s.toHost, l.body = .ask → l.epoch < s.guest.epoch

namespace Requests

variable {d J : ℕ} {s s' : Sys α β} {q : List (Letter α β)} {l : Letter α β}

/-- It is about the epochs, the letters to the host and the two flags. -/
theorem congr (h : Requests s) (hh : s'.host.epoch = s.host.epoch)
    (hg : s'.guest.epoch = s.guest.epoch) (hp : s'.pend = s.pend) (ha : s'.asked = s.asked)
    (hq : s'.toHost = s.toHost) : Requests s' := by
  refine ⟨?_, ?_, ?_, ?_, ?_, ?_⟩
  · rw [hq, hh, hp]
    exact h.letters
  · rw [hq, hh, hp]
    exact h.asks
  · rw [hh, hg, hp]
    exact h.now
  · rw [hh, hg, hp, ha]
    exact h.unasked
  · rw [hq]
    exact h.once
  · rw [hq, hg, ha]
    exact h.past

/-- Fewer letters make it no worse. -/
theorem tail (h : Requests s) (hq : s.toHost = l :: q) (hh : s'.host.epoch = s.host.epoch)
    (hg : s'.guest.epoch = s.guest.epoch) (hp : s'.pend = s.pend) (ha : s'.asked = s.asked)
    (hq' : s'.toHost = q) : Requests s' := by
  have hmem : ∀ x ∈ q, x ∈ s.toHost := fun x hx => hq ▸ List.mem_cons_of_mem l hx
  have honce := h.once
  rw [hq] at honce
  refine ⟨fun x hx => ?_, fun x hx => ?_, ?_, ?_, ?_, fun hf x hx => ?_⟩
  · rw [hh, hp]
    exact h.letters x (hmem x (hq' ▸ hx))
  · rw [hh, hp]
    exact h.asks x (hmem x (hq' ▸ hx))
  · rw [hh, hg, hp]
    exact h.now
  · rw [hh, hg, hp, ha]
    exact h.unasked
  · rw [hq']
    exact honce.of_cons
  · rw [hg]
    exact h.past (ha ▸ hf) x (hmem x (hq' ▸ hx))

/-- The host hears the guest ask. -/
theorem heard (h : Requests s) (hi : Inv d J s) (hq : s.toHost = l :: q) (hl : l.body = .ask)
    (hp : s.pend = false) : Requests (s.hostTake true q) := by
  have hhead : l ∈ s.toHost := hq ▸ List.mem_cons_self
  have hmem : ∀ x ∈ q, x ∈ s.toHost := fun x hx => hq ▸ List.mem_cons_of_mem l hx
  have hown := h.asks l hhead hl
  rw [hp] at hown
  simp only [Bool.toNat_false] at hown
  have hle := hi.letter_le hhead
  have hsorted := hi.sorted
  have honce := h.once
  rw [hq, List.pairwise_cons] at hsorted honce
  have hafter : ∀ x ∈ q, l.epoch ≤ x.epoch := by
    intro x hx
    rcases hsorted.1 x hx with h1 | ⟨h1, -⟩ <;> omega
  refine ⟨fun x hx => ?_, fun x hx hb => ?_, ?_, fun hf => ?_, honce.2,
    fun hf x hx => h.past hf x (hmem x hx)⟩
  · have := hafter x hx
    simp only [Sys.hostTake, Bool.toNat_true]
    omega
  · have := honce.1 x hx hl hb
    simp only [Sys.hostTake, Bool.toNat_true]
    omega
  · simp only [Sys.hostTake, Bool.toNat_true]
    omega
  · have := h.past hf l hhead hl
    simp only [Sys.hostTake, Bool.toNat_true]
    omega

/-- A report of the host's own epoch makes it restart. -/
theorem noticed (h : Requests s) (hi : Inv d J s) (hq : s.toHost = l :: q)
    (hl : l.epoch = s.host.epoch) : Requests (s.hostTake true q) := by
  have hhead : l ∈ s.toHost := hq ▸ List.mem_cons_self
  have hmem : ∀ x ∈ q, x ∈ s.toHost := fun x hx => hq ▸ List.mem_cons_of_mem l hx
  have hle := hi.letter_le hhead
  have hsorted := hi.sorted
  have honce := h.once
  rw [hq, List.pairwise_cons] at hsorted honce
  have hafter : ∀ x ∈ q, l.epoch ≤ x.epoch := by
    intro x hx
    rcases hsorted.1 x hx with h1 | ⟨h1, -⟩ <;> omega
  refine ⟨fun x hx => ?_, fun x hx hb => ?_, ?_, fun hf => ?_, honce.2,
    fun hf x hx => h.past hf x (hmem x hx)⟩
  · have := hafter x hx
    simp only [Sys.hostTake, Bool.toNat_true]
    omega
  · have := hafter x hx
    simp only [Sys.hostTake, Bool.toNat_true]
    omega
  · simp only [Sys.hostTake, Bool.toNat_true]
    omega
  · simp only [Sys.hostTake, Bool.toNat_true]
    omega

/-- A restart that was pending. -/
theorem restarted (h : Requests s) (n : ℕ) (hp : s.pend = true) :
    Requests (s.hostRestart d J n) := by
  have hletters := h.letters
  have hasks := h.asks
  have hnow := h.now
  have hunasked := h.unasked
  rw [hp] at hletters hasks hnow hunasked
  exact ⟨hletters, hasks, hnow, hunasked, h.once, h.past⟩

/-- A letter of the guest that does not ask. -/
theorem posted {b : Body α β} (h : Requests s) (hb : b ≠ .ask)
    (hh : s'.host.epoch = s.host.epoch) (hg : s'.guest.epoch = s.guest.epoch)
    (hp : s'.pend = s.pend) (ha : s'.asked = s.asked) (hq : s'.toHost = s.post b) :
    Requests s' := by
  refine ⟨fun x hx => ?_, fun x hx hx' => ?_, ?_, ?_, ?_, fun hf x hx hx' => ?_⟩
  · rw [hh, hp]
    rcases List.mem_append.mp (hq ▸ hx) with hx | hx
    · exact h.letters x hx
    · rw [List.mem_singleton.mp hx]
      exact h.now
  · rw [hh, hp]
    rcases List.mem_append.mp (hq ▸ hx) with hx | hx
    · exact h.asks x hx hx'
    · rw [List.mem_singleton.mp hx] at hx'
      exact absurd hx' hb
  · rw [hh, hg, hp]
    exact h.now
  · rw [hh, hg, hp, ha]
    exact h.unasked
  · rw [hq]
    refine List.pairwise_append.mpr ⟨h.once, List.pairwise_singleton _ _, fun x _ y hy _ hy' => ?_⟩
    rw [List.mem_singleton.mp hy] at hy'
    exact absurd hy' hb
  · rw [hg]
    rcases List.mem_append.mp (hq ▸ hx) with hx | hx
    · exact h.past (ha ▸ hf) x hx hx'
    · rw [List.mem_singleton.mp hx] at hx'
      exact absurd hx' hb

/-- A letter of the guest that asks for the first time in an epoch. -/
theorem asked (h : Requests s) (ha : s.asked = false) (q : List (Letter α β)) :
    Requests (s.guestAsk q) := by
  refine ⟨fun x hx => ?_, fun x hx hb => ?_, h.now, (fun hf => by cases hf), ?_,
    fun hf => by cases hf⟩
  · rcases List.mem_append.mp hx with hx | hx
    · exact h.letters x hx
    · rw [List.mem_singleton.mp hx]
      exact h.now
  · rcases List.mem_append.mp hx with hx | hx
    · exact h.asks x hx hb
    · rw [List.mem_singleton.mp hx]
      exact h.unasked ha
  · refine List.pairwise_append.mpr ⟨h.once, List.pairwise_singleton _ _, fun x hx y hy hb _ => ?_⟩
    rw [List.mem_singleton.mp hy]
    exact h.past ha x hx hb

/-- The guest follows. -/
theorem followed (h : Requests s) (hi : Inv d J s) (r : ℕ) (q : List (Letter α β)) :
    Requests (s.guestRestart d r q) := by
  have hnow := h.now
  refine ⟨h.letters, h.asks, ?_, fun _ => ?_, h.once, fun _ x hx _ => ?_⟩
  · simp only [Sys.guestRestart]
    omega
  · simp only [Sys.guestRestart]
    omega
  · exact Nat.lt_succ_of_le (hi.letter_le hx)

end Requests

/-! ### The beginning -/

/-- Both nodes at tick 0, with their first `d` inputs settled and no letters. -/
def Sys.start (d : ℕ) (pend : Bool) : Sys α β where
  host := ⟨0, 0, d, d, false, false⟩
  guest := ⟨0, 0, d, d, false, false⟩
  toHost := []
  toGuest := []
  hostIn := fun _ _ => none
  guestIn := fun _ _ => none
  base := fun _ => 0
  pend := pend
  asked := false
  hold := none

/-- The invariant holds at the beginning. -/
theorem Inv.start (d J : ℕ) (pend : Bool) : Inv d J (Sys.start d pend : Sys α β) where
  hostTop := by simp [Sys.start]
  hostRead := Nat.zero_le _
  hostBase := Nat.le_refl _
  hostMark := by simp [Sys.start]
  guestSent h := by cases h
  guestDue _ := Or.inl (Nat.zero_add d).symm
  guestRead := Nat.zero_le _
  guestBase := Nat.le_refl _
  guestMark := by simp [Sys.start]
  mono k hk := absurd hk (Nat.not_lt_zero k)
  down := .nil 0 d
  up _ _ := .nil d
  sorted := .nil
  behind := List.forall_mem_nil _
  fair := List.forall_mem_nil _
  fairNow _ := by
    refine ⟨fun h => absurd h (Nat.lt_irrefl _), fun k _ h => absurd h (Nat.not_lt_zero k),
      fun h => absurd h (Nat.lt_irrefl _), fun _ => Nat.le_refl _, fun _ => ?_,
      fun _ h => absurd h (Nat.lt_irrefl _), fun _ _ => ?_⟩ <;>
      simp only [Sys.start] <;> omega
  hostNew _ _ h := absurd rfl h
  guestNew _ _ h := absurd rfl h

/-- At the start there is at most the one the host is about to make. -/
theorem Requests.start (d : ℕ) (pend : Bool) : Requests (Sys.start d pend : Sys α β) where
  letters := List.forall_mem_nil _
  asks := List.forall_mem_nil _
  now := by
    have hpend := Bool.toNat_le pend
    simp only [Sys.start]
    omega
  unasked _ := by
    have hpend := Bool.toNat_le pend
    simp only [Sys.start]
    omega
  once := .nil
  past _ := List.forall_mem_nil _

end BoxingNetplay.Library.Delay
