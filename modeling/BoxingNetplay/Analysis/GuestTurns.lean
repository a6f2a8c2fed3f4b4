import BoxingNetplay.Analysis.GuestLetters
import BoxingNetplay.Analysis.Turns

/-!
# Turns of the guest

A guest whose match goes on (`GuestPlays`) is at its node as the host is.  A pump may take it to a new
epoch: in the hold at the start of a pass, or at the gate, when its input for the first tick of the new
epoch is never captured.
-/

set_option autoImplicit false

namespace BoxingNetplay.Analysis

open BoxingNetplay.Library
open BoxingNetplay.Library.Delay (Node Letter Sys Inv Requests put)
open BoxingNetplay.Model
open BoxingNetplay.Interface
open BoxingNetplay.Analysis.KeyPairs (tickEnd tickEnd_spec cells_atSeat0 cells_atSeat1)

/-! ### What a turn does to the line -/

/-- A turn of the guest: its letters go behind the others, and nothing of the host's changes. -/
structure GuestTurn (d : ℕ) (s s' : Line) (ls : List Post) (bytes : List ℕ) : Prop where
  host : s'.host = s.host
  hostIn : s'.hostIn = s.hostIn
  base : s'.base = s.base
  pend : s'.pend = s.pend
  guestIn : ∀ e n, (e = s.guest.epoch → n < s.guest.top) → s'.guestIn e n = s.guestIn e n
  ahead : s.guest.epoch < s'.guest.epoch ∨
    (s'.guest.epoch = s.guest.epoch ∧ s.guest.top ≤ s'.guest.top)
  toHost : s'.toHost = s.toHost ++ ls
  queued : Spelled d 1 ls bytes

/-- What the letters `read` do in a turn of the guest that writes `ls`: it asks because of a report of
another checksum than its own, and such a report makes it ask unless it has asked before. -/
structure GuestTook (sums : ℕ → ℕ → Option ℕ) (s s' : Line) (ls read : List Post) : Prop where
  split : s.toGuest = read ++ s'.toGuest
  compared : ∀ l ∈ read, ∀ w w', l.body = .report w → l.epoch = s'.guest.epoch →
    sums l.epoch l.tick = some w' → w = w' ∨ s'.asked = true
  cause : ∀ x ∈ ls, x.body = .ask → ∃ l ∈ read, ∃ w w', l.body = .report w ∧ l.epoch = x.epoch ∧
    sums l.epoch l.tick = some w' ∧ w ≠ w'
  asked : s'.asked = true → (s.asked = true ∧ s'.guest.epoch = s.guest.epoch) ∨
    ∃ x ∈ ls, x.body = .ask ∧ x.epoch = s'.guest.epoch
  kept : s.asked = true → s'.asked = true ∨ s.guest.epoch < s'.guest.epoch

namespace GuestTook

variable {d : ℕ} {sums : ℕ → ℕ → Option ℕ} {s s' s'' : Line} {ls read : List Post}

/-- Nothing read and no request. -/
theorem nil (hq : s'.toGuest = s.toGuest) (ha : s'.asked = s.asked)
    (he : s'.guest.epoch = s.guest.epoch) (hls : ∀ x ∈ ls, x.body ≠ .ask) :
    GuestTook sums s s' ls [] :=
  ⟨hq.symm, List.forall_mem_nil _, fun x hx hask => absurd hask (hls x hx),
    fun h => Or.inl ⟨ha.symm.trans h, he⟩, fun h => Or.inl (ha.trans h)⟩

/-- One letter more. -/
theorem step (h : GuestTook sums s s' ls read) (hle : s.guest.epoch ≤ s'.guest.epoch) {c : Cpu}
    {l : Post} {q : List Post} (hat : AtGuest d sums s' c) (hq : s'.toGuest = l :: q)
    (hr : GuestReads d sums s' c l q s'') :
    ∃ ls', s''.toHost = s'.toHost ++ ls' ∧ (∀ x ∈ ls', x.body = .ask) ∧
      GuestTook sums s s'' (ls ++ ls') (read ++ [l]) := by
  have hsplit : s.toGuest = (read ++ [l]) ++ s''.toGuest := by
    rw [h.split, hq, hr.toGuest, List.append_assoc]
    rfl
  have hasks := hr.asks
  cases hasks with
  | no toHost asked agree =>
    refine ⟨[], toHost.trans (List.append_nil _).symm, List.forall_mem_nil _, hsplit,
      fun x hx w w' hw he hs => ?_, fun x hx hask => ?_, fun ha => ?_, fun ha => ?_⟩
    · rcases List.mem_append.mp hx with hx | hx
      · rcases asked with ⟨ha, he'⟩ | ⟨hlt, -⟩
        · rw [ha]
          exact h.compared x hx w w' hw (he.trans he') hs
        · -- nothing is on record for the new epoch
          have hpast := hat.past x.epoch x.tick (by rw [hs]; exact Option.some_ne_none _)
          omega
      · rw [List.mem_singleton.mp hx] at hw he hs
        exact agree w w' hw he hs
    · rw [List.append_nil] at hx
      obtain ⟨y, hy, hwhy⟩ := h.cause x hx hask
      exact ⟨y, List.mem_append_left _ hy, hwhy⟩
    · rcases asked with ⟨heq, he⟩ | ⟨-, hf⟩
      · rw [List.append_nil, he]
        exact h.asked (heq.symm.trans ha)
      · rw [hf] at ha
        cases ha
    · rcases asked with ⟨heq, he⟩ | ⟨hlt, -⟩
      · rw [heq, he]
        exact h.kept ha
      · exact Or.inr (by omega)
  | yes toHost epoch asked body now known differs =>
    refine ⟨_, toHost, fun x hx => by rw [List.mem_singleton.mp hx], hsplit,
      fun _ _ _ _ _ _ _ => Or.inr asked, fun x hx hask => ?_, fun _ => Or.inr ?_,
      fun _ => Or.inl asked⟩
    · rcases List.mem_append.mp hx with hx | hx
      · obtain ⟨y, hy, hwhy⟩ := h.cause x hx hask
        exact ⟨y, List.mem_append_left _ hy, hwhy⟩
      · rw [List.mem_singleton.mp hx]
        exact ⟨l, List.mem_append_right _ List.mem_cons_self, _, _, body, now, known, differs⟩
    · exact ⟨_, List.mem_append_right _ List.mem_cons_self, rfl, epoch.symm⟩

end GuestTook

/-- Where the guest is after some letters: on in its epoch, or in a later one. -/
inductive GuestSince (d : ℕ) (s s' : Line) : Prop where
  | on (epoch : s'.guest.epoch = s.guest.epoch) (tick : s'.guest.tick = s.guest.tick)
      (top : s'.guest.top = s.guest.top) (sent : s'.guest.sent = s.guest.sent)
      (mark : s'.guest.mark + s'.toGuest.length ≤ s.guest.mark + s.toGuest.length)
  | restarted (epoch : s.guest.epoch < s'.guest.epoch)
      (tick : s'.guest.tick = s'.base s'.guest.epoch) (sent : s'.guest.sent = false)
      (mark : s'.guest.mark + s'.toGuest.length ≤ s'.guest.tick + d + s.toGuest.length)

/-- One letter more. -/
theorem GuestSince.step {d : ℕ} {s s₁ s₂ : Line} {l : Post} {q : List Post} {P : Prop}
    (h : GuestSince d s s₁) (hm : GuestMoved d s₁ s₂ P) (hq : s₁.toGuest = l :: q)
    (hq' : s₂.toGuest = q) (hb : s₂.base = s₁.base) (hle : s₁.toGuest.length ≤ s.toGuest.length) :
    GuestSince d s s₂ := by
  rw [hq, List.length_cons] at hle
  cases h with
  | on epoch tick top sent mark =>
    rw [hq, List.length_cons] at mark
    cases hm with
    | on _ epoch' tick' top' sent' mark' =>
      refine .on (epoch'.trans epoch) (tick'.trans tick) (top'.trans top) (sent'.trans sent) ?_
      rw [hq']
      omega
    | restarted _ epoch' tick' mark' sent' =>
      refine .restarted (by omega) (by rw [hb, tick']) sent' ?_
      rw [hq']
      omega
  | restarted epoch tick sent mark =>
    rw [hq, List.length_cons] at mark
    cases hm with
    | on _ epoch' tick' _ sent' mark' =>
      refine .restarted (by omega) (by rw [hb, tick', epoch', tick]) (sent'.trans sent) ?_
      rw [hq']
      omega
    | restarted _ epoch' tick' mark' sent' =>
      refine .restarted (by omega) (by rw [hb, tick']) sent' ?_
      rw [hq']
      omega

/-! ### Captures and ticks -/

section Turns

variable {d : ℕ} {sums : ℕ → ℕ → Option ℕ} {s : Line} {c : Cpu}

/-- The guest captures. -/
theorem AtGuest.capture (h : AtGuest d sums s c) (hs : s.guest.sent = false) (hd : 1 ≤ d) :
    AtGuest d sums (s.guestCapture d (controller c)) (captureSend c) ∧
      ∃ bytes, Sends bytes c (captureSend c) ∧ GuestTurn d s (s.guestCapture d (controller c))
        [⟨s.guest.epoch, s.guest.tick, .input (controller c)⟩] bytes := by
  have hdue := h.inv.guestDue hs
  have hbase := h.inv.guestBase
  have hseat : c.cell NET_SEAT ≤ 3 := by
    rw [h.node.mine]
    decide
  have hkeep : ∀ a, a ∈ MatchCells ∪ CrcRecords → a ∉ RingPages →
      (captureSend c).cell a = c.cell a := fun a ha hr => capture_kept hseat ha hr
  have hflag : ∀ {a}, a = RESYNC_HOLD ∨ a = RS_R_LO ∨ a = RS_R_HI ∨ a = RS_PEND →
      (captureSend c).cell a = c.cell a := by
    intro a ha
    refine hkeep a (line_match (Or.inr ha)) ?_
    rcases ha with rfl | rfl | rfl | rfl <;> simp [RingPages]
  have hput : ∀ k, k ≠ s.guest.tick + d →
      put s.guestIn s.guest.epoch (s.guest.tick + d) (controller c) s.guest.epoch k =
        s.guestIn s.guest.epoch k := fun k hk => Delay.put_of_ne _ _ fun _ => hk
  have hnode : ∃ n : Node, n.tick = s.guest.tick ∧ n.mark = s.guest.mark ∧
      n.top = s.guest.tick + d ∧
        AtNode d 1 n (s.guestIn s.guest.epoch) (s.hostIn s.guest.epoch) c := by
    rcases hdue with htop | ⟨htop, hfirst⟩
    · exact ⟨s.guest, rfl, rfl, htop, h.node⟩
    · -- the input of the first tick was left out
      refine ⟨{ s.guest with top := s.guest.top + 1 }, rfl, rfl, htop,
        h.node.skip (by omega) fun k hk => ?_⟩
      by_contra hne
      have hnew := h.inv.guestNew _ k hne
      omega
  obtain ⟨n, hntick, hnmark, hntop, hn⟩ := hnode
  constructor
  · refine ⟨h.inv.guestCapture _ hs h.running,
      h.requests.posted (fun hb => by cases hb) rfl rfl rfl rfl rfl, h.running, ?_, ?_, h.past,
      fun r hr => ?_, fun hn => ?_, ?_⟩
    · have hcap : AtNode d 1 { n with top := n.tick + d + 1, sent := true }
          (put s.guestIn s.guest.epoch (s.guest.tick + d) (controller c) s.guest.epoch)
          (s.hostIn s.guest.epoch) (captureSend c) :=
        hn.capture (by omega) (by omega) (by rw [hntick]; exact hntop)
          (fun k hk => hput k (by omega)) (by rw [hntop]; exact Delay.put_self _ _ _ _)
      refine hcap.same hntick.symm ?_ hnmark.symm (fun _ _ => rfl) fun _ _ => rfl
      simp only [Sys.guestCapture]
      rw [hntick]
    · exact h.records.congr (fun a ha => hkeep a (Or.inr ha) (record_not_ring ha)) id
    · unfold word
      rw [hflag (a := RESYNC_HOLD) (by simp), hflag (a := RS_R_LO) (by simp),
        hflag (a := RS_R_HI) (by simp)]
      exact h.held r hr
    · rw [hflag (by simp)]
      exact h.free hn
    · rw [hflag (a := RS_PEND) (by simp)]
      exact h.asked
  · obtain ⟨bytes, hsends, hq⟩ := queued_capture (e := s.guest.epoch) h.node.mine (by decide)
      h.node.delay h.node.tick
    refine ⟨bytes, hsends, rfl, rfl, rfl, rfl, fun e n hen => ?_, Or.inr ⟨rfl, ?_⟩, rfl, hq⟩
    · refine Delay.put_of_ne _ _ ?_
      omega
    · simp only [Sys.guestCapture]
      omega

/-- The guest after a tick of the line. -/
structure GuestTicked (d : ℕ) (sums sums' : ℕ → ℕ → Option ℕ) (s s' : Line) (g : Game) (c : Cpu)
    (v : Seen) (ls : List Post) (bytes : List ℕ) : Prop where
  guest : AtGuest d sums' s' (tickEnd g c)
  turn : GuestTurn d s s' ls bytes
  sends : Sends bytes c (tickEnd g c)
  node : s'.guest = { s.guest with tick := s.guest.tick + 1, sent := false, ended := false }
  toGuest : s'.toGuest = s.toGuest
  asked : s'.asked = s.asked
  summed : Summed sums sums' ls
  inputs : ∀ l ∈ ls, ∀ w, l.body ≠ .input w
  asks : ∀ l ∈ ls, l.body ≠ .ask
  seen : Watches d (v.ran g c) s'.guest s'.base s'.guestIn sums'

/-- The guest runs a tick whose input is there, and for which it has captured, unless it is the first. -/
theorem AtGuest.tick (h : AtGuest d sums s c) (ht : s.guest.tick < s.guest.mark)
    (hs : s.guest.sent = false → s.guest.tick = s.base s.guest.epoch) (g : Game) {v : Seen}
    (hv : Watches d v s.guest s.base s.guestIn sums) :
    ∃ s' sums' ls bytes, GuestTicked d sums sums' s s' g c v ls bytes := by
  have hend := tickEnd_spec g c
  have hlo : c.cell TICK_LO = s.guest.tick % 256 := by
    have htick := h.node.tick
    have hlt : c.cell TICK_LO < 256 := c.cell_lt_cart (by decide) (by decide)
    unfold tickWord word at htick
    omega
  have hran := hv.ran g c false false
  have hflag : ∀ {a}, a = RESYNC_HOLD ∨ a = RS_R_LO ∨ a = RS_R_HI ∨ a = RS_PEND →
      (tickEnd g c).cell a = c.cell a := by
    intro a ha
    refine tickEnd_kept g c (Or.inl (Or.inl (Or.inl ?_))) ?_ ?_ <;>
      rcases ha with rfl | rfl | rfl | rfl <;> simp
  have hnode := h.node.tickEnd (by omega) hend false false
  have hheld : ∀ r, s.hold = some r → (tickEnd g c).cell RESYNC_HOLD ≠ 0 ∧
      word (tickEnd g c) RS_R_LO RS_R_HI = r % 65536 := by
    unfold word
    rw [hflag (a := RESYNC_HOLD) (by simp), hflag (a := RS_R_LO) (by simp),
      hflag (a := RS_R_HI) (by simp)]
    exact h.held
  have hfree : s.hold = none → (tickEnd g c).cell RESYNC_HOLD = 0 := by
    rw [hflag (by simp)]
    exact h.free
  have hasked : s.asked = decide ((tickEnd g c).cell RS_PEND ≠ 0) := by
    rw [hflag (a := RS_PEND) (by simp)]
    exact h.asked
  have hfirst : sums s.guest.epoch s.guest.tick = none := by
    by_contra hne
    have := (h.records.range _ hne).2.1
    omega
  have hrep := tickReport (d := d) (e := s.guest.epoch) g h.records h.inv.guestBase h.node.mine
    h.node.tick
  cases hrep with
  | silent h64 hrec hq =>
    refine ⟨s.guestTick false, sums, [], [],
      ⟨⟨h.inv.guestTick false h.running ht hs, ?_, rfl, hnode, hrec, h.past, hheld, hfree, hasked⟩,
        ⟨rfl, rfl, rfl, rfl, fun _ _ _ => rfl, Or.inr ⟨rfl, Nat.le_refl _⟩,
          (List.append_nil _).symm, .nil d 1⟩, Sends.silent hq.out hq.replies, rfl, rfl, rfl,
        .none (List.forall_mem_nil _), List.forall_mem_nil _, List.forall_mem_nil _, ?_⟩⟩
    · exact h.requests.congr rfl rfl rfl rfl rfl
    · exact hran.1 (by omega)
  | reported h64 hrec bytes hsends hq =>
    have hseen := hran.2 (by omega)
    refine ⟨(s.guestReport (reportSum (reportMachine g c))).guestTick false, _, _, bytes,
      ⟨⟨(h.inv.guestReport _ h.running).guestTick false h.running ht hs, ?_, rfl, hnode,
        hrec _ (fun u hu => ?_) ?_, fun e u hu => (hseen.past e u hu).1, hheld, hfree, hasked⟩,
        ⟨rfl, rfl, rfl, rfl, fun _ _ _ => rfl, Or.inr ⟨rfl, Nat.le_refl _⟩, rfl, hq⟩, hsends, rfl,
        rfl, rfl, .one _ _ _ hfirst, fun l hl w hw => ?_, fun l hl hask => ?_, hseen⟩⟩
    · exact h.requests.posted (fun hb => by cases hb) rfl rfl rfl rfl rfl
    · exact Delay.put_of_ne _ _ fun _ => hu
    · exact Delay.put_self _ _ _ _
    · rw [List.mem_singleton.mp hl] at hw
      cases hw
    · rw [List.mem_singleton.mp hl] at hask
      cases hask

/-! ### Reading -/

/-- Reading a letter, as it is noted. -/
theorem Watches.guestReads {s' : Line} {v : Seen} {x : Cpu} {l : Post} {q : List Post}
    (h : Watches d v s.guest s.base s.guestIn sums) (hr : GuestReads d sums s x l q s') :
    Watches d (v.note x) s'.guest s'.base s'.guestIn sums ∧ (v.note x).played = v.played := by
  rw [hr.line.base, hr.line.guestIn]
  cases hr.moved with
  | on hreb epoch tick top _ _ => exact h.read hreb epoch tick top
  | restarted hreb epoch tick _ _ =>
    have hnote : v.note x = { v with epoch := v.epoch + 1, age := 0 } := if_pos hreb
    rw [hnote]
    exact ⟨h.restart epoch tick.symm, rfl⟩

/-- What the guest has read after some letters, what it has asked, and what its observer has noted. -/
structure GuestPumped (d : ℕ) (sums : ℕ → ℕ → Option ℕ) (s : Line) (c c' : Cpu) (rest : List ℕ)
    (v v' : Seen) (s' : Line) (ls read : List Post) : Prop where
  guest : AtGuest d sums s' c'
  feeds : Feeds d 0 s'.toGuest c' rest
  seen : Watches d v' s'.guest s'.base s'.guestIn sums
  played : v'.played = v.played
  line : GuestLine d s s' c c'
  toHost : s'.toHost = s.toHost ++ ls
  asks : ∀ x ∈ ls, x.body = .ask
  noted : Noted v v' [] read
  took : GuestTook sums s s' ls read
  since : GuestSince d s s'

/-- Where it is, it is not in an earlier epoch. -/
theorem GuestSince.epoch_le {s' : Line} (h : GuestSince d s s') : s.guest.epoch ≤ s'.guest.epoch := by
  cases h with
  | on epoch _ _ _ _ => exact Nat.le_of_eq epoch.symm
  | restarted epoch _ _ _ => exact Nat.le_of_lt epoch

/-- Whoever handles the frames of some letters reads them. -/
theorem AtGuest.reading (h : AtGuest d sums s c) (hd : 1 ≤ d ∧ d ≤ 127) {v : Seen}
    (hv : Watches d v s.guest s.base s.guestIn sums) {ds : List Cpu} {c' : Cpu}
    (hh : Handles SES_ONFRAME c ds c') {rest : List ℕ} {read q : List Post}
    (hdel : HandedOn d 0 s.toGuest ds c' rest read q) :
    ∃ s' ls, GuestPumped d sums s c c' rest v (ds.foldl Seen.note v) s' ls read ∧ s'.toGuest = q := by
  obtain ⟨s', hat, hrest, hline, hseen, hplayed, hsince, hle, done, ls, hto, hasks, hnoted, htook⟩ :=
    h.handles (Q := fun w s' => Watches d w s'.guest s'.base s'.guestIn sums ∧
        w.played = v.played ∧ GuestSince d s s' ∧ s'.toGuest.length ≤ s.toGuest.length ∧
          ∃ done ls, s'.toHost = s.toHost ++ ls ∧ (∀ x ∈ ls, x.body = .ask) ∧ Noted v w [] done ∧
            GuestTook sums s s' ls done) hd
      (fun {s₁ s₂ v₁ x l q₁} hq hty hx hr hQ => by
        obtain ⟨hseen, hplayed, hsince, hle, done, ls, hto, hasks, hnoted, htook⟩ := hQ
        obtain ⟨hnote, hsame⟩ := hseen.guestReads hr
        have hone : Noted v₁ (v₁.note x) [] [l] := .one hty fun w hw => by
          rw [hr.fresh w hw, hseen.epoch]
        obtain ⟨ms, hms, hall, htook'⟩ := htook.step hsince.epoch_le hx hq hr
        refine ⟨hnote, hsame.trans hplayed, hsince.step hr.moved hq hr.toGuest hr.line.base hle,
          ?_, done ++ [l], ls ++ ms, ?_, fun y hy => ?_, hnoted.trans hone, htook'⟩
        · rw [hq, List.length_cons] at hle
          rw [hr.toGuest]
          omega
        · rw [hms, hto, List.append_assoc]
        · exact (List.mem_append.mp hy).elim (hasks y) (hall y))
      hh hdel.split hdel.frames
      ⟨hv, rfl, .on rfl rfl rfl rfl (Nat.le_refl _), Nat.le_refl _, [], [],
        (List.append_nil _).symm, List.forall_mem_nil _, .nil rfl rfl,
        .nil rfl rfl rfl (List.forall_mem_nil _)⟩
  have hread : done = read := by
    have heq := htook.split.symm.trans hdel.split
    rw [hrest] at heq
    exact List.append_cancel_right heq
  subst hread
  refine ⟨s', ls, ⟨hat, ?_, hseen, hplayed, hline, hto, hasks, hnoted, htook, hsince⟩, hrest⟩
  rw [hrest]
  exact hdel.feeds

/-! ### Steps -/

/-- The guest in a match that goes on, with the bytes on their way to it and the notes of its observer. -/
structure GuestPlays (d : ℕ) (sums : ℕ → ℕ → Option ℕ) (s : Line) (k : Console) (wire : List ℕ)
    (v : Seen) : Prop where
  guest : AtGuest d sums s k.cpu
  feeds : Feeds d 0 s.toGuest k.cpu wire
  seen : Watches d v s.guest s.base s.guestIn sums
  acked : AllAcked k.cpu
  up : k.cpu.cell NET_DROPPED = 0
  unsent : k.phase ≠ .gate → k.phase ≠ .run → s.guest.sent = false
  sent : s.guest.sent = true ∨ (k.phase ≠ .gate ∧ k.phase ≠ .run) ∨
    (s.guest.tick = s.base s.guest.epoch ∧ 0 < s.guest.epoch)
  first : s.guest.epoch = 0 → s.guest.sent = false → s.guest.top = s.guest.tick + d
  due : k.phase = .run → s.guest.tick < s.guest.mark
  near : k.phase = .due ∨ k.phase = .gate ∨ k.phase = .run → s.guest.mark ≤ s.guest.tick + 255
  on : k.phase ≠ .parked

/-- After a step of the guest, in which it has read and written some letters. -/
structure GuestStepped (d : ℕ) (sums sums' : ℕ → ℕ → Option ℕ) (s s' : Line) (k k' : Console)
    (rest : List ℕ) (v v' : Seen) (ls read : List Post) : Prop where
  plays : GuestPlays d sums' s' k' rest v'
  turn : GuestTurn d s s' ls (written k.cpu k'.cpu)
  replayed : Replayed s s.guest v v'
  noted : Noted v v' ls read
  summed : Summed sums sums' ls
  took : GuestTook sums s s' ls read

/-- With what it has read the match goes on. -/
theorem GuestPumped.plays {k : Console} {rest : List ℕ} {c c' : Cpu} {v v' : Seen} {s' : Line}
    {ls read : List Post} (h : GuestPumped d sums s k.cpu c rest v v' s' ls read)
    (ha : AllAcked k.cpu) (heq : ∀ a ∈ MatchCells ∪ CrcRecords, c'.cell a = c.cell a)
    (hs : Silent c c') (hup : c'.cell NET_DROPPED = 0) {p : Phase} (hon : p ≠ .parked)
    (hrun : p ≠ .run) (hunsent : p ≠ .gate → s'.guest.sent = false)
    (hsent : p = .gate → s'.guest.sent = true ∨
      (s'.guest.tick = s'.base s'.guest.epoch ∧ 0 < s'.guest.epoch))
    (hfirst : s.guest.epoch = 0 → s.guest.sent = false → s.guest.top = s.guest.tick + d)
    (hnear : p = .due ∨ p = .gate → s'.guest.mark ≤ s'.guest.tick + 255) :
    GuestStepped d sums sums s s' k ⟨c', p⟩ rest v v' ls read := by
  obtain ⟨ls', fs, hls, hfs, hsends, -⟩ := h.line.sends
  have hall := hsends.then_silent hs.out hs.replies
  have hsame : ls' = ls := List.append_cancel_left (hls.symm.trans h.toHost)
  subst hsame
  have hahead : s.guest.epoch < s'.guest.epoch ∨
      (s'.guest.epoch = s.guest.epoch ∧ s.guest.top ≤ s'.guest.top) := by
    cases h.since with
    | on epoch _ top _ _ => exact Or.inr ⟨epoch, Nat.le_of_eq top.symm⟩
    | restarted epoch _ _ _ => exact Or.inl epoch
  refine ⟨⟨h.guest.congr fun a ha => heq a (line_match ha),
    h.feeds.congr fun a ha => heq a (ring_kept ha), h.seen, hall.acked ha, hup,
    fun h1 _ => hunsent h1, ?_, fun he hs' => ?_, fun hph => absurd hph hrun, fun hph => ?_, hon⟩,
    ⟨h.line.host, h.line.hostIn, h.line.base, h.line.pend, fun e n _ => ?_, hahead, hls, fs, hfs,
      ?_⟩, Or.inl h.played, h.noted.others fun l hl w hw => ?_, .none fun l hl w hw => ?_, h.took⟩
  · by_cases hg : p = .gate
    · rcases hsent hg with h1 | h1
      · exact Or.inl h1
      · exact Or.inr (Or.inr h1)
    · exact Or.inr (Or.inl ⟨hg, hrun⟩)
  · cases h.since with
    | on epoch tick top sent _ =>
      rw [top, tick]
      exact hfirst (epoch ▸ he) (sent ▸ hs')
    | restarted epoch _ _ _ => omega
  · rcases hph with hph | hph | hph
    · exact hnear (Or.inl hph)
    · exact hnear (Or.inr hph)
    · exact absurd hph hrun
  · rw [h.line.guestIn]
  · exact written_sends hall ha
  · rw [h.asks l hl] at hw
    cases hw
  · rw [h.asks l hl] at hw
    cases hw

namespace GuestPlays

variable {k : Console} {wire rest : List ℕ} {v : Seen} {c' : Cpu}

/-- A step that leaves the match alone. -/
theorem keep (h : GuestPlays d sums s k wire v)
    (heq : ∀ a ∈ MatchCells ∪ CrcRecords, c'.cell a = k.cpu.cell a) (hs : Silent k.cpu c')
    {p : Phase} (hon : p ≠ .parked) (hph : (p = .gate ∨ p = .run) ↔ (k.phase = .gate ∨ k.phase = .run))
    (hdue : p = .run → s.guest.tick < s.guest.mark)
    (hnear : p = .due ∨ p = .gate ∨ p = .run → s.guest.mark ≤ s.guest.tick + 255) :
    GuestStepped d sums sums s s k ⟨c', p⟩ wire v v [] [] := by
  have hsent := h.sent
  have hunsent := h.unsent
  refine ⟨⟨h.guest.congr fun a ha => heq a (line_match ha),
    h.feeds.congr fun a ha => heq a (ring_kept ha), h.seen, ?_, ?_, fun h1 h2 => ?_, ?_, h.first,
    hdue, hnear, hon⟩,
    ⟨rfl, rfl, rfl, rfl, fun _ _ _ => rfl, Or.inr ⟨rfl, Nat.le_refl _⟩, (List.append_nil _).symm, ?_⟩,
    Or.inl rfl, .nil rfl rfl, .none (List.forall_mem_nil _),
    .nil rfl rfl rfl (List.forall_mem_nil _)⟩
  · intro r hr
    exact h.acked r (hs.replies ▸ hr)
  · rw [heq _ (Or.inl (Or.inl (Or.inl (Or.inl (by simp)))))]
    exact h.up
  · have hno : ¬ (k.phase = .gate ∨ k.phase = .run) := fun hor => (hph.mpr hor).elim h1 h2
    exact hunsent (fun hx => hno (Or.inl hx)) fun hx => hno (Or.inr hx)
  · rcases hsent with h1 | ⟨h1, h2⟩ | h1
    · exact Or.inl h1
    · have hno : ¬ (p = .gate ∨ p = .run) := fun hor => (hph.mp hor).elim h1 h2
      exact Or.inr (Or.inl ⟨fun hx => hno (Or.inl hx), fun hx => hno (Or.inr hx)⟩)
    · exact Or.inr (Or.inr h1)
  · rw [written_silent hs]
    exact .nil d 1

/-- A pump reads letters. -/
theorem pump (h : GuestPlays d sums s k wire v) (hd : 1 ≤ d ∧ d ≤ 127) {c : Cpu}
    (hf : Frame WaitArea k.cpu c) (hs : Silent k.cpu c) (p : Poll)
    (hw : delivers p ++ rest = wire) :
    ∃ s' ls read, GuestPumped d sums s k.cpu (SES_PUMP SES_ONFRAME c p).cpu rest v
      ((pumpHanded SES_ONFRAME c p).foldl Seen.note v) s' ls read ∧
        s.toGuest.length ≤ s'.toGuest.length + 32 := by
  have heq : ∀ a ∈ MatchCells ∪ CrcRecords, c.cell a = k.cpu.cell a := fun a ha =>
    hf.cell_eq (kept_not_wait ha)
  have hfeeds := h.feeds.congr fun a ha => heq a (ring_kept ha)
  obtain ⟨read, q, hdel, hlen⟩ := hfeeds.pump p hw
  obtain ⟨s', ls, hpump, hrest⟩ := (h.guest.congr fun a ha => heq a (line_match ha)).reading hd h.seen
    (handles_pump c p) hdel
  have hsplit := congrArg List.length hdel.split
  rw [List.length_append] at hsplit
  have hquiet : GuestLine d s s k.cpu c := .silent hs rfl rfl rfl rfl rfl rfl
  refine ⟨s', ls, read, { hpump with line := hquiet.trans hpump.line }, ?_⟩
  rw [hrest]
  omega

/-- A capture. -/
theorem captures (h : GuestPlays d sums s k wire v) (hd : 1 ≤ d) (hph : k.phase = .due) :
    GuestStepped d sums sums s (s.guestCapture d (controller k.cpu)) k ⟨captureSend k.cpu, .gate⟩
      wire v (v.capture k.cpu) [⟨s.guest.epoch, s.guest.tick, .input (controller k.cpu)⟩] [] := by
  have hsent : s.guest.sent = false :=
    h.unsent (by rw [hph]; decide) (by rw [hph]; decide)
  obtain ⟨hat, bytes, hsends, hturn⟩ := h.guest.capture hsent hd
  have hseat : k.cpu.cell NET_SEAT ≤ 3 := by
    rw [h.guest.node.mine]
    decide
  refine ⟨⟨hat, h.feeds.congr fun a ha => ?_,
    h.seen.capture k.cpu true fun he => h.first he hsent, hsends.acked h.acked, ?_,
    fun hg => absurd rfl hg, Or.inl rfl, fun _ hf => absurd hf (by simp [Sys.guestCapture]),
    (fun hr => by cases hr), fun _ => h.near (Or.inl hph), (fun hp => by cases hp)⟩, ?_,
    Or.inl rfl, .capture v k.cpu h.seen.epoch _ _, .none fun l hl w hw => ?_,
    .nil rfl rfl rfl fun l hl hask => ?_⟩
  · refine capture_kept hseat (ring_kept ha) fun hr => ?_
    have h1 : 0x8400 ≤ a := hr.1
    have h2 : a = 0x8134 ∨ a = 0x8135 ∨ (0x8200 ≤ a ∧ a < 0x8300) := ha
    omega
  · rw [capture_kept hseat (Or.inl (Or.inl (Or.inl (Or.inl (by simp))))) (by simp [RingPages])]
    exact h.up
  · rw [written_sends hsends h.acked]
    exact hturn
  · rw [List.mem_singleton.mp hl] at hw
    cases hw
  · rw [List.mem_singleton.mp hl] at hask
    cases hask

/-- A tick that runs without a capture is the first of an epoch. -/
theorem uncaptured (h : GuestPlays d sums s k wire v) (hph : k.phase = .run)
    (hs : s.guest.sent = false) : s.guest.tick = s.base s.guest.epoch ∧ 0 < s.guest.epoch := by
  rcases h.sent with h1 | ⟨-, h1⟩ | h1
  · rw [hs] at h1
    cases h1
  · exact absurd hph h1
  · exact h1

/-- What the two dispatches of a tick read. -/
theorem dispatched (h : GuestPlays d sums s k wire v) (hd : 1 ≤ d ∧ d ≤ 127) (hph : k.phase = .run)
    (g : Game) : s.guest.tick < s.guest.mark ∧ s.guest.tick < s.guest.top ∧
      dispatchedCells g k.cpu = (cellsAt (s.hostIn s.guest.epoch) s.guest.tick,
        cellsAt (s.guestIn s.guest.epoch) s.guest.tick) := by
  have hdue := h.due hph
  have hnear := h.near (Or.inr (Or.inr hph))
  have htop : s.guest.tick + d ≤ s.guest.top ∧ s.guest.top ≤ s.guest.tick + d + 1 := by
    cases hs : s.guest.sent with
    | true =>
      have := h.guest.inv.guestSent hs
      omega
    | false =>
      have hfirst := h.uncaptured hph hs
      have := h.guest.inv.guestDue hs
      omega
  have hown := h.guest.node.cells_own (by omega) (by omega)
  have hpeer : seatCells k.cpu 0 (tickWord k.cpu) =
      cellsAt (s.hostIn s.guest.epoch) s.guest.tick := h.guest.node.cells_peer hdue (by omega)
  refine ⟨hdue, by omega, ?_⟩
  unfold dispatchedCells
  rw [cells_atSeat0, cells_atSeat1, hown, hpeer]

/-- A tick. -/
theorem ticks (h : GuestPlays d sums s k wire v) (hd : 1 ≤ d ∧ d ≤ 127) (hph : k.phase = .run)
    (g : Game) : ∃ s' sums' ls, GuestStepped d sums sums' s s' k ⟨(runTick g k.cpu).cpu, .native⟩
      wire v (v.ticked g k.cpu) ls [] := by
  obtain ⟨hdue, htop, hcells⟩ := h.dispatched hd hph g
  obtain ⟨s', sums', ls, bytes, ht⟩ :=
    h.guest.tick hdue (fun hs => (h.uncaptured hph hs).1) g h.seen
  have hguest := ht.node
  have hran : Noted v (v.ran g k.cpu) [] [] := .nil rfl rfl
  have hring : ∀ a ∈ RingCells, (tickEnd g k.cpu).cell a = k.cpu.cell a := fun a ha =>
    tickEnd_kept g k.cpu (Or.inr ha) (by rintro rfl; simp [RingCells] at ha)
      (by rintro rfl; simp [RingCells] at ha)
  have hkeep : ∀ {a}, a = NET_SEAT ∨ a = NET_DROPPED → (tickEnd g k.cpu).cell a = k.cpu.cell a := by
    intro a ha
    refine tickEnd_kept g k.cpu (Or.inl (Or.inl (Or.inl ?_))) ?_ ?_ <;>
      rcases ha with rfl | rfl <;> simp
  have hseat : (tickEnd g k.cpu).cell NET_SEAT ≠ 0 := by
    rw [hkeep (Or.inl rfl), h.guest.node.mine]
    decide
  have hrun : (runTick g k.cpu).cpu = tickEnd g k.cpu :=
    (runTick_cpu g k.cpu).trans (RS_PENDING_guest _ hseat)
  have hnote : v.ticked g k.cpu = v.ran g k.cpu := if_neg fun hp => hseat hp.2.1
  have hplayed : (v.ran g k.cpu).played = put v.played s.guest.epoch v.age
      (cellsAt (s.hostIn s.guest.epoch) s.guest.tick,
        cellsAt (s.guestIn s.guest.epoch) s.guest.tick) := by
    rw [← hcells, ← h.seen.epoch]
    rfl
  have hsent : s'.guest.sent = false := by rw [hguest]
  rw [hrun, hnote]
  refine ⟨s', sums', ls, ⟨ht.guest, ?_, ht.seen, ht.sends.acked h.acked, ?_, fun _ _ => hsent,
    Or.inr (Or.inl ⟨(fun hr => by cases hr), (fun hr => by cases hr)⟩), fun he _ => ?_,
    (fun hr => by cases hr), (fun hr => by simp at hr), (fun hr => by cases hr)⟩, ?_,
    Or.inr ⟨hdue, htop, hplayed⟩, hran.others ht.inputs, ht.summed,
    .nil ht.toGuest ht.asked (by rw [hguest]) ht.asks⟩
  · rw [ht.toGuest]
    exact h.feeds.congr hring
  · exact (hkeep (Or.inr rfl)).trans h.up
  · -- in the first epoch every tick is captured for
    rw [hguest] at he ⊢
    have htrue : s.guest.sent = true := by
      by_contra hne
      have hpos := (h.uncaptured hph (by simpa using hne)).2
      simp only at he
      omega
    have := h.guest.inv.guestSent htrue
    simp only
    omega
  · rw [written_sends ht.sends h.acked]
    exact ht.turn

/-- A guest that has not captured has not after a pump either. -/
theorem unsent_since {s' : Line} (h : GuestPlays d sums s k wire v) (hph : k.phase = .pass)
    (hs : GuestSince d s s') : s'.guest.sent = false := by
  have hold := h.unsent (by rw [hph]; decide) (by rw [hph]; decide)
  cases hs with
  | on _ _ _ sent _ => exact sent.trans hold
  | restarted _ _ sent _ => exact sent

/-- A guest at its gate has captured, or a new epoch has begun there. -/
theorem sent_since {s' : Line} (h : GuestPlays d sums s k wire v) (hph : k.phase = .gate)
    (hs : GuestSince d s s') (hb : s'.base = s.base) : s'.guest.sent = true ∨
      (s'.guest.tick = s'.base s'.guest.epoch ∧ 0 < s'.guest.epoch) := by
  cases hs with
  | on epoch tick _ sent _ =>
    rw [sent, epoch, tick, hb]
    rcases h.sent with h1 | ⟨h1, -⟩ | h1
    · exact Or.inl h1
    · exact absurd hph h1
    · exact Or.inr h1
  | restarted epoch tick _ _ => exact Or.inr ⟨tick, Nat.zero_lt_of_lt epoch⟩

/-- Every step of a guest whose match goes on. -/
theorem step (h : GuestPlays d sums s k wire v) (hd : 1 ≤ d ∧ d ≤ 127)
    (hex : 0 < s.host.epoch → d < 16) (hh : s.host.ended = false) (o : Outside)
    (hw : takes k o ++ rest = wire) (hup : (k.step o).cpu.cell NET_DROPPED = 0) :
    ∃ s' sums' ls read,
      GuestStepped d sums sums' s s' k (k.step o) rest v (v.step k o) ls read := by
  have hstep := stepped k o
  generalize k.step o = k' at hstep hup ⊢
  cases hstep with
  | shown hph hs =>
    have hp : pumping k = none := by simp only [pumping, hph, if_pos hs]
    rw [← wire_of_quiet o hp hw, noted_none o v (by rw [hph]; decide) (by rw [hph]; decide) hp]
    exact ⟨s, sums, [], [], h.keep (fun _ _ => rfl) (.refl _) (by decide) (by rw [hph]; decide)
      (fun hr => by cases hr) (fun hr => by simp at hr)⟩
  | left hph hdrop => exact absurd h.up hdrop
  | hold hph _ _ hp c' hwait =>
    rw [noted_pump o v (by rw [hph]; decide) (by rw [hph]; decide) hp]
    rw [takes_pump o hp] at hw
    obtain ⟨s', ls, read, hpump, -⟩ := h.pump hd (frame_freeze _) (silent_freeze _) o.poll hw
    cases hwait with
    | on hf hs =>
      exact ⟨s', sums, ls, read, hpump.plays h.acked (fun a ha => hf.cell_eq (kept_not_wait ha)) hs hup (by decide)
        (by decide) (fun _ => h.unsent_since hph hpump.since) (fun hg => by cases hg) h.first
        (fun hr => by simp at hr)⟩
    | gaveUp hgave => exact absurd hup hgave.dropped
  | pass hph _ _ hp =>
    rw [noted_pump o v (by rw [hph]; decide) (by rw [hph]; decide) hp]
    rw [takes_pump o hp] at hw
    obtain ⟨s', ls, read, hpump, -⟩ := h.pump hd (Frame.refl _ _) (.refl _) o.poll hw
    have hsent := h.unsent_since hph hpump.since
    have hhost := hpump.line.host
    have hahead := hpump.guest.inv.guest_ahead (by rw [hhost]; exact hex) hpump.guest.running
      (by rw [hhost]; exact hh) hsent
    exact ⟨s', sums, ls, read, hpump.plays h.acked (fun _ _ => rfl) (.refl _) hup (by decide) (by decide)
      (fun _ => hsent) (fun hg => by cases hg) h.first fun _ => by omega⟩
  | due hph =>
    have hp := pumping_eq_none (k := k) (by rw [hph]; decide) (by rw [hph]; decide)
    rw [← wire_of_quiet o hp hw, noted_due o v hph]
    exact ⟨_, sums, _, [], h.captures hd.1 hph⟩
  | opened hph ho =>
    have hp : pumping k = none := by simp only [pumping, hph, if_pos ho]
    rw [← wire_of_quiet o hp hw, noted_none o v (by rw [hph]; decide) (by rw [hph]; decide) hp]
    have hnear := h.near (Or.inr (Or.inl hph))
    have hread := h.guest.inv.guestRead
    rw [h.guest.running, Bool.toNat_false] at hread
    have hpast := h.guest.node.opened (by omega) ho h.up hread (by omega)
    exact ⟨s, sums, [], [], h.keep (fun _ _ => rfl) (.refl _) (by decide) (by rw [hph]; decide) (fun _ => hpast)
      fun _ => hnear⟩
  | stall hph ho hp c' hwait =>
    rw [noted_pump o v (by rw [hph]; decide) (by rw [hph]; decide) hp]
    rw [takes_pump o hp] at hw
    have hnear := h.near (Or.inr (Or.inl hph))
    have hshut := h.guest.node.shut (by omega) ho (by omega)
    obtain ⟨s', ls, read, hpump, hshort⟩ := h.pump hd (frame_freeze _) (silent_freeze _) o.poll hw
    have hmark : s'.guest.mark ≤ s'.guest.tick + 255 := by
      cases hpump.since with
      | on _ tick _ _ mark => omega
      | restarted _ _ _ mark => omega
    have hsent := h.sent_since hph hpump.since hpump.line.base
    cases hwait with
    | on hf hs =>
      exact ⟨s', sums, ls, read, hpump.plays h.acked (fun a ha => hf.cell_eq (kept_not_wait ha)) hs hup (by decide)
        (by decide) (fun hg => absurd rfl hg) (fun _ => hsent) h.first fun _ => hmark⟩
    | gaveUp hgave => exact absurd hup hgave.dropped
  | tick hph =>
    have hp := pumping_eq_none (k := k) (by rw [hph]; decide) (by rw [hph]; decide)
    rw [← wire_of_quiet o hp hw, noted_run o v hph]
    obtain ⟨s', sums', ls, ht⟩ := h.ticks hd hph o.game
    exact ⟨s', sums', ls, [], ht⟩
  | native hph =>
    have hp := pumping_eq_none (k := k) (by rw [hph]; decide) (by rw [hph]; decide)
    rw [← wire_of_quiet o hp hw, noted_none o v (by rw [hph]; decide) (by rw [hph]; decide) hp]
    obtain ⟨heq, hs⟩ := game_kept (o.game.native_frame k.cpu)
    exact ⟨s, sums, [], [], h.keep heq hs (by decide) (by rw [hph]; decide) (fun hr => by cases hr)
      (fun hr => by simp at hr)⟩
  | scan hph =>
    have hp := pumping_eq_none (k := k) (by rw [hph]; decide) (by rw [hph]; decide)
    rw [← wire_of_quiet o hp hw, noted_none o v (by rw [hph]; decide) (by rw [hph]; decide) hp]
    obtain ⟨heq, hs⟩ := game_kept (o.game.scan_frame k.cpu)
    exact ⟨s, sums, [], [], h.keep heq hs (by decide) (by rw [hph]; decide) (fun hr => by cases hr)
      (fun hr => by simp at hr)⟩
  | parked hph => exact absurd hph h.on

end GuestPlays

end Turns

end BoxingNetplay.Analysis
