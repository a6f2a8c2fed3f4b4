import BoxingNetplay.Interface.Pump

/-!
# The pump is the reference parser

One round of `SES_PUMP`'s parse loop does to the unread bytes what the framing says, so the
whole loop scans them, and the loop leaves at most 99 bytes.  A pump appends at most 64 bytes
to those, which fits the ring; so pump after pump, the console extracts what one scan of
the whole stream extracts (`Framing.feed_eq_scan`), however the stream is cut.
-/

set_option autoImplicit false

namespace BoxingNetplay.Analysis

open BoxingNetplay.Library
open BoxingNetplay.Model
open BoxingNetplay.Interface

/-! ### One round of the parse loop -/

/-- One round of the parse loop follows the framing. -/
theorem parseStep_round (f : Cpu → Cpu) (hf : KeepsRing f) (c : Cpu) :
    Round c (parseStep f c) := by
  have hnext := parseNext_round c
  unfold parseStep
  generalize parseNext c = r at hnext
  cases hnext with
  | wait hv => exact .wait hv
  | slip c' b hv hc => exact .slip c' b hv hc
  | take c' n hv hc => exact .take _ n hv ((unread_congr fun a ha => hf c' a ha).1.trans hc)

/-! ### The parse loop -/

/-- With as many rounds as unread bytes and one to stop, the loop scans what is unread. -/
theorem parseLoop_scan (f : Cpu → Cpu) (hf : KeepsRing f) (fuel : ℕ) (c : Cpu)
    (h : buffered c < fuel) :
    (parseLoop f fuel c).finished = true ∧
    (parseLoop f fuel c).items = (consoleFraming.scan (unread c)).1 ∧
    unread (parseLoop f fuel c).cpu = (consoleFraming.scan (unread c)).2 := by
  induction fuel generalizing c with
  | zero => omega
  | succ fuel ih =>
    have hround := parseStep_round f hf c
    unfold parseLoop
    generalize parseStep f c = r at hround
    cases hround with
    | wait hv =>
      rw [consoleFraming.scan_wait _ hv]
      exact ⟨rfl, rfl, rfl⟩
    | slip c' b hv hc =>
      have hlen := congrArg List.length hc
      rw [List.length_cons, length_unread, length_unread] at hlen
      obtain ⟨hfin, hitems, hrest⟩ := ih c' (by omega)
      rw [hc] at hv ⊢
      rw [consoleFraming.scan_slip _ _ hv]
      exact ⟨hfin, congrArg (List.cons _) hitems, hrest⟩
    | take c' n hv hc =>
      obtain ⟨hpos, hle⟩ := consoleFraming.take_pos _ _ hv
      have hlen := congrArg List.length hc
      rw [List.length_drop, length_unread, length_unread] at hlen
      rw [length_unread] at hle
      obtain ⟨hfin, hitems, hrest⟩ := ih c' (by omega)
      rw [hc] at hitems hrest
      rw [consoleFraming.scan_take _ _ hv]
      exact ⟨hfin, congrArg (List.cons _) hitems, hrest⟩

/-- Every frame of a scan was taken by the framing. -/
theorem scan_frame_le (xs : List ℕ) :
    ∀ bytes, Item.frame bytes ∈ (consoleFraming.scan xs).1 → bytes.length ≤ 100 := by
  induction hn : xs.length using Nat.strongRecOn generalizing xs with
  | _ n ih =>
    intro bytes hmem
    cases hv : consoleFraming.verdict xs with
    | wait =>
      rw [consoleFraming.scan_wait xs hv] at hmem
      cases hmem
    | slip =>
      cases xs with
      | nil => rw [consoleFraming.nil_wait] at hv; cases hv
      | cons x xs =>
        rw [consoleFraming.scan_slip x xs hv] at hmem
        rcases List.mem_cons.mp hmem with hmem | hmem
        · cases hmem
        · exact ih xs.length (by rw [← hn]; simp) xs rfl bytes hmem
    | take k =>
      obtain ⟨hpos, hle⟩ := consoleFraming.take_pos xs k hv
      rw [consoleFraming.scan_take xs k hv] at hmem
      rcases List.mem_cons.mp hmem with hmem | hmem
      · injection hmem with hmem
        have hk := take_le hv
        rw [hmem, List.length_take]
        omega
      · exact ih (xs.drop k).length (by rw [List.length_drop]; omega) _ rfl bytes hmem

/-! ### One pump -/

/-- One pump, with the handler `f`, of a console whose ring holds at most 99 bytes. -/
structure PumpScans (f : Cpu → Cpu) (c : Cpu) (p : Poll) (r : Parsed) : Prop where
  /-- no unread byte is overwritten -/
  kept : unread (receive c p) = unread c ++ delivers p
  finished : r.finished = true
  items : r.items = (consoleFraming.scan (unread c ++ delivers p)).1
  /-- the handler is called on each machine that is handed on, in order, and the pump leaves what the last
  call leaves -/
  hands : Handles f c (pumpHanded f c p) r.cpu
  /-- each holds the next extracted frame in its frame buffer -/
  carries : List.Forall₂ Carries (pumpHanded f c p) (framesOf r.items)
  rest : unread r.cpu = (consoleFraming.scan (unread c ++ delivers p)).2
  leftover : buffered r.cpu ≤ 99
  /-- every extracted frame fits the frame buffer -/
  fits : ∀ bytes, Item.frame bytes ∈ r.items → bytes.length ≤ LOBBY_CACHE - FRMBUF

/-- A pump scans the left-over of the last one followed by what it received. -/
theorem pump_scans (f : Cpu → Cpu) (hf : KeepsRing f) (c : Cpu) (p : Poll)
    (h : buffered c ≤ 99) : PumpScans f c p (SES_PUMP f c p) := by
  have hrecv := unread_receive c p h
  obtain ⟨hfin, hitems, hrest⟩ := parseLoop_scan f hf 256 (receive c p) (buffered_lt _)
  rw [hrecv] at hitems hrest
  refine ⟨hrecv, hfin, hitems, handles_pump c p, carries_parseLoop f 256 _, hrest, ?_, ?_⟩
  · rw [← length_unread]
    refine length_le_of_wait ?_
    unfold SES_PUMP
    rw [hrest]
    exact consoleFraming.verdict_scan_rest _
  · intro bytes hmem
    unfold SES_PUMP at hmem
    rw [hitems] at hmem
    have := scan_frame_le _ bytes hmem
    simp only [LOBBY_CACHE, FRMBUF]
    omega

/-! ### Pump after pump -/

/-- One pump of a run, and what the console does before the next one: anything that leaves
the ring alone. -/
structure Turn where
  poll : Poll
  after : Cpu → Cpu
  keeps : KeepsRing after

/-- The pumps of a run: the machine before each, and what it leaves. -/
def pumps (f : Cpu → Cpu) : Cpu → List Turn → List (Cpu × Poll × Parsed)
  | _, [] => []
  | c, t :: ts =>
    let r := SES_PUMP f c t.poll
    (c, t.poll, r) :: pumps f (t.after r.cpu) ts

/-- The machine at the end of a run. -/
def pumped (f : Cpu → Cpu) : Cpu → List Turn → Cpu
  | c, [] => c
  | c, t :: ts => pumped f (t.after (SES_PUMP f c t.poll).cpu) ts

/-- Every pump of a run scans, and together they feed the framing piece by piece. -/
theorem pumps_feed (f : Cpu → Cpu) (hf : KeepsRing f) (c : Cpu) (ts : List Turn)
    (h : buffered c ≤ 99) :
    (∀ u ∈ pumps f c ts, PumpScans f u.1 u.2.1 u.2.2) ∧
    ((pumps f c ts).flatMap fun u => u.2.2.items) =
      (consoleFraming.feed (unread c) (ts.map fun t => delivers t.poll)).1 ∧
    unread (pumped f c ts) =
      (consoleFraming.feed (unread c) (ts.map fun t => delivers t.poll)).2 := by
  induction ts generalizing c with
  | nil => exact ⟨by simp [pumps], rfl, rfl⟩
  | cons t ts ih =>
    have hp := pump_scans f hf c t.poll h
    have hafter := unread_congr fun a ha => t.keeps (SES_PUMP f c t.poll).cpu a ha
    obtain ⟨hall, hitems, hrest⟩ := ih (t.after (SES_PUMP f c t.poll).cpu)
      (by rw [hafter.2]; exact hp.leftover)
    rw [hafter.1, hp.rest] at hitems hrest
    refine ⟨?_, ?_, ?_⟩
    · intro u hu
      rcases List.mem_cons.mp hu with rfl | hu
      · exact hp
      · exact hall u hu
    · rw [pumps, List.flatMap_cons, hitems, List.map_cons, Framing.feed, hp.items]
    · rw [pumped, hrest, List.map_cons, Framing.feed]

/-- Pump after pump, the machines handed on hold the extracted frames. -/
theorem carries_pumps {f : Cpu → Cpu} {us : List (Cpu × Poll × Parsed)}
    (h : ∀ u ∈ us, PumpScans f u.1 u.2.1 u.2.2) :
    List.Forall₂ Carries (us.flatMap fun u => pumpHanded f u.1 u.2.1)
      (framesOf (us.flatMap fun u => u.2.2.items)) := by
  induction us with
  | nil => exact .nil
  | cons u us ih =>
    have hu := (h u List.mem_cons_self).carries
    have hus := ih fun v hv => h v (List.mem_cons_of_mem _ hv)
    rw [List.flatMap_cons, List.flatMap_cons, framesOf_append]
    exact List.rel_append hu hus

/-- However a stream is cut into replies, with empty or failed polls in between, the console
extracts what one left-to-right scan of the whole stream extracts, slips included, and calls its handler on
the extracted frames, each of them once, in order and in the frame buffer; every
pump ends with at most 99 bytes unread, having overwritten none, and its loop stops; and
a stream of complete frames is delivered in full.
SOURCE: session.asm:452-553 -/
theorem pumps_scan_stream (f : Cpu → Cpu) (hf : KeepsRing f) (c : Cpu)
    (h : c.cell RX_WR = c.cell RX_RD) (ts : List Turn) :
    ((pumps f c ts).flatMap fun u => u.2.2.items) =
      (consoleFraming.scan (ts.flatMap fun t => delivers t.poll)).1 ∧
    List.Forall₂ Carries ((pumps f c ts).flatMap fun u => pumpHanded f u.1 u.2.1)
      (framesOf (consoleFraming.scan (ts.flatMap fun t => delivers t.poll)).1) ∧
    unread (pumped f c ts) = (consoleFraming.scan (ts.flatMap fun t => delivers t.poll)).2 ∧
    (∀ u ∈ pumps f c ts, PumpScans f u.1 u.2.1 u.2.2) ∧
    ∀ fs : List (List ℕ), (∀ g ∈ fs, IsFrame g) →
      (ts.flatMap fun t => delivers t.poll) = fs.flatten →
      ((pumps f c ts).flatMap fun u => u.2.2.items) = fs.map Item.frame ∧
      List.Forall₂ Carries ((pumps f c ts).flatMap fun u => pumpHanded f u.1 u.2.1) fs := by
  have h2 : c.cell RX_RD < 256 := c.cell_lt_cart (by decide) (by decide)
  have hbuf : buffered c = 0 := by
    unfold buffered
    rw [h]
    omega
  have hnil : unread c = [] := List.length_eq_zero_iff.mp (by rw [length_unread, hbuf])
  obtain ⟨hall, hitems, hrest⟩ := pumps_feed f hf c ts (by omega)
  rw [hnil, consoleFraming.feed_eq_scan _ _ consoleFraming.nil_wait, List.nil_append,
    ← List.flatMap_def] at hitems hrest
  have hcarries := carries_pumps hall
  refine ⟨hitems, hitems ▸ hcarries, hrest, hall, ?_⟩
  intro fs hfs hstream
  have hframes : ((pumps f c ts).flatMap fun u => u.2.2.items) = fs.map Item.frame := by
    rw [hitems, hstream, consoleFraming.scan_flatten fs fun g hg => verdict_of_isFrame (hfs g hg)]
  rw [hframes, framesOf_map] at hcarries
  exact ⟨hframes, hcarries⟩

/-- A turn whose poll delivers one PONG frame. -/
def pongTurn : Turn where
  poll := { status := .ack 1, avail := 2, devStatus := 1, read := .ack 1, data := [1, 0x0D]
            short := by decide, bytes := by decide }
  after := id
  keeps := fun _ _ _ => rfl

/-- A fresh console that is sent two PONG frames hands two on. -/
theorem pumps_scan_pongs :
    ((pumps id default [pongTurn, pongTurn]).flatMap fun u => u.2.2.items) =
      [.frame [1, 0x0D], .frame [1, 0x0D]] ∧
    List.Forall₂ Carries
      ((pumps id default [pongTurn, pongTurn]).flatMap fun u => pumpHanded id u.1 u.2.1)
      [[1, 0x0D], [1, 0x0D]] :=
  (pumps_scan_stream id (fun _ _ _ => rfl) default rfl [pongTurn, pongTurn]).2.2.2.2
    [[1, 0x0D], [1, 0x0D]] (by simp [IsFrame, flenOk, SES_FLEN]) rfl

end BoxingNetplay.Analysis
