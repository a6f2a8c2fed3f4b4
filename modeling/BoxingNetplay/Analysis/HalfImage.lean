import BoxingNetplay.Interface.Pass
import BoxingNetplay.Interface.Receive

/-!
# No tick runs on a half-applied image

Neither the gate nor the code after the first pump of a pass looks at the hold flag.  What keeps
a guest from running a tick between the first image byte and the END is arithmetic and order: a
pump receives at most 64 bytes, so the 100-byte chunk that starts an image can only be the
first frame a pump hands on, and the BEGIN before it was handled in an earlier pump; and between BEGIN and END
the stream has no INPUT, so a gate that was shut stays shut.
-/

set_option autoImplicit false

namespace BoxingNetplay.Analysis

open BoxingNetplay.Library
open BoxingNetplay.Model
open BoxingNetplay.Interface

/-! ### The host's stream -/

/-- What a host sends at once: a frame that is not a STATE frame, or a push. -/
inductive HostBlock where
  | frame (f : List ℕ) (hf : PeerFrame f) (hs : f.getD 1 0 ≠ FT_STATE)
  | push (H : Cpu)

/-- The frames of a block. -/
def HostBlock.frames : HostBlock → List (List ℕ)
  | .frame f _ _ => [f]
  | .push H => pushFrames H

/-- The frames of a stream. -/
def hostFrames (bs : List HostBlock) : List (List ℕ) := bs.flatMap HostBlock.frames

/-- They are frames of a peer. -/
theorem peerFrame_host (bs : List HostBlock) : ∀ f ∈ hostFrames bs, PeerFrame f := by
  intro f hf
  obtain ⟨b, -, hb⟩ := List.mem_flatMap.mp hf
  cases b with
  | frame g hg _ =>
    rw [List.mem_singleton.mp hb]
    exact hg
  | push H => exact peerFrame_push H f hb

/-! ### Half an image -/

/-- The frame in the buffer makes `RS_ON_STATE` write image bytes.
SOURCE: resync.asm:286-326 -/
def AppliesImage (c : Cpu) : Prop :=
  c.cell (FRMBUF + 1) = FT_STATE ∧ 3 < c.cell FRMBUF ∧ c.cell (FRMBUF + 3) ≠ 0xFF ∧
    c.cell RESYNC_HOLD ≠ 0 ∧ c.cell (FRMBUF + 3) < 4 ∧
    c.cell (FRMBUF + 3) * 256 + c.cell (FRMBUF + 2) + (c.cell FRMBUF - 3) ≤ IMG_TOTAL

/-- The frame in the buffer makes it re-baseline.
SOURCE: resync.asm:327-349 -/
def Rebases (c : Cpu) : Prop :=
  c.cell (FRMBUF + 1) = FT_STATE ∧ 3 ≤ c.cell FRMBUF ∧ c.cell (FRMBUF + 3) = 0xFF ∧
    c.cell (FRMBUF + 2) = 1 ∧ c.cell RESYNC_HOLD ≠ 0

instance (c : Cpu) : Decidable (AppliesImage c) := inferInstanceAs (Decidable (_ ∧ _))

instance (c : Cpu) : Decidable (Rebases c) := inferInstanceAs (Decidable (_ ∧ _))

/-- Whether the image is half applied after the frame in the buffer is handled. -/
def halfAfter (half : Bool) (c : Cpu) : Bool :=
  if Rebases c then false else if AppliesImage c then true else half

/-- No other STATE frame changes an image cell. -/
theorem image_of_neither (c : Cpu) (hty : c.cell (FRMBUF + 1) = FT_STATE) (ha : ¬ AppliesImage c)
    (hr : ¬ Rebases c) : ∀ a ∈ ImageCells, (RS_ON_STATE c).cell a = c.cell a := by
  intro a himg
  have hstep := state_cases c
  have hpush : ∀ {x : ℕ}, x ∈ ResyncVars ∪ CrcRecords → a ≠ x := by
    rintro x hx rfl
    apply image_not_push himg
    rcases hx with hx | hx
    · exact resync_push hx
    · exact Or.inl (Or.inr hx)
  generalize RS_ON_STATE c = d at hstep ⊢
  cases hstep with
  | begins =>
    apply (frame_begin c _ _).cell_eq
    rintro ((rfl | rfl | rfl | rfl | rfl) | h)
    · exact hpush (Or.inl (by simp [ResyncVars])) rfl
    · exact hpush (Or.inl (by simp [ResyncVars])) rfl
    · exact hpush (Or.inl (by simp [ResyncVars])) rfl
    · exact hpush (Or.inl (by simp [ResyncVars])) rfl
    · exact hpush (Or.inl (by simp [ResyncVars])) rfl
    · exact hpush (Or.inr h) rfl
  | rebases h => exact absurd ⟨hty, h⟩ hr
  | applies h => exact absurd ⟨hty, h⟩ ha
  | neither _ _ _ hf =>
    apply hf.cell_eq
    rintro (rfl | rfl)
    · exact hpush (Or.inl (by simp [ResyncVars])) rfl
    · exact hpush (Or.inl (by simp [ResyncVars])) rfl

/-- What a step of a console reads off the wire. -/
def taken (k : Console) (o : Outside) : List ℕ :=
  match pumping k with
  | none => []
  | some _ => delivers o.poll

/-- A run of a guest over the stream of a host: the console, whether it holds a half-applied image,
and what is still on the wire.  It starts outside a hold, at a frame boundary or within a frame,
in a match of at most four seats.
SOURCE: lockstep.asm:8-258, session.asm:452-553, resync.asm:163-368 -/
inductive GuestRun : Console → Bool → List ℕ → Prop where
  | start (k : Console) (bs : List HostBlock) (wire : List ℕ)
      (hs : 0 < k.cpu.cell NET_SEAT ∧ k.cpu.cell NET_SEAT ≤ 3) (hn : k.cpu.cell NET_COUNT ≤ 4)
      (hh : k.cpu.cell RESYNC_HOLD = 0) (hw : Inbound k.cpu wire (hostFrames bs)) :
      GuestRun k false wire
  | step {k : Console} {half : Bool} {wire : List ℕ} (h : GuestRun k half wire) (o : Outside)
      (wire' : List ℕ) (hw : taken k o ++ wire' = wire) :
      GuestRun (k.step o) ((dispatched k o).foldl halfAfter half) wire'

/-! ### Where in the stream the guest is -/

/-- How much of a push has been handled, and what is still to come: nothing, its BEGIN, or its
BEGIN and the image up to a chunk boundary. -/
inductive Stage : Bool → Bool → List (List ℕ) → Prop where
  | between (bs : List HostBlock) : Stage false false (hostFrames bs)
  | begun (H : Cpu) (bs : List HostBlock) :
      Stage true false (chunkFrames H 0 9 ++ endFrame :: hostFrames bs)
  | applying (H : Cpu) (bs : List HostBlock) (p fuel : ℕ) (hp : p ≤ IMG_TOTAL)
      (hf : IMG_TOTAL ≤ p + fuel * 96) :
      Stage true true (chunkFrames H p fuel ++ endFrame :: hostFrames bs)

/-- The frame at the front of a stage, and what is behind it. -/
inductive Front : Bool → Bool → List ℕ → List (List ℕ) → Prop where
  | other (f : List ℕ) (bs : List HostBlock) (hf : PeerFrame f) (hs : f.getD 1 0 ≠ FT_STATE) :
      Front false false f (hostFrames bs)
  | begin (H : Cpu) (bs : List HostBlock) :
      Front false false (beginFrame H) (chunkFrames H 0 9 ++ endFrame :: hostFrames bs)
  | chunk (half : Bool) (H : Cpu) (bs : List HostBlock) (p fuel : ℕ) (hp : p < IMG_TOTAL)
      (hf : IMG_TOTAL ≤ p + chunkLen p + fuel * 96) (hfirst : half = false → p = 0) :
      Front true half (chunkFrame H p)
        (chunkFrames H (p + chunkLen p) fuel ++ endFrame :: hostFrames bs)
  | last (bs : List HostBlock) : Front true true endFrame (hostFrames bs)

/-- The chunks from a position on, and then an END. -/
theorem front_chunks {half : Bool} {H : Cpu} {bs : List HostBlock} {p fuel : ℕ}
    (hp : p ≤ IMG_TOTAL) (hf : IMG_TOTAL ≤ p + fuel * 96) (hfirst : half = false → p = 0)
    {f : List ℕ} {fs : List (List ℕ)}
    (h : chunkFrames H p fuel ++ endFrame :: hostFrames bs = f :: fs) : Front true half f fs := by
  have hlast : p = IMG_TOTAL → half = true := by
    intro hend
    cases half with
    | true => rfl
    | false =>
      rw [hfirst rfl] at hend
      cases hend
  cases fuel with
  | zero =>
    rw [chunkFrames, List.nil_append] at h
    obtain ⟨rfl, rfl⟩ := List.cons.inj h
    rw [hlast (by omega)]
    exact .last bs
  | succ fuel =>
    rw [chunkFrames] at h
    by_cases hend : p = IMG_TOTAL
    · rw [if_pos hend, List.nil_append] at h
      obtain ⟨rfl, rfl⟩ := List.cons.inj h
      rw [hlast hend]
      exact .last bs
    · rw [if_neg hend, List.cons_append] at h
      obtain ⟨rfl, rfl⟩ := List.cons.inj h
      refine .chunk half H bs p fuel (by omega) ?_ hfirst
      unfold chunkLen
      simp only [IMG_TOTAL, RS_CHUNK] at hp hf ⊢
      split <;> omega

/-- Every stage with something to come has a front. -/
theorem Stage.front {b h : Bool} {pending : List (List ℕ)} (hs : Stage b h pending) {f : List ℕ}
    {fs : List (List ℕ)} (heq : pending = f :: fs) : Front b h f fs := by
  cases hs with
  | between bs =>
    cases bs with
    | nil => cases heq
    | cons blk bs =>
      cases blk with
      | frame g hg hne =>
        obtain ⟨rfl, rfl⟩ := List.cons.inj heq
        exact .other g bs hg hne
      | push H =>
        have hcons : pushFrames H ++ hostFrames bs = f :: fs := heq
        rw [pushFrames, List.cons_append, List.append_assoc] at hcons
        obtain ⟨rfl, rfl⟩ := List.cons.inj hcons
        exact .begin H bs
  | begun H bs => exact front_chunks (Nat.zero_le _) (by decide) (fun _ => rfl) heq
  | applying H bs p fuel hp hf => exact front_chunks hp hf (fun h => by cases h) heq

/-- A machine at a stage: the hold flag says whether a BEGIN was handled. -/
structure AtStage (b h : Bool) (c : Cpu) (pending : List (List ℕ)) : Prop where
  stage : Stage b h pending
  hold : c.cell RESYNC_HOLD ≠ 0 ↔ b = true
  guest : 0 < c.cell NET_SEAT ∧ c.cell NET_SEAT ≤ 3
  count : c.cell NET_COUNT ≤ 4

/-- Handling the frame at the front of a stage leads to the next stage; if it leaves the image half
applied, a BEGIN had been handled, the image was half applied before or the frame is a
full chunk, and the gate sees what it saw. -/
theorem AtStage.handle {b h : Bool} {d : Cpu} {f : List ℕ} {fs : List (List ℕ)}
    (hs : AtStage b h d (f :: fs)) (hc : Carries d f) :
    ∃ b', AtStage b' (halfAfter h d) (SES_ONFRAME d) fs ∧ (halfAfter h d = true → b = true ∧
      (h = true ∨ 64 ≤ f.length) ∧ ∀ a ∈ GateCells, (SES_ONFRAME d).cell a = d.cell a) := by
  have hfront := hs.stage.front rfl
  obtain ⟨-, hhold, hguest, hcount⟩ := hs
  cases hfront with
  | other _ bs hf hne =>
    have hty : d.cell (FRMBUF + 1) ≠ FT_STATE := by
      rw [hc.cell hf.isFrame.two_le]
      exact hne
    have hframe := frame_peer hf hc hne
    have hkeep : ∀ a, a = RESYNC_HOLD ∨ a = NET_SEAT ∨ a = NET_COUNT →
        (SES_ONFRAME d).cell a = d.cell a := by
      intro a ha
      refine hframe.cell_eq ?_
      rcases ha with rfl | rfl | rfl <;> simp [PeerArea, RingPages, Watermarks, MailboxArea]
    have hsame : halfAfter false d = false := by
      unfold halfAfter
      rw [if_neg fun h => hty h.1, if_neg fun h => hty h.1]
    rw [hsame]
    refine ⟨false, ⟨.between bs, ?_, ?_, ?_⟩, fun h => by cases h⟩
    · rw [hkeep _ (Or.inl rfl)]
      exact hhold
    · rw [hkeep _ (Or.inr (Or.inl rfl))]
      exact hguest
    · rw [hkeep _ (Or.inr (Or.inr rfl))]
      exact hcount
  | begin H bs =>
    obtain ⟨hgot, hframe⟩ := receiving_begin hc
    have hty : d.cell (FRMBUF + 1) = FT_STATE := hc.cell (i := 1) (by simp [beginFrame])
    have hlast : d.cell (FRMBUF + 3) = 0xFF := hc.cell (i := 3) (by simp [beginFrame])
    have hfirst : d.cell (FRMBUF + 2) = 0 := hc.cell (i := 2) (by simp [beginFrame])
    have hsame : halfAfter false d = false := by
      unfold halfAfter
      rw [if_neg fun h => absurd (hfirst.symm.trans h.2.2.2.1) (by decide),
        if_neg fun h => h.2.2.1 hlast]
    rw [hsame, SES_ONFRAME_state hty]
    refine ⟨true, ⟨.begun H bs, ⟨fun _ => rfl, fun _ => hgot.hold⟩, ?_, ?_⟩, fun h => by cases h⟩
    · rw [hframe.cell_eq (by simp [BeginArea, CrcRecords])]
      exact hguest
    · rw [hframe.cell_eq (by simp [BeginArea, CrcRecords])]
      exact hcount
  | chunk _ H bs p fuel hp hf hfirst =>
    have hh : d.cell RESYNC_HOLD ≠ 0 := hhold.mpr rfl
    obtain ⟨e, he⟩ := chunkHandled hh hp hc
    have hframe := he.frame_state hp
    obtain ⟨hn, hend⟩ := chunkLen_le (Nat.le_of_lt hp)
    have hlen := length_chunkFrame H p
    have hpos := chunkLen_pos hp
    simp only [IMG_TOTAL] at hp hend
    have hty : d.cell (FRMBUF + 1) = FT_STATE := hc.cell (i := 1) (by omega)
    have h0 : d.cell FRMBUF = chunkLen p + 3 := hc.cell (i := 0) (by omega)
    have h2 : d.cell (FRMBUF + 2) = p % 256 := hc.cell (i := 2) (by omega)
    have h3 : d.cell (FRMBUF + 3) = p / 256 := hc.cell (i := 3) (by omega)
    have happlies : AppliesImage d := by
      refine ⟨hty, by omega, by omega, hh, by omega, ?_⟩
      simp only [IMG_TOTAL]
      omega
    have htrue : halfAfter h d = true := by
      unfold halfAfter
      rw [if_neg fun hr => happlies.2.2.1 hr.2.2.1, if_pos happlies]
    have hkeep : ∀ a, a ∈ GateCells ∨ a = RESYNC_HOLD → (RS_ON_STATE d).cell a = d.cell a := by
      intro a ha
      refine hframe.cell_eq (match_not_apply ?_)
      rcases ha with ha | rfl
      · exact gate_match ha
      · exact Or.inl (Or.inl (Or.inl (by simp)))
    rw [htrue, SES_ONFRAME_state hty]
    refine ⟨true, ⟨.applying H bs _ fuel (by simp only [IMG_TOTAL]; omega) hf, ?_, ?_, ?_⟩,
      fun _ => ⟨rfl, ?_, fun a ha => hkeep a (Or.inl ha)⟩⟩
    · rw [hkeep _ (Or.inr rfl)]
      exact hhold
    · rw [hkeep _ (Or.inl (Or.inl (by simp)))]
      exact hguest
    · rw [hkeep _ (Or.inl (Or.inl (by simp)))]
      exact hcount
    · -- the first chunk of an image is a full one
      cases h with
      | true => exact Or.inl rfl
      | false =>
        refine Or.inr ?_
        rw [hlen, hfirst rfl]
        decide
  | last bs =>
    have hh : d.cell RESYNC_HOLD ≠ 0 := hhold.mpr rfl
    have hty : d.cell (FRMBUF + 1) = FT_STATE := hc.cell (i := 1) (by simp)
    have hend := state_end hh hc
    have hreb := rebased d
    have hfalse : halfAfter true d = false := by
      unfold halfAfter
      rw [if_pos]
      refine ⟨hty, ?_, hc.cell (i := 3) (by simp), hc.cell (i := 2) (by simp), hh⟩
      rw [show d.cell FRMBUF = 3 from hc.cell (i := 0) (by simp)]
    rw [hfalse, SES_ONFRAME_state hty, hend]
    refine ⟨false, ⟨.between bs, ?_, ?_, ?_⟩, fun h => by cases h⟩
    · rw [hreb.hold]
      simp
    · rw [hreb.frame.cell_eq]
      · exact hguest
      · simp [RebaseArea, DisplayArea, ResyncVars, RingPages, Watermarks, CrcRecords]
    · rw [hreb.frame.cell_eq]
      · exact hcount
      · simp [RebaseArea, DisplayArea, ResyncVars, RingPages, Watermarks, CrcRecords]

/-! ### A pump -/

/-- Whatever keeps hold, seat and count keeps the stage. -/
theorem AtStage.congr {b h : Bool} {c c' : Cpu} {pending : List (List ℕ)}
    (hs : AtStage b h c pending) (heq : ∀ a, a = RESYNC_HOLD ∨ a = NET_SEAT ∨ a = NET_COUNT →
      c'.cell a = c.cell a) : AtStage b h c' pending := by
  refine ⟨hs.stage, ?_, ?_, ?_⟩
  · rw [heq _ (Or.inl rfl)]
    exact hs.hold
  · rw [heq _ (Or.inr (Or.inl rfl))]
    exact hs.guest
  · rw [heq _ (Or.inr (Or.inr rfl))]
    exact hs.count

/-- Moves of the pump keep the stage and the gate. -/
theorem AtStage.moves {b h : Bool} {c c' : Cpu} {pending : List (List ℕ)}
    (hs : AtStage b h c pending) (hm : Moves c c') :
    AtStage b h c' pending ∧ ∀ a ∈ GateCells, c'.cell a = c.cell a := by
  refine ⟨hs.congr fun a ha => hm.frame.cell_eq ?_, fun a ha => hm.frame.cell_eq ?_⟩
  · rcases ha with rfl | rfl | rfl <;> simp [PumpArea, MailboxArea, RingCells]
  · exact gate_not_pump ha

/-- Frames of at most 63 bytes in all do not make an image half applied. -/
theorem AtStage.handles {b h : Bool} {c c' : Cpu} {ds : List Cpu} {done rest : List (List ℕ)}
    (hp : Handles SES_ONFRAME c ds c') (hall : List.Forall₂ Carries ds done)
    (hs : AtStage b h c (done ++ rest))
    (h63 : done.flatten.length ≤ 63) :
    ∃ b', AtStage b' (ds.foldl halfAfter h) c' rest ∧ (ds.foldl halfAfter h = true → h = true ∧
      ∀ a ∈ GateCells, c'.cell a = c.cell a) := by
  induction hp generalizing b h done with
  | done hm =>
    cases hall
    obtain ⟨hs', hg⟩ := hs.moves hm
    exact ⟨b, hs', fun hh => ⟨hh, hg⟩⟩
  | hand hm _ ih =>
    cases hall with
    | cons hc hall =>
      rename_i f fs
      rw [List.cons_append] at hs
      obtain ⟨hs', hg⟩ := hs.moves hm
      rw [List.flatten_cons, List.length_append] at h63
      obtain ⟨b1, hs1, hh1⟩ := hs'.handle hc
      obtain ⟨b2, hs2, hh2⟩ := ih hall hs1 (by omega)
      refine ⟨b2, hs2, fun hh => ?_⟩
      obtain ⟨hhalf, hg2⟩ := hh2 hh
      obtain ⟨-, hfirst, hg1⟩ := hh1 hhalf
      refine ⟨hfirst.resolve_right (by omega), fun a ha => ?_⟩
      rw [hg2 a ha, hg1 a ha, hg a ha]

/-- An image is half applied only after a BEGIN. -/
theorem Stage.begun_of_half {b : Bool} {pending : List (List ℕ)} (hs : Stage b true pending) :
    b = true := by
  cases hs
  rfl

/-- A pump that leaves the image half applied started after a BEGIN, and the gate sees what
it saw before. -/
theorem AtStage.pump {b h : Bool} {c c' : Cpu} {ds : List Cpu} {done rest : List (List ℕ)}
    (hp : Handles SES_ONFRAME c ds c') (hall : List.Forall₂ Carries ds done)
    (hs : AtStage b h c (done ++ rest))
    (h63 : done.tail.flatten.length ≤ 63) :
    ∃ b', AtStage b' (ds.foldl halfAfter h) c' rest ∧ (ds.foldl halfAfter h = true → b = true ∧
      ∀ a ∈ GateCells, c'.cell a = c.cell a) := by
  cases hp with
  | done hm =>
    cases hall
    obtain ⟨hs', hg⟩ := hs.moves hm
    refine ⟨b, hs', fun hh => ⟨?_, hg⟩⟩
    have hhalf : h = true := hh
    subst hhalf
    exact hs.stage.begun_of_half
  | hand hm hp =>
    cases hall with
    | cons hc hall =>
      rename_i f fs
      rw [List.cons_append] at hs
      obtain ⟨hs', hg⟩ := hs.moves hm
      obtain ⟨b1, hs1, hh1⟩ := hs'.handle hc
      obtain ⟨b2, hs2, hh2⟩ := AtStage.handles hp hall hs1 h63
      refine ⟨b2, hs2, fun hh => ?_⟩
      obtain ⟨hhalf, hg2⟩ := hh2 hh
      obtain ⟨hb, -, hg1⟩ := hh1 hhalf
      exact ⟨hb, fun a ha => by rw [hg2 a ha, hg1 a ha, hg a ha]⟩

/-! ### The run -/

/-- Between two steps, as long as the match is not over: the guest is at a stage, what is on its
way is what the stage says, and while an image is half applied the pass is outside
the tick: at its start, in the code after `LS_PASS`, or at a gate that is shut. -/
structure GuestAt (k : Console) (half : Bool) (wire : List ℕ) (b : Bool)
    (pending : List (List ℕ)) : Prop where
  stage : AtStage b half k.cpu pending
  inbound : Inbound k.cpu wire pending
  outside : half = true → k.phase = .pass ∨ k.phase = .native ∨ k.phase = .scan ∨
    k.phase = .gate ∧ gateOpen k.cpu = false

/-- What every step keeps. -/
structure GuestInv (k : Console) (half : Bool) (wire : List ℕ) : Prop where
  seat : k.phase ≠ .parked → 0 < k.cpu.cell NET_SEAT ∧ k.cpu.cell NET_SEAT ≤ 3
  inv : k.phase ≠ .parked → k.cpu.cell NET_DROPPED = 0 → ∃ b pending, GuestAt k half wire b pending

/-- A pump of the guest, and the wait around it. -/
theorem GuestAt.pump {k : Console} {half b : Bool} {wire wire' : List ℕ} {pending : List (List ℕ)}
    (hg : GuestAt k half wire b pending) (o : Outside) {c c' : Cpu} (hp : pumping k = some c)
    (hc : Frame WaitArea k.cpu c) (hw : taken k o ++ wire' = wire)
    (hc' : Frame WaitArea (SES_PUMP SES_ONFRAME c o.poll).cpu c') :
    ∃ b' pending', AtStage b' ((dispatched k o).foldl halfAfter half) c' pending' ∧
      Inbound c' wire' pending' ∧ ((dispatched k o).foldl halfAfter half = true →
        b = true ∧ gateOpen c' = gateOpen k.cpu) := by
  have hring : ∀ a ∈ RingCells, a ∈ MatchCells := fun a ha => Or.inr ha
  have hvars : ∀ a, a = RESYNC_HOLD ∨ a = NET_SEAT ∨ a = NET_COUNT → a ∈ MatchCells := by
    intro a ha
    refine Or.inl (Or.inl (Or.inl ?_))
    rcases ha with rfl | rfl | rfl <;> simp
  have hin : Inbound c wire pending :=
    hg.inbound.congr fun a ha => hc.cell_eq (match_not_wait (hring a ha))
  have htaken : taken k o = delivers o.poll := by
    unfold taken
    rw [hp]
  obtain ⟨done, rest, rfl, hall, hin', h63⟩ := pump_delivers hin o.poll (htaken ▸ hw)
  have hst : AtStage b half c (done ++ rest) :=
    hg.stage.congr fun a ha => hc.cell_eq (match_not_wait (hvars a ha))
  obtain ⟨b', hs', hh'⟩ := hst.pump (handles_pump c o.poll) hall h63
  rw [dispatched_eq hp]
  refine ⟨b', rest, hs'.congr fun a ha => hc'.cell_eq (match_not_wait (hvars a ha)),
    hin'.congr fun a ha => hc'.cell_eq (match_not_wait (hring a ha)), fun hh => ?_⟩
  obtain ⟨hb, hgate⟩ := hh' hh
  refine ⟨hb, gateOpen_congr hg.stage.count fun a ha => ?_⟩
  have hm := gate_match ha
  rw [hc'.cell_eq (match_not_wait hm), hgate a ha, hc.cell_eq (match_not_wait hm)]

/-- A step that leaves hold, seat, count and the receive ring alone, and pumps nothing. -/
theorem GuestAt.quiet {k k' : Console} {half b : Bool} {wire wire' : List ℕ}
    {pending : List (List ℕ)} (hg : GuestAt k half wire b pending) (o : Outside)
    (hp : pumping k = none) (hw : taken k o ++ wire' = wire)
    (heq : ∀ a ∈ MatchCells, a ∉ RingPages → a ≠ TICK_LO → a ≠ TICK_HI →
      k'.cpu.cell a = k.cpu.cell a)
    (hout : half = true → k'.phase = .pass ∨ k'.phase = .native ∨ k'.phase = .scan ∨
      k'.phase = .gate ∧ gateOpen k'.cpu = false) :
    GuestAt k' ((dispatched k o).foldl halfAfter half) wire' b pending := by
  have hd : dispatched k o = [] := by
    unfold dispatched
    rw [hp]
  have htaken : taken k o = [] := by
    unfold taken
    rw [hp]
  rw [htaken, List.nil_append] at hw
  subst hw
  rw [hd, List.foldl_nil]
  refine ⟨hg.stage.congr fun a ha => ?_, hg.inbound.congr fun a ha => ?_, hout⟩
  · refine heq a (Or.inl (Or.inl (Or.inl ?_))) ?_ ?_ ?_
    · rcases ha with rfl | rfl | rfl <;> simp
    · rcases ha with rfl | rfl | rfl <;> simp [RingPages]
    · rcases ha with rfl | rfl | rfl <;> simp
    · rcases ha with rfl | rfl | rfl <;> simp
  · have hcases : a = 0x8134 ∨ a = 0x8135 ∨ (0x8200 ≤ a ∧ a < 0x8300) := ha
    refine heq a (Or.inr ha) ?_ ?_ ?_
    · rintro ⟨h1, -⟩
      simp only [SEAT_RING] at h1
      omega
    · simp only [TICK_LO]
      omega
    · simp only [TICK_HI]
      omega

/-- A step that pumps nothing and changes no match cell but rings and tick counter keeps the
invariant, when the pass stays outside the tick. -/
theorem GuestInv.quiet {k k' : Console} {half : Bool} {wire wire' : List ℕ}
    (inv : GuestInv k half wire) (o : Outside) (hk : k.phase ≠ .parked) (hp : pumping k = none)
    (hw : taken k o ++ wire' = wire)
    (heq : ∀ a ∈ MatchCells, a ∉ RingPages → a ≠ TICK_LO → a ≠ TICK_HI →
      k'.cpu.cell a = k.cpu.cell a)
    (hout : ∀ b pending, GuestAt k half wire b pending → half = true → k'.phase = .pass ∨
      k'.phase = .native ∨ k'.phase = .scan ∨ k'.phase = .gate ∧ gateOpen k'.cpu = false) :
    GuestInv k' ((dispatched k o).foldl halfAfter half) wire' := by
  have hkeep : ∀ a, a = NET_SEAT ∨ a = NET_DROPPED → k'.cpu.cell a = k.cpu.cell a := by
    intro a ha
    refine heq a (Or.inl (Or.inl (Or.inl ?_))) ?_ ?_ ?_
    · rcases ha with rfl | rfl <;> simp
    · rcases ha with rfl | rfl <;> simp [RingPages]
    · rcases ha with rfl | rfl <;> simp
    · rcases ha with rfl | rfl <;> simp
  refine ⟨fun _ => by rw [hkeep _ (Or.inl rfl)]; exact inv.seat hk, fun _ hd => ?_⟩
  obtain ⟨b, pending, hg⟩ := inv.inv hk (by rwa [hkeep _ (Or.inr rfl)] at hd)
  exact ⟨b, pending, hg.quiet o hp hw heq (hout b pending hg)⟩

/-- A step that pumps keeps it, when the pass stays outside the tick after a BEGIN. -/
theorem GuestInv.pump {k : Console} {half : Bool} {wire wire' : List ℕ} (inv : GuestInv k half wire)
    (o : Outside) (hk : k.phase ≠ .parked) (hd : k.cpu.cell NET_DROPPED = 0) {c c' : Cpu}
    (hp : pumping k = some c) (hc : Frame WaitArea k.cpu c) (hw : taken k o ++ wire' = wire)
    (hc' : Waited (SES_PUMP SES_ONFRAME c o.poll).cpu c') {ph : Phase}
    (hout : ∀ b pending, GuestAt k half wire b pending → b = true → gateOpen c' = gateOpen k.cpu →
      ph = .pass ∨ ph = .native ∨ ph = .scan ∨ ph = .gate ∧ gateOpen c' = false) :
    GuestInv ⟨c', ph⟩ ((dispatched k o).foldl halfAfter half) wire' := by
  obtain ⟨b, pending, hg⟩ := inv.inv hk hd
  cases hc' with
  | on hf _ =>
    obtain ⟨b', pending', hs, hin, hhalf⟩ := hg.pump o hp hc hw hf
    refine ⟨fun _ => hs.guest, fun _ _ => ⟨b', pending', hs, hin, fun hh => ?_⟩⟩
    exact hout b pending hg (hhalf hh).1 (hhalf hh).2
  | gaveUp hgave =>
    obtain ⟨b', pending', hs, -, -⟩ := hg.pump o hp hc hw (Frame.refl _ _)
    refine ⟨fun _ => ?_, fun _ hd' => absurd hd' hgave.dropped⟩
    have hseat : c'.cell NET_SEAT = (SES_PUMP SES_ONFRAME c o.poll).cpu.cell NET_SEAT :=
      hgave.frame.cell_eq (by simp [WaitArea, RingPages, Watermarks])
    change 0 < c'.cell NET_SEAT ∧ c'.cell NET_SEAT ≤ 3
    rw [hseat]
    exact hs.guest

/-- Every step keeps the invariant. -/
theorem GuestInv.step {k : Console} {half : Bool} {wire wire' : List ℕ} (inv : GuestInv k half wire)
    (o : Outside) (hw : taken k o ++ wire' = wire) :
    GuestInv (k.step o) ((dispatched k o).foldl halfAfter half) wire' := by
  have hstep := stepped k o
  have hne : ∀ ph : Phase, k.phase = ph → ph ≠ .parked → k.phase ≠ .parked := by
    rintro _ rfl h
    exact h
  -- where the pass is while an image is half applied
  have hin : ∀ (b : Bool) (pending : List (List ℕ)), GuestAt k half wire b pending →
      half = true → k.phase = .due ∨ k.phase = .run ∨ k.phase = .gate ∧ gateOpen k.cpu = true →
      False := by
    intro b pending hg hh hph
    rcases hg.outside hh with h | h | h | ⟨h, ho⟩ <;> rw [h] at hph <;> simp_all
  generalize k.step o = k' at hstep ⊢
  cases hstep with
  | shown h hs =>
    have hp : pumping k = none := by
      simp only [pumping, h, if_pos hs]
    exact inv.quiet o (hne _ h (by decide)) hp hw (fun _ _ _ _ _ => rfl)
      fun _ _ _ _ => Or.inr (Or.inl rfl)
  | left => exact ⟨fun h => absurd rfl h, fun h => absurd rfl h⟩
  | hold h hd hh hp c' hwait =>
    exact inv.pump o (hne _ h (by decide)) hd hp (frame_freeze _) hw hwait
      fun _ _ _ _ _ => Or.inr (Or.inl rfl)
  | pass h hd hh hp =>
    refine inv.pump o (hne _ h (by decide)) hd hp (Frame.refl _ _) hw
      (.on (Frame.refl _ _) (Silent.refl _)) fun b _ hg hb _ => ?_
    exact absurd hh (hg.stage.hold.mpr hb)
  | due h =>
    have hp := pumping_eq_none (k := k) (by rw [h]; decide) (by rw [h]; decide)
    have hk := hne _ h (by decide)
    exact inv.quiet o hk hp hw
      (fun a ha hr _ _ => (captured k.cpu (inv.seat hk).2).match_eq ha hr)
      fun b pending hg hh => absurd (hin b pending hg hh (Or.inl h)) id
  | opened h ho =>
    have hp : pumping k = none := by
      simp only [pumping, h, if_pos ho]
    exact inv.quiet o (hne _ h (by decide)) hp hw (fun _ _ _ _ _ => rfl)
      fun b pending hg hh => absurd (hin b pending hg hh (Or.inr (Or.inr ⟨h, ho⟩))) id
  | stall h ho hp c' hwait =>
    have hd : k.cpu.cell NET_DROPPED = 0 := by
      by_contra hd
      simp [gateOpen, hd] at ho
    exact inv.pump o (hne _ h (by decide)) hd hp (frame_freeze _) hw hwait
      fun _ _ _ _ hgate => Or.inr (Or.inr (Or.inr ⟨rfl, hgate.trans ho⟩))
  | tick h =>
    have hp := pumping_eq_none (k := k) (by rw [h]; decide) (by rw [h]; decide)
    have hk := hne _ h (by decide)
    exact inv.quiet o hk hp hw
      (fun a ha _ h1 h2 => runTick_guest _ _ (Nat.pos_iff_ne_zero.mp (inv.seat hk).1) ha h1 h2)
      fun _ _ _ _ => Or.inr (Or.inl rfl)
  | native h =>
    have hp := pumping_eq_none (k := k) (by rw [h]; decide) (by rw [h]; decide)
    exact inv.quiet o (hne _ h (by decide)) hp hw
      (fun a ha _ _ _ => (Frame.ofGame (o.game.native_frame k.cpu)).cell_eq (match_not_game ha))
      fun _ _ _ _ => Or.inr (Or.inr (Or.inl rfl))
  | scan h =>
    have hp := pumping_eq_none (k := k) (by rw [h]; decide) (by rw [h]; decide)
    exact inv.quiet o (hne _ h (by decide)) hp hw
      (fun a ha _ _ _ => (Frame.ofGame (o.game.scan_frame k.cpu)).cell_eq (match_not_game ha))
      fun _ _ _ _ => Or.inl rfl
  | parked h => exact ⟨fun hn => absurd h hn, fun hn => absurd h hn⟩

/-- While an image is half applied, no tick is dispatched and no game tick runs, unless the match
is over: a guest about to run a tick has no half-applied image.
SOURCE: lockstep.asm:8-258, session.asm:452-543, resync.asm:163-368 -/
theorem no_tick_on_half_image {k : Console} {half : Bool} {wire : List ℕ}
    (run : GuestRun k half wire) (hp : k.phase = .run) (hd : k.cpu.cell NET_DROPPED = 0) :
    half = false := by
  have inv : GuestInv k half wire := by
    clear hp hd
    induction run with
    | start k bs wire hs hn hh hw =>
      refine ⟨fun _ => hs, fun _ _ => ⟨false, _, ⟨.between bs, ?_, hs, hn⟩, hw, fun h => by cases h⟩⟩
      rw [hh]
      simp
    | step _ o wire' hw ih => exact ih.step o hw
  obtain ⟨b, pending, hg⟩ := inv.inv (by rw [hp]; decide) hd
  by_contra hhalf
  rcases hg.outside (by simpa using hhalf) with h | h | h | ⟨h, -⟩ <;> rw [hp] at h <;> cases h

/-! ### A concrete run -/

/-- A guest in a match of two whose gate is open for tick 0. -/
def guestConsole : Console := ⟨((default : Cpu).sto NET_SEAT 1).sto NET_COUNT 2, .pass⟩

/-- The first 64 bytes of a push of an empty machine: its BEGIN and part of its first chunk. -/
def beginPoll : Poll where
  status := .ack 1
  avail := 800
  devStatus := 1
  read := .ack 1
  data := [5, FT_STATE, 0, 0xFF, 16, 0] ++ [99, FT_STATE, 0, 0] ++ List.replicate 54 0
  short := by decide
  bytes := by decide

/-- The cartridge that does nothing, and that poll. -/
def beginOutside : Outside := ⟨beginPoll, default⟩

/-- Its steps. -/
def guestAfter : ℕ → Console
  | 0 => guestConsole
  | n + 1 => (guestAfter n).step beginOutside

set_option maxRecDepth 20000 in
/-- A BEGIN in the pump that opens a pass: the tick of that pass runs inside the hold, on an image
no byte of which has been applied. -/
theorem tick_after_begin : ((guestAfter 3).phase = .run ∧ (guestAfter 3).cpu.cell RESYNC_HOLD = 1) ∧
    (dispatched (guestAfter 2) beginOutside).foldl halfAfter
      ((dispatched (guestAfter 1) beginOutside).foldl halfAfter
        ((dispatched (guestAfter 0) beginOutside).foldl halfAfter false)) = false := by
  have hstart := GuestRun.start guestConsole [.push default] (hostFrames [.push default]).flatten
    (by decide) (by decide) rfl ⟨peerFrame_host _, rfl, rfl⟩
  have hpump := hstart.step beginOutside ((hostFrames [.push default]).flatten.drop 64)
    (by decide +kernel)
  have hdue := hpump.step beginOutside ((hostFrames [.push default]).flatten.drop 64) rfl
  have hgate := hdue.step beginOutside ((hostFrames [.push default]).flatten.drop 64)
    (by decide +kernel)
  exact ⟨by decide +kernel, no_tick_on_half_image hgate (by decide +kernel) (by decide +kernel)⟩

end BoxingNetplay.Analysis
