import BoxingNetplay.Model.Peripheral
import BoxingNetplay.Interface.Inputs

/-!
# Whose reply a transaction reads

A request is numbered by what the peripheral acknowledged last, so a request that was given up on and
the one after it have the same number.  As long as every call finds the last request acknowledged, a
call that returns `MB_OK = 1` leaves the reply to its own request in the reply area.
-/

set_option autoImplicit false

namespace BoxingNetplay.Analysis

open BoxingNetplay.Interface
open BoxingNetplay.Model
open BoxingNetplay.Model.Peripheral

variable {m : Mailbox}

/-- `MB_TRANSACT` of the whole console leaves the number of `nextSeq` in `FN_SEQ`. -/
theorem MB_TRANSACT_seq (c : Cpu) (reply : MbReply) :
    (MB_TRANSACT c reply).cell FN_SEQ = nextSeq (c.cell FN_ACKSEQ) := by
  unfold MB_TRANSACT
  extract_lets c1 c2 c3 c4 c5 next c6 trackMax
  have hnext : next = (c.cell FN_ACKSEQ + 1) % 256 := rfl
  have hseq : c6.cell FN_SEQ = nextSeq (c.cell FN_ACKSEQ) := by
    have h := sto_cart c5 (a := FN_SEQ) (v := nextSeq (c.cell FN_ACKSEQ)) (by simp) (by simp)
      (by unfold nextSeq; split <;> omega)
    exact h
  -- nothing after the store of the number stores to it
  have htrack : ∀ polls, Frame {FN_SEQ}ᶜ c6 (trackMax c6 polls) := by
    intro polls
    apply Frame.ite
    · intro _
      exact Frame.refl _ _
    · intro _
      exact ((Frame.refl _ _).sto (by simp)).sto (by simp)
  rw [← hseq]
  cases reply with
  | timeout =>
    have h : Frame {FN_SEQ}ᶜ c6 (DIAG_BUMP ((c6.sto MB_OK 0).sto MB_ERR 0) DIAG_TMO) :=
      (((Frame.refl _ _).sto (by simp)).sto (by simp)).trans (frame_DIAG_BUMP _ (by simp))
    exact h.cell_eq (by simp)
  | nak polls err =>
    have h : Frame {FN_SEQ}ᶜ c6
        (DIAG_BUMP (((trackMax c6 polls).sto MB_ERR err).sto MB_OK 0) DIAG_ERR) :=
      (((htrack polls).sto (by simp)).sto (by simp)).trans (frame_DIAG_BUMP _ (by simp))
    exact h.cell_eq (by simp)
  | ack polls =>
    have h : Frame {FN_SEQ}ᶜ c6 ((trackMax c6 polls).sto MB_OK 1) := (htrack polls).sto (by simp)
    exact h.cell_eq (by simp)

/-- The reply area answers the request of the latest call, as it was staged. -/
def Own (m : Mailbox) : Prop := m.reply.call = m.call ∧ m.reply.request = m.regs

/-- A number is not followed by itself. -/
theorem nextSeq_ne {ack : ℕ} (h : ack < 256) : nextSeq ack ≠ ack ∧ nextSeq ack < 256 := by
  unfold nextSeq
  split <;> omega

/-- A taken request is the one of the latest call. -/
def TakenOwn (m : Mailbox) : Prop :=
  ∀ t, m.taken = some t → t.call = m.call ∧ t.request = m.regs ∧ (t.replied = true → Own m)

/-- What holds of the place the console is at. -/
def AtPhase (m : Mailbox) : Prop :=
  match m.doing with
  | .idle => m.ok = true → m.seq = m.ackseq ∧ Own m ∧ m.reply.accepted = true
  | .staging _ => True
  | .numbering ack => m.seq = m.ackseq ∧ ack = m.ackseq
  | .polling expected _ =>
    m.seq = expected ∧ m.numbered = m.call ∧ TakenOwn m ∧ (m.ackseq = expected → Own m)
  | .acked => m.seq = m.ackseq ∧ Own m

/-- What holds when every call has been numbered with the last request acknowledged. -/
structure Orderly (m : Mailbox) : Prop where
  small : m.seq < 256 ∧ m.ackseq < 256
  taken : ∀ t, m.taken = some t → t.seq = m.seq ∧ m.seq ≠ m.ackseq
  phase : AtPhase m

/-- A console that has made no call is in this order. -/
theorem orderly_start (regs : Registers) (seq : Fin 256) (reply : Reply) :
    Orderly (start regs seq reply) where
  small := ⟨seq.isLt, seq.isLt⟩
  taken _ h := nomatch h
  phase h := nomatch h

/-- A call begins. -/
theorem Orderly.transact (h : Orderly m) (writes : List (ℕ × ℕ)) :
    Orderly (step m (.transact writes)) := by
  simp only [step]
  split
  · exact ⟨h.small, h.taken, trivial⟩
  · exact h

/-- The console makes an access; when it is the one that numbers the request, `FN_ACKSEQ` is the
number of the last one. -/
theorem Orderly.console (h : Orderly m)
    (hpatient : m.doing = .staging [] → m.seq = m.ackseq) : Orderly (step m .console) := by
  have hphase := h.phase
  unfold AtPhase at hphase
  simp only [step, consoleStep]
  split
  · exact h
  · exact ⟨h.small, h.taken, trivial⟩
  · rename_i hd
    exact ⟨h.small, h.taken, hpatient hd, rfl⟩
  · rename_i ack hd
    rw [hd] at hphase
    obtain ⟨heq, rfl⟩ := hphase
    obtain ⟨hne, hlt⟩ := nextSeq_ne h.small.2
    -- nothing is taken, for the last request is acknowledged
    have hnone : ∀ t, m.taken ≠ some t := fun t ht => (h.taken t ht).2 heq
    exact ⟨⟨hlt, h.small.2⟩, fun t ht => absurd ht (hnone t), rfl, rfl,
      fun t ht => absurd ht (hnone t), fun hack => absurd hack.symm hne⟩
  · rename_i expected polls hd
    rw [hd] at hphase
    obtain ⟨hseq, hnum, htaken, hown⟩ := hphase
    split
    · rename_i hack
      exact ⟨h.small, h.taken, hseq.trans hack.symm, hown hack⟩
    split
    · exact ⟨h.small, h.taken, fun hok => nomatch hok⟩
    · exact ⟨h.small, h.taken, hseq, hnum, htaken, hown⟩
  · rename_i hd
    rw [hd] at hphase
    obtain ⟨heq, hown⟩ := hphase
    exact ⟨h.small, h.taken, fun hok => ⟨heq, hown, hok⟩⟩

/-- The peripheral takes a request: once the console polls, it is the latest, as it was staged. -/
theorem Orderly.take (h : Orderly m) : Orderly (step m .take) := by
  simp only [step]
  split
  · split
    · exact h
    · rename_i hnone hne
      refine ⟨h.small, fun t ht => ?_, ?_⟩
      · injection ht with ht
        subst ht
        exact ⟨rfl, hne⟩
      · have hphase := h.phase
        unfold AtPhase at hphase ⊢
        cases hd : m.doing with
        | polling expected polls =>
          rw [hd] at hphase
          obtain ⟨hseq, hnum, -, hown⟩ := hphase
          refine ⟨hseq, hnum, fun t ht => ?_, hown⟩
          injection ht with ht
          subst ht
          exact ⟨hnum, rfl, fun hr => nomatch hr⟩
        | _ =>
          rw [hd] at hphase
          exact hphase
  · exact h

/-- It writes the reply: nobody is reading one. -/
theorem Orderly.answer (h : Orderly m) (accepted : Bool) :
    Orderly (step m (.answer accepted)) := by
  simp only [step]
  split
  · rename_i t ht
    split
    · exact h
    obtain ⟨hseq, hne⟩ := h.taken t ht
    refine ⟨h.small, fun t' ht' => ?_, ?_⟩
    · injection ht' with ht'
      subst ht'
      exact ⟨hseq, hne⟩
    · -- the request is not acknowledged, so no call is past its poll
      have hphase := h.phase
      unfold AtPhase at hphase ⊢
      cases hd : m.doing with
      | idle =>
        rw [hd] at hphase
        intro hok
        exact absurd (hphase hok).1 hne
      | staging writes => trivial
      | numbering ack =>
        rw [hd] at hphase
        exact hphase
      | polling expected polls =>
        rw [hd] at hphase
        obtain ⟨hexp, hnum, htaken, -⟩ := hphase
        obtain ⟨hcall, hreq, -⟩ := htaken t ht
        refine ⟨hexp, hnum, fun t' ht' => ?_, fun _ => ⟨hcall, hreq⟩⟩
        injection ht' with ht'
        subst ht'
        exact ⟨hcall, hreq, fun _ => ⟨hcall, hreq⟩⟩
      | acked =>
        rw [hd] at hphase
        exact absurd hphase.1 hne
  · exact h

/-- It acknowledges the request. -/
theorem Orderly.acknowledge (h : Orderly m) : Orderly (step m .acknowledge) := by
  simp only [step]
  split
  · rename_i t ht
    split
    · rename_i hr
      obtain ⟨hseq, hne⟩ := h.taken t ht
      have hphase := h.phase
      refine ⟨⟨h.small.1, hseq ▸ h.small.1⟩, fun t' ht' => (nomatch ht'), ?_⟩
      unfold AtPhase at hphase ⊢
      cases hd : m.doing with
      | idle =>
        rw [hd] at hphase
        intro hok
        exact absurd (hphase hok).1 hne
      | staging writes => trivial
      | numbering ack =>
        rw [hd] at hphase
        exact absurd hphase.1 hne
      | polling expected polls =>
        rw [hd] at hphase
        obtain ⟨hexp, hnum, htaken, -⟩ := hphase
        exact ⟨hexp, hnum, fun t' ht' => (nomatch ht'), fun _ => (htaken t ht).2.2 hr⟩
      | acked =>
        rw [hd] at hphase
        exact absurd hphase.1 hne
    · exact h
  · exact h

/-- One event keeps it. -/
theorem Orderly.step {e : Event} (h : Orderly m)
    (hpatient : e = .console → m.doing = .staging [] → m.seq = m.ackseq) :
    Orderly (step m e) := by
  cases e with
  | transact writes => exact h.transact writes
  | console => exact h.console (hpatient rfl)
  | take => exact h.take
  | answer accepted => exact h.answer accepted
  | acknowledge => exact h.acknowledge

/-- Whenever a call reads `FN_ACKSEQ` to number its request, the last request is acknowledged. -/
def Patient : Mailbox → List Event → Prop
  | _, [] => True
  | m, e :: es =>
    (e = .console → m.doing = .staging [] → m.seq = m.ackseq) ∧ Patient (Peripheral.step m e) es

/-- And a run keeps it. -/
theorem Orderly.run (h : Orderly m) (es : List Event) (hes : Patient m es) :
    Orderly (run m es) := by
  induction es generalizing m with
  | nil => exact h
  | cons e es ih => exact ih (h.step hes.1) hes.2

/-- In every such run a call that has returned `MB_OK = 1` has left the reply to its own request in the
reply area. -/
theorem replies_are_own (regs : Registers) (seq : Fin 256) (reply : Reply) (es : List Event)
    (hes : Patient (start regs seq reply) es)
    (hidle : (run (start regs seq reply) es).doing = .idle)
    (hok : (run (start regs seq reply) es).ok = true) :
    Own (run (start regs seq reply) es) ∧ (run (start regs seq reply) es).reply.accepted = true := by
  have h := ((orderly_start regs seq reply).run es hes).phase
  unfold AtPhase at h
  rw [hidle] at h
  exact (h hok).2

/-- A call whose request is taken at once and answered during the poll. -/
def servedAtOnce : List Event :=
  [.transact [(0x9C05, 0x71)], .console, .console, .console, .take, .console, .answer true,
    .acknowledge, .console, .console]

/-- Its reply is its own. -/
theorem served_at_once :
    Own (run (start (fun _ => 0) 255 ⟨0, fun _ => 0, false⟩) servedAtOnce) ∧
      (run (start (fun _ => 0) 255 ⟨0, fun _ => 0, false⟩) servedAtOnce).reply.accepted = true :=
  replies_are_own (fun _ => 0) 255 ⟨0, fun _ => 0, false⟩ servedAtOnce
    ⟨fun h => (nomatch h), fun _ h => (nomatch h), fun _ _ => rfl, fun _ h => (nomatch h),
      fun h => (nomatch h), fun _ h => (nomatch h), fun h => (nomatch h), fun h => (nomatch h),
      fun _ h => (nomatch h), fun _ h => (nomatch h), trivial⟩ rfl rfl

/-- A console that polls until the counter wraps has given up. -/
theorem run_polls (n expected polls : ℕ) (hd : m.doing = .polling expected polls)
    (hne : m.ackseq ≠ expected) (hn : polls + n + 1 = POLL_LIMIT) :
    run m (List.replicate (n + 1) .console) = { m with doing := .idle, ok := false } := by
  induction n generalizing m polls with
  | zero =>
    show step m .console = _
    simp only [step, consoleStep, hd, if_neg hne]
    exact if_pos hn
  | succ n ih =>
    have hlt : polls + 1 ≠ POLL_LIMIT := by omega
    have hstep : step m .console = { m with doing := .polling expected (polls + 1) } := by
      simp only [step, consoleStep, hd, if_neg hne, if_neg hlt]
    rw [List.replicate_succ]
    show run (step m .console) _ = _
    rw [hstep]
    exact ih _ rfl hne (by omega)

/-- A call that reads `FN_ACKSEQ` while the request before it is with the peripheral is given
the reply to that one. -/
theorem late_reply {t : Taken} (hd : m.doing = .staging []) (ht : m.taken = some t)
    (hr : t.replied = false) (hseq : t.seq = nextSeq m.ackseq) :
    ∃ m', run m [.console, .console, .answer true, .acknowledge, .console, .console] = m' ∧
      m'.doing = .idle ∧ m'.ok = true ∧ m'.call = m.call ∧ m'.reply.call = t.call := by
  refine ⟨_, rfl, ?_⟩
  simp [run, step, consoleStep, hd, ht, hr, hseq]

/-- The first call is taken and given up on; the second gets its number. -/
def givenUp : List Event :=
  [.transact [], .console, .console, .take] ++ List.replicate POLL_LIMIT .console ++
    [.transact []] ++ [.console, .console, .answer true, .acknowledge, .console, .console]

/-- The second call reads the reply to the first. -/
theorem late_reply_read : ¬ ∀ (regs : Registers) (seq : Fin 256) (reply : Reply) (es : List Event),
    (run (start regs seq reply) es).doing = .idle → (run (start regs seq reply) es).ok = true →
    Own (run (start regs seq reply) es) := by
  intro h
  let m₀ : Mailbox := start (fun _ => 0) 0 ⟨0, fun _ => 0, false⟩
  let m₁ : Mailbox := run m₀ [.transact [], .console, .console, .take]
  have hpolls : run m₁ (List.replicate POLL_LIMIT .console) = { m₁ with doing := .idle, ok := false } :=
    run_polls 65535 1 0 rfl (Nat.zero_ne_one) rfl
  let m₂ : Mailbox := step { m₁ with doing := .idle, ok := false } (.transact [])
  obtain ⟨m', hrun, hidle, hok, hcall, hreply⟩ :=
    late_reply (m := m₂) (t := ⟨1, 1, fun _ => 0, false⟩) rfl rfl rfl rfl
  have hall : run m₀ givenUp = m' := by
    rw [← hrun]
    unfold givenUp run
    rw [List.foldl_append, List.foldl_append, List.foldl_append]
    have h1 : List.foldl step m₀ [.transact [], .console, .console, .take] = m₁ := rfl
    have h2 : List.foldl step m₁ (List.replicate POLL_LIMIT .console) =
        { m₁ with doing := .idle, ok := false } := hpolls
    rw [h1, h2]
    rfl
  have hown := h (fun _ => 0) 0 ⟨0, fun _ => 0, false⟩ givenUp
  rw [show run (start (fun _ => 0) 0 ⟨0, fun _ => 0, false⟩) givenUp = m' from hall] at hown
  have hwrong : m'.reply.call = m'.call := (hown hidle hok).1
  rw [hcall, hreply] at hwrong
  exact absurd hwrong (by decide)

end BoxingNetplay.Analysis
