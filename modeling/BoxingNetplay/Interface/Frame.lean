import BoxingNetplay.Model.Lockstep

/-!
# Where the routines of the console store

`Frame A c c'` says that every store between `c` and `c'` is at an address of `A`.  This file
gives the frame of each routine that does not talk to the game: the mailbox driver, the text
output, the receive ring.  Everything a proof wants to keep across such a routine follows
from its frame by `Frame.cell_eq`.
-/

set_option autoImplicit false

namespace BoxingNetplay.Interface

open BoxingNetplay.Library
open BoxingNetplay.Model

/-- Every store between two machines is at an address of `A`; the ROM is what it was. -/
structure Frame (A : Set ℕ) (c c' : Cpu) : Prop where
  writes : WritesIn A c.mem c'.mem
  rom : c'.rom = c.rom

namespace Frame

variable {A B : Set ℕ} {c c' c'' : Cpu}

/-- Doing nothing stores nowhere. -/
theorem refl (A : Set ℕ) (c : Cpu) : Frame A c c := ⟨WritesIn.refl A c.mem, rfl⟩

/-- Frames compose in sequence. -/
theorem trans (h : Frame A c c') (h' : Frame A c' c'') : Frame A c c'' :=
  ⟨h.writes.trans h'.writes, h'.rom.trans h.rom⟩

/-- A frame may be widened. -/
theorem mono (hAB : A ⊆ B) (h : Frame A c c') : Frame B c c' := ⟨h.writes.mono hAB, h.rom⟩

/-- A cell outside the frame is what it was. -/
theorem cell_eq (h : Frame A c c') {a : ℕ} (ha : a ∉ A) : c'.cell a = c.cell a :=
  h.writes.cell_eq ha

/-- An address stored to in between is in the frame. -/
theorem mem_of_stored (h : Frame A c c') {a : ℕ} (h' : a ∈ c'.mem.stores)
    (hnot : a ∉ c.mem.stores) : a ∈ A := by
  obtain ⟨l, hl, hA, _⟩ := h.writes
  rw [hl] at h'
  rcases List.mem_append.mp h' with hmem | hmem
  · exact hA a hmem
  · exact absurd hmem hnot

/-- One more store inside the frame. -/
theorem sto (h : Frame A c c') {a v : ℕ} (ha : a ∈ A) : Frame A c (c'.sto a v) :=
  ⟨h.writes.store v ha, h.rom⟩

/-- One more fill inside the frame. -/
theorem fill (h : Frame A c c') {a n v : ℕ} (ha : ∀ x, a ≤ x → x < a + n → x ∈ A) :
    Frame A c (c'.fill a n v) := ⟨h.writes.fill v ha, h.rom⟩

/-- One more blit inside the frame. -/
theorem blit (h : Frame A c c') {a : ℕ} {vs : List ℕ}
    (ha : ∀ x, a ≤ x → x < a + vs.length → x ∈ A) : Frame A c (c'.blit a vs) :=
  ⟨h.writes.blit ha, h.rom⟩

/-- One more copy inside the frame. -/
theorem copy (h : Frame A c c') {src dst n : ℕ} (ha : ∀ x, dst ≤ x → x < dst + n → x ∈ A) :
    Frame A c (c'.copy src dst n) := ⟨h.writes.copy ha, h.rom⟩

/-- Either branch of a test stays inside the frame. -/
theorem ite {p : Prop} [Decidable p] (h : p → Frame A c c') (h' : ¬ p → Frame A c c'') :
    Frame A c (if p then c' else c'') := by
  by_cases hp : p
  · rw [if_pos hp]
    exact h hp
  · rw [if_neg hp]
    exact h' hp

/-- What the game stores, seen as a frame. -/
theorem ofGame (h : GameFrame c c') : Frame GameArea c c' := ⟨h.writes, h.rom⟩

/-- The observations of a machine are not memory. -/
theorem setOut (h : Frame A c c') (out : List ℕ) (replies : List MbReply) :
    Frame A c { c' with out := out, replies := replies } := ⟨h.writes, h.rom⟩

end Frame

/-! ### Machines that are alike -/

/-- The two machines hold the same in the cells of `S`. -/
def Alike (S : Set ℕ) (c c' : Cpu) : Prop := ∀ a ∈ S, c'.cell a = c.cell a

namespace Alike

variable {S T : Set ℕ} {c c' d : Cpu}

/-- Being alike does not depend on which machine is named first. -/
theorem symm (h : Alike S c c') : Alike S c' c := fun a ha => (h a ha).symm

/-- Two machines that are like a third are alike. -/
theorem trans (h : Alike S c c') (h' : Alike S c' d) : Alike S c d := fun a ha =>
  (h' a ha).trans (h a ha)

/-- Machines that are alike on a set are alike on each of its parts. -/
theorem mono (h : Alike T c c') (hST : S ⊆ T) : Alike S c c' := fun a ha => h a (hST ha)

/-- The same store on both. -/
theorem sto (h : Alike S c c') (a v : ℕ) : Alike S (c.sto a v) (c'.sto a v) := by
  intro b hb
  rw [Cpu.sto_cell, Cpu.sto_cell, h b hb]

/-- After the same store on both they are alike in its cell too. -/
theorem insert (h : Alike S c c') (a v : ℕ) : Alike (insert a S) (c.sto a v) (c'.sto a v) := by
  intro b hb
  rw [Cpu.sto_cell, Cpu.sto_cell]
  split
  · rfl
  · rename_i hne
    exact h b (hb.resolve_left hne)

/-- After the same cells of both are filled with the same they are alike in these too. -/
theorem fill (h : Alike S c c') (a n v : ℕ) :
    Alike (S ∪ {b | a ≤ b ∧ b < a + n}) (c.fill a n v) (c'.fill a n v) := by
  intro b hb
  rw [Cpu.fill_cell, Cpu.fill_cell]
  split
  · rfl
  · rename_i hne
    exact h b (hb.resolve_right hne)

end Alike

/-! ### What is sent -/

/-- A routine that neither sends nor takes an answer. -/
structure Silent (c c' : Cpu) : Prop where
  out : c'.out = c.out
  replies : c'.replies = c.replies

namespace Silent

variable {c c' c'' : Cpu}

theorem refl (c : Cpu) : Silent c c := ⟨rfl, rfl⟩

/-- Silence composes in sequence. -/
theorem trans (h : Silent c c') (h' : Silent c' c'') : Silent c c'' :=
  ⟨h'.out.trans h.out, h'.replies.trans h.replies⟩

/-- A store is silent. -/
theorem sto (h : Silent c c') {a v : ℕ} : Silent c (c'.sto a v) := ⟨h.out, h.replies⟩

/-- Either branch of a test is silent. -/
theorem ite {p : Prop} [Decidable p] (h : Silent c c') (h' : Silent c c'') :
    Silent c (if p then c' else c'') := by
  by_cases hp : p
  · rw [if_pos hp]
    exact h
  · rw [if_neg hp]
    exact h'

end Silent

/-! ### The mailbox driver -/

/-- What the driver stores to: its parameter block, the request counts, two diagnostic
counters and the registers of the peripheral.
SOURCE: mailbox.asm:85-270, ram.asm:60-110 -/
def MailboxArea : Set ℕ :=
  {a | (MB_DEV ≤ a ∧ a ≤ NAVAIL_HI) ∨ (NREQ_LO ≤ a ∧ a ≤ NGOT_HI) ∨ a = DIAG_TMO ∨ a = DIAG_ERR ∨
    (FN_SEQ ≤ a ∧ a ≤ 0x9FFF)}

/-- Counting an event stores to the counter. -/
theorem frame_DIAG_BUMP {A : Set ℕ} (c : Cpu) {a : ℕ} (ha : a ∈ A) :
    Frame A c (DIAG_BUMP c a) :=
  Frame.ite (fun _ => Frame.refl A c) (fun _ => (Frame.refl A c).sto ha)

/-- A transaction stores to the mailbox. -/
theorem frame_MB_TRANSACT (c : Cpu) (reply : MbReply) :
    Frame MailboxArea c (MB_TRANSACT c reply) := by
  unfold MB_TRANSACT
  extract_lets c1 c2 c3 c4 c5 next c6 trackMax
  have h6 : Frame MailboxArea c c6 := by
    repeat' apply Frame.sto
    · exact Frame.refl _ _
    all_goals simp [MailboxArea]
  have htrack : ∀ polls, Frame MailboxArea c (trackMax c6 polls) := by
    intro polls
    refine Frame.ite (fun _ => h6) (fun _ => (h6.sto ?_).sto ?_) <;> simp [MailboxArea]
  cases reply with
  | timeout =>
    refine Frame.trans ((h6.sto ?_).sto ?_) (frame_DIAG_BUMP _ ?_) <;> simp [MailboxArea]
  | nak polls err =>
    refine Frame.trans (((htrack polls).sto ?_).sto ?_) (frame_DIAG_BUMP _ ?_) <;>
      simp [MailboxArea]
  | ack polls =>
    exact (htrack polls).sto (by simp [MailboxArea])

/-- The status request stores to the mailbox. -/
theorem frame_NET_STATUS (c : Cpu) (p : Poll) : Frame MailboxArea c (NET_STATUS c p) := by
  unfold NET_STATUS
  extract_lets c1 c2 c3 c4 c5 c6 c7
  have h5 : Frame MailboxArea c c5 := by
    repeat' apply Frame.sto
    · exact Frame.refl _ _
    all_goals simp [MailboxArea]
  have h6 : Frame MailboxArea c c6 := h5.trans (frame_MB_TRANSACT c5 p.status)
  have h7 : Frame MailboxArea c c7 := by
    refine (h6.sto ?_).sto ?_ <;> simp [MailboxArea]
  refine Frame.ite (fun _ => ?_) (fun _ => Frame.ite (fun _ => h7) (fun _ => ?_))
  · refine (h6.sto ?_).sto ?_ <;> simp [MailboxArea]
  · refine (h7.sto ?_).sto ?_ <;> simp [MailboxArea]

/-- The read request stores to the mailbox. -/
theorem frame_NET_READ (c : Cpu) (p : Poll) : Frame MailboxArea c (NET_READ c p) := by
  unfold NET_READ
  extract_lets c1 c2 c3 c4 c5 c6
  have h5 : Frame MailboxArea c c5 := by
    repeat' apply Frame.sto
    · exact Frame.refl _ _
    all_goals simp [MailboxArea]
  have h6 : Frame MailboxArea c c6 := h5.trans (frame_MB_TRANSACT c5 p.read)
  refine Frame.ite (fun _ => (h6.sto ?_).sto ?_) (fun _ => (h6.sto ?_).sto ?_) <;>
    simp [MailboxArea]

/-- The write request stores to the mailbox. -/
theorem frame_NET_WRITE (c : Cpu) : Frame MailboxArea c (NET_WRITE c) := by
  unfold NET_WRITE
  extract_lets c1 c2 c3 c4 bytes reply sent
  have h4 : Frame MailboxArea c c4 := by
    repeat' apply Frame.sto
    · exact Frame.refl _ _
    all_goals simp [MailboxArea]
  exact (h4.setOut _ _).trans (frame_MB_TRANSACT _ _)

/-- Staging and sending a frame stores to the mailbox. -/
theorem frame_sendFrame (c : Cpu) (frame : List ℕ) (h : frame.length ≤ 0x3C0) :
    Frame MailboxArea c (sendFrame c frame) := by
  unfold sendFrame
  have h1 : Frame MailboxArea c (c.blit FN_TX frame) := by
    refine (Frame.refl _ c).blit ?_
    intro x hx hlt
    simp only [FN_TX] at hx hlt
    simp [MailboxArea]
    omega
  refine Frame.trans ((h1.sto ?_).sto ?_) (frame_NET_WRITE _) <;> simp [MailboxArea]

/-- The transactions of a pump store to the mailbox. -/
theorem frame_request (c : Cpu) (p : Poll) : Frame MailboxArea c (request c p).1 := by
  have h1 := frame_NET_STATUS c p
  unfold request
  simp only
  split
  · exact h1
  · split
    · exact h1
    · refine h1.trans (Frame.trans (((Frame.refl _ _).sto ?_).sto ?_) (frame_NET_READ _ p)) <;>
        simp [MailboxArea]

/-- A string that is read from RAM is no longer than asked for. -/
theorem length_ramString_le (n : ℕ) (c : Cpu) (a : ℕ) : (ramString c a n).length ≤ n := by
  induction n generalizing a with
  | zero => exact le_rfl
  | succ n ih =>
    unfold ramString
    split
    · exact Nat.zero_le _
    · exact Nat.succ_le_succ (ih _)

/-- Counting an event is silent. -/
theorem silent_DIAG_BUMP {c c' : Cpu} (h : Silent c c') (a : ℕ) : Silent c (DIAG_BUMP c' a) :=
  Silent.ite h h.sto

/-- A transaction by itself is silent: `NET_WRITE` does the sending around it. -/
theorem silent_MB_TRANSACT (c : Cpu) (reply : MbReply) : Silent c (MB_TRANSACT c reply) := by
  unfold MB_TRANSACT
  extract_lets c1 c2 c3 c4 c5 next c6 trackMax
  have h6 : Silent c c6 := by
    repeat' apply Silent.sto
    exact Silent.refl _
  have htrack : ∀ polls, Silent c (trackMax c6 polls) := fun polls => Silent.ite h6 h6.sto.sto
  cases reply with
  | timeout => exact silent_DIAG_BUMP h6.sto.sto DIAG_TMO
  | nak polls err => exact silent_DIAG_BUMP (htrack polls).sto.sto DIAG_ERR
  | ack polls => exact (htrack polls).sto

end BoxingNetplay.Interface
