import BoxingNetplay.Interface.Pass
import BoxingNetplay.Interface.Receive

/-!
# Checksum reports, requests and what is handled in silence

`crcReport` records the checksum it sends.  A report of the peer is ignored, or it is for a tick on record
and differs: then a resync is wanted, and the guest says so.  The handlers of the other frames of a peer
send nothing, and neither does a host that waits with its push.
-/

set_option autoImplicit false

namespace BoxingNetplay.Interface

open BoxingNetplay.Library
open BoxingNetplay.Model

/-! ### Silent handlers -/

/-- An INPUT is answered with nothing. -/
theorem silent_of_input (c : Cpu) : Silent c (of_input c) := by
  unfold of_input
  extract_lets seat tick wmAt ahead slot ring c1 c2
  have h : Silent c ((c2.sto wmAt (c2.cell (FRMBUF + 3))).sto (wmAt + 1) (c2.cell (FRMBUF + 4))) :=
    (Silent.refl c).sto.sto.sto.sto
  exact Silent.ite (.refl c) (.ite (.refl c) (.ite (.refl c) (.ite (.refl c) (.ite (.refl c) h))))

/-- A RESYNC is answered with nothing for the time being. -/
theorem silent_RS_ON_REQ (c : Cpu) : Silent c (RS_ON_REQ c) :=
  Silent.ite (.refl c) (.ite (.refl c) (.ite (.refl c) (Silent.refl c).sto.sto))

/-- Storing an image byte sends nothing. -/
theorem silent_IMG_PUT (c : Cpu) (pos v : ℕ) : Silent c (IMG_PUT c pos v) := by
  unfold IMG_PUT
  extract_lets c1 a b
  have h1 : Silent c c1 := (Silent.refl c).sto
  split
  · exact h1.sto
  split
  · exact h1.sto
  split
  · exact h1.sto
  · exact h1.sto

/-- Applying image bytes sends nothing. -/
theorem silent_applyImage (n : ℕ) (c : Cpu) (r3 : ℕ) : Silent c (applyImage c r3 n) := by
  induction n generalizing c r3 with
  | zero => exact .refl c
  | succ n ih =>
    unfold applyImage
    extract_lets c1 lo c2 c3
    have h2 : Silent c c2 := (silent_IMG_PUT c _ _).sto
    have h3 : Silent c c3 := Silent.ite h2.sto h2
    exact h3.sto.trans (ih _ _)

/-- Refusing a chunk sends nothing. -/
theorem silent_RS_BAD (c : Cpu) : Silent c (RS_BAD c) := silent_DIAG_BUMP (.refl c) DIAG_REJ

/-- Nor does anything else a STATE frame does. -/
theorem silent_RS_ON_STATE (c : Cpu) : Silent c (RS_ON_STATE c) := by
  have hbad := silent_RS_BAD c
  have hbad' : ∀ v, Silent c (RS_BAD (c.sto RS_TMP2 v)) := fun v =>
    (Silent.refl c).sto.trans (silent_RS_BAD _)
  have hrebase : Silent c (RS_REBASE c) := ⟨(rebased c).out, (rebased c).replies⟩
  have hhold : Silent c (RS_ENTER_HOLD c) := ⟨rfl, rfl⟩
  unfold RS_ON_STATE
  extract_lets len c1 count c2 posHi c3
  refine Silent.ite hbad (.ite (.ite (.ite hbad hhold.sto.sto) (.ite hrebase (.refl c)))
    (.ite hbad (.ite hbad (.ite (hbad' _) (.ite (hbad' _) ?_)))))
  exact (Silent.refl c).sto.sto.sto.trans (silent_applyImage count c3 _)

/-! ### The records -/

/-- The slot of a record is one of four. -/
theorem crcSlot_eq {tickLo : ℕ} (h : tickLo < 256) : crcSlot tickLo = OWN_CRC + 4 * (tickLo / 64) := by
  unfold crcSlot
  omega

/-- The checksum a report is about. -/
def reportSum (c : Cpu) : ℕ := LS_CKSUM (RS_DISPLAY_RESET c)

/-- The checksum is a word. -/
theorem rotateAdd_lt (acc v : ℕ) : rotateAdd acc v < 65536 := Nat.mod_lt _ (by decide)

/-- It is a word. -/
theorem reportSum_lt (c : Cpu) : reportSum c < 65536 := by
  have hfold : ∀ (l : List ℕ) (acc : ℕ), acc < 65536 →
      l.foldl (fun acc a => rotateAdd acc ((RS_DISPLAY_RESET c).cell a)) acc < 65536 := by
    intro l
    induction l with
    | nil => exact fun acc h => h
    | cons a l ih => exact fun acc _ => ih _ (rotateAdd_lt acc _)
  exact hfold cksumCells 0 (by decide)

/-- What the report of a CRC tick records and sends. -/
structure Reported (c c' : Cpu) (sum : ℕ) : Prop where
  sends : Sends [6, FT_CRC, c.cell NET_SEAT, c.cell TICK_LO, c.cell TICK_HI, sum % 256,
    sum / 256] c c'
  record : ∀ i < 4, c'.cell (crcSlot (c.cell TICK_LO) + i) =
    [c.cell TICK_LO, c.cell TICK_HI, sum % 256, sum / 256].getD i 0
  others : ∀ a ∈ CrcRecords, a < crcSlot (c.cell TICK_LO) ∨ crcSlot (c.cell TICK_LO) + 4 ≤ a →
    c'.cell a = c.cell a

/-- The checksum put on record.
SOURCE: lockstep.asm:307-313, resync.asm:50-68 -/
def recordSum (c : Cpu) (sum : ℕ) : Cpu :=
  RS_RECORD_CRC ((c.sto LS_TMPB sum).sto LS_TMPB2 (swap sum))

/-- In its ticks a report puts the checksum on record and sends it with the tick. -/
theorem crcReport_eq (c : Cpu) (h : c.cell TICK_LO % 64 = 0) :
    crcReport c = sendFrame (recordSum (RS_DISPLAY_RESET c) (reportSum c))
      [6, FT_CRC, (recordSum (RS_DISPLAY_RESET c) (reportSum c)).cell NET_SEAT,
        (recordSum (RS_DISPLAY_RESET c) (reportSum c)).cell TICK_LO,
        (recordSum (RS_DISPLAY_RESET c) (reportSum c)).cell TICK_HI,
        (recordSum (RS_DISPLAY_RESET c) (reportSum c)).cell LS_TMPB,
        (recordSum (RS_DISPLAY_RESET c) (reportSum c)).cell LS_TMPB2] := by
  unfold crcReport
  rw [if_neg (by omega)]
  rfl

/-- What putting a checksum on record stores. -/
structure SumRecorded (c c' : Cpu) (sum : ℕ) : Prop where
  lo : c'.cell LS_TMPB = sum % 256
  hi : c'.cell LS_TMPB2 = sum / 256
  record : ∀ i < 4, c'.cell (crcSlot (c.cell TICK_LO) + i) =
    [c.cell TICK_LO, c.cell TICK_HI, sum % 256, sum / 256].getD i 0
  others : ∀ a, a ≠ LS_TMPB → a ≠ LS_TMPB2 →
    a < crcSlot (c.cell TICK_LO) ∨ crcSlot (c.cell TICK_LO) + 4 ≤ a → c'.cell a = c.cell a
  silent : Silent c c'

/-- These are what it stores. -/
theorem sumRecorded (c : Cpu) {sum : ℕ} (hsum : sum < 65536) :
    SumRecorded c (recordSum c sum) sum := by
  unfold recordSum
  generalize hd : (c.sto LS_TMPB sum).sto LS_TMPB2 (swap sum) = d
  have hlo : d.cell LS_TMPB = sum % 256 := by
    rw [← hd, Cpu.sto_cell, if_neg (by decide), Cpu.sto_cell, if_pos rfl,
      cellWidth_cart (by decide) (by decide)]
    rfl
  have hhi : d.cell LS_TMPB2 = sum / 256 := by
    rw [← hd, Cpu.sto_cell, if_pos rfl, cellWidth_cart (by decide) (by decide), swap]
    omega
  have hoth : ∀ a, a ≠ LS_TMPB → a ≠ LS_TMPB2 → d.cell a = c.cell a := by
    intro a h1 h2
    rw [← hd, Cpu.sto_cell, if_neg h2, Cpu.sto_cell, if_neg h1]
  have hsilent : Silent c d := hd ▸ (Silent.refl c).sto.sto
  have htlo := hoth TICK_LO (by decide) (by decide)
  have hthi := hoth TICK_HI (by decide) (by decide)
  have hb1 : c.cell TICK_LO < 256 := c.cell_lt_cart (by decide) (by decide)
  have hb2 : c.cell TICK_HI < 256 := c.cell_lt_cart (by decide) (by decide)
  have hslot := crcSlot_eq hb1
  have hcell : ∀ a, (RS_RECORD_CRC d).cell a =
      if crcSlot (c.cell TICK_LO) ≤ a ∧ a < crcSlot (c.cell TICK_LO) + 4 then
        ([c.cell TICK_LO, c.cell TICK_HI, sum % 256, sum / 256].getD
          (a - crcSlot (c.cell TICK_LO)) 0) % 2 ^ cellWidth a
      else d.cell a := by
    intro a
    unfold RS_RECORD_CRC
    rw [htlo, hthi, hlo, hhi, Cpu.blit_cell]
    rfl
  have hlow : ∀ a, a < OWN_CRC → (RS_RECORD_CRC d).cell a = d.cell a := fun a ha => by
    rw [hcell, if_neg (by omega)]
  refine ⟨?_, ?_, fun i hi => ?_, fun a h1 h2 ha => ?_, hsilent.trans ⟨rfl, rfl⟩⟩
  · rw [hlow _ (by decide)]
    exact hlo
  · rw [hlow _ (by decide)]
    exact hhi
  · rw [hcell, if_pos ⟨by omega, by omega⟩, Nat.add_sub_cancel_left,
      cellWidth_cart (by rw [hslot]; simp only [OWN_CRC]; omega)
        (by rw [hslot]; simp only [OWN_CRC]; omega)]
    have hi' : i = 0 ∨ i = 1 ∨ i = 2 ∨ i = 3 := by omega
    rcases hi' with rfl | rfl | rfl | rfl
    · exact Nat.mod_eq_of_lt hb1
    · exact Nat.mod_eq_of_lt hb2
    · exact Nat.mod_mod _ _
    · exact Nat.mod_eq_of_lt (show sum / 256 < 256 by omega)
  · rw [hcell, if_neg (by omega)]
    exact hoth a h1 h2

theorem record_not_mailbox {a : ℕ} (h : a ∈ CrcRecords) : a ∉ MailboxArea := by
  intro hm
  have hbox : (0x8114 ≤ a ∧ a ≤ 0x811E) ∨ (0x8130 ≤ a ∧ a ≤ 0x8133) ∨ a = 0x8182 ∨ a = 0x8183 ∨
      (0x9C03 ≤ a ∧ a ≤ 0x9FFF) := hm
  have h1 : 0x8C00 ≤ a := h.1
  have h2 : a < 0x8C20 := h.2
  omega

/-- A report leaves the checksum on record and has sent it. -/
theorem crcReport_reported (c : Cpu) (h : c.cell TICK_LO % 64 = 0) :
    Reported c (crcReport c) (reportSum c) := by
  have hdisp : ∀ a, 0x8000 ≤ a → (RS_DISPLAY_RESET c).cell a = c.cell a := fun a ha =>
    (frame_RS_DISPLAY_RESET c).cell_eq (not_display (Nat.le_trans (by decide) ha))
  have hrec := sumRecorded (RS_DISPLAY_RESET c) (reportSum_lt c)
  have hlo : c.cell TICK_LO < 256 := c.cell_lt_cart (by decide) (by decide)
  have hslot := crcSlot_eq hlo
  have hquiet : Silent c (RS_DISPLAY_RESET c) := ⟨rfl, rfl⟩
  rw [crcReport_eq c h]
  generalize recordSum (RS_DISPLAY_RESET c) (reportSum c) = d at hrec ⊢
  generalize reportSum c = sum at hrec ⊢
  generalize RS_DISPLAY_RESET c = e at hdisp hrec hquiet
  have htlo := hdisp TICK_LO (by decide)
  have hthi := hdisp TICK_HI (by decide)
  have hrecord := hrec.record
  have hothers := hrec.others
  rw [htlo, hthi] at hrecord
  rw [htlo] at hothers
  have hkeep : ∀ a, a = NET_SEAT ∨ a = TICK_LO ∨ a = TICK_HI → d.cell a = c.cell a := by
    intro a ha
    refine (hothers a ?_ ?_ ?_).trans (hdisp a ?_) <;> rcases ha with rfl | rfl | rfl
    all_goals first | decide | (rw [hslot]; simp only [OWN_CRC, NET_SEAT, TICK_LO, TICK_HI]; omega)
  have hframe := frame_sendFrame d [6, FT_CRC, d.cell NET_SEAT, d.cell TICK_LO, d.cell TICK_HI,
    d.cell LS_TMPB, d.cell LS_TMPB2] (by simp)
  refine ⟨?_, fun i hi => ?_, fun a ha hne => ?_⟩
  · have hsend := sends_frame d [6, FT_CRC, d.cell NET_SEAT, d.cell TICK_LO, d.cell TICK_HI,
      d.cell LS_TMPB, d.cell LS_TMPB2] (by simp) ?_
    · rw [hkeep NET_SEAT (by simp), hkeep TICK_LO (by simp), hkeep TICK_HI (by simp), hrec.lo,
        hrec.hi] at hsend
      rw [hkeep NET_SEAT (by simp), hkeep TICK_LO (by simp), hkeep TICK_HI (by simp), hrec.lo,
        hrec.hi]
      have hq := hquiet.trans hrec.silent
      exact hsend.after_silent hq.out hq.replies
    · intro b hmem
      have hbyte : ∀ a, 0x8000 ≤ a → a ≤ 0x9FFF → d.cell a < 256 :=
        fun a h1 h2 => d.cell_lt_cart h1 h2
      simp only [List.mem_cons, List.not_mem_nil, or_false] at hmem
      rcases hmem with rfl | rfl | rfl | rfl | rfl | rfl | rfl
      · decide
      · decide
      all_goals exact hbyte _ (by decide) (by decide)
  · have hmem : crcSlot (c.cell TICK_LO) + i ∈ CrcRecords := by
      rw [hslot]
      exact ⟨by omega, by omega⟩
    rw [hframe.cell_eq (record_not_mailbox hmem)]
    exact hrecord i hi
  · rw [hframe.cell_eq (record_not_mailbox ha)]
    have hge : 0x8C00 ≤ a := ha.1
    exact (hothers a (by simp only [LS_TMPB]; omega) (by simp only [LS_TMPB2]; omega) hne).trans
      (hdisp a (by omega))

/-! ### A peer's report -/

/-- What `RS_ON_CRC` does with the frame in the buffer: it ignores it; or the tick is on record with another
checksum, and a resync is wanted, for which the guest asks.
SOURCE: resync.asm:76-137 -/
inductive CrcHandled (c : Cpu) : Cpu → Prop where
  | ignored (why : c.cell FRMBUF < 6 ∨ c.cell RESYNC_HOLD ≠ 0 ∨ c.cell RS_PEND ≠ 0 ∨
      c.cell (crcSlot (c.cell (FRMBUF + 3))) ≠ c.cell (FRMBUF + 3) ∨
      c.cell (crcSlot (c.cell (FRMBUF + 3)) + 1) ≠ c.cell (FRMBUF + 4) ∨
      (c.cell (crcSlot (c.cell (FRMBUF + 3)) + 2) = c.cell (FRMBUF + 5) ∧
        c.cell (crcSlot (c.cell (FRMBUF + 3)) + 3) = c.cell (FRMBUF + 6))) : CrcHandled c c
  | alarm (hold : c.cell RESYNC_HOLD = 0) (pend : c.cell RS_PEND = 0)
      (lo : c.cell (crcSlot (c.cell (FRMBUF + 3))) = c.cell (FRMBUF + 3))
      (hi : c.cell (crcSlot (c.cell (FRMBUF + 3)) + 1) = c.cell (FRMBUF + 4))
      (differs : ¬ (c.cell (crcSlot (c.cell (FRMBUF + 3)) + 2) = c.cell (FRMBUF + 5) ∧
        c.cell (crcSlot (c.cell (FRMBUF + 3)) + 3) = c.cell (FRMBUF + 6)))
      (c' : Cpu) (wanted : c'.cell RS_PEND ≠ 0) (host : c.cell NET_SEAT = 0 → Silent c c')
      (guest : c.cell NET_SEAT ≠ 0 →
        Sends [3, FT_RESYNC, c.cell (FRMBUF + 3), c.cell (FRMBUF + 4)] c c') : CrcHandled c c'

/-- One of these is what it does. -/
theorem crcHandled (c : Cpu) : CrcHandled c (RS_ON_CRC c) := by
  unfold RS_ON_CRC
  extract_lets r4 c1
  by_cases h6 : c.cell FRMBUF < 6
  · rw [if_pos h6]
    exact .ignored (Or.inl h6)
  rw [if_neg h6]
  by_cases hhold : c.cell RESYNC_HOLD ≠ 0
  · rw [if_pos hhold]
    exact .ignored (Or.inr (Or.inl hhold))
  rw [if_neg hhold]
  by_cases hpend : c.cell RS_PEND ≠ 0
  · rw [if_pos hpend]
    exact .ignored (Or.inr (Or.inr (Or.inl hpend)))
  rw [if_neg hpend]
  by_cases hlo : c.cell r4 ≠ c.cell (FRMBUF + 3)
  · rw [if_pos hlo]
    exact .ignored (Or.inr (Or.inr (Or.inr (Or.inl hlo))))
  rw [if_neg hlo]
  by_cases hhi : c.cell (r4 + 1) ≠ c.cell (FRMBUF + 4)
  · rw [if_pos hhi]
    exact .ignored (Or.inr (Or.inr (Or.inr (Or.inr (Or.inl hhi)))))
  rw [if_neg hhi]
  by_cases hsame : c.cell (r4 + 2) = c.cell (FRMBUF + 5) ∧ c.cell (r4 + 3) = c.cell (FRMBUF + 6)
  · rw [if_pos hsame]
    exact .ignored (Or.inr (Or.inr (Or.inr (Or.inr (Or.inr hsame)))))
  rw [if_neg hsame]
  have hone : c1.cell RS_PEND = 1 := by simp [c1, cellWidth]
  have hkeep : ∀ a, a ≠ RS_PEND → a ≠ RS_PTMO → c1.cell a = c.cell a := by
    intro a h1 h2
    simp only [c1]
    rw [Cpu.sto_cell, if_neg h2, Cpu.sto_cell, if_neg h1]
  have hsilent : Silent c c1 := (Silent.refl c).sto.sto
  rw [hkeep NET_SEAT (by decide) (by decide), hkeep (FRMBUF + 3) (by decide) (by decide),
    hkeep (FRMBUF + 4) (by decide) (by decide)]
  have halarm := CrcHandled.alarm (c := c) (not_not.mp hhold) (not_not.mp hpend) (not_not.mp hlo)
    (not_not.mp hhi) hsame
  by_cases hseat : c.cell NET_SEAT = 0
  · rw [if_pos hseat]
    exact halarm c1 (by omega) (fun _ => hsilent) fun hne => absurd hseat hne
  · rw [if_neg hseat]
    have hframe := frame_sendFrame c1 [3, FT_RESYNC, c.cell (FRMBUF + 3), c.cell (FRMBUF + 4)]
      (by simp)
    refine halarm _ ?_ (fun h0 => absurd h0 hseat) fun _ => ?_
    · rw [hframe.cell_eq (by simp [MailboxArea])]
      omega
    · refine (sends_frame c1 _ (by simp) ?_).after_silent hsilent.out hsilent.replies
      intro b hmem
      simp only [List.mem_cons, List.not_mem_nil, or_false] at hmem
      rcases hmem with rfl | rfl | rfl | rfl
      · decide
      · decide
      all_goals exact c.cell_lt_cart (by decide) (by decide)

end BoxingNetplay.Interface
