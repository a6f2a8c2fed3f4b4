import BoxingNetplay.Interface.Keys
import BoxingNetplay.Model.Local

/-!
# What a capture stores

A capture stores four cells, those of its slot in the decoded and keypad pages of seats 0 and 1, unless it is
past the end of a recording.  The rest of the tick stores to no ring page, so that a dispatch
reads what captures have left there.
-/

set_option autoImplicit false

namespace BoxingNetplay.Interface

open BoxingNetplay.Library
open BoxingNetplay.Model

/-! ### Slots -/

/-- The four cells of a tick's slot for seats 0 and 1. -/
def SlotCells (tick : ℕ) : Set ℕ :=
  {a | a = ringSlot 0 tick ∨ a = ringSlot 1 tick ∨ a = keypadSlot 0 tick ∨ a = keypadSlot 1 tick}

/-- Among all ring cells, exactly those of a slot are stored to. -/
structure WritesSlot (c c' : Cpu) (tick : ℕ) : Prop where
  stores : ∃ l, c'.mem.stores = l ++ c.mem.stores ∧ ∀ a ∈ RingPages, a ∈ l ↔ a ∈ SlotCells tick
  kept : ∀ a ∈ RingPages, a ∉ SlotCells tick → c'.cell a = c.cell a

/-- The inputs of one tick: decoded and keypad cell of seats 0 and 1. -/
structure Inputs where
  dec0 : ℕ
  dec1 : ℕ
  kp0 : ℕ
  kp1 : ℕ
  deriving DecidableEq, Repr

/-- The slot of a tick holds inputs. -/
structure SlotHolds (c : Cpu) (tick : ℕ) (i : Inputs) : Prop where
  dec0 : c.cell (ringSlot 0 tick) = i.dec0
  dec1 : c.cell (ringSlot 1 tick) = i.dec1
  kp0 : c.cell (keypadSlot 0 tick) = i.kp0
  kp1 : c.cell (keypadSlot 1 tick) = i.kp1

/-- Inputs stored to a slot. -/
def storeInputs (c : Cpu) (tick : ℕ) (i : Inputs) : Cpu :=
  (((c.sto (ringSlot 0 tick) i.dec0).sto (ringSlot 1 tick) i.dec1).sto (keypadSlot 0 tick) i.kp0).sto
    (keypadSlot 1 tick) i.kp1

/-- As the cells, which are bytes, keep them. -/
def Inputs.bytes (i : Inputs) : Inputs := ⟨i.dec0 % 256, i.dec1 % 256, i.kp0 % 256, i.kp1 % 256⟩

section Slots

variable {c c' d : Cpu} {tick tick' : ℕ} {i : Inputs}

/-- The slots of a tick lie in the ring pages. -/
theorem slot_pages (tick : ℕ) {a : ℕ} (h : a ∈ SlotCells tick) : a ∈ RingPages := by
  simp only [SlotCells, ringSlot, keypadSlot, SEAT_RING, SEAT_KP, Set.mem_ofPred_eq] at h
  simp only [RingPages, SEAT_RING, Set.mem_ofPred_eq]
  omega

/-- Ticks that differ in their low bytes have no slot in common. -/
theorem slot_apart {a : ℕ} (hne : tick % 256 ≠ tick' % 256) (h : a ∈ SlotCells tick) :
    a ∉ SlotCells tick' := by
  simp only [SlotCells, ringSlot, keypadSlot, SEAT_RING, SEAT_KP, Set.mem_ofPred_eq] at h ⊢
  omega

/-- Only the slot matters, not the lap. -/
theorem SlotHolds.lap (h : SlotHolds c tick i) (heq : tick % 256 = tick' % 256) :
    SlotHolds c tick' i := by
  have hring : ∀ seat, ringSlot seat tick' = ringSlot seat tick := fun seat => by
    unfold ringSlot
    rw [heq]
  have hkeypad : ∀ seat, keypadSlot seat tick' = keypadSlot seat tick := fun seat => by
    unfold keypadSlot
    rw [heq]
  exact ⟨hring 0 ▸ h.dec0, hring 1 ▸ h.dec1, hkeypad 0 ▸ h.kp0, hkeypad 1 ▸ h.kp1⟩

/-- Machines with the same slot hold the same. -/
theorem SlotHolds.congr (h : SlotHolds c tick i) (heq : ∀ a ∈ SlotCells tick, c'.cell a = c.cell a) :
    SlotHolds c' tick i :=
  ⟨(heq _ (Or.inl rfl)).trans h.dec0, (heq _ (Or.inr (Or.inl rfl))).trans h.dec1,
    (heq _ (Or.inr (Or.inr (Or.inl rfl)))).trans h.kp0,
    (heq _ (Or.inr (Or.inr (Or.inr rfl)))).trans h.kp1⟩

/-- A capture for another slot keeps a slot. -/
theorem SlotHolds.keep (h : SlotHolds c tick i) (hw : WritesSlot c c' tick')
    (hne : tick % 256 ≠ tick' % 256) : SlotHolds c' tick i := by
  apply h.congr
  intro a ha
  exact hw.kept a (slot_pages tick ha) (slot_apart hne ha)

/-- Four stores behind others that reach no ring page. -/
theorem writesSlot_storeInputs {A : Set ℕ} (h : Frame A c d) (hA : ∀ a ∈ A, a ∉ RingPages) :
    WritesSlot c (storeInputs d tick i) tick := by
  obtain ⟨l, hl, hlA, hcell⟩ := h.writes
  have hout : ∀ a ∈ RingPages, a ∉ l := fun a ha hmem => hA a (hlA a hmem) ha
  constructor
  · refine ⟨[keypadSlot 1 tick, keypadSlot 0 tick, ringSlot 1 tick, ringSlot 0 tick] ++ l, ?_, ?_⟩
    · rw [List.append_assoc, ← hl]
      rfl
    · intro a ha
      simp only [List.mem_append, hout a ha, or_false, List.mem_cons, List.not_mem_nil, SlotCells,
        Set.mem_ofPred_eq]
      tauto
  · intro a ha hne
    simp only [SlotCells, Set.mem_ofPred_eq, not_or] at hne
    simp only [storeInputs, Cpu.sto_cell, if_neg hne.1, if_neg hne.2.1, if_neg hne.2.2.1, if_neg hne.2.2.2]
    exact hcell a (hout a ha)

/-- The slot then holds them. -/
theorem slotHolds_storeInputs : SlotHolds (storeInputs c tick i) tick i.bytes := by
  have hw : cellWidth (ringSlot 0 tick) = 8 ∧ cellWidth (ringSlot 1 tick) = 8 ∧
      cellWidth (keypadSlot 0 tick) = 8 ∧ cellWidth (keypadSlot 1 tick) = 8 := by
    obtain ⟨h1, h2, h3⟩ := slots_range (show 0 ≤ 3 by omega) tick
    obtain ⟨h4, h5, h6⟩ := slots_range (show 1 ≤ 3 by omega) tick
    exact ⟨cellWidth_cart (by omega) (by omega), cellWidth_cart (by omega) (by omega),
      cellWidth_cart (by omega) (by omega), cellWidth_cart (by omega) (by omega)⟩
  have h1 : ringSlot 0 tick ≠ ringSlot 1 tick ∧ ringSlot 0 tick ≠ keypadSlot 0 tick ∧
      ringSlot 0 tick ≠ keypadSlot 1 tick := by
    simp only [ringSlot, keypadSlot, SEAT_RING, SEAT_KP]
    omega
  have h2 : ringSlot 1 tick ≠ keypadSlot 0 tick ∧ ringSlot 1 tick ≠ keypadSlot 1 tick ∧
      keypadSlot 0 tick ≠ keypadSlot 1 tick := by
    simp only [ringSlot, keypadSlot, SEAT_RING, SEAT_KP]
    omega
  unfold storeInputs Inputs.bytes
  constructor
  · simp only [Cpu.sto_cell, if_neg h1.1, if_neg h1.2.1, if_neg h1.2.2, if_true, hw.1, Nat.reducePow]
  · simp only [Cpu.sto_cell, if_neg h2.1, if_neg h2.2.1, if_true, hw.2.1, Nat.reducePow]
  · simp only [Cpu.sto_cell, if_neg h2.2.2, if_true, hw.2.2.1, Nat.reducePow]
  · simp only [Cpu.sto_cell, if_true, hw.2.2.2, Nat.reducePow]

end Slots

/-! ### One capture -/

/-- The capture is past the end of the recording.
SOURCE: vdispatch.asm:41-42 -/
def exhausted : CaptureMode → Cpu → Bool
  | .replay _ len, c => !slt16 (captureTick c) len
  | _, _ => false

/-- The words of a row, each as it is read between the stores of the others. -/
def rowInputs (c : Cpu) (tick r4 : ℕ) : Inputs :=
  let c1 := c.sto (ringSlot 0 tick) (c.cell (r4 % 65536))
  let c2 := c1.sto (ringSlot 1 tick) (c1.cell ((r4 + 1) % 65536))
  let c3 := c2.sto (keypadSlot 0 tick) (c2.cell ((r4 + 2) % 65536))
  ⟨c.cell (r4 % 65536), c1.cell ((r4 + 1) % 65536), c2.cell ((r4 + 2) % 65536),
    c3.cell ((r4 + 3) % 65536)⟩

/-- The inputs a capture takes: what the pads have, the row of the script or the generator's discs, the
row of the recording. -/
def capturedInputs (m : CaptureMode) (c : Cpu) : Inputs :=
  match m with
  | .live => ⟨c.cell EXEC_IN_L, c.cell EXEC_IN_R, c.cell EXEC_KP_L, c.cell EXEC_KP_R⟩
  | .script tbl =>
    let d := (SCR_STEP tbl c).1
    let row := (SCR_STEP tbl c).2
    if row = 0 then ⟨(stepFuzz d).cell SLF_LO % 64, (stepFuzz d).cell SLF_HI % 64, 0, 0⟩
    else rowInputs d (captureTick c) (row + 1)
  | .replay tbl _ => rowInputs c (captureTick c) (captureTick c * 4 + tbl)

/-- The sequencer's and the generator's variables. -/
def ScriptArea : Set ℕ := {a | a = SCR_IDX ∨ a = SCR_CNT ∨ a = SLF_LO ∨ a = SLF_HI}

section Capture

variable (c : Cpu) (tick : ℕ)

/-- An entry of a ring page is stored at the tick's place in it. -/
theorem putRing_eq {page : ℕ} (h : page + 256 ≤ 65536) (v : ℕ) :
    putRing c page (tick % 256) v = c.sto (page + tick % 256) v := by
  unfold putRing
  rw [Nat.add_comm, Nat.mod_eq_of_lt (by omega)]

/-- The four pages of seats 0 and 1. -/
theorem putRing_slots (v : ℕ) :
    putRing c SEAT_RING (tick % 256) v = c.sto (ringSlot 0 tick) v ∧
    putRing c (SEAT_RING + 0x100) (tick % 256) v = c.sto (ringSlot 1 tick) v ∧
    putRing c SEAT_KP (tick % 256) v = c.sto (keypadSlot 0 tick) v ∧
    putRing c (SEAT_KP + 0x100) (tick % 256) v = c.sto (keypadSlot 1 tick) v :=
  ⟨putRing_eq c tick (by decide) v, putRing_eq c tick (by decide) v, putRing_eq c tick (by decide) v,
    putRing_eq c tick (by decide) v⟩

/-- A row of the script is stored as a capture of what it says. -/
theorem putRow_eq (r4 : ℕ) : putRow c (tick % 256) r4 = storeInputs c tick (rowInputs c tick r4) := by
  unfold putRow
  simp only [putRing_slots]
  rfl

/-- A step of the generator is stored as a capture of its two numbers, without keypads. -/
theorem putFuzz_eq : putFuzz c (tick % 256) =
    storeInputs c tick ⟨c.cell SLF_LO % 64, c.cell SLF_HI % 64, 0, 0⟩ := by
  have hhi : SLF_HI ≠ ringSlot 0 tick := by
    simp only [ringSlot, SEAT_RING, SLF_HI]
    omega
  unfold putFuzz
  simp only [putRing_slots, sto_other c hhi]
  rfl

/-- What the pads read is stored as a capture of it. -/
theorem putPads_eq : putPads c (tick % 256) =
    storeInputs c tick ⟨c.cell EXEC_IN_L, c.cell EXEC_IN_R, c.cell EXEC_KP_L, c.cell EXEC_KP_R⟩ := by
  have hpads : ∀ (d : Cpu) (v : ℕ), ∀ x < 0x200, (d.sto (ringSlot 0 tick) v).cell x = d.cell x ∧
      (d.sto (ringSlot 1 tick) v).cell x = d.cell x ∧ (d.sto (keypadSlot 0 tick) v).cell x = d.cell x := by
    intro d v x hx
    refine ⟨sto_other d ?_, sto_other d ?_, sto_other d ?_⟩ <;>
      simp only [ringSlot, keypadSlot, SEAT_RING, SEAT_KP] <;> omega
  unfold putPads
  simp only [putRing_slots, hpads _ _ EXEC_IN_R (by decide), hpads _ _ EXEC_KP_L (by decide),
    hpads _ _ EXEC_KP_R (by decide)]
  rfl

/-- A step of the script stores to the sequencer's variables alone. -/
theorem frame_SCR_STEP (tbl : ℕ) : Frame ScriptArea c (SCR_STEP tbl c).1 := by
  unfold SCR_STEP
  split
  · exact Frame.refl _ c
  extract_lets row cnt next d e
  have hd : Frame ScriptArea c d := (Frame.refl _ c).sto (by simp [ScriptArea])
  have he : Frame ScriptArea c e := Frame.ite (fun _ => hd.sto (by simp [ScriptArea])) fun _ => hd
  split
  · exact (Frame.refl _ c).sto (by simp [ScriptArea])
  · exact he.sto (by simp [ScriptArea])

theorem frame_stepFuzz : Frame ScriptArea c (stepFuzz c) := by
  unfold stepFuzz
  extract_lets r0
  apply Frame.ite (fun _ => Frame.refl _ c) fun _ => ?_
  exact ((Frame.refl _ c).sto (by simp [ScriptArea])).sto (by simp [ScriptArea])

theorem script_not_ring : ∀ a ∈ ScriptArea, a ∉ RingPages := by
  rintro a (rfl | rfl | rfl | rfl) <;> simp [RingPages]

/-- Short of the end of a recording, a capture stores what it takes to its slot. -/
theorem VIRT_CAPTURE_eq {m : CaptureMode} (h : exhausted m c = false) :
    ∃ d, Frame ScriptArea c d ∧
      VIRT_CAPTURE m c = storeInputs d (captureTick c) (capturedInputs m c) := by
  unfold VIRT_CAPTURE capturedInputs
  cases m with
  | live => exact ⟨c, Frame.refl _ c, putPads_eq c _⟩
  | script tbl =>
    simp only
    split
    · exact ⟨_, (frame_SCR_STEP c tbl).trans (frame_stepFuzz _), putFuzz_eq _ _⟩
    · exact ⟨_, frame_SCR_STEP c tbl, putRow_eq _ _ _⟩
  | replay tbl len =>
    have hlt : slt16 (captureTick c) len = true := by simpa [exhausted] using h
    simp only [hlt, if_true]
    exact ⟨c, Frame.refl _ c, putRow_eq _ _ _⟩

/-- Past the end, the second cell of each pair is a slot early, or a page. -/
theorem putIdle_eq : putIdle c (tick % 256) =
    (((c.sto (ringSlot 0 tick) 0x40).sto (ringSlot 0 tick + 255) 0x40).sto (keypadSlot 0 tick) 0).sto
      (keypadSlot 0 tick + 255) 0 := by
  have hring : (tick % 256 + SEAT_RING) % 65536 = ringSlot 0 tick := by
    simp only [ringSlot, SEAT_RING]
    omega
  have hkeypad : (tick % 256 + SEAT_KP) % 65536 = keypadSlot 0 tick := by
    simp only [keypadSlot, SEAT_KP]
    omega
  have hring1 : (ringSlot 0 tick + 0x100 + 65535) % 65536 = ringSlot 0 tick + 255 := by
    simp only [ringSlot, SEAT_RING]
    omega
  have hkeypad1 : (keypadSlot 0 tick + 0x100 + 65535) % 65536 = keypadSlot 0 tick + 255 := by
    simp only [keypadSlot, SEAT_KP]
    omega
  unfold putIdle
  simp only [hring, hkeypad, hring1, hkeypad1]

/-- A capture writes its slot alone just when it is not past the end. -/
theorem writesSlot_iff (m : CaptureMode) :
    WritesSlot c (VIRT_CAPTURE m c) (captureTick c) ↔ exhausted m c = false := by
  constructor
  · intro h
    by_contra hne
    cases m with
    | live => exact hne rfl
    | script _ => exact hne rfl
    | replay tbl len =>
      have hlt : slt16 (captureTick c) len = false := by simpa [exhausted] using hne
      have hidle : VIRT_CAPTURE (.replay tbl len) c = putIdle c (captureTick c % 256) := by
        unfold VIRT_CAPTURE
        simp only [hlt]
        rfl
      obtain ⟨l, hl, hslot⟩ := h.stores
      rw [hidle, putIdle_eq] at hl
      have hlog : [keypadSlot 0 (captureTick c) + 255, keypadSlot 0 (captureTick c),
          ringSlot 0 (captureTick c) + 255, ringSlot 0 (captureTick c)] = l :=
        List.append_cancel_right hl
      have hmem := (hslot _ (slot_pages (captureTick c) (Or.inr (Or.inl rfl)))).mpr (Or.inr (Or.inl rfl))
      rw [← hlog] at hmem
      simp only [List.mem_cons, List.not_mem_nil, or_false, ringSlot, keypadSlot, SEAT_RING,
        SEAT_KP] at hmem
      omega
  · intro h
    obtain ⟨d, hd, heq⟩ := VIRT_CAPTURE_eq c h
    rw [heq]
    exact writesSlot_storeInputs hd script_not_ring

/-- The slot then holds what was captured. -/
theorem slotHolds_capture {m : CaptureMode} (h : exhausted m c = false) :
    SlotHolds (VIRT_CAPTURE m c) (captureTick c) (capturedInputs m c).bytes := by
  obtain ⟨d, -, heq⟩ := VIRT_CAPTURE_eq c h
  rw [heq]
  exact slotHolds_storeInputs

end Capture

end BoxingNetplay.Interface
