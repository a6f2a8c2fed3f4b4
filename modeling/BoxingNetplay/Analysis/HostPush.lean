import BoxingNetplay.Interface.Pass

/-!
# What a push does to the host's own game

`RS_PUSH` serializes the image and then runs the re-baseline the guest will run, with its three restore
helpers: the display registers from the cartridge header, the two copies of the interrupt vector,
the countdowns from their mirrors.
-/

set_option autoImplicit false

namespace BoxingNetplay.Analysis

open BoxingNetplay.Library
open BoxingNetplay.Model
open BoxingNetplay.Interface

/-- The netcode's own cells: mailbox, resync state with the tick, CRC records, scratch, rings,
watermarks, and what the push records of its wait. -/
def NetcodeCells : Set ℕ :=
  PushArea ∪ RingPages ∪ Watermarks ∪ {a | a = RS_GATE ∨ a = RS_WAITED}

/-- The game's cells that a resync deals with: the image, the countdowns, the live interrupt vector and the
display registers. -/
def GameCells : Set ℕ :=
  ImageCells ∪ {a | ∃ p ∈ countdowns, a = p.1} ∪ {a | a = ISR_VEC_LO ∨ a = ISR_VEC_HI} ∪
    {a | (STIC_CS ≤ a ∧ a < STIC_CS + 5) ∨ a = STIC_EXT}

/-- The six cells of the countdowns. -/
theorem countdown_cells {a : ℕ} : (∃ p ∈ countdowns, a = p.1) ↔ BX_CNT2_LO ≤ a ∧ a ≤ BX_CNT4_HI := by
  simp only [countdowns, List.mem_cons, List.not_mem_nil, or_false, BX_CNT2_LO, BX_CNT4_HI]
  constructor
  · rintro ⟨p, (rfl | rfl | rfl | rfl | rfl | rfl), rfl⟩ <;> simp
  · intro h
    have : a = BX_CNT2_LO ∨ a = BX_CNT2_HI ∨ a = BX_CNT3_LO ∨ a = BX_CNT3_HI ∨ a = BX_CNT4_LO ∨
        a = BX_CNT4_HI := by
      simp only [BX_CNT2_LO, BX_CNT2_HI, BX_CNT3_LO, BX_CNT3_HI, BX_CNT4_LO, BX_CNT4_HI]
      omega
    rcases this with rfl | rfl | rfl | rfl | rfl | rfl
    · exact ⟨_, Or.inl rfl, rfl⟩
    · exact ⟨_, Or.inr (Or.inl rfl), rfl⟩
    · exact ⟨_, Or.inr (Or.inr (Or.inl rfl)), rfl⟩
    · exact ⟨_, Or.inr (Or.inr (Or.inr (Or.inl rfl))), rfl⟩
    · exact ⟨_, Or.inr (Or.inr (Or.inr (Or.inr (Or.inl rfl)))), rfl⟩
    · exact ⟨_, Or.inr (Or.inr (Or.inr (Or.inr (Or.inr rfl)))), rfl⟩

/-- A cell below netcode RAM is none of the netcode's. -/
theorem low_not_netcode {a : ℕ} (h : a < 0x8090) : a ∉ NetcodeCells := by
  rintro (((hp | ⟨hr, -⟩) | ⟨hw, -⟩) | hg)
  · have := push_bound hp
    omega
  · simp only [SEAT_RING] at hr
    omega
  · simp only [SEAT_WM] at hw
    omega
  · rcases hg with rfl | rfl
    · simp at h
    · simp at h

/-- The game's cells are none of the netcode's. -/
theorem game_not_netcode {a : ℕ} (h : a ∈ GameCells) : a ∉ NetcodeCells := by
  rcases h with ((h | h) | h) | h
  · have hpush := image_not_push h
    have hcases := image_cases h
    rintro (((hp | ⟨hr, hr'⟩) | ⟨hw, hw'⟩) | hg)
    · exact hpush hp
    · simp only [SEAT_RING] at hr hr'
      omega
    · simp only [SEAT_WM] at hw hw'
      omega
    · simp only [RS_GATE, RS_WAITED] at hg
      rcases hg with hg | hg <;> omega
  · have hb := countdown_cells.mp h
    simp only [BX_CNT4_HI] at hb
    exact low_not_netcode (by omega)
  · simp only [ISR_VEC_LO, ISR_VEC_HI] at h
    rcases h with h | h <;> exact low_not_netcode (by omega)
  · simp only [STIC_CS, STIC_EXT] at h
    rcases h with h | h <;> exact low_not_netcode (by omega)

/-- A host whose saved vector is the EXEC default, whose display registers are those of the cartridge
header, and whose mirrors are up to date.
SOURCE: resync.asm:472-511, hook.asm:246-262 -/
structure Healthy (c : Cpu) : Prop where
  saved_lo : c.cell SC_ISR_SAVE = EXEC_ISR_DEF % 256
  saved_hi : c.cell (SC_ISR_SAVE + 1) = EXEC_ISR_DEF / 256
  border : c.cell STIC_EXT = c.cell 0x500D
  colours : ∀ i < 5, c.cell (STIC_CS + i) = c.cell (0x500F + i)
  mirrors : ∀ p ∈ countdowns, c.cell p.1 = c.cell p.2

/-- What the countdown mirrors are: image cells. -/
theorem mirror_image : ∀ p ∈ countdowns, p.2 ∈ ImageCells := by
  have h : ∀ p ∈ countdowns, p.2 ∈ RS_TAILTBL := by decide
  exact fun p hp => Or.inr (Or.inr (Or.inr (h p hp)))

/-- Stores to the netcode's cells keep a host healthy. -/
theorem Healthy.congr {c d : Cpu} (h : Healthy c)
    (heq : ∀ a ∉ NetcodeCells, d.cell a = c.cell a) : Healthy d := by
  have hlow : ∀ a < 0x8090, d.cell a = c.cell a := fun a ha => heq a (low_not_netcode ha)
  have himg : ∀ a ∈ ImageCells, d.cell a = c.cell a := fun a ha =>
    heq a (game_not_netcode (Or.inl (Or.inl (Or.inl ha))))
  refine ⟨?_, ?_, ?_, ?_, ?_⟩
  · rw [hlow _ (by simp)]
    exact h.saved_lo
  · rw [hlow _ (by simp)]
    exact h.saved_hi
  · rw [hlow _ (by simp), hlow _ (by simp)]
    exact h.border
  · intro i hi
    rw [hlow _ (by simp only [STIC_CS]; omega), hlow _ (by omega)]
    exact h.colours i hi
  · intro p hp
    have hb := countdown_cells.mp ⟨p, hp, rfl⟩
    simp only [BX_CNT4_HI] at hb
    rw [hlow _ (by omega), himg _ (mirror_image p hp)]
    exact h.mirrors p hp

/-- The display reset leaves the header's words in the display registers. -/
theorem RS_DISPLAY_RESET_stic (c : Cpu) :
    (RS_DISPLAY_RESET c).cell STIC_EXT = c.cell 0x500D % 65536 ∧
      ∀ i < 5, (RS_DISPLAY_RESET c).cell (STIC_CS + i) = c.cell (0x500F + i) % 65536 := by
  unfold RS_DISPLAY_RESET
  refine ⟨?_, fun i hi => ?_⟩
  · rw [Cpu.copy_cell _ _ _ _ _ (by simp), if_neg (by simp), Cpu.sto_cell, if_pos rfl]
    rfl
  · rw [Cpu.copy_cell _ _ _ _ _ (by simp), if_pos ⟨by omega, by omega⟩, Nat.add_sub_cancel_left,
      Cpu.sto_cell, if_neg (by simp only [STIC_EXT]; omega)]
    have hw : cellWidth (STIC_CS + i) = 16 := by
      unfold cellWidth
      rw [if_neg (by simp only [STIC_CS]; omega)]
    rw [hw]
    rfl

/-- After the display reset a re-baseline leaves the STIC alone. -/
theorem frame_after_display (c : Cpu) :
    Frame {a | 0x0100 ≤ a} (RS_DISPLAY_RESET ((c.sto RS_PEND 0).sto RS_PTMO 0)) (RS_REBASE c) := by
  unfold RS_REBASE
  extract_lets c1 c2 c3 c4 wm c5 c6
  have h2 : Frame {a | 0x0100 ≤ a} (RS_DISPLAY_RESET c1) c2 := by
    have h : Frame {a | 0x0100 ≤ a} (RS_DISPLAY_RESET c1)
        (BX_REBASE_HOOK (RS_CLAMP_ISR (RS_DISPLAY_RESET c1))) := by
      unfold BX_REBASE_HOOK RS_CLAMP_ISR
      repeat' apply Frame.sto
      · exact Frame.refl _ _
      all_goals simp
    exact h
  have h4 : Frame {a | 0x0100 ≤ a} (RS_DISPLAY_RESET c1) c4 :=
    ((h2.sto (by simp)).sto (by simp)).trans ((frame_LS_RING_INIT c3).mono fun a ha => by
      have h1 : SEAT_RING ≤ a := ha.1
      simp only [SEAT_RING, Set.mem_ofPred_eq] at h1 ⊢
      omega)
  have hwm := (frame_setWatermarks c4 wm (swap wm)).mono (B := {a | 0x0100 ≤ a}) fun a ha => by
    have h1 : SEAT_WM ≤ a := ha.1
    simp only [SEAT_WM, Set.mem_ofPred_eq] at h1 ⊢
    omega
  have h5 : Frame {a | 0x0100 ≤ a} (RS_DISPLAY_RESET c1) c5 :=
    (h4.trans hwm).trans ((frame_RS_CLR_CRC _).mono fun a ha => by
      have h1 : OWN_CRC ≤ a := ha.1
      simp only [OWN_CRC, Set.mem_ofPred_eq] at h1 ⊢
      omega)
  exact (((((h5.sto (by simp)).sto (by simp)).sto (by simp)).sto (by simp)).sto (by simp))

/-- What a re-baseline leaves of the display and the live vector. -/
theorem rebase_display (c : Cpu) :
    (RS_REBASE c).cell STIC_EXT = c.cell 0x500D ∧
      (∀ i < 5, (RS_REBASE c).cell (STIC_CS + i) = c.cell (0x500F + i)) ∧
      (RS_REBASE c).cell ISR_VEC_LO = EXEC_ISR_DEF % 256 ∧
      (RS_REBASE c).cell ISR_VEC_HI = EXEC_ISR_DEF / 256 := by
  have hstic : ∀ a, STIC_CS ≤ a → a ≤ STIC_EXT → (RS_REBASE c).cell a =
      (RS_DISPLAY_RESET ((c.sto RS_PEND 0).sto RS_PTMO 0)).cell a := by
    intro a h1 h2
    refine (frame_after_display c).cell_eq ?_
    simp only [STIC_EXT] at h2
    simp only [Set.mem_ofPred_eq, not_le]
    omega
  have hrom : ∀ a, a < 0x8090 → ((c.sto RS_PEND 0).sto RS_PTMO 0).cell a = c.cell a := by
    intro a ha
    rw [Cpu.sto_cell, if_neg (by simp only [RS_PTMO]; omega), Cpu.sto_cell,
      if_neg (by simp only [RS_PEND]; omega)]
  obtain ⟨hext, hcs⟩ := RS_DISPLAY_RESET_stic ((c.sto RS_PEND 0).sto RS_PTMO 0)
  refine ⟨?_, fun i hi => ?_, ?_, ?_⟩
  · rw [hstic _ (by simp) (by simp), hext, hrom _ (by simp)]
    exact Nat.mod_eq_of_lt (c.cell_lt_word _)
  · rw [hstic _ (by omega) (by simp only [STIC_CS, STIC_EXT]; omega), hcs i hi, hrom _ (by omega)]
    exact Nat.mod_eq_of_lt (c.cell_lt_word _)
  · simp [RS_REBASE, setWatermarks, RS_CLR_CRC, LS_RING_INIT, BX_REBASE_HOOK, RS_CLAMP_ISR,
      cellWidth]
  · simp [RS_REBASE, setWatermarks, RS_CLR_CRC, LS_RING_INIT, BX_REBASE_HOOK, RS_CLAMP_ISR,
      cellWidth]

/-- A push of a healthy host changes no cell but the netcode's and the live vector. -/
theorem push_cell {c : Cpu} (h : Healthy c) {a : ℕ} (ha : a ∉ NetcodeCells) (hlo : a ≠ ISR_VEC_LO)
    (hhi : a ≠ ISR_VEC_HI) : (RS_PUSH c).cell a = c.cell a := by
  obtain ⟨heq, -, hf, -, -⟩ := pushed c
  generalize pushBody c = d at heq hf
  have hkeep : ∀ x ∉ NetcodeCells, d.cell x = c.cell x := fun x hx =>
    hf.cell_eq fun hp => hx (Or.inl (Or.inl (Or.inl hp)))
  have hd : Healthy d := h.congr hkeep
  rw [heq, ← hkeep a ha]
  by_cases hdis : a ∈ DisplayArea
  · -- the restore helpers put back what is there
    obtain ⟨hext, hcs, -, -⟩ := rebase_display d
    rcases hdis with hs | rfl | hs | hs | rfl | rfl | hs
    · obtain ⟨i, rfl⟩ := Nat.exists_eq_add_of_le hs.1
      have hi : i < 5 := by omega
      rw [hcs i hi, hd.colours i hi]
    · rw [hext, hd.border]
    · exact absurd hs hlo
    · exact absurd hs hhi
    · rw [(rebased d).saved_lo, hd.saved_lo]
    · rw [(rebased d).saved_hi, hd.saved_hi]
    · obtain ⟨p, hp, rfl⟩ := countdown_cells.mpr hs
      rw [(rebased d).countdown p hp, hd.mirrors p hp]
  · refine (frame_RS_REBASE d).cell_eq ?_
    rintro ((((hx | hx) | hx) | hx) | hx)
    · exact hdis hx
    · exact ha (Or.inl (Or.inl (Or.inl (resync_push hx))))
    · exact ha (Or.inl (Or.inl (Or.inr hx)))
    · exact ha (Or.inl (Or.inr hx))
    · exact ha (Or.inl (Or.inl (Or.inl (Or.inl (Or.inr hx)))))

/-- And it leaves the EXEC default in the live vector. -/
theorem push_vector (c : Cpu) : (RS_PUSH c).cell ISR_VEC_LO = EXEC_ISR_DEF % 256 ∧
    (RS_PUSH c).cell ISR_VEC_HI = EXEC_ISR_DEF / 256 := by
  rw [(pushed c).eq]
  exact (rebase_display _).2.2

/-- `RS_PENDING` decides to push.
SOURCE: resync.asm:438-470 -/
def Pushes (c : Cpu) : Prop :=
  c.cell RS_PEND ≠ 0 ∧ c.cell NET_SEAT = 0 ∧ c.cell RESYNC_HOLD = 0 ∧
    (c.cell SC_PHASE % 2 ≠ 0 ∨ RS_PEND_MAX ≤ (c.cell RS_PTMO + 1) % 256)

/-- It then notes the wait and pushes. -/
theorem RS_PENDING_pushes {c : Cpu} (h : Pushes c) : ∃ d, RS_PENDING c = RS_PUSH d ∧
    ∀ a, a ≠ RS_PTMO → a ≠ RS_GATE → a ≠ RS_WAITED → d.cell a = c.cell a := by
  obtain ⟨hpend, hseat, hhold, hgate⟩ := h
  have hkeep : ∀ w g v a, a ≠ RS_PTMO → a ≠ RS_GATE → a ≠ RS_WAITED →
      (((c.sto RS_PTMO w).sto RS_GATE g).sto RS_WAITED v).cell a = c.cell a := by
    intro w g v a h1 h2 h3
    rw [Cpu.sto_cell, if_neg h3, Cpu.sto_cell, if_neg h2, Cpu.sto_cell, if_neg h1]
  unfold RS_PENDING
  extract_lets c1 push
  rw [if_neg hpend, if_neg (by simpa using hseat), if_neg (by simpa using hhold)]
  by_cases hq : c1.cell SC_PHASE % 2 ≠ 0
  · rw [if_pos hq]
    exact ⟨_, rfl, hkeep _ _ _⟩
  · have hphase : c1.cell SC_PHASE = c.cell SC_PHASE := by simp [c1]
    have hwait : c1.cell RS_PTMO = (c.cell RS_PTMO + 1) % 256 := by simp [c1, cellWidth]
    have hmax : ¬ c1.cell RS_PTMO < RS_PEND_MAX := by
      rw [hphase] at hq
      rw [hwait]
      exact Nat.not_lt.mpr (hgate.resolve_left hq)
    rw [if_neg hq, if_neg hmax]
    exact ⟨_, rfl, hkeep _ _ _⟩

/-- Otherwise it at most counts a tick of the wait. -/
theorem RS_PENDING_waits {c : Cpu} (h : ¬ Pushes c) :
    Frame {a | a = RS_PTMO} c (RS_PENDING c) := by
  unfold RS_PENDING
  extract_lets c1 push
  have h1 : Frame {a | a = RS_PTMO} c c1 := (Frame.refl _ c).sto rfl
  have hphase : c1.cell SC_PHASE = c.cell SC_PHASE := by simp [c1]
  have hwait : c1.cell RS_PTMO = (c.cell RS_PTMO + 1) % 256 := by simp [c1, cellWidth]
  refine Frame.ite (fun _ => Frame.refl _ c) fun hpend => ?_
  refine Frame.ite (fun _ => Frame.refl _ c) fun hseat => ?_
  refine Frame.ite (fun _ => Frame.refl _ c) fun hhold => ?_
  have hno : ∀ hor : c.cell SC_PHASE % 2 ≠ 0 ∨ RS_PEND_MAX ≤ (c.cell RS_PTMO + 1) % 256, False :=
    fun hor => h ⟨hpend, by simpa using hseat, by simpa using hhold, hor⟩
  refine Frame.ite (fun hq => ?_) fun hq => Frame.ite (fun _ => h1) fun hmax => ?_
  · rw [hphase] at hq
    exact absurd (Or.inl hq) (hno ·)
  · rw [hwait] at hmax
    exact absurd (Or.inr (Nat.not_lt.mp hmax)) (hno ·)

/-- The game is as it was, and so is everything else that is not the netcode's. -/
def GameUntouched (c c' : Cpu) : Prop :=
  (∀ a ∈ GameCells, c'.cell a = c.cell a) ∧ ∀ a ∉ NetcodeCells, c'.cell a = c.cell a

/-- A push leaves a healthy host untouched exactly when the live vector is the EXEC default already; but for
that vector it always does. -/
theorem push_leaves_game (c : Cpu) (h : Healthy c) (hp : Pushes c) :
    (GameUntouched c (RS_PENDING c) ↔
      c.cell ISR_VEC_LO = EXEC_ISR_DEF % 256 ∧ c.cell ISR_VEC_HI = EXEC_ISR_DEF / 256) ∧
    ∀ a ∉ NetcodeCells, a ≠ ISR_VEC_LO → a ≠ ISR_VEC_HI → (RS_PENDING c).cell a = c.cell a := by
  obtain ⟨d, heq, hsame⟩ := RS_PENDING_pushes hp
  have hkeep : ∀ a ∉ NetcodeCells, d.cell a = c.cell a := by
    intro a ha
    refine hsame a (fun h => ha ?_) (fun h => ha (Or.inr (Or.inl h))) fun h => ha (Or.inr (Or.inr h))
    exact Or.inl (Or.inl (Or.inl (resync_push (by simp [h, ResyncVars]))))
  have hd : Healthy d := h.congr hkeep
  obtain ⟨hlo, hhi⟩ := push_vector d
  have hrest : ∀ a ∉ NetcodeCells, a ≠ ISR_VEC_LO → a ≠ ISR_VEC_HI →
      (RS_PENDING c).cell a = c.cell a := by
    intro a ha h1 h2
    rw [heq, push_cell hd ha h1 h2, hkeep a ha]
  refine ⟨⟨fun hall => ⟨?_, ?_⟩, fun hvector => ?_⟩, hrest⟩
  · rw [← hall.2 _ (low_not_netcode (by simp)), heq, hlo]
  · rw [← hall.2 _ (low_not_netcode (by simp)), heq, hhi]
  · obtain ⟨h1, h2⟩ := hvector
    have hall : ∀ a ∉ NetcodeCells, (RS_PENDING c).cell a = c.cell a := by
      intro a ha
      by_cases hal : a = ISR_VEC_LO
      · rw [hal, h1, heq, hlo]
      by_cases hah : a = ISR_VEC_HI
      · rw [hah, h2, heq, hhi]
      · exact hrest a ha hal hah
    exact ⟨fun a ha => hall a (game_not_netcode ha), hall⟩

/-- A quiescent host that wants a push, with the cartridge's interrupt routine `$58E1` installed. -/
def boxingHost : Cpu :=
  ((((((default : Cpu).sto SC_ISR_SAVE 0x26).sto (SC_ISR_SAVE + 1) 0x11).sto ISR_VEC_LO 0xE1).sto
    ISR_VEC_HI 0x58).sto RS_PEND 1).sto BX_QUIESCENT 1

theorem healthy_boxingHost : Healthy boxingHost := by
  refine ⟨by decide, by decide, by decide, by decide, by decide⟩

theorem pushes_boxingHost : Pushes boxingHost := by
  refine ⟨by decide, by decide, by decide, Or.inl (by decide)⟩

/-- Its push changes the interrupt vector, and nothing else of the game. -/
theorem push_of_boxingHost :
    (GameUntouched boxingHost (RS_PENDING boxingHost) ↔
      boxingHost.cell ISR_VEC_LO = EXEC_ISR_DEF % 256 ∧
        boxingHost.cell ISR_VEC_HI = EXEC_ISR_DEF / 256) ∧
    ∀ a ∉ NetcodeCells, a ≠ ISR_VEC_LO → a ≠ ISR_VEC_HI →
      (RS_PENDING boxingHost).cell a = boxingHost.cell a :=
  push_leaves_game boxingHost healthy_boxingHost pushes_boxingHost

/-- The push uninstalls it. -/
theorem push_clamps_vector : ¬ ∀ c : Cpu, Healthy c → Pushes c →
    c.cell ISR_VEC_LO = 0xE1 ∧ c.cell ISR_VEC_HI = 0x58 → GameUntouched c (RS_PENDING c) := by
  intro h
  have huntouched := h boxingHost healthy_boxingHost pushes_boxingHost (by decide)
  obtain ⟨d, heq, -⟩ := RS_PENDING_pushes pushes_boxingHost
  have hvec := huntouched.2 ISR_VEC_LO (low_not_netcode (by simp))
  rw [heq, (push_vector d).1] at hvec
  exact absurd hvec (by decide)

end BoxingNetplay.Analysis
