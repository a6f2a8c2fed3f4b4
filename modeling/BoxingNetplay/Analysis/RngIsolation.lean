import BoxingNetplay.Model.Rand

/-!
# The canonical RNG and the sound engine

The wrapper's window runs from `DIS` to `EIS`.  Inside it `$035E` is the canonical value on the way
into the routine and the routine's on the way out, so what the interrupts did to the cell before
and do to it afterwards reaches neither the result nor the canonical state.
-/

set_option autoImplicit false

namespace BoxingNetplay.Analysis.RngIsolation

open BoxingNetplay.Library BoxingNetplay.Library.Cp1610
open BoxingNetplay.Model BoxingNetplay.Model.Rand

variable {x : Exec} {s : Interrupts} {m m' : Console} {t : ℕ}

/-! ### Steps inside the window -/

theorem Untouched.refl (sp : ℕ) (m : Memory cellWidth) : Untouched sp m m :=
  ⟨rfl, rfl, fun _ _ _ _ => rfl⟩

/-- An interrupt keeps the registers, the interrupts as they were, and the memory untouched. -/
theorem interrupt_kept (s : Interrupts) (t : ℕ) (m : Console) :
    (interrupt s t m).reg = m.reg ∧ (interrupt s t m).ie = m.ie ∧
      Untouched (m.reg 6) m.mem (interrupt s t m).mem := by
  unfold interrupt
  split
  · exact ⟨rfl, rfl, s.isr_untouched t m⟩
  · exact ⟨rfl, rfl, Untouched.refl _ _⟩

/-- A step in the wrappers: interrupts and the instruction. -/
theorem step_code {i : Instr} (hi : code[m.reg 7]? = some i) :
    steps x s (t + 1) m = steps x s t (i.exec (interrupt s t m)) := by
  have hlt : m.reg 7 < 27 := (List.getElem?_eq_some_iff.mp hi).1
  have hlen : code.length = 27 := rfl
  obtain ⟨hreg, -, -⟩ := interrupt_kept s t m
  rw [steps, inside, if_pos (by simp [hlen, hlt]), step]
  simp only [hreg, hi]
  rw [if_neg (by simp only [X_RAND1]; omega), if_neg (by simp only [X_RAND2]; omega)]

/-- With interrupts disabled a step is the instruction. -/
theorem step_quiet {i : Instr} (hie : m.ie = false) (hi : code[m.reg 7]? = some i) :
    steps x s (t + 1) m = steps x s t (i.exec m) := by
  rw [step_code hi, interrupt, hie]
  rfl

/-- A block of straight code. -/
theorem steps_block (is : List Instr) (hie : m.ie = false) (hs : ∀ i ∈ is, i.straight = true)
    (hat : is <+: code.drop (m.reg 7)) : steps x s (t + is.length) m = steps x s t (block is m) := by
  induction is generalizing m with
  | nil => rfl
  | cons i is ih =>
    obtain ⟨rest, hrest⟩ := hat
    have hi : code[m.reg 7]? = some i := by
      rw [← Nat.add_zero (m.reg 7), ← List.getElem?_drop, ← hrest]
      rfl
    obtain ⟨hpc, hie'⟩ := Instr.straight_exec (hs i List.mem_cons_self) m
    have hlt : m.reg 7 < 27 := (List.getElem?_eq_some_iff.mp hi).1
    rw [Nat.mod_eq_of_lt (by omega)] at hpc
    rw [List.length_cons, ← Nat.add_assoc, step_quiet hie hi]
    apply ih (hie'.trans hie) fun j hj => hs j (List.mem_cons_of_mem _ hj)
    rw [hpc, ← List.drop_drop, ← hrest]
    exact ⟨rest, rfl⟩

/-! ### The subroutine and the tail -/

/-- `@@swap_in` without its return, for given cells of the EXEC's and the canonical RNG. -/
def swapIn (rng lo hi : ℕ) : List Instr :=
  [.pshr 1, .pshr 2, .mvi hi 1, .swap 1, .mvi lo 2, .addr 2 1, .mvo 1 rng, .pulr 2, .pulr 1]

/-- `@@swap_out` up to `EIS`. -/
def swapOut (rng lo hi : ℕ) : List Instr :=
  [.pshr 1, .mvi rng 1, .mvo 1 lo, .swap 1, .mvo 1 hi, .pulr 1]

/-- Two words on the stack: the pointer does not wrap, the words keep all their bits, and they are
none of the given cells. -/
structure Room (m : Console) (cells : List ℕ) : Prop where
  push : up (m.reg 6) = m.reg 6 + 1
  push_two : up (m.reg 6 + 1) = m.reg 6 + 1 + 1
  low : m.reg 6 % 65536 = m.reg 6
  low_one : (m.reg 6 + 1) % 65536 = m.reg 6 + 1
  low_two : (m.reg 6 + 1 + 1) % 65536 = m.reg 6 + 1 + 1
  width_one : cellWidth (m.reg 6) = 16
  width_two : cellWidth (m.reg 6 + 1) = 16
  apart : ∀ a ∈ cells, a ≠ m.reg 6 ∧ a ≠ m.reg 6 + 1

/-- A stack pointer that is two words inside the stack leaves that room. -/
theorem room (h1 : STACK ≤ m.reg 6) (h2 : m.reg 6 + 2 ≤ STACK_END) :
    Room m [EXEC_RNG, RNG_LO, RNG_HI] := by
  simp only [STACK, STACK_END] at h1 h2
  refine ⟨up_eq (by omega), up_eq (by omega), by omega, by omega, by omega,
    cellWidth_system (by omega) (by omega), cellWidth_system (by omega) (by omega), ?_⟩
  intro a ha
  simp only [List.mem_cons, List.not_mem_nil, or_false, EXEC_RNG, RNG_LO, RNG_HI] at ha
  omega

/-- The subroutine puts the canonical state into `$035E`, and changes no register but the program counter.
-/
theorem swapIn_effect {rng lo hi : ℕ} (h : Room m [rng, lo, hi]) :
    (∀ q ≠ 7, (block (swapIn rng lo hi) m).reg q = m.reg q) ∧
    (block (swapIn rng lo hi) m).mem.cell rng =
      (m.mem.cell lo + (m.mem.cell hi % 256 * 256 + m.mem.cell hi % 65536 / 256)) % 65536 %
        2 ^ cellWidth rng ∧
    ∀ a, a ≠ rng → a ≠ m.reg 6 → a ≠ m.reg 6 + 1 →
      (block (swapIn rng lo hi) m).mem.cell a = m.mem.cell a := by
  obtain ⟨e1, e2, e3, e4, e5, w1, w2, hapart⟩ := h
  simp only [List.mem_cons, List.not_mem_nil, or_false, forall_eq_or_imp, forall_eq] at hapart
  obtain ⟨⟨hr, hr'⟩, ⟨hl, hl'⟩, ⟨hh, hh'⟩⟩ := hapart
  have hr1 : m.reg 1 % 65536 = m.reg 1 := Nat.mod_eq_of_lt (m.word 1)
  have hr2 : m.reg 2 % 65536 = m.reg 2 := Nat.mod_eq_of_lt (m.word 2)
  refine ⟨fun q hq => ?_, ?_, fun a ha ha' ha'' => ?_⟩
  · simp [swapIn, Instr.exec, Instr.act, hq, e1, e2, e3, e4, e5, w1, w2, hr.symm, hr'.symm, hl, hl',
      hh, hh', hr1, hr2]
    by_cases h1 : q = 1
    · simp [h1]
    · by_cases h2 : q = 2
      · simp [h2]
      · by_cases h6 : q = 6
        · simp [h6]
        · simp [h1, h2, h6]
  · simp [swapIn, Instr.exec, Instr.act, e1, e2, e4, e5, w1, w2, hl, hl', hh, hh']
  · simp [swapIn, Instr.exec, Instr.act, e1, e2, e4, e5, ha, ha', ha'']

/-- The tail puts it back, and changes none either. -/
theorem swapOut_effect {rng lo hi : ℕ} (h : Room m [rng, lo, hi]) (hne : lo ≠ hi) :
    (∀ q ≠ 7, (block (swapOut rng lo hi) m).reg q = m.reg q) ∧
    (block (swapOut rng lo hi) m).mem.cell lo = m.mem.cell rng % 65536 % 2 ^ cellWidth lo ∧
    (block (swapOut rng lo hi) m).mem.cell hi =
      (m.mem.cell rng % 65536 % 256 * 256 + m.mem.cell rng % 65536 / 256) % 65536 %
        2 ^ cellWidth hi ∧
    ∀ a, a ≠ lo → a ≠ hi → a ≠ m.reg 6 →
      (block (swapOut rng lo hi) m).mem.cell a = m.mem.cell a := by
  obtain ⟨e1, e2, e3, e4, e5, w1, w2, hapart⟩ := h
  simp only [List.mem_cons, List.not_mem_nil, or_false, forall_eq_or_imp, forall_eq] at hapart
  obtain ⟨⟨hr, hr'⟩, ⟨hl, hl'⟩, ⟨hh, hh'⟩⟩ := hapart
  have hr1 : m.reg 1 % 65536 = m.reg 1 := Nat.mod_eq_of_lt (m.word 1)
  refine ⟨fun q hq => ?_, ?_, ?_, fun a ha ha' ha'' => ?_⟩
  · simp [swapOut, Instr.exec, Instr.act, hq, e1, e3, e4, w1, hl.symm, hh.symm, hr1]
    by_cases h1 : q = 1
    · simp [h1]
    · by_cases h6 : q = 6
      · simp [h6]
      · simp [h1, h6]
  · simp [swapOut, Instr.exec, Instr.act, hr, hne]
  · simp [swapOut, Instr.exec, Instr.act, hr]
  · simp [swapOut, Instr.exec, Instr.act, ha, ha', ha'']

/-! ### The parts of a call -/

/-- Interrupts disabled, and room on the stack. -/
structure Window (p : ℕ) (m : Console) : Prop where
  pc : m.reg 7 = p
  ie : m.ie = false
  lo : STACK ≤ m.reg 6
  hi : m.reg 6 + 2 ≤ STACK_END

/-- The two cells of the canonical state are bytes. -/
theorem byte_cells (m : Memory cellWidth) : m.cell RNG_LO < 256 ∧ m.cell RNG_HI < 256 :=
  ⟨m.cell_lt _ 8 (cellWidth_cart (by decide) (by decide)),
    m.cell_lt _ 8 (cellWidth_cart (by decide) (by decide))⟩

/-- The canonical state as one word. -/
def canonical (m : Memory cellWidth) : ℕ := m.cell RNG_HI * 256 + m.cell RNG_LO

/-- Stores into the two words from the pointer on and into `$035E` touch nothing of it. -/
theorem untouched_below {sp : ℕ} {m m' : Memory cellWidth} (hsp : sp + 2 ≤ STACK_END)
    (h : ∀ a, a ≠ EXEC_RNG → a ≠ sp → a ≠ sp + 1 → m'.cell a = m.cell a) : Untouched sp m m' := by
  simp only [STACK_END] at hsp
  refine ⟨h _ ?_ ?_ ?_, h _ ?_ ?_ ?_, fun a hlo hend hlt => h a ?_ ?_ ?_⟩
  all_goals
    have hcells : RNG_LO = 0x8106 ∧ RNG_HI = 0x8107 ∧ EXEC_RNG = 0x035E := ⟨rfl, rfl, rfl⟩
    omega

/-- A `JSR` through R5. -/
theorem jsr_effect (m : Console) (target : ℕ) (ht : target < 65536) (hp : m.reg 7 + 1 < 65536) :
    (Instr.exec (.jsr 5 target) m).mem = m.mem ∧ (Instr.exec (.jsr 5 target) m).ie = m.ie ∧
      ∀ q : Fin 8, (Instr.exec (.jsr 5 target) m).reg q =
        if q = 7 then target else if q = 5 then m.reg 7 + 1 else m.reg q := by
  refine ⟨rfl, rfl, fun q => ?_⟩
  simp only [Instr.exec, Instr.act, Machine.set_reg, if_true, Nat.mod_eq_of_lt ht,
    Nat.mod_eq_of_lt hp]
  split_ifs <;> rfl

/-- `JSR R5, @@swap_in`. -/
theorem swap_in_call {p : ℕ} (h : Window p m) (hp : code[p]? = some (.jsr 5 SWAP_IN)) :
    ∃ m', steps x s (t + 11) m = steps x s t m' ∧ Window (p + 1) m' ∧
      (∀ q : Fin 8, q ≠ 5 → q ≠ 7 → m'.reg q = m.reg q) ∧
      m'.mem.cell EXEC_RNG = canonical m.mem ∧ Untouched (m.reg 6) m.mem m'.mem := by
  have hlt : p < 27 := (List.getElem?_eq_some_iff.mp hp).1
  obtain ⟨hpc, hie, hlo, hhi⟩ := h
  obtain ⟨hma, hiea, hra⟩ := jsr_effect m SWAP_IN (by decide) (by omega)
  have hcall : steps x s (t + 11) m = steps x s (t + 10) (Instr.exec (.jsr 5 SWAP_IN) m) :=
    step_quiet hie (hpc ▸ hp)
  rw [hcall]
  generalize Instr.exec (.jsr 5 SWAP_IN) m = ma at hma hiea hra
  have hpca : ma.reg 7 = 17 := hra 7
  have hspa : ma.reg 6 = m.reg 6 := hra 6
  have hbody : steps x s (t + 10) ma =
      steps x s (t + 1) (block (swapIn EXEC_RNG RNG_LO RNG_HI) ma) :=
    steps_block (swapIn EXEC_RNG RNG_LO RNG_HI) (hiea.trans hie) (by decide) (by rw [hpca]; decide)
  obtain ⟨hrb, hrng, hmem⟩ := swapIn_effect (room (hspa ▸ hlo) (hspa ▸ hhi))
  obtain ⟨hpcb, hieb⟩ := straight_block (swapIn EXEC_RNG RNG_LO RNG_HI) (by decide) ma
  rw [hbody]
  generalize block (swapIn EXEC_RNG RNG_LO RNG_HI) ma = mb at hrb hrng hmem hpcb hieb
  have hback : mb.reg 5 = p + 1 := by rw [hrb 5 (by decide), hra 5, hpc]; rfl
  have hie' : mb.ie = false := hieb.trans (hiea.trans hie)
  have hi : code[mb.reg 7]? = some (.movr 5 7) := by
    rw [hpcb, hpca]
    rfl
  rw [step_quiet hie' hi]
  have hrc : ∀ q : Fin 8, q ≠ 5 → q ≠ 7 → (Instr.exec (.movr 5 7) mb).reg q = m.reg q := by
    intro q h5 h7
    have hq := hra q
    rw [if_neg h7, if_neg h5] at hq
    simp only [Instr.exec, Instr.act, Machine.set_reg, if_neg h7]
    exact (hrb q h7).trans hq
  obtain ⟨hlo8, hhi8⟩ := byte_cells m.mem
  refine ⟨_, rfl, ⟨?_, hie', ?_, ?_⟩, hrc, ?_, ?_⟩
  · simp [Instr.exec, Instr.act, hback]
    omega
  · rw [hrc 6 (by decide) (by decide)]
    exact hlo
  · rw [hrc 6 (by decide) (by decide)]
    exact hhi
  · have hcells : ma.mem.cell RNG_LO + (ma.mem.cell RNG_HI % 256 * 256 +
        ma.mem.cell RNG_HI % 65536 / 256) = canonical m.mem := by
      rw [hma, canonical]
      omega
    have hlow : canonical m.mem < 65536 := by
      rw [canonical]
      omega
    have hwidth : cellWidth EXEC_RNG = 16 := cellWidth_system (by decide) (by decide)
    rw [hcells, hwidth, Nat.mod_eq_of_lt hlow, Nat.mod_eq_of_lt (show _ < 2 ^ 16 from hlow)] at hrng
    exact hrng
  · rw [hspa] at hmem
    exact untouched_below hhi fun a h1 h2 h3 => (hmem a h1 h2 h3).trans (by rw [hma])

/-- Where a routine is. -/
def address : Routine → ℕ
  | .rand1 => X_RAND1
  | .rand2 => X_RAND2

theorem args_congr {m m' : Console}
    (h : ∀ q : Fin 8, q ≠ 5 → q ≠ 6 → q ≠ 7 → m'.reg q = m.reg q) : args m' = args m := by
  have hlow : ∀ i : Fin 5, (i.castLE (by omega) : Fin 8) ≠ 5 ∧ (i.castLE (by omega) : Fin 8) ≠ 6 ∧
      (i.castLE (by omega) : Fin 8) ≠ 7 := by decide
  funext i
  obtain ⟨h5, h6, h7⟩ := hlow i
  exact h _ h5 h6 h7

/-- The call of a routine. -/
theorem rand_call {p : ℕ} {w : Routine} (h : Window p m) (hp : code[p]? = some (.jsr 5 (address w))) :
    ∃ m', steps x s (t + 2) m = steps x s t m' ∧ Window (p + 1) m' ∧
      m'.reg 0 = x.value w (m.mem.cell EXEC_RNG) (args m) ∧ m'.reg 1 = m.reg 1 ∧
      m'.reg 2 = m.reg 2 ∧ m'.reg 6 = m.reg 6 ∧
      m'.mem.cell EXEC_RNG = x.next w (m.mem.cell EXEC_RNG) (args m) ∧
      Untouched (m.reg 6) m.mem m'.mem := by
  have hlt : p < 27 := (List.getElem?_eq_some_iff.mp hp).1
  obtain ⟨hpc, hie, hlo, hhi⟩ := h
  have ht : address w < 65536 := by cases w <;> decide
  obtain ⟨hma, hiea, hra⟩ := jsr_effect m (address w) ht (by omega)
  rw [step_quiet hie (hpc ▸ hp)]
  generalize Instr.exec (.jsr 5 (address w)) m = ma at hma hiea hra
  have hpca : ma.reg 7 = address w := hra 7
  have hargs : args ma = args m := by
    apply args_congr
    intro q h5 _ h7
    rw [hra q, if_neg h7, if_neg h5]
  have hquiet : interrupt s t ma = ma := by
    rw [interrupt, hiea, hie]
    rfl
  have hstep : steps x s (t + 1) ma = steps x s t (x.rand w ma) := by
    rw [steps, step, hquiet, hpca]
    cases w with
    | rand1 => rfl
    | rand2 => rfl
  rw [hstep]
  obtain ⟨h1, h2, h6⟩ := x.rand_kept w ma
  refine ⟨_, rfl, ⟨?_, x.rand_disabled w ma (hiea.trans hie), ?_, ?_⟩, ?_, h1.trans (hra 1),
    h2.trans (hra 2), h6.trans (hra 6), ?_, ?_⟩
  · rw [x.rand_returns, hra 5, hpc]
    rfl
  · rw [h6, hra 6]
    exact hlo
  · rw [h6, hra 6]
    exact hhi
  · rw [x.rand_value, hma, hargs]
  · rw [x.rand_next, hma, hargs]
  · have hkept := x.rand_untouched w ma
    rwa [hma, hra 6] at hkept

/-- The two bytes of a word as the tail stores them. -/
theorem bytes_of_word {v : ℕ} (h : v < 65536) : v % 65536 % 2 ^ 8 = v % 256 ∧
    (v % 65536 % 256 * 256 + v % 65536 / 256) % 65536 % 2 ^ 8 = v / 256 := by
  rw [Nat.mod_eq_of_lt h]
  have hswap : v % 256 * 256 + v / 256 < 65536 := by omega
  rw [Nat.mod_eq_of_lt hswap]
  exact ⟨rfl, by omega⟩

/-- The shared tail, up to the instruction behind `EIS`. -/
theorem tail_effect (h : Window SWAP_OUT m) :
    ∃ m', steps x s (t + 7) m = steps x s t m' ∧ m'.reg 7 = 16 ∧
      (∀ q : Fin 8, q ≠ 7 → m'.reg q = m.reg q) ∧
      m'.mem.cell RNG_LO = m.mem.cell EXEC_RNG % 256 ∧
      m'.mem.cell RNG_HI = m.mem.cell EXEC_RNG / 256 ∧
      ∀ a, STACK ≤ a → a < m.reg 6 → m'.mem.cell a = m.mem.cell a := by
  obtain ⟨hpc, hie, hlo, hhi⟩ := h
  have hbody : steps x s (t + 7) m =
      steps x s (t + 1) (block (swapOut EXEC_RNG RNG_LO RNG_HI) m) :=
    steps_block (swapOut EXEC_RNG RNG_LO RNG_HI) hie (by decide) (by rw [hpc]; decide)
  obtain ⟨hr, hmlo, hmhi, hmem⟩ := swapOut_effect (room hlo hhi) (show RNG_LO ≠ RNG_HI by decide)
  obtain ⟨hpcb, hieb⟩ := straight_block (swapOut EXEC_RNG RNG_LO RNG_HI) (by decide) m
  rw [hbody]
  generalize block (swapOut EXEC_RNG RNG_LO RNG_HI) m = mb at hr hmlo hmhi hmem hpcb hieb
  have hpc' : mb.reg 7 = 15 := by
    rw [hpcb, hpc]
    rfl
  have hi : code[mb.reg 7]? = some .eis := by
    rw [hpc']
    rfl
  rw [step_quiet (hieb.trans hie) hi]
  have hword : m.mem.cell EXEC_RNG < 65536 :=
    m.mem.cell_lt _ 16 (cellWidth_system (by decide) (by decide))
  obtain ⟨hlow, hhigh⟩ := bytes_of_word hword
  have hwlo : cellWidth RNG_LO = 8 := cellWidth_cart (by decide) (by decide)
  have hwhi : cellWidth RNG_HI = 8 := cellWidth_cart (by decide) (by decide)
  refine ⟨_, rfl, ?_, fun q hq => ?_, ?_, ?_, fun a h1 h2 => ?_⟩
  · simp [Instr.exec, Instr.act, hpc']
  · simp only [Instr.exec, Instr.act, Machine.set_reg, if_neg hq]
    exact hr q hq
  · have hcell : mb.mem.cell RNG_LO = m.mem.cell EXEC_RNG % 256 := by rw [hmlo, hwlo, hlow]
    exact hcell
  · have hcell : mb.mem.cell RNG_HI = m.mem.cell EXEC_RNG / 256 := by rw [hmhi, hwhi, hhigh]
    exact hcell
  · have hcells : RNG_LO = 0x8106 ∧ RNG_HI = 0x8107 ∧ STACK_END = 0x031D := ⟨rfl, rfl, rfl⟩
    exact hmem a (by omega) (by omega) (by omega)

/-! ### A call -/

/-- `PSHR R5`. -/
theorem push_effect (m : Console) (hpc : m.reg 7 + 1 < 65536) (hsp : m.reg 6 + 1 < 65536) :
    (Instr.exec (.pshr 5) m).mem = m.mem.store (m.reg 6) (m.reg 5) ∧
      (Instr.exec (.pshr 5) m).reg 7 = m.reg 7 + 1 ∧ (Instr.exec (.pshr 5) m).reg 6 = m.reg 6 + 1 ∧
      ∀ q : Fin 8, q ≠ 6 → q ≠ 7 → (Instr.exec (.pshr 5) m).reg q = m.reg q := by
  refine ⟨?_, ?_, ?_, fun q h6 h7 => ?_⟩
  · simp [Instr.exec, Instr.act]
  · simp [Instr.exec, Instr.act, Nat.mod_eq_of_lt hpc]
  · simp [Instr.exec, Instr.act, up_eq hsp, Nat.mod_eq_of_lt hsp]
  · simp [Instr.exec, Instr.act, h6, h7]

/-- `PSHR R5` and `DIS`, with interrupts before both. -/
theorem enter_effect {p : ℕ} (hpc : m.reg 7 = p) (hp : code[p]? = some (.pshr 5))
    (hd : code[p + 1]? = some .dis) (hlo : STACK ≤ m.reg 6) (hhi : m.reg 6 + 3 ≤ STACK_END) :
    ∃ m', steps x s (t + 2) m = steps x s t m' ∧ Window (p + 2) m' ∧
      (∀ q : Fin 8, q ≠ 6 → q ≠ 7 → m'.reg q = m.reg q) ∧ m'.reg 6 = m.reg 6 + 1 ∧
      canonical m'.mem = canonical m.mem ∧ m'.mem.cell (m.reg 6) = m.reg 5 := by
  have hlt : p + 1 < 27 := (List.getElem?_eq_some_iff.mp hd).1
  have hends : STACK = 0x02F0 ∧ STACK_END = 0x031D := ⟨rfl, rfl⟩
  have hcells : RNG_LO = 0x8106 ∧ RNG_HI = 0x8107 := ⟨rfl, rfl⟩
  obtain ⟨hr1, -, hu1⟩ := interrupt_kept s (t + 1) m
  rw [step_code (hpc ▸ hp)]
  generalize interrupt s (t + 1) m = m1 at hr1 hu1
  have hsp1 : m1.reg 6 = m.reg 6 := by rw [hr1]
  obtain ⟨hmem2, hpc2, hsp2, hr2⟩ := push_effect m1 (by rw [hr1]; omega) (by rw [hr1]; omega)
  generalize Instr.exec (.pshr 5) m1 = m2 at hmem2 hpc2 hsp2 hr2
  rw [hr1] at hmem2 hpc2 hsp2 hr2
  have hi : code[m2.reg 7]? = some .dis := by rw [hpc2, hpc]; exact hd
  obtain ⟨hr3, -, hlo3, hhi3, hstack3⟩ := interrupt_kept s t m2
  rw [step_code hi]
  generalize interrupt s t m2 = m3 at hr3 hlo3 hhi3 hstack3
  have hreg : ∀ q : Fin 8, q ≠ 7 → (Instr.exec .dis m3).reg q = m2.reg q := by
    intro q h7
    simp only [Instr.exec, Instr.act, Machine.set_reg, if_neg h7, hr3]
  have hpc3 : (Instr.exec .dis m3).reg 7 = p + 2 := by
    simp only [Instr.exec, Instr.act, Machine.set_reg, if_true, hr3, hpc2, hpc]
    omega
  have hcell : ∀ a, a ≠ m.reg 6 → m2.mem.cell a = m1.mem.cell a := by
    intro a ha
    rw [hmem2, Memory.store_cell, if_neg ha]
  refine ⟨_, rfl, ⟨hpc3, rfl, ?_, ?_⟩, ?_, (hreg 6 (by decide)).trans hsp2, ?_, ?_⟩
  · rw [hreg 6 (by decide), hsp2]
    omega
  · rw [hreg 6 (by decide), hsp2]
    omega
  · intro q h6 h7
    exact (hreg q h7).trans (hr2 q h6 h7)
  · have hl : m3.mem.cell RNG_LO = m.mem.cell RNG_LO := by rw [hlo3, hcell _ (by omega), hu1.1]
    have hh : m3.mem.cell RNG_HI = m.mem.cell RNG_HI := by rw [hhi3, hcell _ (by omega), hu1.2.1]
    simp only [canonical, Instr.exec, Instr.act, Machine.set_mem, hl, hh]
  · have hcell3 : m3.mem.cell (m.reg 6) = m.reg 5 := by
      rw [hstack3 _ hlo (by omega) (by rw [hsp2]; omega), hmem2, Memory.store_cell, if_pos rfl,
        cellWidth_system (by omega) (by omega)]
      exact Nat.mod_eq_of_lt (m.word 5)
    exact hcell3

/-- `PULR R7`, with interrupts before it and no step behind it. -/
theorem leave_effect (hpc : m.reg 7 = 16) {sp ret : ℕ} (hsp : m.reg 6 = sp + 1)
    (hlo : STACK ≤ sp) (hhi : sp < STACK_END) (hret : m.mem.cell sp = ret) (hword : ret < 65536)
    (hout : inside ret = false) :
    (steps x s (t + 1) m).reg 7 = ret ∧ (∀ q : Fin 8, q ≠ 6 → q ≠ 7 →
      (steps x s (t + 1) m).reg q = m.reg q) ∧
      canonical (steps x s (t + 1) m).mem = canonical m.mem := by
  obtain ⟨hr1, -, hlo1, hhi1, hstack⟩ := interrupt_kept s t m
  have hi : code[m.reg 7]? = some (.pulr 7) := by
    rw [hpc]
    rfl
  rw [step_code hi]
  have hcell : (interrupt s t m).mem.cell sp = ret := by
    rw [hstack sp hlo hhi (by omega), hret]
  generalize interrupt s t m = m1 at hr1 hlo1 hhi1 hcell
  have hsp1 : down (m1.reg 6) = sp := by rw [hr1, hsp, down_succ]
  have hpc' : (Instr.exec (.pulr 7) m1).reg 7 = ret := by
    simp [Instr.exec, Instr.act, hsp1, hcell, Nat.mod_eq_of_lt hword]
  have hstop : ∀ n, steps x s n (Instr.exec (.pulr 7) m1) = Instr.exec (.pulr 7) m1 := by
    intro n
    cases n with
    | zero => rfl
    | succ n =>
      rw [steps, hpc', hout]
      rfl
  rw [hstop]
  refine ⟨hpc', fun q h6 h7 => ?_, ?_⟩
  · simp only [Instr.exec, Instr.act, Machine.set_reg, if_neg h6, if_neg h7, hr1]
  · simp only [canonical, Instr.exec, Instr.act, Machine.set_mem, hlo1, hhi1]

/-- `B @@swap_out`, which only `BX_RAND1` needs. -/
theorem branch_effect (h : Window 4 m) :
    ∃ m', steps x s (t + 1) m = steps x s t m' ∧ Window SWAP_OUT m' ∧
      (∀ q : Fin 8, q ≠ 7 → m'.reg q = m.reg q) ∧ m'.mem = m.mem := by
  obtain ⟨hpc, hie, hlo, hhi⟩ := h
  have hi : code[m.reg 7]? = some (.b SWAP_OUT) := by
    rw [hpc]
    rfl
  rw [step_quiet hie hi]
  have hreg : ∀ q : Fin 8, q ≠ 7 → (Instr.exec (.b SWAP_OUT) m).reg q = m.reg q := by
    intro q h7
    simp only [Instr.exec, Instr.act, Machine.set_reg, if_neg h7]
  refine ⟨_, rfl, ⟨?_, hie, ?_, ?_⟩, hreg, rfl⟩
  · simp [Instr.exec, Instr.act]
  · rw [hreg 6 (by decide)]
    exact hlo
  · rw [hreg 6 (by decide)]
    exact hhi

/-- Both wrappers come to the shared tail, with a few steps to spare. -/
theorem head_effect {c : Call} (h : AtCall c m) :
    ∃ m' k, steps x s CALL_STEPS m = steps x s (k + 8) m' ∧ Window SWAP_OUT m' ∧
      m'.reg 0 = x.value c.routine (canonical m.mem) c.args ∧ m'.reg 1 = c.args 1 ∧
      m'.reg 2 = c.args 2 ∧ m'.reg 6 = m.reg 6 + 1 ∧
      m'.mem.cell EXEC_RNG = x.next c.routine (canonical m.mem) c.args ∧
      m'.mem.cell (m.reg 6) = m.reg 5 := by
  obtain ⟨hpc, hargs, -, hlo, hhi⟩ := h
  have hcode : code[entry c.routine]? = some (.pshr 5) ∧ code[entry c.routine + 1]? = some .dis ∧
      code[entry c.routine + 2]? = some (.jsr 5 SWAP_IN) ∧
      code[entry c.routine + 3]? = some (.jsr 5 (address c.routine)) := by
    cases c.routine with
    | rand1 => exact ⟨rfl, rfl, rfl, rfl⟩
    | rand2 => exact ⟨rfl, rfl, rfl, rfl⟩
  obtain ⟨hc0, hc1, hc2, hc3⟩ := hcode
  obtain ⟨m1, hs1, hw1, hr1, hsp1, hcan1, hret1⟩ :=
    enter_effect (x := x) (s := s) (t := 30) hpc hc0 hc1 hlo hhi
  obtain ⟨m2, hs2, hw2, hr2, hrng2, hu2⟩ := swap_in_call (x := x) (s := s) (t := 19) hw1 hc2
  obtain ⟨m3, hs3, hw3, h03, h13, h23, h63, hrng3, hu3⟩ :=
    rand_call (x := x) (s := s) (t := 17) hw2 hc3
  have hargs2 : args m2 = c.args := by
    rw [← hargs]
    apply args_congr
    intro q h5 h6 h7
    exact (hr2 q h5 h7).trans (hr1 q h6 h7)
  have harg1 : m2.reg 1 = c.args 1 := congrFun hargs2 1
  have harg2 : m2.reg 2 = c.args 2 := congrFun hargs2 2
  have hsp2 : m2.reg 6 = m.reg 6 + 1 := (hr2 6 (by decide) (by decide)).trans hsp1
  have hin : m.reg 6 < STACK_END := by omega
  have hret3 : m3.mem.cell (m.reg 6) = m.reg 5 := by
    rw [hu3.2.2 _ hlo hin (by omega), hu2.2.2 _ hlo hin (by omega), hret1]
  rw [hargs2, hrng2, hcan1] at h03 hrng3
  rw [harg1] at h13
  rw [harg2] at h23
  rw [hsp2] at h63
  have hrun : steps x s CALL_STEPS m = steps x s 17 m3 := hs1.trans (hs2.trans hs3)
  cases hw : c.routine with
  | rand1 =>
    rw [hw] at hw3 h03 hrng3
    obtain ⟨m4, hs4, hw4, hr4, hmem4⟩ := branch_effect (x := x) (s := s) (t := 16) hw3
    refine ⟨m4, 8, hrun.trans hs4, hw4, ?_, ?_, ?_, ?_, ?_, ?_⟩
    · rw [hr4 0 (by decide), h03]
    · rw [hr4 1 (by decide), h13]
    · rw [hr4 2 (by decide), h23]
    · rw [hr4 6 (by decide), h63]
    · rw [hmem4, hrng3]
    · rw [hmem4, hret3]
  | rand2 =>
    rw [hw] at hw3 h03 hrng3
    exact ⟨m3, 9, hrun, hw3, h03, h13, h23, h63, hrng3, hret3⟩

/-- A call gives the routine's value of the canonical state, leaves the routine's next state, keeps R1
and R2 and comes back, whatever the interrupts do. -/
theorem call_effect {c : Call} (h : AtCall c m) :
    outcome m (steps x s CALL_STEPS m) =
      ⟨x.value c.routine (canonical m.mem) c.args, c.args 1, c.args 2, true⟩ ∧
    canonical (steps x s CALL_STEPS m).mem = x.next c.routine (canonical m.mem) c.args := by
  obtain ⟨m1, k, hs1, hw1, h01, h11, h21, h61, hrng1, hret1⟩ := head_effect (x := x) (s := s) h
  obtain ⟨m2, hs2, hpc2, hr2, hlo2, hhi2, hstack2⟩ := tail_effect (x := x) (s := s) (t := k + 1) hw1
  have hin : m.reg 6 < STACK_END := by
    have hroom := h.stack_hi
    omega
  have hret2 : m2.mem.cell (m.reg 6) = m.reg 5 := by
    rw [hstack2 _ h.stack_lo (by omega), hret1]
  have hsp2 : m2.reg 6 = m.reg 6 + 1 := (hr2 6 (by decide)).trans h61
  obtain ⟨hpc3, hr3, hcan3⟩ := leave_effect (x := x) (s := s) (t := k) hpc2 hsp2 h.stack_lo hin hret2
    (m.word 5) h.outside
  rw [hs1, hs2]
  constructor
  · rw [outcome, hpc3, hr3 0 (by decide) (by decide), hr3 1 (by decide) (by decide),
      hr3 2 (by decide) (by decide), hr2 0 (by decide), hr2 1 (by decide), hr2 2 (by decide), h01,
      h11, h21, decide_eq_true rfl]
  · rw [hcan3, canonical, hlo2, hhi2, hrng1]
    omega

/-! ### Two runs -/

/-- Two memories have one canonical state when the two bytes of it are the same. -/
theorem canonical_eq_iff {m m' : Memory cellWidth} : canonical m' = canonical m ↔
    m'.cell RNG_LO = m.cell RNG_LO ∧ m'.cell RNG_HI = m.cell RNG_HI := by
  have hm := byte_cells m
  have hm' := byte_cells m'
  unfold canonical
  constructor
  · intro h
    exact ⟨by omega, by omega⟩
  · rintro ⟨hlo, hhi⟩
    rw [hlo, hhi]

/-- Runs that begin with one canonical state and make the same calls get the same results and end with one.
-/
theorem runs_agree {m n m' n' : Console} {cs : List Call} {os ps : List Outcome}
    (hm : Run x m cs os m') (hn : Run x n cs ps n') (h : canonical n.mem = canonical m.mem) :
    ps = os ∧ canonical n'.mem = canonical m'.mem := by
  induction hm generalizing n ps with
  | done m =>
    cases hn
    exact ⟨rfl, h⟩
  | @call m m0 m' c cs os s hlo hhi hc hr ih =>
    cases hn with
    | @call _ n0 _ _ _ ps s' hlo' hhi' hc' hr' =>
      have hm0 : canonical m0.mem = canonical m.mem := canonical_eq_iff.mpr ⟨hlo, hhi⟩
      have hn0 : canonical n0.mem = canonical n.mem := canonical_eq_iff.mpr ⟨hlo', hhi'⟩
      obtain ⟨hout, hnext⟩ := call_effect (x := x) (s := s) hc
      obtain ⟨hout', hnext'⟩ := call_effect (x := x) (s := s') hc'
      rw [hn0, h, ← hm0] at hout' hnext'
      obtain ⟨htail, hend⟩ := ih hr' (hnext'.trans hnext.symm)
      exact ⟨by rw [hout, hout', htail], hend⟩

/-- Every call of a run preserves R1 and R2 and comes back. -/
theorem run_keeps {m m' : Console} {cs : List Call} {os : List Outcome} (h : Run x m cs os m') :
    os.map (fun o => (o.r1, o.r2, o.back)) = cs.map fun c => (c.args 1, c.args 2, true) := by
  induction h with
  | done m => rfl
  | @call m m0 m' c cs os s hlo hhi hc hr ih =>
    rw [List.map_cons, List.map_cons, ih, (call_effect hc).1]

/-- Two runs that find the same canonical state and make the same calls get the same results and leave
the same state, whatever becomes of `$035E`; and every call preserves R1 and R2 and comes back. -/
theorem rng_isolated {m n m' n' : Console} {cs : List Call} {os ps : List Outcome}
    (hm : Run x m cs os m') (hn : Run x n cs ps n')
    (hlo : n.mem.cell RNG_LO = m.mem.cell RNG_LO) (hhi : n.mem.cell RNG_HI = m.mem.cell RNG_HI) :
    ps = os ∧ n'.mem.cell RNG_LO = m'.mem.cell RNG_LO ∧ n'.mem.cell RNG_HI = m'.mem.cell RNG_HI ∧
      os.map (fun o => (o.r1, o.r2, o.back)) = cs.map fun c => (c.args 1, c.args 2, true) := by
  obtain ⟨hout, hend⟩ := runs_agree hm hn (canonical_eq_iff.mpr ⟨hlo, hhi⟩)
  exact ⟨hout, (canonical_eq_iff.mp hend).1, (canonical_eq_iff.mp hend).2, run_keeps hm⟩

/-- A store to `$035E` leaves the rest untouched. -/
theorem untouched_store (m : Memory cellWidth) (sp v : ℕ) :
    Untouched sp m (m.store EXEC_RNG v) := by
  have hends : EXEC_RNG = 0x035E ∧ STACK_END = 0x031D := ⟨rfl, rfl⟩
  refine ⟨rfl, rfl, fun a _ hend _ => ?_⟩
  rw [Memory.store_cell, if_neg (by omega)]

/-- A generator that gives as many low bits as R0 says and rotates its state. -/
def rotating : Exec where
  rand _ m := (((m.sto EXEC_RNG (m.mem.cell EXEC_RNG / 2 + m.mem.cell EXEC_RNG % 2 * 32768)).set 0
    (m.mem.cell EXEC_RNG % 2 ^ m.reg 0)).set 7 (m.reg 5))
  value _ rng a := rng % 2 ^ a 0 % 65536
  next _ rng _ := rng / 2 + rng % 2 * 32768
  rand_value _ m := by simp [args]
  rand_next _ m := by
    have hword : m.mem.cell EXEC_RNG < 65536 :=
      m.mem.cell_lt _ 16 (cellWidth_system (by decide) (by decide))
    have hwidth : cellWidth EXEC_RNG = 16 := cellWidth_system (by decide) (by decide)
    rw [Machine.set_mem, Machine.set_mem, Machine.sto_mem, Memory.store_cell, if_pos rfl, hwidth]
    exact Nat.mod_eq_of_lt (by omega)
  rand_kept _ m := by simp
  rand_returns _ m := by
    rw [Machine.set_reg, if_pos rfl]
    exact Nat.mod_eq_of_lt (m.word 5)
  rand_disabled _ m h := h
  rand_untouched _ m := untouched_store m.mem _ _

/-- Sound that keeps `$035E` at a value. -/
def noise (v : ℕ) : Interrupts where
  isr _ m := m.mem.store EXEC_RNG v
  isr_untouched _ m := untouched_store m.mem _ _

/-- A blank memory fits its cells. -/
theorem blank_lt (a : ℕ) : 0 < 2 ^ cellWidth a := Nat.two_pow_pos _

/-- A call of `BX_RAND1` for three bits, with interrupts enabled. -/
def threeBits : Console where
  reg := ![3, 11, 12, 0, 0, 100, 0x02F0, BX_RAND1]
  word := by decide
  mem := (Memory.mk (fun _ => 0) blank_lt [] : Memory cellWidth).store RNG_LO 0x56
  ie := true

/-- The call gets the same bits whatever the sound engine has stored. -/
theorem threeBits_agree :
    outcome threeBits (steps rotating (noise 0x1234) CALL_STEPS threeBits) =
      outcome threeBits (steps rotating (noise 0xFFFF) CALL_STEPS threeBits) := by
  have hc : AtCall ⟨.rand1, args threeBits⟩ threeBits :=
    ⟨rfl, rfl, by decide, by decide, by decide⟩
  have hruns := rng_isolated (x := rotating) (.call (noise 0xFFFF) rfl rfl hc (.done _))
    (.call (noise 0x1234) rfl rfl hc (.done _)) rfl rfl
  exact (List.cons.inj hruns.1).1

end BoxingNetplay.Analysis.RngIsolation
