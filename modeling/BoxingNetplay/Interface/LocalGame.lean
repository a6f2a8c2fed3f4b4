import BoxingNetplay.Interface.Dispatch
import BoxingNetplay.Interface.Reports

/-!
# The game on one machine

A game without a network is a machine that runs its ticks one after the other, each on the inputs of two
seats (`localTick`, `localGame`).  Two machines are alike on a set of cells if those hold the same
(`Alike`).  When the set is apart from the cells of the netcode (`SharedCells`) and a cartridge computes with
it alone (`Replicates`), a tick of the netcode does to the set what a local tick does on the inputs its
dispatches read (`alike_tick`), and nothing else the netcode does in a match without a push matters to it
(`Alike.frame`).
-/

set_option autoImplicit false

namespace BoxingNetplay.Interface

open BoxingNetplay.Library
open BoxingNetplay.Model

/-! ### The cells of the game -/

/-- What the netcode stores to in a match without a push, apart from the handler table, its parked copy and
the mirrors of the countdowns.
SOURCE: lockstep.asm:8-349, session.asm:488-636, resync.asm:50-158, vdispatch.asm:379-482 -/
def NetcodeArea : Set ℕ :=
  PumpArea ∪ WaitArea ∪ RingPages ∪ Watermarks ∪ CrcRecords ∪
    {a | a = LS_TMPB ∨ a = LS_TMPB2 ∨ a = RS_PEND ∨ a = RS_PTMO ∨ a = TICK_LO ∨ a = TICK_HI ∨
      (VD_TMP ≤ a ∧ a ≤ VD_KPPRE) ∨ a = VD_CTRL ∨ a = BX_QUIESCENT ∨
      (STIC_CS ≤ a ∧ a < STIC_CS + 5) ∨ a = STIC_EXT}

/-- Those cells by address. -/
theorem netcode_cases {a : ℕ} (h : a ∈ NetcodeArea) :
    (0x28 ≤ a ∧ a ≤ 0x2C) ∨ a = 0x32 ∨ a = 0x102 ∨ (0x8093 ≤ a ∧ a ≤ 0x8094) ∨
      (0x80C2 ≤ a ∧ a ≤ 0x80C7) ∨ (0x8108 ≤ a ∧ a ≤ 0x8109) ∨ (0x8114 ≤ a ∧ a ≤ 0x811E) ∨
      (0x8130 ≤ a ∧ a ≤ 0x8135) ∨ (0x8168 ≤ a ∧ a ≤ 0x816D) ∨ a = 0x8180 ∨
      (0x8182 ≤ a ∧ a ≤ 0x8183) ∨ (0x8187 ≤ a ∧ a ≤ 0x8188) ∨ (0x81A0 ≤ a ∧ a ≤ 0x81A8) ∨ a = 0x81AF ∨
      (0x8200 ≤ a ∧ a < 0x8380) ∨ (0x8400 ≤ a ∧ a < 0x8C20) ∨ (0x9C03 ≤ a ∧ a ≤ 0x9FFF) := by
  rcases h with ((((((hm | hr) | hf) | hw) | hp) | hm) | hc) | ho
  · have : (0x8114 ≤ a ∧ a ≤ 0x811E) ∨ (0x8130 ≤ a ∧ a ≤ 0x8133) ∨ a = 0x8182 ∨ a = 0x8183 ∨
      (0x9C03 ≤ a ∧ a ≤ 0x9FFF) := hm
    omega
  · have : a = 0x8134 ∨ a = 0x8135 ∨ (0x8200 ≤ a ∧ a < 0x8300) := hr
    omega
  · have : a = 0x8180 ∨ (0x8300 ≤ a ∧ a < 0x8380) := hf
    omega
  · have : a = 0x816A ∨ a = 0x816B ∨ a = 0x0102 ∨ a = 0x816C ∨ a = 0x816D ∨ a = 0x8093 ∨
      a = 0x8094 := hw
    omega
  · have : 0x8400 ≤ a ∧ a < 0x8C00 := hp
    omega
  · have : 0x81A0 ≤ a ∧ a < 0x81A8 := hm
    omega
  · have : 0x8C00 ≤ a ∧ a < 0x8C20 := hc
    omega
  · have : a = 0x8168 ∨ a = 0x8169 ∨ a = 0x8187 ∨ a = 0x8188 ∨ a = 0x8108 ∨ a = 0x8109 ∨
      (0x80C2 ≤ a ∧ a ≤ 0x80C7) ∨ a = 0x81A8 ∨ a = 0x81AF ∨ (0x28 ≤ a ∧ a < 0x2D) ∨ a = 0x32 := ho
    omega

/-- The terminal screen's flag is not among them. -/
theorem screen_not_netcode : PEER_SCR ∉ NetcodeArea := by
  intro h
  have := netcode_cases h
  simp at this

/-- The pointers of a table that a dispatch reads are in the set; at 0 there is no table. -/
def TableIn (S : Set ℕ) (tbl : ℕ) : Prop := tbl = 0 ∨ ∀ k < 10, (tbl + k) % 65536 ∈ S

/-- A set of cells that a cartridge may compute with: the handler table with its parked copy and the native
countdowns are among them, and no cell that the netcode has for itself. -/
structure SharedCells (S : Set ℕ) : Prop where
  table : EXEC_HTBL ∈ S
  parked : GAME_TBL_LO ∈ S ∧ GAME_TBL_HI ∈ S
  countdowns : ∀ a, BX_CNT2_LO ≤ a → a ≤ BX_CNT4_HI → a ∈ S
  null : TableIn S NULL_TBL
  apart : ∀ a ∈ S, a ∉ NetcodeArea

/-- A cartridge that computes with the cells of `S` alone: what it leaves there is determined by what was
there, of the scan as long as the null table keeps it from the handlers; the tables it installs are there;
and its timer entries install none. -/
structure Replicates (g : Game) (S : Set ℕ) : Prop where
  handler : ∀ entry r0 r1 c c', Alike S c c' →
    Alike S (g.handler entry r0 r1 c) (g.handler entry r0 r1 c')
  tick1 : ∀ c c', Alike S c c' → Alike S (g.tick1 c) (g.tick1 c')
  native : ∀ c c', Alike S c c' → Alike S (g.native c) (g.native c')
  scan : ∀ c c', c.cell EXEC_HTBL = NULL_TBL → Alike S c c' → Alike S (g.scan c) (g.scan c')
  handler_table : ∀ entry r0 r1 c, TableIn S (c.cell EXEC_HTBL) →
    TableIn S ((g.handler entry r0 r1 c).cell EXEC_HTBL)
  tick1_table : ∀ c, TableIn S (c.cell EXEC_HTBL) → TableIn S ((g.tick1 c).cell EXEC_HTBL)
  native_null : ∀ c, c.cell EXEC_HTBL = NULL_TBL → (g.native c).cell EXEC_HTBL = NULL_TBL

/-- A cartridge that does to the cells of `S` what `g` does, whatever it does to others, such as those of
the pads. -/
structure ActsAs (S : Set ℕ) (g g' : Game) : Prop where
  handler : ∀ entry r0 r1 c, Alike S (g.handler entry r0 r1 c) (g'.handler entry r0 r1 c)
  tick1 : ∀ c, Alike S (g.tick1 c) (g'.tick1 c)
  native : ∀ c, Alike S (g.native c) (g'.native c)
  scan : ∀ c, c.cell EXEC_HTBL = NULL_TBL → Alike S (g.scan c) (g'.scan c)

theorem ActsAs.refl (S : Set ℕ) (g : Game) : ActsAs S g g :=
  ⟨fun _ _ _ _ _ _ => rfl, fun _ _ _ => rfl, fun _ _ _ => rfl, fun _ _ _ _ => rfl⟩

/-- The live table of a machine and the parked one are in the set. -/
structure Tabled (S : Set ℕ) (c : Cpu) : Prop where
  live : TableIn S (c.cell EXEC_HTBL)
  parked : TableIn S (word c GAME_TBL_LO GAME_TBL_HI)

/-! ### A game without a network -/

/-- The events of a seat.
SOURCE: vdispatch.asm:379-482 -/
def playSeat (g : Game) (seat : ℕ) (x : Cells) (c : Cpu) : Cpu :=
  (virtualEvents x).foldl (callEvent g) (c.sto VD_CTRL seat)

/-- One tick on the inputs of two seats: their events through the table of the game, the slot-0 body, and
the null table for the scan.
SOURCE: lockstep.asm:259-294 -/
def localTick (g : Game) (x : Cells × Cells) (c : Cpu) : Cpu :=
  let c := installTable (LS_TBL_ADOPT c)
  (LS_TBL_ADOPT (BX_GAME_TICK g (playSeat g 1 x.2 (playSeat g 0 x.1 c)))).sto EXEC_HTBL NULL_TBL

/-- The game after some ticks, each followed by the timer entries and the scan. -/
def localGame (g : Game) (c : Cpu) (xs : ℕ → Cells × Cells) : ℕ → Cpu
  | 0 => c
  | n + 1 => g.scan (g.native (localTick g (xs n) (localGame g c xs n)))

/-- It depends on the inputs so far. -/
theorem localGame_congr (g : Game) (c : Cpu) {xs ys : ℕ → Cells × Cells} {n : ℕ}
    (h : ∀ k < n, ys k = xs k) : localGame g c ys n = localGame g c xs n := by
  induction n with
  | zero => rfl
  | succ n ih =>
    unfold localGame
    rw [h n (Nat.lt_succ_self n), ih fun k hk => h k (Nat.lt_succ_of_lt hk)]

/-! ### Machines that are alike -/

section Alike

variable {S : Set ℕ} {g g' : Game} {c c' d x x' : Cpu}

/-- What the netcode stores in its own cells does not matter. -/
theorem Alike.frame (h : Alike S c c') (hs : SharedCells S) (hf : Frame NetcodeArea c' d) :
    Alike S c d := fun a ha => (hf.cell_eq (hs.apart a ha)).trans (h a ha)

/-- The copy of a cell of the set. -/
theorem Alike.mirror (h : Alike S x x') (h' : Alike S c c') (a : ℕ) {b : ℕ} (hb : b ∈ S) :
    Alike S (x.sto a (c.cell b)) (x'.sto a (c'.cell b)) := by
  rw [h' b hb]
  exact h.sto a _

/-- What machines that are alike have a checksum of. -/
theorem Alike.sum (h : Alike S c c') (hs : ∀ a ∈ cksumCells, a ∈ S) : LS_CKSUM c' = LS_CKSUM c := by
  have hfold : ∀ (l : List ℕ) (acc : ℕ), (∀ a ∈ l, a ∈ S) →
      l.foldl (fun acc a => rotateAdd acc (c'.cell a)) acc =
        l.foldl (fun acc a => rotateAdd acc (c.cell a)) acc := by
    intro l
    induction l with
    | nil =>
      intro acc _
      rfl
    | cons a l ih =>
      intro acc hl
      rw [List.foldl_cons, List.foldl_cons, h a (hl a List.mem_cons_self)]
      exact ih _ fun b hb => hl b (List.mem_cons_of_mem _ hb)
  exact hfold cksumCells 0 hs

/-! ### Tables -/

/-- The pointers of a table that is one are in the set. -/
theorem TableIn.pointer {tbl k : ℕ} (h : TableIn S tbl) (hne : tbl ≠ 0) (hk : k < 10) :
    (tbl + k) % 65536 ∈ S := h.resolve_left hne k hk

/-- Machines that are alike park the same table. -/
theorem Alike.adopt (h : Alike S c c') (hs : SharedCells S) :
    Alike S (LS_TBL_ADOPT c) (LS_TBL_ADOPT c') := by
  have htable := h _ hs.table
  unfold LS_TBL_ADOPT
  rw [htable]
  simp only
  split
  · exact h
  · exact (h.sto _ _).sto _ _

/-- And install the same. -/
theorem Alike.install (h : Alike S c c') (hs : SharedCells S) :
    Alike S (installTable c) (installTable c') := by
  have hword : word c' GAME_TBL_LO GAME_TBL_HI = word c GAME_TBL_LO GAME_TBL_HI := by
    unfold word
    rw [h _ hs.parked.1, h _ hs.parked.2]
  unfold installTable
  rw [hword]
  simp only
  split
  · exact h
  · exact h.sto _ _

/-- Whatever leaves the parked table alone and the live one in the set. -/
theorem Tabled.congr (h : Tabled S c) (hlive : TableIn S (c'.cell EXEC_HTBL))
    (hlo : c'.cell GAME_TBL_LO = c.cell GAME_TBL_LO) (hhi : c'.cell GAME_TBL_HI = c.cell GAME_TBL_HI) :
    Tabled S c' := by
  refine ⟨hlive, ?_⟩
  unfold word
  rw [hlo, hhi]
  exact h.parked

/-- Parking a table keeps both in the set. -/
theorem Tabled.adopt (h : Tabled S c) : Tabled S (LS_TBL_ADOPT c) := by
  have hlt : c.cell EXEC_HTBL < 65536 := c.cell_lt_word _
  unfold LS_TBL_ADOPT
  simp only
  split
  · exact h
  · have hword : word ((c.sto GAME_TBL_LO (c.cell EXEC_HTBL)).sto GAME_TBL_HI
        (swap (c.cell EXEC_HTBL))) GAME_TBL_LO GAME_TBL_HI = c.cell EXEC_HTBL := by
      unfold word
      simp only [Cpu.sto_cell, if_true, if_neg (show GAME_TBL_LO ≠ GAME_TBL_HI by decide)]
      rw [cellWidth_cart (by decide) (by decide), cellWidth_cart (by decide) (by decide)]
      unfold swap
      omega
    constructor
    · rw [Cpu.sto_cell, if_neg (by decide), Cpu.sto_cell, if_neg (by decide)]
      exact h.live
    · rw [hword]
      exact h.live

/-- So does installing it. -/
theorem Tabled.install (h : Tabled S c) : Tabled S (installTable c) := by
  have hlt : word c GAME_TBL_LO GAME_TBL_HI < 65536 := Nat.mod_lt _ (by decide)
  unfold installTable
  simp only
  split
  · exact h
  · refine h.congr ?_ rfl rfl
    have hmod : word c GAME_TBL_LO GAME_TBL_HI % 2 ^ 16 = word c GAME_TBL_LO GAME_TBL_HI :=
      Nat.mod_eq_of_lt hlt
    rw [Cpu.sto_cell, if_pos rfl, cellWidth_system (by decide) (by decide), hmod]
    exact h.parked

/-- The cartridge does not reach the parked table, the seat of a dispatch or the terminal screen's flag. -/
theorem kept_game (h : GameFrame c c') {a : ℕ}
    (ha : a = GAME_TBL_LO ∨ a = GAME_TBL_HI ∨ a = VD_CTRL ∨ a = PEER_SCR) : c'.cell a = c.cell a := by
  apply (Frame.ofGame h).cell_eq
  rcases ha with rfl | rfl | rfl | rfl <;> simp [GameArea]

/-! ### Events -/

/-- An event calls a handler, or there is none. -/
theorem callEvent_cases (g : Game) (c : Cpu) (e : VirtualEvent) :
    callEvent g c e = c.sto VD_TMP e.slot ∨
      ∃ entry, callEvent g c e = g.handler entry e.value (c.cell VD_CTRL) (c.sto VD_TMP e.slot) := by
  unfold callEvent LS_VCALL
  simp only
  split
  · exact Or.inl rfl
  split
  · exact Or.inl rfl
  · exact Or.inr ⟨_, rfl⟩

/-- An event keeps the tables in the set, and the seat. -/
theorem Tabled.call (h : Tabled S c) (hg : Replicates g S) (e : VirtualEvent) :
    Tabled S (callEvent g c e) ∧ (callEvent g c e).cell VD_CTRL = c.cell VD_CTRL := by
  have htmp : Tabled S (c.sto VD_TMP e.slot) := ⟨h.live, h.parked⟩
  rcases callEvent_cases g c e with heq | ⟨entry, heq⟩
  · rw [heq]
    exact ⟨htmp, rfl⟩
  · have hf := g.handler_frame entry e.value (c.cell VD_CTRL) (c.sto VD_TMP e.slot)
    rw [heq, kept_game hf (a := VD_CTRL) (by simp)]
    refine ⟨htmp.congr (hg.handler_table _ _ _ _ htmp.live) ?_ ?_, rfl⟩
    · exact kept_game hf (by simp)
    · exact kept_game hf (by simp)

theorem Tabled.calls (h : Tabled S c) (hg : Replicates g S) (es : List VirtualEvent) :
    Tabled S (es.foldl (callEvent g) c) := by
  induction es generalizing c with
  | nil => exact h
  | cons e es ih => exact ih (h.call hg e).1

/-- Machines that are alike, for the same seat, handle an event alike. -/
theorem Alike.call (h : Alike S c c') (hg : Replicates g S) (ha : ActsAs S g g') (hs : SharedCells S)
    (ht : Tabled S c) (hseat : c'.cell VD_CTRL = c.cell VD_CTRL) {e : VirtualEvent} (he : e.slot ≤ 8) :
    Alike S (callEvent g c e) (callEvent g' c' e) ∧
      (callEvent g' c' e).cell VD_CTRL = (callEvent g c e).cell VD_CTRL := by
  have htmp : Alike S (c.sto VD_TMP e.slot) (c'.sto VD_TMP e.slot) := h.sto _ _
  have hslot : ∀ y : Cpu, (y.sto VD_TMP e.slot).cell VD_TMP = e.slot := by
    intro y
    rw [Cpu.sto_cell, if_pos rfl, cellWidth_cart (by decide) (by decide)]
    omega
  have htable : ∀ y : Cpu, (y.sto VD_TMP e.slot).cell EXEC_HTBL = y.cell EXEC_HTBL := fun _ => rfl
  have hctrl : ∀ y : Cpu, (y.sto VD_TMP e.slot).cell VD_CTRL = y.cell VD_CTRL := fun _ => rfl
  unfold callEvent LS_VCALL
  simp only [hslot, htable, hctrl, hseat, h _ hs.table]
  by_cases hzero : c.cell EXEC_HTBL = 0
  · rw [if_pos hzero, if_pos hzero]
    exact ⟨htmp, hseat⟩
  have hlow := htmp _ (ht.live.pointer hzero (k := e.slot) (by omega))
  have hhigh := htmp _ (ht.live.pointer hzero (k := e.slot + 1) (by omega))
  rw [show (c.cell EXEC_HTBL + (e.slot + 1)) % 65536 =
    ((c.cell EXEC_HTBL + e.slot) % 65536 + 1) % 65536 by omega] at hhigh
  rw [if_neg hzero, if_neg hzero, hlow, hhigh]
  split
  · exact ⟨htmp, hseat⟩
  · refine ⟨(hg.handler _ _ _ _ _ htmp).trans (ha.handler _ _ _ _), ?_⟩
    rw [kept_game (g'.handler_frame _ _ _ _) (by simp), kept_game (g.handler_frame _ _ _ _) (by simp)]
    exact hseat

/-- All events of four cells. -/
theorem Alike.calls (h : Alike S c c') (hg : Replicates g S) (ha : ActsAs S g g') (hs : SharedCells S)
    (ht : Tabled S c) (hseat : c'.cell VD_CTRL = c.cell VD_CTRL) {es : List VirtualEvent}
    (he : ∀ e ∈ es, e.slot ≤ 8) : Alike S (es.foldl (callEvent g) c) (es.foldl (callEvent g') c') := by
  induction es generalizing c c' with
  | nil => exact h
  | cons e es ih =>
    obtain ⟨hcall, hseats⟩ := h.call hg ha hs ht hseat (he e List.mem_cons_self)
    exact ih hcall (ht.call hg e).1 hseats fun y hy => he y (List.mem_cons_of_mem _ hy)

/-! ### Ticks -/

/-- The cells of the gate are the netcode's. -/
theorem wait_netcode : WaitArea ⊆ NetcodeArea := fun _ h => Or.inl (Or.inl (Or.inl (Or.inl (Or.inr h))))
theorem pump_netcode : PumpArea ⊆ NetcodeArea := fun _ h => Or.inl (Or.inl (Or.inl (Or.inl (Or.inl h))))
theorem rings_netcode : RingPages ⊆ NetcodeArea := fun _ h => Or.inl (Or.inl (Or.inl (Or.inr h)))
theorem watermarks_netcode : Watermarks ⊆ NetcodeArea := fun _ h => Or.inl (Or.inl (Or.inr h))
theorem records_netcode : CrcRecords ⊆ NetcodeArea := fun _ h => Or.inl (Or.inr h)
theorem mailbox_netcode : MailboxArea ⊆ NetcodeArea := fun _ h => pump_netcode (Or.inl (Or.inl h))

/-- A dispatch plays the events of the cells it reads. -/
theorem Alike.dispatch (h : Alike S c c') (hg : Replicates g S) (ha : ActsAs S g g')
    (hs : SharedCells S) (ht : Tabled S c) (seat : ℕ) :
    Alike S (playSeat g seat (dispatchCells (loadCells (selectSeat c' seat))) c)
      (LS_VDISPATCH g' (selectSeat c' seat)) := by
  have hside : Frame NetcodeArea c' (c'.sto VD_SIDE seat) := (Frame.refl _ c').sto (Or.inr (by simp))
  have hload : Frame NetcodeArea (selectSeat c' seat) (loadCells (selectSeat c' seat)) := by
    unfold loadCells
    refine ((((Frame.refl _ _).sto ?_).sto ?_).sto ?_).sto ?_ <;> exact Or.inr (by simp)
  have halike : Alike S (c.sto VD_CTRL seat) (loadCells (selectSeat c' seat)) :=
    ((h.frame hs hside).sto VD_CTRL seat).frame hs hload
  have hseat : (loadCells (selectSeat c' seat)).cell VD_CTRL = (c.sto VD_CTRL seat).cell VD_CTRL := by
    simp [loadCells, selectSeat]
  rw [LS_VDISPATCH_eq]
  exact halike.calls hg ha hs ⟨ht.live, ht.parked⟩ hseat fun e he => slot_le he

/-- The events of a seat keep the tables in the set. -/
theorem Tabled.seat (h : Tabled S c) (hg : Replicates g S) (seat : ℕ) (y : Cells) :
    Tabled S (playSeat g seat y c) := by
  have hctrl : Tabled S (c.sto VD_CTRL seat) := ⟨h.live, h.parked⟩
  exact hctrl.calls hg _

/-- The slot-0 body and the mirrors. -/
theorem Alike.gameTick (h : Alike S c c') (hg : Replicates g S) (ha : ActsAs S g g')
    (hs : SharedCells S) : Alike S (BX_GAME_TICK g c) (BX_GAME_TICK g' c') := by
  have hcount : ∀ a, BX_CNT2_LO ≤ a → a ≤ BX_CNT4_HI → a ∈ S := hs.countdowns
  have hplay := (hg.tick1 _ _ h).trans (ha.tick1 _)
  unfold BX_GAME_TICK
  extract_lets t t2 t3 t4 u u2 u3 u4
  have h2 : Alike S t2 u2 := (hplay.mirror hplay _ (hcount _ (by decide) (by decide))).mirror hplay _
    (hcount _ (by decide) (by decide))
  have h3 : Alike S t3 u3 := (h2.mirror h2 _ (hcount _ (by decide) (by decide))).mirror h2 _
    (hcount _ (by decide) (by decide))
  have h4 : Alike S t4 u4 := (h3.mirror h3 _ (hcount _ (by decide) (by decide))).mirror h3 _
    (hcount _ (by decide) (by decide))
  -- the flag is the netcode's
  have hflag : BX_QUIESCENT ∈ NetcodeArea := Or.inr (by simp)
  have hleft : Alike S t4 (t4.sto BX_QUIESCENT (if t4.cell BX_MATCHOVER = 0 then 0 else 1)) :=
    Alike.frame (fun _ _ => rfl) hs ((Frame.refl _ t4).sto hflag)
  exact (hleft.symm.trans h4).frame hs ((Frame.refl _ u4).sto hflag)

theorem Tabled.gameTick (h : Tabled S c) (hg : Replicates g S) : Tabled S (BX_GAME_TICK g c) := by
  have hsame : ∀ a, a = EXEC_HTBL ∨ a = GAME_TBL_LO ∨ a = GAME_TBL_HI →
      (BX_GAME_TICK g c).cell a = (g.tick1 c).cell a := by
    intro a ha
    rcases ha with rfl | rfl | rfl <;> simp [BX_GAME_TICK]
  have hf := g.tick1_frame c
  refine h.congr ?_ ?_ ?_
  · rw [hsame _ (by simp)]
    exact hg.tick1_table c h.live
  · rw [hsame _ (by simp), kept_game hf (by simp)]
  · rw [hsame _ (by simp), kept_game hf (by simp)]

/-- Two dispatches and the slot-0 body do what a local tick does on the inputs the two read. -/
theorem Alike.ticked (h : Alike S c c') (hg : Replicates g S) (ha : ActsAs S g g') (hs : SharedCells S)
    (ht : Tabled S c) {s0 s1 : Cpu} (h0 : s0 = selectSeat (installTable (LS_TBL_ADOPT c')) 0)
    (h1 : s1 = selectSeat (LS_VDISPATCH g' s0) 1) :
    Alike S (localTick g (dispatchCells (loadCells s0), dispatchCells (loadCells s1)) c)
      ((LS_TBL_ADOPT (BX_GAME_TICK g' (LS_VDISPATCH g' s1))).sto EXEC_HTBL NULL_TBL) := by
  subst h1 h0
  have hinstall := (h.adopt hs).install hs
  have htable : Tabled S (installTable (LS_TBL_ADOPT c)) := ht.adopt.install
  have hfirst := hinstall.dispatch hg ha hs htable 0
  have hsecond := hfirst.dispatch hg ha hs (htable.seat hg 0 _) 1
  exact ((hsecond.gameTick hg ha hs).adopt hs).sto _ _

/-- So a tick of the netcode, up to its report, is one. -/
theorem alike_tick (h : Alike S c c') (hg : Replicates g S) (ha : ActsAs S g g') (hs : SharedCells S)
    (ht : Tabled S c) :
    Alike S (localTick g (dispatchCells (loadCells (runTick g' c').atSeat0),
        dispatchCells (loadCells (runTick g' c').atSeat1)) c)
      ((LS_TBL_ADOPT (BX_GAME_TICK g' (LS_VDISPATCH g' (runTick g' c').atSeat1))).sto EXEC_HTBL
        NULL_TBL) := by
  have hthaw : Alike S c (unfreeze c') := h.frame hs ((frame_unfreeze c').mono wait_netcode)
  exact hthaw.ticked hg ha hs ht rfl rfl

/-- A local tick ends with the null table. -/
theorem localTick_null (g : Game) (y : Cells × Cells) (c : Cpu) :
    (localTick g y c).cell EXEC_HTBL = NULL_TBL := by
  unfold localTick
  rw [Cpu.sto_cell, if_pos rfl, cellWidth_system (by decide) (by decide)]
  rfl

theorem Tabled.ticked (h : Tabled S c) (hg : Replicates g S) (hs : SharedCells S)
    (y : Cells × Cells) : Tabled S (localTick g y c) := by
  have htick := (((h.adopt.install.seat hg 0 y.1).seat hg 1 y.2).gameTick hg).adopt
  refine htick.congr ?_ rfl rfl
  rw [localTick_null]
  exact hs.null

/-- The tables stay in the set, tick after tick. -/
theorem Tabled.ran (h : Tabled S c) (hg : Replicates g S) (hs : SharedCells S)
    (xs : ℕ → Cells × Cells) (n : ℕ) : Tabled S (localGame g c xs n) := by
  induction n with
  | zero => exact h
  | succ n ih =>
    have htick := ih.ticked hg hs (xs n)
    have hnull := hg.native_null _ (localTick_null g (xs n) (localGame g c xs n))
    have hnative : Tabled S (g.native _) := htick.congr (by rw [hnull]; exact hs.null)
      (kept_game (g.native_frame _) (by simp)) (kept_game (g.native_frame _) (by simp))
    refine hnative.congr ?_ (kept_game (g.scan_frame _) (by simp)) (kept_game (g.scan_frame _) (by simp))
    unfold localGame
    rw [g.scan_null _ hnull]
    exact hs.null

end Alike

/-! ### What the netcode leaves alone -/

section Netcode

variable {c c' : Cpu}

/-- The frame in the buffer is an INPUT of one of the four seats, a report or a request. -/
def PlainFrame (c : Cpu) : Prop :=
  (c.cell (FRMBUF + 1) = FT_INPUT ∧ c.cell (FRMBUF + 2) ≤ 3) ∨ c.cell (FRMBUF + 1) = FT_CRC ∨
    c.cell (FRMBUF + 1) = FT_RESYNC

/-- Handling it stores to the netcode's own cells. -/
theorem PlainFrame.frame (h : PlainFrame c) : Frame NetcodeArea c (SES_ONFRAME c) := by
  have hother : ∀ ty, ty ≠ FT_INPUT → ty ≠ FT_CRC → ty ≠ FT_RESYNC → c.cell (FRMBUF + 1) ≠ ty := by
    intro ty h1 h2 h3 heq
    rcases h with ⟨h, -⟩ | h | h
    · exact h1 (heq.symm.trans h)
    · exact h2 (heq.symm.trans h)
    · exact h3 (heq.symm.trans h)
  have hflags : ({a | a = RS_PEND ∨ a = RS_PTMO} : Set ℕ) ⊆ NetcodeArea := by
    rintro a (rfl | rfl) <;> exact Or.inr (by simp)
  apply SES_ONFRAME_rule (P := Frame NetcodeArea c)
  · intro hin
    refine (frame_of_input c fun _ => ?_).mono ?_
    · rcases h with ⟨-, h⟩ | h | h
      · exact h
      · rw [hin] at h
        cases h
      · rw [hin] at h
        cases h
    · exact Set.union_subset rings_netcode watermarks_netcode
  · exact fun hty => absurd hty (hother _ (by decide) (by decide) (by decide))
  · exact fun hty => absurd hty (hother _ (by decide) (by decide) (by decide))
  · exact fun hty => absurd hty (hother _ (by decide) (by decide) (by decide))
  · exact fun hty => absurd hty (hother _ (by decide) (by decide) (by decide))
  · exact fun _ => (frame_RS_ON_CRC c).mono (Set.union_subset hflags mailbox_netcode)
  · exact fun hty => absurd hty (hother _ (by decide) (by decide) (by decide))
  · exact fun _ => (frame_RS_ON_REQ c).mono hflags
  · exact Frame.refl _ c

/-- So does a pump that hands on such frames. -/
theorem Handles.netcode {ds : List Cpu} (h : Handles SES_ONFRAME c ds c') (hd : ∀ d ∈ ds, PlainFrame d) :
    Frame NetcodeArea c c' := by
  refine h.preserves (P := Frame NetcodeArea c) (fun hm hf => ?_) (fun d hmem hf => ?_) (Frame.refl _ c)
  · exact hf.trans (hm.frame.mono pump_netcode)
  · exact hf.trans (hd d hmem).frame

/-- And a capture. -/
theorem capture_netcode (h : c.cell NET_SEAT ≤ 3) : Frame NetcodeArea c (captureSend c) := by
  refine (captured c h).frame.mono ?_
  rintro a ((ha | ha) | ha)
  · exact rings_netcode ha
  · refine Or.inr ?_
    rcases ha with rfl | rfl <;> simp
  · exact mailbox_netcode ha

/-- And the display, before a report. -/
theorem reset_netcode (c : Cpu) : Frame NetcodeArea c (RS_DISPLAY_RESET c) := by
  refine ((Frame.refl _ c).sto (Or.inr (by simp))).copy fun a h1 h2 => Or.inr ?_
  simp only [Set.mem_ofPred_eq]
  omega

/-- And the report. -/
theorem report_netcode (c : Cpu) : Frame NetcodeArea c (crcReport c) := by
  unfold crcReport
  extract_lets c1 sum c2
  refine Frame.ite (fun _ => Frame.refl _ c) fun _ => ?_
  refine Frame.trans ?_ ((frame_sendFrame _ _ (by simp)).mono mailbox_netcode)
  refine Frame.trans ?_ ((frame_RS_RECORD_CRC _).mono records_netcode)
  refine ((reset_netcode c).sto ?_).sto ?_ <;> exact Or.inr (by simp)

/-- And the tick counter. -/
theorem count_netcode (c : Cpu) : Frame NetcodeArea c (countUp c TICK_LO TICK_HI) := by
  refine (frame_countUp c TICK_LO TICK_HI).mono ?_
  rintro a (rfl | rfl) <;> exact Or.inr (by simp)

end Netcode

end BoxingNetplay.Interface
