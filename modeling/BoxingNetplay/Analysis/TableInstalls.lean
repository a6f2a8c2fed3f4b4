import BoxingNetplay.Analysis.MatchFrames
import BoxingNetplay.Interface.Dispatch

/-!
# Handler-table installs

Code of the cartridge and the EXEC install a table of event handlers by storing its address at
`$035D`.  The netcode parks that address each tick, puts the null table in its place, and puts it
back for the next tick.  An observer who only watches the stores remembers the last one; whenever
`LS_VCALL` calls a handler, it is one of the table he remembers.
-/

set_option autoImplicit false

namespace BoxingNetplay.Analysis.TableInstalls

open BoxingNetplay.Library
open BoxingNetplay.Model
open BoxingNetplay.Interface
open BoxingNetplay.Analysis.MatchFrames

/-! ### Installs -/

/-- The addresses stored to between two machines, newest first. -/
def storesSince (c c' : Cpu) : List ℕ := c'.mem.stores.take (c'.mem.stores.length - c.mem.stores.length)

/-- The table installed last, after code has run. -/
def installedAfter (last : ℕ) (c c' : Cpu) : ℕ :=
  if EXEC_HTBL ∈ storesSince c c' then c'.cell EXEC_HTBL else last

/-- The ROM words of the null table.
SOURCE: hook.asm:129-135 -/
def NullTable : Set ℕ := {a | NULL_TBL - 4 ≤ a ∧ a < NULL_TBL + 16}

/-- What code of the cartridge or the EXEC does on one occasion: it may install any table but the null
table, and does not change ROM. -/
structure Installs (c c' : Cpu) : Prop where
  game : GameFrame c c'
  table : EXEC_HTBL ∈ storesSince c c' → c'.cell EXEC_HTBL ≠ NULL_TBL
  rom : ∀ a ∈ NullTable, c'.cell a = c.cell a

/-- A cartridge all of whose code is such. -/
structure Installer (g : Game) : Prop where
  handler : ∀ entry r0 r1 c, Installs c (g.handler entry r0 r1 c)
  tick1 : ∀ c, Installs c (g.tick1 c)
  native : ∀ c, Installs c (g.native c)
  scan : ∀ c, Installs c (g.scan c)

/-! ### Observed ticks -/

/-- A call of `LS_VCALL`: the machine, the value in `R0`, and the table installed last. -/
structure VCall where
  cpu : Cpu
  value : ℕ
  last : ℕ

/-- The machine, the table installed last, and the calls so far. -/
structure Observed where
  cpu : Cpu
  last : ℕ
  calls : List VCall

namespace Observed

/-- The netcode runs. -/
def netcode (s : Observed) (f : Cpu → Cpu) : Observed := { s with cpu := f s.cpu }

/-- Code of the cartridge runs. -/
def code (s : Observed) (f : Cpu → Cpu) : Observed :=
  { s with cpu := f s.cpu, last := installedAfter s.last s.cpu (f s.cpu) }

/-- An event is called.
SOURCE: vdispatch.asm:500-524 -/
def call (g : Game) (s : Observed) (e : VirtualEvent) : Observed :=
  let d := s.cpu.sto VD_TMP e.slot
  ⟨LS_VCALL g d e.value, installedAfter s.last d (LS_VCALL g d e.value), s.calls ++ [⟨d, e.value, s.last⟩]⟩

/-- A seat is dispatched.
SOURCE: vdispatch.asm:379-482 -/
def dispatch (g : Game) (s : Observed) : Observed :=
  let s := s.netcode loadCells
  (virtualEvents (dispatchCells s.cpu)).foldl (call g) s

/-- What the game tick does after the original body.
SOURCE: hook.asm:233-262 -/
def mirrors (c : Cpu) : Cpu :=
  let c := (c.sto SC_CNT2 (c.cell BX_CNT2_LO)).sto SC_CNT3 (c.cell BX_CNT2_HI)
  let c := (c.sto SC_CNT4 (c.cell BX_CNT3_LO)).sto SC_CNT5 (c.cell BX_CNT3_HI)
  let c := (c.sto SC_CNT6 (c.cell BX_CNT4_LO)).sto SC_CNT7 (c.cell BX_CNT4_HI)
  c.sto BX_QUIESCENT (if c.cell BX_MATCHOVER = 0 then 0 else 1)

/-- A tick runs.
SOURCE: lockstep.asm:247-349 -/
def tick (g : Game) (s : Observed) : Observed :=
  let s := s.netcode fun c => selectSeat (installTable (LS_TBL_ADOPT (unfreeze c))) 0
  let s := (s.dispatch g).netcode fun c => selectSeat c 1
  let s := ((s.dispatch g).code g.tick1).netcode mirrors
  s.netcode fun c =>
    RS_PENDING (countUp (crcReport ((LS_TBL_ADOPT c).sto EXEC_HTBL NULL_TBL)) TICK_LO TICK_HI)

end Observed

/-! ### Runs -/

/-- A call through the table at `tbl`.
SOURCE: vdispatch.asm:500-524 -/
def callThrough (g : Game) (tbl : ℕ) (c : Cpu) (r0 : ℕ) : Cpu :=
  if tbl = 0 then c
  else
    let r4 := (tbl + c.cell VD_TMP) % 65536
    let entry := c.cell r4 % 256 + c.cell ((r4 + 1) % 65536) % 256 * 256
    if entry = 0 then c else g.handler entry r0 (c.cell VD_CTRL) c

/-- A call reaches the handler that the table installed last lists, if that is a table. -/
structure Resolved (v : VCall) : Prop where
  live : v.last ≠ 0 → v.cpu.cell EXEC_HTBL = v.last
  call : ∀ g, LS_VCALL g v.cpu v.value = callThrough g v.last v.cpu v.value

/-! ### The pointer and its parking place -/

/-- The pointer, where it is parked, and the null table. -/
def TableCells : Set ℕ := {a | a = EXEC_HTBL ∨ a = GAME_TBL_LO ∨ a = GAME_TBL_HI} ∪ NullTable

theorem table_cases {a : ℕ} (h : a ∈ TableCells) :
    a = 0x035D ∨ a = 0x80C0 ∨ a = 0x80C1 ∨ (0x6033 ≤ a ∧ a < 0x6047) := by
  rcases h with (h | h | h) | h
  · exact Or.inl h
  · exact Or.inr (Or.inl h)
  · exact Or.inr (Or.inr (Or.inl h))
  · exact Or.inr (Or.inr (Or.inr h))

/-- The table installed last is live, or parked behind the null table. -/
structure TableInv (c : Cpu) (last : ℕ) : Prop where
  parked : c.cell EXEC_HTBL = NULL_TBL → word c GAME_TBL_LO GAME_TBL_HI = last
  live : c.cell EXEC_HTBL ≠ NULL_TBL → c.cell EXEC_HTBL = last
  rom : ∀ a ∈ NullTable, c.cell a = 0

theorem TableInv.congr {c c' : Cpu} {last : ℕ} (inv : TableInv c last)
    (h : ∀ a ∈ TableCells, c'.cell a = c.cell a) : TableInv c' last := by
  have hptr : c'.cell EXEC_HTBL = c.cell EXEC_HTBL := h _ (Or.inl (Or.inl rfl))
  have hword : word c' GAME_TBL_LO GAME_TBL_HI = word c GAME_TBL_LO GAME_TBL_HI := by
    unfold word
    rw [h _ (Or.inl (Or.inr (Or.inl rfl))), h _ (Or.inl (Or.inr (Or.inr rfl)))]
  constructor
  · rw [hptr, hword]
    exact inv.parked
  · rw [hptr]
    exact inv.live
  · intro a ha
    rw [h a (Or.inr ha)]
    exact inv.rom a ha

/-- A frame beside those cells. -/
theorem TableInv.frame {c c' : Cpu} {last : ℕ} {A : Set ℕ} (inv : TableInv c last) (hf : Frame A c c')
    (hA : ∀ a ∈ TableCells, a ∉ A) : TableInv c' last := inv.congr fun a ha => hf.cell_eq (hA a ha)

/-- Code that stores nothing to the pointer leaves it, and the last install. -/
theorem installs_cases {c c' : Cpu} (last : ℕ) (h : Installs c c') :
    (installedAfter last c c' = last ∧ c'.cell EXEC_HTBL = c.cell EXEC_HTBL) ∨
      (installedAfter last c c' = c'.cell EXEC_HTBL ∧ c'.cell EXEC_HTBL ≠ NULL_TBL) := by
  obtain ⟨l, hl, -, hkeep⟩ := h.game.writes
  have hsince : storesSince c c' = l := by
    unfold storesSince
    rw [hl, List.length_append, Nat.add_sub_cancel]
    exact List.take_left
  unfold installedAfter
  by_cases hin : EXEC_HTBL ∈ storesSince c c'
  · rw [if_pos hin]
    exact Or.inr ⟨rfl, h.table hin⟩
  · rw [if_neg hin]
    rw [hsince] at hin
    exact Or.inl ⟨rfl, hkeep _ hin⟩

/-- Code that runs keeps the invariant. -/
theorem TableInv.installs {c c' : Cpu} {last : ℕ} (inv : TableInv c last) (h : Installs c c') :
    TableInv c' (installedAfter last c c') := by
  have hword : word c' GAME_TBL_LO GAME_TBL_HI = word c GAME_TBL_LO GAME_TBL_HI := by
    have hf := Frame.ofGame h.game
    unfold word
    rw [hf.cell_eq (by simp [GameArea]), hf.cell_eq (by simp [GameArea])]
  have hrom : ∀ a ∈ NullTable, c'.cell a = 0 := fun a ha => (h.rom a ha).trans (inv.rom a ha)
  rcases installs_cases last h with ⟨hlast, hptr⟩ | ⟨hlast, hptr⟩ <;> rw [hlast]
  · constructor
    · rw [hptr, hword]
      exact inv.parked
    · rw [hptr]
      exact inv.live
    · exact hrom
  · exact ⟨fun hnull => absurd hnull hptr, fun _ => rfl, hrom⟩

/-- Adopting parks the table installed last. -/
theorem TableInv.adopt {c : Cpu} {last : ℕ} (inv : TableInv c last) :
    TableInv (LS_TBL_ADOPT c) last ∧ word (LS_TBL_ADOPT c) GAME_TBL_LO GAME_TBL_HI = last := by
  unfold LS_TBL_ADOPT
  by_cases hnull : c.cell EXEC_HTBL = NULL_TBL
  · simp only [if_pos hnull]
    exact ⟨inv, inv.parked hnull⟩
  · have hlast := inv.live hnull
    have hlt : c.cell EXEC_HTBL < 65536 := c.cell_lt_word _
    simp only [if_neg hnull]
    have hword : word ((c.sto GAME_TBL_LO (c.cell EXEC_HTBL)).sto GAME_TBL_HI
        (swap (c.cell EXEC_HTBL))) GAME_TBL_LO GAME_TBL_HI = last := by
      rw [← hlast]
      generalize c.cell EXEC_HTBL = t at hlt ⊢
      simp [word, swap, cellWidth]
      omega
    refine ⟨⟨fun _ => hword, fun _ => ?_, fun a ha => ?_⟩, hword⟩
    · exact hlast
    · have hcases := table_cases (Or.inr ha)
      rw [Cpu.sto_cell, if_neg, Cpu.sto_cell, if_neg]
      · exact inv.rom a ha
      · obtain ⟨h1, h2⟩ := ha
        simp only [NULL_TBL, GAME_TBL_LO] at h1 h2 ⊢
        omega
      · obtain ⟨h1, h2⟩ := ha
        simp only [NULL_TBL, GAME_TBL_HI] at h1 h2 ⊢
        omega

/-- The table installed last is the live one, if it is a table. -/
structure Ready (c : Cpu) (last : ℕ) : Prop where
  inv : TableInv c last
  installed : last ≠ 0 → c.cell EXEC_HTBL = last

theorem Ready.congr {c c' : Cpu} {last : ℕ} (h : Ready c last)
    (heq : ∀ a ∈ TableCells, c'.cell a = c.cell a) : Ready c' last := by
  apply Ready.mk (h.inv.congr heq)
  intro hne
  rw [heq _ (Or.inl (Or.inl rfl))]
  exact h.installed hne

/-- What the code of the cartridge installs last is the one to find. -/
theorem Ready.installs {c c' : Cpu} {last : ℕ} (h : Ready c last) (hc : Installs c c') :
    Ready c' (installedAfter last c c') := by
  apply Ready.mk (h.inv.installs hc)
  rcases installs_cases last hc with ⟨hlast, hptr⟩ | ⟨hlast, -⟩ <;> rw [hlast]
  · rw [hptr]
    exact h.installed
  · exact fun _ => rfl

/-- When it is, a call goes through it. -/
theorem Ready.resolves {d : Cpu} {last : ℕ} (h : Ready d last) (hslot : d.cell VD_TMP ≤ 8) (r0 : ℕ) :
    Resolved ⟨d, r0, last⟩ := by
  apply Resolved.mk h.installed
  intro g
  unfold LS_VCALL callThrough
  simp only
  by_cases hzero : last = 0
  · rw [if_pos hzero]
    by_cases hnull : d.cell EXEC_HTBL = NULL_TBL
    · -- the null table lists no handler
      have hrom : ∀ i ≤ 9, d.cell ((NULL_TBL + i) % 65536) = 0 := by
        intro i hi
        rw [Nat.mod_eq_of_lt (by simp only [NULL_TBL]; omega)]
        exact h.inv.rom _ ⟨by simp only [NULL_TBL]; omega, by simp only [NULL_TBL]; omega⟩
      have hnext : ((NULL_TBL + d.cell VD_TMP) % 65536 + 1) % 65536 =
          (NULL_TBL + (d.cell VD_TMP + 1)) % 65536 := by omega
      rw [hnull, hnext, hrom _ (by omega), hrom _ (by omega)]
      simp
    · rw [h.inv.live hnull, if_pos hzero]
  · rw [h.installed hzero]

/-! ### Netcode beside the pointer -/

/-- A store elsewhere. -/
theorem sto_table {c : Cpu} {x v a : ℕ} (ha : a ∈ TableCells) (hx : x ∉ TableCells) :
    (c.sto x v).cell a = c.cell a := by
  rw [Cpu.sto_cell, if_neg]
  rintro rfl
  exact hx ha

/-- Reading the inputs stores to none of these cells. -/
theorem loadCells_table (c : Cpu) {a : ℕ} (ha : a ∈ TableCells) : (loadCells c).cell a = c.cell a := by
  unfold loadCells
  extract_lets rd
  rw [sto_table ha, sto_table ha, sto_table ha, sto_table ha] <;> simp [TableCells, NullTable]

/-- Of the netcode's areas only that of the applier has the pointer's parking place in it. -/
theorem table_apart {a : ℕ} (ha : a ∈ TableCells) : a ∉ MailboxArea ∧ a ∉ CrcRecords ∧ a ∉ RingPages ∧
    a ∉ Watermarks ∧ a ∉ DisplayArea ∧ a ∉ ResyncVars ∧ a ∉ WaitArea := by
  have hcases := table_cases ha
  refine ⟨?_, ?_, ?_, ?_, ?_, ?_, ?_⟩ <;> intro h
  · have hm : (0x8114 ≤ a ∧ a ≤ 0x811E) ∨ (0x8130 ≤ a ∧ a ≤ 0x8133) ∨ a = 0x8182 ∨ a = 0x8183 ∨
      (0x9C03 ≤ a ∧ a ≤ 0x9FFF) := h
    omega
  · have hm : 0x8C00 ≤ a ∧ a < 0x8C00 + 32 := h
    omega
  · have hm : 0x8400 ≤ a ∧ a < 0x8400 + 2048 := h
    omega
  · have hm : 0x81A0 ≤ a ∧ a < 0x81A0 + 8 := h
    omega
  · have hm : (0x28 ≤ a ∧ a < 0x28 + 5) ∨ a = 0x32 ∨ a = 0x100 ∨ a = 0x101 ∨ a = 0x1A8 ∨
      a = 0x1A8 + 1 ∨ (0x129 ≤ a ∧ a ≤ 0x12E) := h
    omega
  · have hm : (0x8090 ≤ a ∧ a ≤ 0x8098) ∨ a = 0x8181 ∨ a = 0x8187 ∨ a = 0x8188 ∨ a = 0x8108 ∨
      a = 0x8109 ∨ a = 0x816C ∨ a = 0x816D := h
    omega
  · have hm : a = 0x816A ∨ a = 0x816B ∨ a = 0x0102 ∨ a = 0x816C ∨ a = 0x816D ∨ a = 0x8093 ∨
      a = 0x8094 := h
    omega

/-- Apart from the image, no frame touches the pointer. -/
theorem handled_table {d : Cpu} (h : SeatsKept d) (happ : ¬ AppliesImage d) {a : ℕ} (ha : a ∈ TableCells) :
    (SES_ONFRAME d).cell a = d.cell a := by
  obtain ⟨hmail, hcrc, hrings, hmarks, hdisplay, hvars, -⟩ := table_apart ha
  have hcases := table_cases ha
  apply (frame_handled h).cell_eq
  rintro ((((((hm | hm) | hm) | hm) | ⟨-, hm⟩) | ⟨-, hm⟩) | ⟨hm, -⟩)
  · have hm' : a = 0x8187 ∨ a = 0x8188 ∨ a = 0x8098 ∨ a = 0x8181 := hm
    omega
  · rcases hm with (((hm | hm) | hm) | hm) | hm
    · have hm' : a = 0x8160 ∨ a = 0x819D ∨ a = 0x8106 ∨ a = 0x8107 ∨ a = 0x8161 ∨ a = 0x8108 ∨
        a = 0x8109 ∨ a = 0x8162 := hm
      omega
    · have hm' : 0x81C0 ≤ a ∧ a < 0x81C0 + 36 := hm
      omega
    · exact hrings hm
    · exact hmarks hm
    · exact hcrc hm
  · rcases hm with (hm | hm) | hm
    · have hm' : a = 0x8186 ∨ a = 0x8163 ∨ a = 0x81AC ∨ (0x81B0 ≤ a ∧ a < 0x81B0 + 9) := hm
      omega
    · exact hrings hm
    · exact hmarks hm
  · exact hmail hm
  · rcases hm with hm | hm
    · have hm' : a = 0x8090 ∨ a = 0x8093 ∨ a = 0x8094 ∨ a = 0x8091 ∨ a = 0x8092 := hm
      omega
    · exact hcrc hm
  · rcases hm with (((hm | hm) | hm) | hm) | hm
    · exact hdisplay hm
    · exact hvars hm
    · exact hrings hm
    · exact hmarks hm
    · exact hcrc hm
  · exact happ hm

/-- Nor does the pump around its dispatches. -/
theorem moves_table {c c' : Cpu} (hm : Moves c c') {a : ℕ} (ha : a ∈ TableCells) : c'.cell a = c.cell a := by
  have hcases := table_cases ha
  apply hm.frame.cell_eq
  rintro ((h | h) | h)
  · exact (table_apart ha).1 h
  · have hm' : a = 0x8134 ∨ a = 0x8135 ∨ (0x8200 ≤ a ∧ a < 0x8200 + 256) := h
    omega
  · have hm' : a = 0x8180 ∨ (0x8300 ≤ a ∧ a < 0x8300 + 128) := h
    omega

/-- Code that leaves the table alone installs none. -/
theorem installs_refl (c : Cpu) : Installs c c := by
  refine ⟨GameFrame.refl _, fun hin => ?_, fun _ _ => rfl⟩
  unfold storesSince at hin
  rw [Nat.sub_self] at hin
  cases hin

/-- A call runs a handler, or nothing. -/
theorem installs_call {g : Game} (hg : Installer g) (d : Cpu) (r0 : ℕ) : Installs d (LS_VCALL g d r0) := by
  unfold LS_VCALL
  extract_lets tbl r4 entry
  split
  · exact installs_refl d
  split
  · exact installs_refl d
  · exact hg.handler _ _ _ d

/-- Inside a tick: the table is live, and all calls so far went through theirs. -/
structure Watched (s : Observed) : Prop where
  ready : Ready s.cpu s.last
  calls : ∀ v ∈ s.calls, Resolved v

/-- Stores of the netcode elsewhere leave it so. -/
theorem Watched.netcode {s : Observed} (h : Watched s) {f : Cpu → Cpu}
    (hf : ∀ a ∈ TableCells, (f s.cpu).cell a = s.cpu.cell a) : Watched (s.netcode f) :=
  ⟨h.ready.congr hf, h.calls⟩

/-- An event keeps it. -/
theorem Watched.call {s : Observed} {g : Game} (h : Watched s) (hg : Installer g) {e : VirtualEvent}
    (he : e.slot ≤ 8) : Watched (s.call g e) := by
  have hd : Ready (s.cpu.sto VD_TMP e.slot) s.last := by
    apply h.ready.congr
    intro a ha
    exact sto_table ha (by simp [TableCells, NullTable])
  have hslot : (s.cpu.sto VD_TMP e.slot).cell VD_TMP ≤ 8 := by
    rw [Cpu.sto_cell, if_pos rfl]
    exact (Nat.mod_le _ _).trans he
  apply Watched.mk
  · exact hd.installs (installs_call hg _ _)
  · intro v hv
    unfold Observed.call at hv
    rw [List.mem_append, List.mem_singleton] at hv
    rcases hv with hv | rfl
    · exact h.calls v hv
    · exact hd.resolves hslot e.value

/-- A dispatch keeps it. -/
theorem Watched.dispatch {s : Observed} {g : Game} (h : Watched s) (hg : Installer g) :
    Watched (s.dispatch g) := by
  have hcalls : ∀ (es : List VirtualEvent) (s : Observed), (∀ e ∈ es, e.slot ≤ 8) → Watched s →
      Watched (es.foldl (Observed.call g) s) := by
    intro es
    induction es with
    | nil => exact fun _ _ h => h
    | cons e es ih =>
      intro s hes hs
      exact ih _ (fun e' he' => hes e' (List.mem_cons_of_mem _ he'))
        (hs.call hg (hes e List.mem_cons_self))
  unfold Observed.dispatch
  apply hcalls
  · intro e he
    exact slot_le he
  · exact h.netcode fun a ha => loadCells_table _ ha

/-- A pump without an image keeps the table. -/
theorem TableInv.pump {c c' : Cpu} {ds : List Cpu} {last : ℕ} (inv : TableInv c last) (hseats : SeatsKept c)
    (hp : Handles SES_ONFRAME c ds c') (hs : ∀ d ∈ ds, RelayStart d ∧ ¬ AppliesImage d) :
    TableInv c' last := by
  suffices key : SeatsKept c' ∧ TableInv c' last from key.2
  apply hp.preserves (P := fun x => SeatsKept x ∧ TableInv x last) _ _ ⟨hseats, inv⟩
  · rintro d d' hm ⟨hk, hi⟩
    exact ⟨seats_moves hm hk, hi.congr fun a ha => moves_table hm ha⟩
  · rintro d hd ⟨hk, hi⟩
    exact ⟨seats_frame hk (hs d hd).1, hi.congr fun a ha => handled_table hk (hs d hd).2 ha⟩

end BoxingNetplay.Analysis.TableInstalls
