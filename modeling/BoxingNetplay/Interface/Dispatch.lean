import BoxingNetplay.Interface.Pass

/-!
# The events of a virtual dispatch

A dispatch reads four ring cells of a seat and makes of them at most three events, each one call of
`LS_VCALL`.  No handler reaches the cells the events are made of, so that the events are settled
when the cells are read.
-/

set_option autoImplicit false

namespace BoxingNetplay.Interface

open BoxingNetplay.Library
open BoxingNetplay.Model

/-- An event: the offset of its handler's pointer in the table, and the value in `R0`. -/
structure VirtualEvent where
  slot : ℕ
  value : ℕ
  deriving DecidableEq, Repr

/-- The ring cells of the seat in `VD_SIDE`, read into the dispatch cells.
SOURCE: vdispatch.asm:381-411 -/
def loadCells (c : Cpu) : Cpu :=
  let rd := VD_READ c
  (((c.sto VD_CUR rd.cur).sto VD_PREV rd.prev).sto VD_KP rd.kp).sto VD_KPPRE rd.kppre

/-- What the dispatch cells hold. -/
def dispatchCells (c : Cpu) : Cells := ⟨c.cell VD_CUR, c.cell VD_PREV, c.cell VD_KP, c.cell VD_KPPRE⟩

/-- The release of an action button.
SOURCE: vdispatch.asm:412-425 -/
def releaseEvents (r : Cells) : List VirtualEvent :=
  if r.kppre = 0 ∨ 3 < r.kppre ∨ r.kppre = r.kp then [] else [⟨r.kppre * 2 + 2, 0xFFFF⟩]

/-- The press of an action button, or its re-fire while held.
SOURCE: vdispatch.asm:427-445 -/
def pressEvents (r : Cells) : List VirtualEvent :=
  if r.kp = 0 ∨ 3 < r.kp then [] else [⟨r.kp * 2 + 2, if r.kp = r.kppre then 0 else 1⟩]

/-- The keypad and the disc.
SOURCE: vdispatch.asm:446-480 -/
def freshEvents (r : Cells) : List VirtualEvent :=
  if r.cur = r.prev then []
  else if r.cur.testBit 6 = false then [⟨if r.cur.testBit 7 then 2 else 0, r.cur % 128⟩]
  else if r.cur.testBit 7 then [] else [⟨0, 0xFFFF⟩]

/-- The events of four cells, in the order of their calls. -/
def virtualEvents (r : Cells) : List VirtualEvent := releaseEvents r ++ pressEvents r ++ freshEvents r

/-- The call of an event.
SOURCE: vdispatch.asm:420-425 -/
def callEvent (g : Game) (c : Cpu) (e : VirtualEvent) : Cpu := LS_VCALL g (c.sto VD_TMP e.slot) e.value

/-- A handler does not reach the dispatch cells. -/
theorem dispatchCells_call (g : Game) (c : Cpu) (e : VirtualEvent) :
    dispatchCells (callEvent g c e) = dispatchCells c := by
  have hcell : ∀ a, a = VD_CUR ∨ a = VD_PREV ∨ a = VD_KP ∨ a = VD_KPPRE →
      (callEvent g c e).cell a = c.cell a := by
    intro a ha
    have hcall : (LS_VCALL g (c.sto VD_TMP e.slot) e.value).cell a = (c.sto VD_TMP e.slot).cell a := by
      unfold LS_VCALL
      extract_lets tbl r4 entry
      split
      · rfl
      split
      · rfl
      · apply (Frame.ofGame (g.handler_frame _ _ _ _)).cell_eq
        rcases ha with rfl | rfl | rfl | rfl <;> simp [GameArea]
    unfold callEvent
    rw [hcall, Cpu.sto_cell, if_neg]
    rcases ha with rfl | rfl | rfl | rfl <;> decide
  unfold dispatchCells
  rw [hcell VD_CUR (by simp), hcell VD_PREV (by simp), hcell VD_KP (by simp), hcell VD_KPPRE (by simp)]

/-- Nor do the handlers of a list of events. -/
theorem dispatchCells_calls (g : Game) (c : Cpu) (es : List VirtualEvent) :
    dispatchCells (es.foldl (callEvent g) c) = dispatchCells c := by
  induction es generalizing c with
  | nil => rfl
  | cons e es ih => exact (ih _).trans (dispatchCells_call g c e)

/-- A dispatch reads its cells and calls its events. -/
theorem LS_VDISPATCH_eq (g : Game) (c : Cpu) :
    LS_VDISPATCH g c = (virtualEvents (dispatchCells (loadCells c))).foldl (callEvent g) (loadCells c) := by
  generalize hr : dispatchCells (loadCells c) = r
  unfold virtualEvents
  rw [List.foldl_append, List.foldl_append]
  have hrelease := dispatchCells_calls g (loadCells c) (releaseEvents r)
  have hpress := dispatchCells_calls g ((releaseEvents r).foldl (callEvent g) (loadCells c)) (pressEvents r)
  rw [hr] at hrelease
  rw [hrelease] at hpress
  unfold LS_VDISPATCH
  extract_lets rd c1 c2 pre c3 kp c4 c5 cur
  have h2 : c2 = loadCells c := rfl
  have h3 : c3 = (releaseEvents r).foldl (callEvent g) (loadCells c) := by
    have hpre : pre = r.kppre := by rw [← hr]; rfl
    have hkp : c2.cell VD_KP = r.kp := by rw [← hr]; rfl
    simp only [c3, releaseEvents, hpre, hkp]
    split
    · exact h2
    · rfl
  have h5 : c5 = (pressEvents r).foldl (callEvent g) c3 := by
    have hload : dispatchCells c3 = r := by rw [h3]; exact hrelease
    have hkp : kp = r.kp := by rw [← hload]; rfl
    have hkp4 : c4.cell VD_KP = r.kp := by rw [← hload]; rfl
    have hpre4 : c4.cell VD_KPPRE = r.kppre := by rw [← hload]; rfl
    simp only [c5, pressEvents, hkp4, hpre4]
    rw [hkp]
    split
    · rfl
    · simp only [c4, hkp]
      rfl
  have hload : dispatchCells c5 = r := by rw [h5, h3]; exact hpress
  have hcur : cur = r.cur := by rw [← hload]; rfl
  have hprev : c5.cell VD_PREV = r.prev := by rw [← hload]; rfl
  rw [← h3, ← h5]
  simp only [freshEvents, hcur, hprev]
  split
  · rfl
  split
  · rfl
  split <;> rfl

/-- The slots of events are those of the table's first five pointers. -/
theorem slot_le {r : Cells} {e : VirtualEvent} (h : e ∈ virtualEvents r) : e.slot ≤ 8 := by
  unfold virtualEvents at h
  rw [List.mem_append, List.mem_append] at h
  rcases h with (h | h) | h
  · unfold releaseEvents at h
    split at h
    · cases h
    · rw [List.mem_singleton.mp h]
      simp only
      omega
  · unfold pressEvents at h
    split at h
    · cases h
    · rw [List.mem_singleton.mp h]
      simp only
      omega
  · unfold freshEvents at h
    split at h
    · cases h
    split at h
    · rw [List.mem_singleton.mp h]
      simp only
      split <;> omega
    split at h
    · cases h
    · rw [List.mem_singleton.mp h]
      exact Nat.zero_le _

end BoxingNetplay.Interface
