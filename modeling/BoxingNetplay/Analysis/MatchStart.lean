import BoxingNetplay.Analysis.WireWrites
import BoxingNetplay.Interface.Delivery
import BoxingNetplay.Interface.Lobby
import BoxingNetplay.Interface.Receive

/-!
# The match that a START begins

START sets up the seats, the tick counter, the rings and the watermarks, and clears the records of
checksums.  It does not touch four cells that the handlers of a match write without asking whether there is one.
In the lobby three of them can come to be set: by a PEER_LEFT, by a BEGIN without its END, and
by a request or a checksum that disagrees with a record.
-/

set_option autoImplicit false

namespace BoxingNetplay.Analysis

open BoxingNetplay.Library
open BoxingNetplay.Model
open BoxingNetplay.Interface

/-! ### What a console in the lobby has heard -/

/-- The marks that frames for a match have left: somebody went, an image has begun, a push is wanted. -/
structure Heard where
  left : Bool
  held : Bool
  wanted : Bool
  deriving DecidableEq

/-- Nothing was heard. -/
def Heard.nothing : Heard := ⟨false, false, false⟩

/-- The frame in the buffer is a checksum that disagrees with the record of its tick.
SOURCE: resync.asm:79-104 -/
def crcDiffers (d : Cpu) : Prop :=
  let r4 := crcSlot (d.cell (FRMBUF + 3))
  6 ≤ d.cell FRMBUF ∧ d.cell r4 = d.cell (FRMBUF + 3) ∧ d.cell (r4 + 1) = d.cell (FRMBUF + 4) ∧
    ¬ (d.cell (r4 + 2) = d.cell (FRMBUF + 5) ∧ d.cell (r4 + 3) = d.cell (FRMBUF + 6))

instance (d : Cpu) : Decidable (crcDiffers d) := inferInstanceAs (Decidable (_ ∧ _))

/-- The frame in the buffer asks for a push, or shows that one is due.
SOURCE: resync.asm:76-158 -/
def asksPush (d : Cpu) : Prop :=
  d.cell (FRMBUF + 1) = FT_RESYNC ∨ (d.cell (FRMBUF + 1) = FT_CRC ∧ crcDiffers d)

instance (d : Cpu) : Decidable (asksPush d) := inferInstanceAs (Decidable (_ ∨ _))

/-- What is heard in the frame in the buffer: requests are not heeded in a hold, and an END
takes back what was begun and what was wanted. -/
def Heard.hear (m : Heard) (d : Cpu) : Heard :=
  if d.cell (FRMBUF + 1) = FT_PEER_LEFT then { m with left := true }
  else if isBegin d = true then { m with held := true }
  else if isEnd d = true ∧ m.held = true then { m with held := false, wanted := false }
  else if asksPush d ∧ m.held = false then { m with wanted := true }
  else m

/-- The frame in the buffer is a START that is long enough to begin a match.
SOURCE: session.asm:681-685 -/
def startsMatch (d : Cpu) : Prop := d.cell (FRMBUF + 1) = FT_START ∧ 38 ≤ d.cell FRMBUF

instance (d : Cpu) : Decidable (startsMatch d) := inferInstanceAs (Decidable (_ ∧ _))

/-! ### The lobby -/

/-- What a console in the lobby keeps for the match. -/
structure InLobby (m : Heard) (c : Cpu) : Prop where
  active : c.cell NET_ACTIVE = 0
  seat : c.cell NET_SEAT = 0
  count : c.cell NET_COUNT = 2
  entries : c.cell LOBBY_CNT ≤ 8
  screen : c.cell PEER_SCR = 0
  timer : c.cell RS_PTMO = 0
  left : c.cell NET_DROPPED ≠ 0 ↔ m.left = true
  held : c.cell RESYNC_HOLD ≠ 0 ↔ m.held = true
  wanted : c.cell RS_PEND ≠ 0 ↔ m.wanted = true

/-- The cells that depends on. -/
def LobbyCells : Set ℕ :=
  {a | a = NET_ACTIVE ∨ a = NET_SEAT ∨ a = NET_COUNT ∨ a = LOBBY_CNT ∨ a = PEER_SCR ∨ a = RS_PTMO ∨
    a = NET_DROPPED ∨ a = RESYNC_HOLD ∨ a = RS_PEND}

theorem InLobby.congr {m : Heard} {c c' : Cpu} (h : InLobby m c)
    (heq : ∀ a ∈ LobbyCells, c'.cell a = c.cell a) : InLobby m c' where
  active := (heq _ (by simp [LobbyCells])).trans h.active
  seat := (heq _ (by simp [LobbyCells])).trans h.seat
  count := (heq _ (by simp [LobbyCells])).trans h.count
  entries := (heq _ (by simp [LobbyCells])).le.trans h.entries
  screen := (heq _ (by simp [LobbyCells])).trans h.screen
  timer := (heq _ (by simp [LobbyCells])).trans h.timer
  left := by rw [heq _ (by simp [LobbyCells])]; exact h.left
  held := by rw [heq _ (by simp [LobbyCells])]; exact h.held
  wanted := by rw [heq _ (by simp [LobbyCells])]; exact h.wanted

/-- None of them is where the console draws, where the pump works or where a match keeps its
inputs and records. -/
theorem lobby_cases {a : ℕ} (h : a ∈ LobbyCells) :
    a = 0x8162 ∨ a = 0x8160 ∨ a = 0x819D ∨ a = 0x815C ∨ a = 0x8185 ∨ a = 0x8188 ∨ a = 0x8163 ∨
      a = 0x8090 ∨ a = 0x8187 := h

theorem lobby_not_aside {a : ℕ} (h : a ∈ LobbyCells) : a ∉ Aside := by
  rcases lobby_cases h with rfl | rfl | rfl | rfl | rfl | rfl | rfl | rfl | rfl <;>
    simp [Aside, MailboxArea]

theorem lobby_not_pump {a : ℕ} (h : a ∈ LobbyCells) : a ∉ PumpArea := by
  rcases lobby_cases h with rfl | rfl | rfl | rfl | rfl | rfl | rfl | rfl | rfl <;>
    simp [PumpArea, RingCells, MailboxArea]

theorem lobby_not_inputs {a : ℕ} (h : a ∈ LobbyCells) :
    a ∉ RingPages ∪ Watermarks ∧ a ∉ CrcRecords ∧ a ∉ Roster := by
  rcases lobby_cases h with rfl | rfl | rfl | rfl | rfl | rfl | rfl | rfl | rfl <;>
    simp [RingPages, Watermarks, CrcRecords, Roster]

theorem lobby_not_apply {a : ℕ} (h : a ∈ LobbyCells) : a ∉ ApplyArea := by
  rcases lobby_cases h with rfl | rfl | rfl | rfl | rfl | rfl | rfl | rfl | rfl <;>
    simp [ApplyArea, ImageCells, RS_TAILTBL]

/-- The hold, the request and its timer are in the resync state, the others are not. -/
theorem lobby_not_resync {a : ℕ} (h : a ∈ LobbyCells) (h1 : a ≠ RESYNC_HOLD) (h2 : a ≠ RS_PEND)
    (h3 : a ≠ RS_PTMO) : a ∉ RebaseArea := by
  obtain ⟨hinput, hrecord, -⟩ := lobby_not_inputs h
  rintro ((((hd | hv) | hr) | hw) | hc)
  · revert hd
    rcases lobby_cases h with rfl | rfl | rfl | rfl | rfl | rfl | rfl | rfl | rfl <;> simp [DisplayArea]
  · revert hv
    rcases lobby_cases h with rfl | rfl | rfl | rfl | rfl | rfl | rfl | rfl | rfl <;>
      simp_all [ResyncVars]
  · exact hinput (Or.inl hr)
  · exact hinput (Or.inr hw)
  · exact hrecord hc

/-- Stores to none of them. -/
theorem InLobby.aside {m : Heard} {c c' : Cpu} {A : Set ℕ} (h : InLobby m c) (hf : Frame A c c')
    (hA : ∀ a ∈ LobbyCells, a ∉ A) : InLobby m c' := h.congr fun a ha => hf.cell_eq (hA a ha)

/-- A frame of another type is not heard. -/
theorem hear_other (m : Heard) {d : Cpu} (h1 : d.cell (FRMBUF + 1) ≠ FT_PEER_LEFT)
    (h2 : d.cell (FRMBUF + 1) ≠ FT_STATE) (h3 : ¬ asksPush d) : m.hear d = m := by
  have hb : ¬ isBegin d = true := fun h => h2 (of_decide_eq_true h).1
  have he : ¬ isEnd d = true := fun h => h2 (of_decide_eq_true h).1
  unfold Heard.hear
  rw [if_neg h1, if_neg hb, if_neg fun h => he h.1, if_neg fun h => h3 h.1]

/-! ### One frame -/

/-- The cells in which a frame for a match leaves its mark. -/
def MarkCells : Set ℕ := {a | a = NET_DROPPED ∨ a = RESYNC_HOLD ∨ a = RS_PEND ∨ a = RS_PTMO}

/-- A step that leaves the other cells alone. -/
theorem InLobby.marks {m m' : Heard} {c c' : Cpu} (h : InLobby m c)
    (hkeep : ∀ a ∈ LobbyCells, a ∉ MarkCells → c'.cell a = c.cell a) (ht : c'.cell RS_PTMO = 0)
    (hl : c'.cell NET_DROPPED ≠ 0 ↔ m'.left = true) (hh : c'.cell RESYNC_HOLD ≠ 0 ↔ m'.held = true)
    (hw : c'.cell RS_PEND ≠ 0 ↔ m'.wanted = true) : InLobby m' c' where
  active := (hkeep _ (by simp [LobbyCells]) (by simp [MarkCells])).trans h.active
  seat := (hkeep _ (by simp [LobbyCells]) (by simp [MarkCells])).trans h.seat
  count := (hkeep _ (by simp [LobbyCells]) (by simp [MarkCells])).trans h.count
  entries := (hkeep _ (by simp [LobbyCells]) (by simp [MarkCells])).le.trans h.entries
  screen := (hkeep _ (by simp [LobbyCells]) (by simp [MarkCells])).trans h.screen
  timer := ht
  left := hl
  held := hh
  wanted := hw

/-- PEER_LEFT is heard. -/
theorem InLobby.peerLeft {m : Heard} {d : Cpu} (h : InLobby m d) :
    InLobby { m with left := true } (of_pl d) := by
  have hf := frame_of_pl d
  have hkeep : ∀ a ∈ LobbyCells, a ≠ NET_DROPPED → (of_pl d).cell a = d.cell a := by
    intro a ha hne
    apply hf.cell_eq
    obtain ⟨hinput, -, -⟩ := lobby_not_inputs ha
    rintro ((hv | hr) | hw)
    · revert hv
      rcases lobby_cases ha with rfl | rfl | rfl | rfl | rfl | rfl | rfl | rfl | rfl <;> simp_all
    · exact hinput (Or.inl hr)
    · exact hinput (Or.inr hw)
  have hdrop : (of_pl d).cell NET_DROPPED = 1 := by
    apply ((frame_LS_IDLE_RMT _).cell_eq (lobby_not_inputs (by simp [LobbyCells])).1).trans
    simp [cellWidth]
  apply h.marks
  · intro a ha hm
    exact hkeep a ha fun hne => hm (Or.inl hne)
  · exact (hkeep _ (by simp [LobbyCells]) (by simp)).trans h.timer
  · simp [hdrop]
  · rw [hkeep _ (by simp [LobbyCells]) (by simp)]
    exact h.held
  · rw [hkeep _ (by simp [LobbyCells]) (by simp)]
    exact h.wanted

/-- A request that is heeded. -/
theorem InLobby.request {m : Heard} {d : Cpu} (h : InLobby m d) :
    InLobby { m with wanted := true } ((d.sto RS_PEND 1).sto RS_PTMO 0) := by
  have hkeep : ∀ a, a ≠ RS_PEND → a ≠ RS_PTMO → ((d.sto RS_PEND 1).sto RS_PTMO 0).cell a = d.cell a := by
    intro a h1 h2
    rw [Cpu.sto_cell, if_neg h2, Cpu.sto_cell, if_neg h1]
  apply h.marks
  · intro a _ hm
    apply hkeep a <;> rintro rfl <;> exact hm (by simp [MarkCells])
  · simp
  · rw [hkeep _ (by simp) (by simp)]
    exact h.left
  · rw [hkeep _ (by simp) (by simp)]
    exact h.held
  · simp [cellWidth]

/-- A BEGIN opens a hold. -/
theorem InLobby.begin {m : Heard} {d : Cpu} (h : InLobby m d) (lo hi : ℕ) :
    InLobby { m with held := true } (((RS_ENTER_HOLD d).sto RS_R_LO lo).sto RS_R_HI hi) := by
  have hf := frame_begin d lo hi
  generalize hd : ((RS_ENTER_HOLD d).sto RS_R_LO lo).sto RS_R_HI hi = d' at hf
  have hhold : d'.cell RESYNC_HOLD = 1 := by
    rw [← hd]
    simp [RS_ENTER_HOLD, RS_CLR_CRC, cellWidth]
  have hkeep : ∀ a ∈ LobbyCells, a ≠ RESYNC_HOLD → d'.cell a = d.cell a := by
    intro a ha hne
    apply hf.cell_eq
    rintro (hv | hc)
    · revert hv
      rcases lobby_cases ha with rfl | rfl | rfl | rfl | rfl | rfl | rfl | rfl | rfl <;> simp_all
    · exact (lobby_not_inputs ha).2.1 hc
  apply h.marks
  · intro a ha hm
    exact hkeep a ha fun hne => hm (Or.inr (Or.inl hne))
  · exact (hkeep _ (by simp [LobbyCells]) (by simp)).trans h.timer
  · rw [hkeep _ (by simp [LobbyCells]) (by simp)]
    exact h.left
  · simp [hhold]
  · rw [hkeep _ (by simp [LobbyCells]) (by simp)]
    exact h.wanted

/-- A re-baseline clears the timer of a request. -/
theorem RS_REBASE_timer (c : Cpu) : (RS_REBASE c).cell RS_PTMO = 0 := by
  simp [RS_REBASE, setWatermarks, RS_CLR_CRC, LS_RING_INIT, BX_REBASE_HOOK, RS_CLAMP_ISR,
    RS_DISPLAY_RESET_cell, not_display]

/-- An END closes it, and what was wanted is done. -/
theorem InLobby.rebase {m : Heard} {d : Cpu} (h : InLobby m d) :
    InLobby { m with held := false, wanted := false } (RS_REBASE d) := by
  have hr := rebased d
  have hkeep : ∀ a ∈ LobbyCells, a ≠ RESYNC_HOLD → a ≠ RS_PEND → a ≠ RS_PTMO →
      (RS_REBASE d).cell a = d.cell a := fun a ha h1 h2 h3 =>
    hr.frame.cell_eq (lobby_not_resync ha h1 h2 h3)
  apply h.marks
  · intro a ha hm
    apply hkeep a ha <;> rintro rfl <;> exact hm (by simp [MarkCells])
  · exact RS_REBASE_timer d
  · rw [hkeep _ (by simp [LobbyCells]) (by simp) (by simp) (by simp)]
    exact h.left
  · simp [hr.hold]
  · simp [hr.pend]

/-- A STATE frame in the lobby. -/
theorem InLobby.state {m : Heard} {d : Cpu} (h : InLobby m d) (hty : d.cell (FRMBUF + 1) = FT_STATE) :
    InLobby (m.hear d) (RS_ON_STATE d) := by
  have hstep := state_cases d
  have hleft : d.cell (FRMBUF + 1) ≠ FT_PEER_LEFT := by simp [hty]
  have hask : ¬ asksPush d := by simp [asksPush, hty]
  have hquiet : ¬ isBegin d = true → ¬ (isEnd d = true ∧ m.held = true) → m.hear d = m := by
    intro hb he
    unfold Heard.hear
    rw [if_neg hleft, if_neg hb, if_neg he, if_neg fun h => hask h.1]
  generalize RS_ON_STATE d = d' at hstep ⊢
  cases hstep with
  | begins hb =>
    have hbegin : isBegin d = true := decide_eq_true ⟨hty, hb.2.1, hb.2.2, hb.1⟩
    unfold Heard.hear
    rw [if_neg hleft, if_pos hbegin]
    exact h.begin _ _
  | rebases hr =>
    have hend : isEnd d = true := decide_eq_true ⟨hty, hr.2.1, hr.2.2.1, hr.1⟩
    have hbegin : ¬ isBegin d = true := fun hb => by
      have := (of_decide_eq_true hb).2.2.1
      omega
    unfold Heard.hear
    rw [if_neg hleft, if_neg hbegin, if_pos ⟨hend, h.held.mp hr.2.2.2⟩]
    exact h.rebase
  | applies ha _ hf =>
    rw [hquiet (fun hb => ha.2.1 (of_decide_eq_true hb).2.1)
      fun he => ha.2.1 (of_decide_eq_true he.1).2.1]
    exact h.aside hf fun _ => lobby_not_apply
  | neither hb hr _ hf =>
    rw [hquiet]
    · exact h.aside hf fun a ha => by
        rcases lobby_cases ha with rfl | rfl | rfl | rfl | rfl | rfl | rfl | rfl | rfl <;> simp
    · intro hbegin
      obtain ⟨-, h1, h2, h3⟩ := of_decide_eq_true hbegin
      exact hb ⟨h3, h1, h2⟩
    · rintro ⟨hend, hheld⟩
      obtain ⟨-, h1, h2, h3⟩ := of_decide_eq_true hend
      exact hr ⟨h3, h1, h2, h.held.mpr hheld⟩

/-- A mark that is not left yet. -/
theorem InLobby.wanted_of {m : Heard} {d : Cpu} (h : InLobby m d) (hp : d.cell RS_PEND ≠ 0) :
    { m with wanted := true } = m := by
  obtain ⟨left, held, wanted⟩ := m
  rw [Heard.mk.injEq]
  exact ⟨rfl, rfl, (h.wanted.mp hp).symm⟩

/-- A frame that asks for a push, or shows that one is due. -/
theorem InLobby.asks {m : Heard} {d : Cpu} (h : InLobby m d) (ha : asksPush d) :
    InLobby (m.hear d) (if d.cell RESYNC_HOLD ≠ 0 then d else if d.cell RS_PEND ≠ 0 then d
      else (d.sto RS_PEND 1).sto RS_PTMO 0) := by
  have hne : d.cell (FRMBUF + 1) ≠ FT_PEER_LEFT ∧ d.cell (FRMBUF + 1) ≠ FT_STATE := by
    rcases ha with ha | ⟨ha, -⟩ <;> simp [ha]
  have hb : ¬ isBegin d = true := fun hb => hne.2 (of_decide_eq_true hb).1
  have he : ¬ isEnd d = true := fun he => hne.2 (of_decide_eq_true he).1
  unfold Heard.hear
  rw [if_neg hne.1, if_neg hb, if_neg fun hc => he hc.1]
  by_cases hold : d.cell RESYNC_HOLD ≠ 0
  · rw [if_pos hold, if_neg fun hc => by simp [h.held.mp hold] at hc]
    exact h
  · have hheld : m.held = false := Bool.eq_false_iff.mpr fun hc => hold (h.held.mpr hc)
    rw [if_neg hold, if_pos ⟨ha, hheld⟩]
    by_cases hp : d.cell RS_PEND ≠ 0
    · rw [if_pos hp, h.wanted_of hp]
      exact h
    · rw [if_neg hp]
      exact h.request

/-- A checksum is compared with the record of its tick; in the lobby the seat is 0, so that none is
asked for. -/
theorem InLobby.checksum {m : Heard} {d : Cpu} (h : InLobby m d)
    (hty : d.cell (FRMBUF + 1) = FT_CRC) : InLobby (m.hear d) (RS_ON_CRC d) := by
  have hseat : ((d.sto RS_PEND 1).sto RS_PTMO 0).cell NET_SEAT = 0 := by simpa using h.seat
  by_cases hdiff : crcDiffers d
  · have hasks := h.asks (Or.inr ⟨hty, hdiff⟩)
    obtain ⟨hlen, hlo, hhi, hsum⟩ := hdiff
    have heq : RS_ON_CRC d = if d.cell RESYNC_HOLD ≠ 0 then d else if d.cell RS_PEND ≠ 0 then d
        else (d.sto RS_PEND 1).sto RS_PTMO 0 := by
      unfold RS_ON_CRC
      simp only [hseat, if_true]
      rw [if_neg (by omega), if_neg (not_not.mpr hlo), if_neg (not_not.mpr hhi), if_neg hsum]
    rwa [heq]
  · have hsame : RS_ON_CRC d = d := by
      unfold RS_ON_CRC
      simp only
      split_ifs with h1 h2 h3 h4 h5 h6
      all_goals first
        | rfl
        | exact absurd ⟨by omega, not_not.mp h4, not_not.mp h5, h6⟩ hdiff
    rw [hsame, hear_other m (by simp [hty]) (by simp [hty]) (by simp [asksPush, hty, hdiff])]
    exact h

/-- A frame that begins no match leaves its mark, and nothing else that a match would see. -/
theorem InLobby.handle {m : Heard} {d : Cpu} (h : InLobby m d) (hs : ¬ startsMatch d) :
    InLobby (m.hear d) (SES_ONFRAME d) := by
  unfold SES_ONFRAME
  simp only
  by_cases h1 : d.cell (FRMBUF + 1) = FT_INPUT
  · rw [if_pos h1, hear_other m (by simp [h1]) (by simp [h1]) (by simp [asksPush, h1])]
    apply h.aside (frame_of_input d _) fun a ha => (lobby_not_inputs ha).1
    intro hacc
    have := hacc.2.2.1
    rw [h.count] at this
    omega
  rw [if_neg h1]
  by_cases h2 : d.cell (FRMBUF + 1) = FT_LOBBY
  · rw [if_pos h2, hear_other m (by simp [h2]) (by simp [h2]) (by simp [asksPush, h2])]
    obtain ⟨hf, hcount⟩ := frame_of_lobby d h.entries
    have hkeep : ∀ a ∈ LobbyCells, a ≠ LOBBY_CNT → (of_lobby d).cell a = d.cell a := by
      intro a ha hne
      apply hf.cell_eq
      rintro (hdraw | hdata)
      · exact lobby_not_aside ha (draw_aside hdraw)
      · revert hdata
        rcases lobby_cases ha with rfl | rfl | rfl | rfl | rfl | rfl | rfl | rfl | rfl <;>
          simp_all [LobbyData]
    exact
      { active := (hkeep _ (by simp [LobbyCells]) (by simp)).trans h.active
        seat := (hkeep _ (by simp [LobbyCells]) (by simp)).trans h.seat
        count := (hkeep _ (by simp [LobbyCells]) (by simp)).trans h.count
        entries := hcount
        screen := (hkeep _ (by simp [LobbyCells]) (by simp)).trans h.screen
        timer := (hkeep _ (by simp [LobbyCells]) (by simp)).trans h.timer
        left := by rw [hkeep _ (by simp [LobbyCells]) (by simp)]; exact h.left
        held := by rw [hkeep _ (by simp [LobbyCells]) (by simp)]; exact h.held
        wanted := by rw [hkeep _ (by simp [LobbyCells]) (by simp)]; exact h.wanted }
  rw [if_neg h2]
  by_cases h3 : d.cell (FRMBUF + 1) = FT_START
  · rw [if_pos h3, hear_other m (by simp [h3]) (by simp [h3]) (by simp [asksPush, h3])]
    have hshort : of_start d = d := if_pos (Nat.not_le.mp fun hlen => hs ⟨h3, hlen⟩)
    rw [hshort]
    exact h
  rw [if_neg h3]
  by_cases h4 : d.cell (FRMBUF + 1) = FT_PEER_LEFT
  · rw [if_pos h4, Heard.hear, if_pos h4]
    exact h.peerLeft
  rw [if_neg h4]
  by_cases h5 : d.cell (FRMBUF + 1) = FT_ROOM
  · rw [if_pos h5, hear_other m (by simp [h5]) (by simp [h5]) (by simp [asksPush, h5])]
    apply h.aside (frame_of_room_any d h.entries)
    rintro a ha ((haside | hdata) | hroster)
    · exact lobby_not_aside ha haside
    · revert hdata
      rcases lobby_cases ha with rfl | rfl | rfl | rfl | rfl | rfl | rfl | rfl | rfl <;> simp
    · exact (lobby_not_inputs ha).2.2 hroster
  rw [if_neg h5]
  by_cases h6 : d.cell (FRMBUF + 1) = FT_CRC
  · rw [if_pos h6]
    exact h.checksum h6
  rw [if_neg h6]
  by_cases h7 : d.cell (FRMBUF + 1) = FT_STATE
  · rw [if_pos h7]
    exact h.state h7
  rw [if_neg h7]
  by_cases h8 : d.cell (FRMBUF + 1) = FT_RESYNC
  · rw [if_pos h8]
    have hasks := h.asks (Or.inl h8)
    unfold RS_ON_REQ
    rwa [if_neg (not_not.mpr h.seat)]
  · rw [if_neg h8, hear_other m h4 h7 (by simp [asksPush, h6, h8])]
    exact h

/-! ### The match -/

/-- A match as START is to begin it: seat, count and delay from the frame, tick 0, idle rings, watermarks one
short of the delay, no record, nobody gone, no hold and no push wanted.
SOURCE: session.asm:681-725 -/
structure Fresh (s c : Cpu) : Prop where
  active : c.cell NET_ACTIVE = 1
  seat : c.cell NET_SEAT = s.cell (FRMBUF + 2)
  count : c.cell NET_COUNT = s.cell (FRMBUF + 3)
  delay : c.cell NET_DELAY = s.cell (FRMBUF + 6)
  tick : tickWord c = 0
  rings : IdleRings c
  watermark : ∀ seat < 4, seatWm c seat = (s.cell (FRMBUF + 6) + 255) % 256
  records : ∀ i < 32, c.cell (OWN_CRC + i) = 0xFF
  dropped : c.cell NET_DROPPED = 0
  screen : c.cell PEER_SCR = 0
  hold : c.cell RESYNC_HOLD = 0
  pending : c.cell RS_PEND = 0
  timer : c.cell RS_PTMO = 0

/-- The cells that depends on. -/
def FreshCells : Set ℕ :=
  LobbyCells ∪ {a | a = NET_DELAY ∨ a = TICK_LO ∨ a = TICK_HI} ∪ (RingPages ∪ Watermarks) ∪ CrcRecords

theorem lobby_fresh : LobbyCells ⊆ FreshCells := fun _ h => Or.inl (Or.inl (Or.inl h))

theorem Fresh.congr {s c c' : Cpu} (h : Fresh s c) (heq : ∀ a ∈ FreshCells, c'.cell a = c.cell a) :
    Fresh s c' := by
  have hrings : ∀ a ∈ RingPages, a ∈ FreshCells := fun a ha => Or.inl (Or.inr (Or.inl ha))
  have hmarks : ∀ a ∈ Watermarks, a ∈ FreshCells := fun a ha => Or.inl (Or.inr (Or.inr ha))
  have hlobby : ∀ a ∈ LobbyCells, c'.cell a = c.cell a := fun a ha => heq a (lobby_fresh ha)
  have htick : ∀ a, a = NET_DELAY ∨ a = TICK_LO ∨ a = TICK_HI → c'.cell a = c.cell a :=
    fun a ha => heq a (Or.inl (Or.inl (Or.inr ha)))
  exact
    { active := (hlobby _ (by simp [LobbyCells])).trans h.active
      seat := (hlobby _ (by simp [LobbyCells])).trans h.seat
      count := (hlobby _ (by simp [LobbyCells])).trans h.count
      delay := (htick _ (Or.inl rfl)).trans h.delay
      tick := by
        unfold tickWord word
        rw [htick _ (Or.inr (Or.inl rfl)), htick _ (Or.inr (Or.inr rfl))]
        exact h.tick
      rings := h.rings.congr fun a ha => heq a (hrings a ha)
      watermark := fun seat hs =>
        (seatWm_congr (fun a ha => heq a (hmarks a ha)) hs).trans (h.watermark seat hs)
      records := fun i hi => (heq _ (Or.inr ⟨by omega, by omega⟩)).trans (h.records i hi)
      dropped := (hlobby _ (by simp [LobbyCells])).trans h.dropped
      screen := (hlobby _ (by simp [LobbyCells])).trans h.screen
      hold := (hlobby _ (by simp [LobbyCells])).trans h.hold
      pending := (hlobby _ (by simp [LobbyCells])).trans h.pending
      timer := (hlobby _ (by simp [LobbyCells])).trans h.timer }

/-- They are netcode cells, the watermarks, and cells above the frame buffer. -/
theorem fresh_cases {a : ℕ} (h : a ∈ FreshCells) : a ∈ LobbyCells ∨
    (a = NET_DELAY ∨ a = TICK_LO ∨ a = TICK_HI) ∨ (0x81A0 ≤ a ∧ a < 0x81A8) ∨
      (0x8400 ≤ a ∧ a < 0x9C00) := by
  rcases h with ((h | h) | (⟨h1, h2⟩ | ⟨h1, h2⟩)) | ⟨h1, h2⟩
  · exact Or.inl h
  · exact Or.inr (Or.inl h)
  · simp only [SEAT_RING] at h1 h2
    exact Or.inr (Or.inr (Or.inr ⟨by omega, by omega⟩))
  · exact Or.inr (Or.inr (Or.inl ⟨h1, h2⟩))
  · simp only [OWN_CRC] at h1 h2
    exact Or.inr (Or.inr (Or.inr ⟨by omega, by omega⟩))

theorem fresh_not_aside {a : ℕ} (h : a ∈ FreshCells) : a ∉ Aside := by
  rcases fresh_cases h with h | h | h | h
  · exact lobby_not_aside h
  · rcases h with rfl | rfl | rfl <;> simp [Aside, MailboxArea]
  all_goals
    simp only [Aside, MailboxArea, Set.mem_union, Set.mem_ofPred_eq, UI_COLOR, PP_TMP, MENU_SEL,
      MENU_PREV, SES_TMR_LO, SES_SAVE102, NAME_BUF, NAME_LEN, FN_SEQ, MB_DEV, NAVAIL_HI, NREQ_LO,
      NGOT_HI, DIAG_TMO, DIAG_ERR]
    omega

theorem fresh_not_pump {a : ℕ} (h : a ∈ FreshCells) : a ∉ PumpArea := by
  rcases fresh_cases h with h' | h' | h' | h'
  · exact lobby_not_pump h'
  · rcases h' with rfl | rfl | rfl <;> simp [PumpArea, RingCells, MailboxArea]
  all_goals
    simp only [PumpArea, RingCells, MailboxArea, Set.mem_union, Set.mem_ofPred_eq, RX_WR, RX_RD, RXACC,
      DIAG_SLIP, FRMBUF, FN_SEQ, MB_DEV, NAVAIL_HI, NREQ_LO, NGOT_HI, DIAG_TMO, DIAG_ERR]
    omega

theorem fresh_not_game {a : ℕ} (h : a ∈ FreshCells) : a ∉ GameArea := by
  rcases fresh_cases h with h' | h' | h' | h'
  · rcases lobby_cases h' with rfl | rfl | rfl | rfl | rfl | rfl | rfl | rfl | rfl <;> simp [GameArea]
  · rcases h' with rfl | rfl | rfl <;> simp [GameArea]
  all_goals
    simp only [GameArea, Set.mem_ofPred_eq, RNG_LO, RNG_HI]
    omega

/-- Nothing but the marks depends on what was heard before. -/
theorem fresh_of_start {m : Heard} {s : Cpu} (h : InLobby m s) (hs : startsMatch s) :
    Fresh s (SES_ONFRAME s) ↔ m = .nothing := by
  have heq : SES_ONFRAME s = of_start s := SES_ONFRAME_start hs.1
  have hst := started s hs.2
  have hkeep : ∀ a, a = NET_DROPPED ∨ a = PEER_SCR ∨ a = RESYNC_HOLD ∨ a = RS_PEND ∨ a = RS_PTMO →
      (of_start s).cell a = s.cell a := by
    intro a ha
    apply hst.frame.cell_eq
    rcases ha with rfl | rfl | rfl | rfl | rfl <;>
      simp [StartArea, Roster, RingPages, Watermarks, CrcRecords]
  have hdrop : (of_start s).cell NET_DROPPED = 0 ↔ m.left = false := by
    rw [hkeep _ (by simp), ← not_iff_not, Bool.not_eq_false]
    exact h.left
  have hhold : (of_start s).cell RESYNC_HOLD = 0 ↔ m.held = false := by
    rw [hkeep _ (by simp), ← not_iff_not, Bool.not_eq_false]
    exact h.held
  have hpend : (of_start s).cell RS_PEND = 0 ↔ m.wanted = false := by
    rw [hkeep _ (by simp), ← not_iff_not, Bool.not_eq_false]
    exact h.wanted
  rw [heq]
  constructor
  · intro hf
    obtain ⟨left, held, wanted⟩ := m
    rw [Heard.nothing, Heard.mk.injEq]
    exact ⟨hdrop.mp hf.dropped, hhold.mp hf.hold, hpend.mp hf.pending⟩
  · rintro rfl
    exact
      { active := hst.active
        seat := hst.seat
        count := hst.count
        delay := hst.delay
        tick := by
          unfold tickWord word
          rw [hst.tick_lo, hst.tick_hi]
        rings := hst.rings
        watermark := hst.watermark
        records := hst.records
        dropped := hdrop.mpr rfl
        screen := (hkeep _ (by simp)).trans h.screen
        hold := hhold.mpr rfl
        pending := hpend.mpr rfl
        timer := (hkeep _ (by simp)).trans h.timer }

/-! ### Runs -/

/-- A console from power-up to its first pass, with the machines frames were dispatched on.
SOURCE: hook.asm:103-127, session.asm:29-321, 1045-1057 -/
inductive LobbyRun : Player → List Cpu → Prop where
  | start (c : Cpu) (w : Login) : LobbyRun (NET_START c w) []
  | step {k : Player} {ds : List Cpu} (h : LobbyRun k ds) (hp : k.place = .lobby ∨ k.place = .roster)
      (t : PlayerTurn) : LobbyRun (k.step t) (ds ++ pumpHanded SES_ONFRAME k.cpu t.poll)

/-- What is heard in a list of frames. -/
def hearAll (ds : List Cpu) : Heard := ds.foldl Heard.hear .nothing

/-- A console that enters the lobby has heard nothing. -/
theorem inLobby_start (c : Cpu) (w : Login) : InLobby .nothing (NET_START c w).cpu := by
  have hf := aside_SES_MAIN (((c.fill NET_RAM NET_RAM_SIZE 0).sto DELAY_EN 0).sto NET_COUNT 2) w
  have hcell : ∀ a ∈ LobbyCells, (NET_START c w).cpu.cell a = if a = NET_COUNT then 2 else 0 := by
    intro a ha
    apply (hf.cell_eq (lobby_not_aside ha)).trans
    rcases lobby_cases ha with rfl | rfl | rfl | rfl | rfl | rfl | rfl | rfl | rfl <;>
      simp [cellWidth]
  constructor
  all_goals first
    | exact hcell _ (by simp [LobbyCells])
    | exact (hcell _ (by simp [LobbyCells])).le.trans (by simp)
    | rw [hcell _ (by simp [LobbyCells])]; simp [Heard.nothing]

/-- A console that has started is not at the roster. -/
theorem place_start (c : Cpu) (w : Login) : (NET_START c w).place ≠ .roster := by
  unfold NET_START SES_MAIN
  extract_lets
  split
  · exact nofun
  split
  · exact nofun
  · exact nofun

/-- Around its dispatches a pump leaves the lobby alone. -/
theorem InLobby.moves {m : Heard} {c c' : Cpu} (h : InLobby m c) (hm : Moves c c') : InLobby m c' :=
  h.aside hm.frame fun _ => lobby_not_pump

/-- Frames that begin no match leave the console in the lobby. -/
theorem InLobby.handles {m : Heard} {c c' : Cpu} {ds : List Cpu} (h : InLobby m c)
    (hs : Handles SES_ONFRAME c ds c') (hds : ∀ d ∈ ds, ¬ startsMatch d) :
    InLobby (ds.foldl Heard.hear m) c' := by
  induction hs generalizing m with
  | done hm => exact h.moves hm
  | hand hm _ ih =>
    apply ih
    · exact (h.moves hm).handle (hds _ List.mem_cons_self)
    · exact fun d hd => hds d (List.mem_cons_of_mem _ hd)

/-- When a START is the last frame of a pump, the others before it are heard first. -/
theorem InLobby.handles_start {m : Heard} {c c' s : Cpu} {ds : List Cpu} (h : InLobby m c)
    (hs : Handles SES_ONFRAME c (ds ++ [s]) c') (hds : ∀ d ∈ ds, ¬ startsMatch d) :
    InLobby (ds.foldl Heard.hear m) s ∧ Moves (SES_ONFRAME s) c' := by
  induction ds generalizing m c with
  | nil =>
    cases hs with
    | hand hm hdone =>
      cases hdone with
      | done hm' => exact ⟨h.moves hm, hm'⟩
  | cons d ds ih =>
    cases hs with
    | hand hm hrest =>
      apply ih _ hrest
      · exact fun e he => hds e (List.mem_cons_of_mem _ he)
      · exact (h.moves hm).handle (hds _ List.mem_cons_self)

/-- Between two steps of a run: as long as no START was dispatched the console is in the lobby, and
after one that was the last frame it is what the START left. -/
structure LobbyInv (k : Player) (ds : List Cpu) : Prop where
  quiet : (∀ d ∈ ds, ¬ startsMatch d) → k.place ≠ .roster ∧ InLobby (hearAll ds) k.cpu
  begun : ∀ pre s, ds = pre ++ [s] → (∀ d ∈ pre, ¬ startsMatch d) → startsMatch s →
    InLobby (hearAll pre) s ∧ (∀ a ∈ FreshCells, k.cpu.cell a = (SES_ONFRAME s).cell a) ∧
      k.place ≠ .lobby

/-- A START switches the match on. -/
theorem active_of_start {s : Cpu} (hs : startsMatch s) : (SES_ONFRAME s).cell NET_ACTIVE = 1 := by
  rw [SES_ONFRAME_start hs.1]
  exact (started s hs.2).active

/-- The rest of a round under the roster, up to the first pass. -/
theorem rosterRound_fresh (k : Player) (hp : k.place = .roster) (t : PlayerTurn) {a : ℕ} (ha : a ∈ FreshCells) :
    (k.step t).cpu.cell a = (SES_PUMP SES_ONFRAME k.cpu t.poll).cpu.cell a ∧
      (k.step t).place ≠ .lobby := by
  have htimer : ∀ c : Cpu, ∀ v, (c.sto SES_TMR_LO v).cell a = c.cell a := by
    intro c v
    rw [Cpu.sto_cell, if_neg]
    rintro rfl
    exact fresh_not_aside ha (by simp [Aside])
  unfold Player.step
  rw [hp]
  simp only [rosterRound]
  split
  · apply And.intro _ (by simp)
    apply ((Frame.ofGame (t.boot_frame _)).cell_eq (fresh_not_game ha)).trans
    apply ((aside_SES_EXIT _).cell_eq (fresh_not_aside ha)).trans
    exact htimer _ _
  · exact ⟨htimer _ _, by simp⟩

/-- Every step of a run keeps it. -/
theorem LobbyInv.step {k : Player} {ds : List Cpu} (inv : LobbyInv k ds)
    (hp : k.place = .lobby ∨ k.place = .roster) (t : PlayerTurn) :
    LobbyInv (k.step t) (ds ++ pumpHanded SES_ONFRAME k.cpu t.poll) := by
  have hpump := handles_pump (f := SES_ONFRAME) k.cpu t.poll
  have hlobby : k.place = .lobby → k.step t = lobbyRound k.cpu t := by
    intro h
    unfold Player.step
    rw [h]
  constructor
  · intro hno
    have hold : ∀ d ∈ ds, ¬ startsMatch d := fun d hd => hno d (List.mem_append_left _ hd)
    obtain ⟨hroster, hin⟩ := inv.quiet hold
    have hafter := hin.handles hpump fun d hd => hno d (List.mem_append_right _ hd)
    rw [hlobby (hp.resolve_right hroster), lobbyRound, if_neg (not_not.mpr hafter.active)]
    apply And.intro (by simp)
    unfold hearAll
    rw [List.foldl_append]
    exact hafter.aside (aside_turn _ _ hafter.entries) fun _ => lobby_not_aside
  · intro pre s heq hpre hs
    generalize pumpHanded SES_ONFRAME k.cpu t.poll = hds at hpump heq
    rcases List.eq_nil_or_concat hds with rfl | ⟨init, last, rfl⟩
    · rw [List.append_nil] at heq
      obtain ⟨hin, hsame, hplace⟩ := inv.begun pre s heq hpre hs
      have hroster := hp.resolve_left hplace
      have hmoves : ∀ a ∈ FreshCells,
          (SES_PUMP SES_ONFRAME k.cpu t.poll).cpu.cell a = k.cpu.cell a := by
        intro a ha
        cases hpump with
        | done hm => exact hm.frame.cell_eq (fresh_not_pump ha)
      apply And.intro hin
      constructor
      · intro a ha
        rw [(rosterRound_fresh k hroster t ha).1, hmoves a ha, hsame a ha]
      · exact (rosterRound_fresh k hroster t (lobby_fresh (Or.inl rfl))).2
    · rw [List.concat_eq_append, ← List.append_assoc] at heq
      obtain ⟨rfl, hlast⟩ := List.append_inj' heq rfl
      obtain rfl : last = s := List.singleton_inj.mp hlast
      have hold : ∀ d ∈ ds, ¬ startsMatch d := fun d hd => hpre d (List.mem_append_left _ hd)
      obtain ⟨hroster, hin⟩ := inv.quiet hold
      rw [List.concat_eq_append] at hpump
      obtain ⟨hstart, hm⟩ := hin.handles_start hpump fun d hd => hpre d (List.mem_append_right _ hd)
      have hactive : (SES_PUMP SES_ONFRAME k.cpu t.poll).cpu.cell NET_ACTIVE ≠ 0 := by
        rw [hm.frame.cell_eq (fresh_not_pump (lobby_fresh (Or.inl rfl))), active_of_start hs]
        exact one_ne_zero
      rw [hlobby (hp.resolve_right hroster), lobbyRound, if_pos hactive]
      unfold hearAll
      rw [List.foldl_append]
      apply And.intro hstart
      apply And.intro _ (by simp)
      intro a ha
      apply ((aside_ses_go _).cell_eq (fresh_not_aside ha)).trans
      exact hm.frame.cell_eq (fresh_not_pump ha)

/-- The invariant holds throughout a run. -/
theorem lobbyInv {k : Player} {ds : List Cpu} (run : LobbyRun k ds) : LobbyInv k ds := by
  induction run with
  | start c w =>
    constructor
    · intro _
      exact ⟨place_start c w, inLobby_start c w⟩
    · intro pre s heq
      simp at heq
  | step _ hp t ih => exact ih.step hp t

/-- The state in which the passes of a match begin is what START says exactly when no frame before it has
left a mark: no PEER_LEFT, no BEGIN without its END, and no request or differing checksum
that an END has not met.
SOURCE: session.asm:681-725, 770-792, resync.asm:76-158, 328-368 -/
theorem match_starts_fresh {k : Player} {ds : List Cpu} {s : Cpu} (run : LobbyRun k (ds ++ [s]))
    (hs : startsMatch s) (hds : ∀ d ∈ ds, ¬ startsMatch d) :
    Fresh s k.cpu ↔ hearAll ds = .nothing := by
  obtain ⟨hin, hsame, -⟩ := (lobbyInv run).begun ds s rfl hds hs
  rw [← fresh_of_start hin hs]
  constructor
  · intro h
    exact h.congr fun a ha => (hsame a ha).symm
  · intro h
    exact h.congr hsame

/-! ### Concrete runs -/

/-- A peripheral without a name that connects. -/
def namelessLogin : Login where
  magic := true
  first := ⟨.timeout, .timeout, fun _ => 0, .timeout, fun _ => by decide⟩
  second := ⟨.timeout, .timeout, fun _ => 0, .timeout, fun _ => by decide⟩
  spec := []
  opened := .ack 0

/-- A console that has just entered the lobby. -/
def arrived : Player := NET_START default namelessLogin

/-- A turn whose poll delivers `data`. -/
def deliveryOf (data : List ℕ) (h : data.length ≤ 64 ∧ ∀ b ∈ data, b < 256) : PlayerTurn where
  poll := ⟨.ack 0, data.length, 1, .ack 0, data, h.1, h.2⟩
  game := default
  pad := 0xFF
  boot := id
  boot_frame := GameFrame.refl

/-- Its poll delivers them. -/
theorem delivers_deliveryOf {data : List ℕ} (hne : data ≠ []) (h : data.length ≤ 64 ∧ ∀ b ∈ data, b < 256) :
    delivers (deliveryOf data h).poll = data := by
  have hpos := List.length_pos_of_ne_nil hne
  have hshort := h.1
  unfold delivers deliveryOf
  simp only
  rw [if_pos ⟨trivial, by omega⟩]

/-- Frames that fit are dispatched on in the round that delivers them. -/
theorem handed_on {fs : List (List ℕ)} (hfs : ∀ f ∈ fs, Fits f) (hne : fs.flatten ≠ [])
    (h : fs.flatten.length ≤ 64 ∧ ∀ b ∈ fs.flatten, b < 256) :
    List.Forall₂ Carries (pumpHanded SES_ONFRAME arrived.cpu (deliveryOf fs.flatten h).poll) fs := by
  have hf := aside_SES_MAIN ((((default : Cpu).fill NET_RAM NET_RAM_SIZE 0).sto DELAY_EN 0).sto NET_COUNT 2)
    namelessLogin
  have hin := inLobby_start default namelessLogin
  have hzero : ∀ a, a = RX_WR ∨ a = RX_RD → arrived.cpu.cell a = 0 := by
    rintro a (rfl | rfl) <;> apply (hf.cell_eq (by simp [Aside, MailboxArea])).trans <;> simp
  have hempty : unread arrived.cpu = [] := by
    have hlen := length_unread arrived.cpu
    rw [buffered, hzero _ (Or.inl rfl), hzero _ (Or.inr rfl)] at hlen
    exact List.eq_nil_of_length_eq_zero hlen
  have hdel := delivers_deliveryOf hne h
  have hclean : Clean (arrived.cpu.cell DIAG_SLIP) arrived.cpu :=
    ⟨hin.count.le.trans (by omega), hin.entries, rfl⟩
  have hbytes : unread (receive arrived.cpu (deliveryOf fs.flatten h).poll) ++ [] = fs.flatten := by
    rw [unread_receive _ _ (by rw [← length_unread, hempty]; simp), hempty, hdel]
    simp
  obtain ⟨done, rest, hsplit, hands⟩ := parseLoop_hands (tame_fits _) 256 _
    (clean_receive hclean (deliveryOf fs.flatten h).poll) [] fs hfs hbytes (buffered_lt _)
  cases rest with
  | nil =>
    have hcarries := hands.carries
    rw [List.append_nil] at hsplit
    rwa [← hsplit] at hcarries
  | cons f rest =>
    -- a complete frame would not have been left
    have hfit := hfs f (by rw [hsplit]; simp)
    have hver := verdict_of_isFrame hfit.isFrame
    have happ := consoleFraming.verdict_append f rest.flatten (by rw [hver]; exact Verdict.noConfusion)
    have hbytes := hands.bytes
    rw [List.append_nil, List.flatten_cons] at hbytes
    have hwaits := hands.waits
    rw [hbytes, happ, hver] at hwaits
    cases hwaits

/-- A START of seat 0 in a match of two. -/
def startFrame : List ℕ := [38, FT_START, 0, 2, 1, 2, 3] ++ List.replicate 32 65

/-- The departure of the player of seat 1. -/
def leftFrame : List ℕ := [10, FT_PEER_LEFT, 1, 71, 85, 69, 83, 84, 48, 49, 0]

/-- The START of that match fits. -/
theorem fits_startFrame : Fits startFrame :=
  ⟨⟨rfl, rfl⟩, Nat.le_refl 38, fun _ => by decide, fun h => (nomatch h)⟩

/-- The frame that reports the departure fits. -/
theorem fits_leftFrame : Fits leftFrame :=
  ⟨⟨rfl, rfl⟩, Nat.le_refl 10, fun h => (nomatch h), fun h => (nomatch h)⟩

/-- The START begins the match. -/
theorem startsMatch_startFrame {d : Cpu} (h : Carries d startFrame) : startsMatch d :=
  ⟨h.cell (i := 1) (by decide), (h.cell (i := 0) (by decide)).ge⟩

/-- With a FujiNet that opens the connection a console gets to the lobby. -/
theorem place_of_login (c : Cpu) {w : Login} (hm : w.magic = true) (ho : acked w.opened = true) :
    (NET_START c w).place = .lobby := by
  unfold NET_START SES_MAIN
  extract_lets c1 c2 c3 c4 c5 c6 c7 c8 c9
  have h3 : c3.cell MB_OK ≠ 0 := by simp [c3, hm, cellWidth]
  have h8 : c8.cell MB_OK ≠ 0 := by
    apply ne_of_eq_of_ne (MB_TRANSACT_ok _ _)
    simp [ho]
  rw [if_neg h3, if_neg h8]

/-- A run in which they are the frames dispatched on. -/
theorem delivered_run (fs : List (List ℕ)) (hfs : ∀ f ∈ fs, Fits f) (hne : fs.flatten ≠ [])
    (h : fs.flatten.length ≤ 64 ∧ ∀ b ∈ fs.flatten, b < 256) :
    ∃ k ds, LobbyRun k ds ∧ List.Forall₂ Carries ds fs := by
  have harrived : LobbyRun arrived [] := LobbyRun.start default namelessLogin
  have hplace : arrived.place = .lobby := place_of_login default rfl rfl
  exact ⟨_, _, harrived.step (Or.inl hplace) (deliveryOf fs.flatten h), handed_on hfs hne h⟩

/-- A START that is the first frame begins a match as it says. -/
theorem first_start_fresh : ∃ k s, LobbyRun k ([] ++ [s]) ∧ startsMatch s ∧ Fresh s k.cpu := by
  obtain ⟨k, ds, run, hds⟩ := delivered_run [startFrame] (by simp [fits_startFrame])
    (by decide) ⟨by decide, by decide⟩
  cases hds with
  | @cons s _ _ _ hs hrest =>
    cases hrest
    have hstart := startsMatch_startFrame hs
    have first : LobbyRun k ([] ++ [s]) := run
    exact ⟨k, s, first, hstart, (match_starts_fresh first hstart (by simp)).mpr rfl⟩

/-- A player who leaves the room before the START makes the match begin dropped. -/
theorem left_then_start_drops : ¬ ∀ (k : Player) (ds : List Cpu) (s : Cpu), LobbyRun k (ds ++ [s]) →
    startsMatch s → (∀ d ∈ ds, ¬ startsMatch d) → Fresh s k.cpu := by
  intro hclaim
  obtain ⟨k, ds, run, hds⟩ := delivered_run [leftFrame, startFrame]
    (by simp [fits_leftFrame, fits_startFrame]) (by decide) ⟨by decide, by decide⟩
  cases hds with
  | @cons d _ _ _ hd hrest =>
    cases hrest with
    | @cons s _ _ _ hs hnil =>
      cases hnil
      have hleft : d.cell (FRMBUF + 1) = FT_PEER_LEFT := hd.cell (i := 1) (by decide)
      have hno : ∀ e ∈ [d], ¬ startsMatch e := by
        simp [startsMatch, hleft]
      have hstart := startsMatch_startFrame hs
      obtain ⟨hin, hsame, -⟩ := (lobbyInv run).begun [d] s rfl hno hstart
      have hfresh := hclaim k [d] s run hstart hno
      have hnothing := (fresh_of_start hin hstart).mp (hfresh.congr fun a ha => (hsame a ha).symm)
      simp [hearAll, Heard.hear, hleft, Heard.nothing] at hnothing

end BoxingNetplay.Analysis
