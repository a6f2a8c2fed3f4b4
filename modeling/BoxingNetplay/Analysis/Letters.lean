import BoxingNetplay.Analysis.Nodes
import BoxingNetplay.Interface.Reports

/-!
# Frames as letters

A frame of a match spells a letter of the delay line (`Spells`), and handling the frame is what the
node does with the letter: an input is stored or refused, a report is ignored or raises an alarm, a
request sets the host's flag, and the frames of a push take the guest through a restart.  An old input
is refused, and an old report matches no record, because the host's new baseline is ahead of the tick
in it by no more than a few jumps.
-/

set_option autoImplicit false

namespace BoxingNetplay.Analysis

open BoxingNetplay.Library
open BoxingNetplay.Library.Delay (Node Letter Sys Inv Requests put)
open BoxingNetplay.Model
open BoxingNetplay.Interface

/-- A letter between two consoles. -/
abbrev Post := Letter (ℕ × ℕ) ℕ

/-- The delay line of two consoles. -/
abbrev Line := Sys (ℕ × ℕ) ℕ

/-- The frame of a letter from a seat.  Only the guest asks, and only the host restarts.
SOURCE: lockstep.asm:142-162, 313-330, resync.asm:122-135, 163-256 -/
inductive Spells (d seat : ℕ) : Post → List ℕ → Prop where
  | input (e t : ℕ) (v : ℕ × ℕ) : Spells d seat ⟨e, t, .input v⟩
      [6, FT_INPUT, seat, (t + d) % 65536 % 256, (t + d) % 65536 / 256, v.1, v.2]
  | report (e t w : ℕ) (ht : t % 64 = 0) : Spells d seat ⟨e, t, .report w⟩
      [6, FT_CRC, seat, t % 65536 % 256, t % 65536 / 256, w % 256, w / 256]
  | ask (e t lo hi : ℕ) (hs : seat = 1) : Spells d seat ⟨e, t, .ask⟩ [3, FT_RESYNC, lo, hi]
  | opening (e t r : ℕ) (H : Cpu) (hs : seat = 0) (hr : pushTick H = r % 65536) :
      Spells d seat ⟨e, t, .opening r⟩ (beginFrame H)
  | part (e t : ℕ) (H : Cpu) (p : ℕ) (hs : seat = 0) (hp : p < IMG_TOTAL) :
      Spells d seat ⟨e, t, .part⟩ (chunkFrame H p)
  | closing (e t r : ℕ) (hs : seat = 0) : Spells d seat ⟨e, t, .closing r⟩ endFrame

/-- It is a frame of a peer. -/
theorem Spells.peerFrame {d seat : ℕ} {l : Post} {f : List ℕ} (h : Spells d seat l f)
    (hs : seat ≤ 3) : PeerFrame f := by
  cases h with
  | input => exact ⟨⟨rfl, rfl⟩, by simp, fun _ => hs⟩
  | report => exact ⟨⟨rfl, rfl⟩, by simp, fun _ => hs⟩
  | ask => exact ⟨⟨rfl, rfl⟩, by simp, fun h => by cases h⟩
  | opening _ _ _ H => exact peerFrame_begin H
  | part _ _ H p _ hp => exact peerFrame_chunk H (Nat.le_of_lt hp)
  | closing => exact peerFrame_end

/-- The frame of a letter is an INPUT if the letter is an input. -/
theorem Spells.isInput {d seat : ℕ} {l : Post} {f : List ℕ} {x : Cpu} (h : Spells d seat l f)
    (hc : Carries x f) : x.cell (FRMBUF + 1) = FT_INPUT ↔ ∃ v, l.body = .input v := by
  have hcell : ∀ ty, 2 ≤ f.length → f.getD 1 0 = ty → x.cell (FRMBUF + 1) = ty := fun ty hl hty =>
    (hc.cell hl).trans hty
  have hother : ∀ ty, 2 ≤ f.length → f.getD 1 0 = ty → ty ≠ FT_INPUT → (∀ v, l.body ≠ .input v) →
      (x.cell (FRMBUF + 1) = FT_INPUT ↔ ∃ v, l.body = .input v) := by
    intro ty hl hty hne hbody
    rw [hcell ty hl hty]
    constructor
    · intro heq
      exact absurd heq hne
    · rintro ⟨v, hv⟩
      exact absurd hv (hbody v)
  cases h with
  | input e t v => exact ⟨fun _ => ⟨v, rfl⟩, fun _ => hcell _ (by simp) rfl⟩
  | report => exact hother FT_CRC (by simp) rfl (by decide) fun v hv => by cases hv
  | ask => exact hother FT_RESYNC (by simp) rfl (by decide) fun v hv => by cases hv
  | opening _ _ _ H =>
    exact hother FT_STATE (by simp [beginFrame]) rfl (by decide) fun v hv => by cases hv
  | part _ _ H p =>
    exact hother FT_STATE (by rw [length_chunkFrame]; omega) rfl (by decide) fun v hv => by cases hv
  | closing => exact hother FT_STATE (by simp [endFrame]) rfl (by decide) fun v hv => by cases hv

/-! ### Checksum records -/

/-- The record of the ticks that are `64 * i` modulo 256, when tick `t` is next: it is that of one of the
last 256 ticks, with its checksum, or it is invalid.  When no record was lost it is invalid only if none
of them has a checksum. -/
inductive Record (full : Prop) (b t i : ℕ) (sums : ℕ → Option ℕ) (c : Cpu) : Prop where
  | blank (mark : c.cell (OWN_CRC + 4 * i) = 0xFF)
      (none : full → ∀ u, t ≤ u + 256 → u % 256 = 64 * i → sums u = none)
  | of (u w : ℕ) (hb : b ≤ u) (hlt : u < t) (hlap : t ≤ u + 256) (hmod : u % 256 = 64 * i)
      (hsum : sums u = some w) (lo : c.cell (OWN_CRC + 4 * i) = u % 256)
      (hi : c.cell (OWN_CRC + 4 * i + 1) = u / 256 % 256)
      (wlo : c.cell (OWN_CRC + 4 * i + 2) = w % 256) (whi : c.cell (OWN_CRC + 4 * i + 3) = w / 256)

/-- The four records of the baseline at `b` when tick `t` is next; no other tick has a checksum. -/
structure Records (full : Prop) (b t : ℕ) (sums : ℕ → Option ℕ) (c : Cpu) : Prop where
  slot : ∀ i < 4, Record full b t i sums c
  range : ∀ u, sums u ≠ none → b ≤ u ∧ u < t ∧ u % 64 = 0

section Records

variable {full full' : Prop} {b t : ℕ} {sums : ℕ → Option ℕ} {c c' : Cpu}

theorem Records.congr (h : Records full b t sums c) (heq : ∀ a ∈ CrcRecords, c'.cell a = c.cell a)
    (hf : full' → full) : Records full' b t sums c' := by
  refine ⟨fun i hi => ?_, h.range⟩
  have hcell : ∀ j < 4, c'.cell (OWN_CRC + 4 * i + j) = c.cell (OWN_CRC + 4 * i + j) :=
    fun j hj => heq _ ⟨by omega, by omega⟩
  have h0 := hcell 0 (by omega)
  simp only [Nat.add_zero] at h0
  have hslot := h.slot i hi
  cases hslot with
  | blank mark none => exact .blank (h0.trans mark) fun hfull => none (hf hfull)
  | of u w hb hlt hlap hmod hsum lo hi wlo whi =>
    exact .of u w hb hlt hlap hmod hsum (h0.trans lo) ((hcell 1 (by omega)).trans hi)
      ((hcell 2 (by omega)).trans wlo) ((hcell 3 (by omega)).trans whi)

/-- Cleared records hold no checksum that is in range. -/
theorem records_blank (h : ∀ i < 32, c.cell (OWN_CRC + i) = 0xFF)
    (hr : ∀ u, sums u ≠ none → b ≤ u ∧ u < t ∧ u % 64 = 0) (hf : full → ∀ u, sums u = none) :
    Records full b t sums c :=
  ⟨fun i hi => .blank (h (4 * i) (by omega)) fun hfull u _ _ => hf hfull u, hr⟩

/-- A record that matches a tick. -/
theorem Records.found (h : Records full b t sums c) {lo : ℕ} (hlo : lo < 256) (h64 : lo % 64 = 0)
    (hm : c.cell (crcSlot lo) = lo) : ∃ u w, b ≤ u ∧ u < t ∧ t ≤ u + 256 ∧ u % 256 = lo ∧
      sums u = some w ∧ c.cell (crcSlot lo + 1) = u / 256 % 256 ∧
      c.cell (crcSlot lo + 2) = w % 256 ∧ c.cell (crcSlot lo + 3) = w / 256 := by
  rw [crcSlot_eq hlo] at hm ⊢
  have hslot := h.slot (lo / 64) (by omega)
  cases hslot with
  | blank mark _ => omega
  | of u w hb hlt hlap hmod hsum _ hi wlo whi =>
    exact ⟨u, w, hb, hlt, hlap, by omega, hsum, hi, wlo, whi⟩

/-- A checksum of the last 256 ticks is on record. -/
theorem Records.kept (h : Records full b t sums c) (hf : full) {u w : ℕ} (hs : sums u = some w)
    (hlap : t ≤ u + 256) : c.cell (crcSlot (u % 256)) = u % 256 ∧
      c.cell (crcSlot (u % 256) + 1) = u / 256 % 256 ∧ c.cell (crcSlot (u % 256) + 2) = w % 256 ∧
      c.cell (crcSlot (u % 256) + 3) = w / 256 := by
  obtain ⟨-, hlt, h64⟩ := h.range u (by rw [hs]; exact Option.some_ne_none w)
  rw [crcSlot_eq (Nat.mod_lt _ (by decide))]
  have hslot := h.slot (u % 256 / 64) (by omega)
  cases hslot with
  | blank _ none =>
    rw [none hf u hlap (by omega)] at hs
    cases hs
  | of u' w' _ hlt' hlap' hmod hsum lo hi wlo whi =>
    have heq : u' = u := by omega
    subst heq
    rw [hs] at hsum
    cases hsum
    exact ⟨lo, hi, wlo, whi⟩

/-- A tick that is not reported leaves them as they are. -/
theorem Records.pass (h : Records full b t sums c) (ht : t % 64 ≠ 0) :
    Records full b (t + 1) sums c := by
  refine ⟨fun i hi => ?_, fun u hu => ?_⟩
  · have hslot := h.slot i hi
    cases hslot with
    | blank mark none => exact .blank mark fun hf u hlap => none hf u (by omega)
    | of u w hb hlt hlap hmod hsum lo hi wlo whi =>
      exact .of u w hb (by omega) (by omega) hmod hsum lo hi wlo whi
  · obtain ⟨h1, h2, h3⟩ := h.range u hu
    exact ⟨h1, by omega, h3⟩

/-- One that is takes the place of an older one. -/
theorem Records.report {w : ℕ} (h : Records full b t sums c) (hr : Reported c c' w) (hb : b ≤ t)
    (ht : t % 64 = 0) (hlo : c.cell TICK_LO = t % 256) (hhi : c.cell TICK_HI = t / 256 % 256)
    (sums' : ℕ → Option ℕ) (hs : ∀ u, u ≠ t → sums' u = sums u) (hsum : sums' t = some w) :
    Records full b (t + 1) sums' c' := by
  refine ⟨fun i hi => ?_, fun u hu => ?_⟩
  · have hslot : crcSlot (c.cell TICK_LO) = OWN_CRC + 4 * (t % 256 / 64) := by
      rw [hlo, crcSlot_eq (by omega)]
    have hrec := hr.record
    have hoth := hr.others
    rw [hslot] at hrec hoth
    by_cases hit : i = t % 256 / 64
    · subst hit
      have h0 := hrec 0 (by omega)
      have h1 := hrec 1 (by omega)
      exact .of t w hb (by omega) (by omega) (by omega) hsum (h0.trans hlo) (h1.trans hhi)
        (hrec 2 (by omega)) (hrec 3 (by omega))
    · have hcell : ∀ j < 4, c'.cell (OWN_CRC + 4 * i + j) = c.cell (OWN_CRC + 4 * i + j) :=
        fun j hj => hoth _ ⟨by omega, by omega⟩ (by omega)
      have h0 := hcell 0 (by omega)
      simp only [Nat.add_zero] at h0
      have hold := h.slot i hi
      cases hold with
      | blank mark none =>
        refine .blank (h0.trans mark) fun hf u hlap hmod => ?_
        rw [hs u (by omega)]
        exact none hf u (by omega) hmod
      | of u v hb' hlt hlap hmod hsum' lo hi' wlo whi =>
        refine .of u v hb' (by omega) (by omega) hmod ?_ (h0.trans lo)
          ((hcell 1 (by omega)).trans hi') ((hcell 2 (by omega)).trans wlo)
          ((hcell 3 (by omega)).trans whi)
        rw [hs u (by omega)]
        exact hsum'
  · by_cases heq : u = t
    · exact ⟨heq ▸ hb, by omega, heq ▸ ht⟩
    · rw [hs u heq] at hu
      obtain ⟨h1, h2, h3⟩ := h.range u hu
      exact ⟨h1, by omega, h3⟩

/-- A report for a tick on record that is ignored without being held back has its checksum. -/
theorem Records.agree (h : Records full b t sums c) (hf : full) {u w w' : ℕ} (hs : sums u = some w')
    (hlap : t ≤ u + 256) (hlen : c.cell FRMBUF = 6) (hlo : c.cell (FRMBUF + 3) = u % 65536 % 256)
    (hhi : c.cell (FRMBUF + 4) = u % 65536 / 256) (hwlo : c.cell (FRMBUF + 5) = w % 256)
    (hwhi : c.cell (FRMBUF + 6) = w / 256) (hhold : c.cell RESYNC_HOLD = 0)
    (hpend : c.cell RS_PEND = 0) (hi : RS_ON_CRC c = c) : w = w' := by
  have hcrc := crcHandled c
  rw [hi] at hcrc
  obtain ⟨h0, h1, h2, h3⟩ := h.kept hf hs hlap
  rw [show u % 256 = u % 65536 % 256 by omega, ← hlo] at h0 h1 h2 h3
  cases hcrc with
  | ignored why =>
    rcases why with hshort | hheld | hwanted | hother | hother | ⟨hsame, hsame'⟩
    · omega
    · exact absurd hhold hheld
    · exact absurd hpend hwanted
    · exact absurd h0 hother
    · rw [h1, hhi] at hother
      omega
    · rw [h2, hwlo] at hsame
      rw [h3, hwhi] at hsame'
      omega
  | alarm _ _ _ _ _ _ wanted _ _ => exact absurd hpend wanted

end Records

/-! ### The cells of the line -/

/-- The cells that the gate, the rings, the records and the resync are made of. -/
def LineCells : Set ℕ :=
  SyncCells ∪ CrcRecords ∪ {a | a = RESYNC_HOLD ∨ a = RS_R_LO ∨ a = RS_R_HI ∨ a = RS_PEND}

/-- The cells of the gate and the rings are among them. -/
theorem sync_line {a : ℕ} (h : a ∈ SyncCells) : a ∈ LineCells := Or.inl (Or.inl h)
theorem record_line {a : ℕ} (h : a ∈ CrcRecords) : a ∈ LineCells := Or.inl (Or.inr h)

/-- They are cells of the match, or records. -/
theorem line_match {a : ℕ} (h : a ∈ LineCells) : a ∈ MatchCells ∪ CrcRecords := by
  rcases h with (h | h) | h
  · exact Or.inl (sync_match h)
  · exact Or.inr h
  · refine Or.inl (Or.inl (Or.inl (Or.inl ?_)))
    rcases h with rfl | rfl | rfl | rfl <;> simp

/-- Those cells by address. -/
theorem line_cases {a : ℕ} (h : a ∈ LineCells) :
    (0x8160 ≤ a ∧ a ≤ 0x8163) ∨ a = 0x819D ∨ a = 0x8108 ∨ a = 0x8109 ∨
      (0x81A0 ≤ a ∧ a < 0x81A8) ∨ (0x8400 ≤ a ∧ a < 0x8C20) ∨ a = 0x8090 ∨ a = 0x8091 ∨
        a = 0x8092 ∨ a = 0x8187 := by
  rcases h with (h | h) | h
  · have := sync_cases h
    omega
  · have : 0x8C00 ≤ a ∧ a < 0x8C20 := h
    omega
  · have : a = 0x8090 ∨ a = 0x8091 ∨ a = 0x8092 ∨ a = 0x8187 := h
    omega

/-- The flags of the resync are neither in the rings nor records. -/
theorem flag_not_sync {a : ℕ} (h : a = RESYNC_HOLD ∨ a = RS_PEND) : a ∉ SyncCells := by
  intro hs
  have := sync_cases hs
  rcases h with rfl | rfl <;> simp at this

/-- The flags are not among the records. -/
theorem flag_not_record {a : ℕ} (h : a = RESYNC_HOLD ∨ a = RS_PEND) : a ∉ CrcRecords := by
  rcases h with rfl | rfl <;> simp [CrcRecords]

/-- The wait of a push is not among them. -/
theorem wait_not_line : RS_PTMO ∉ LineCells := by
  intro h
  have := line_cases h
  simp at this

/-- The mailbox is not among them. -/
theorem line_not_mailbox {a : ℕ} (h : a ∈ LineCells) : a ∉ MailboxArea := by
  have hcases := line_cases h
  intro hm
  have : (0x8114 ≤ a ∧ a ≤ 0x811E) ∨ (0x8130 ≤ a ∧ a ≤ 0x8133) ∨ a = 0x8182 ∨ a = 0x8183 ∨
      (0x9C03 ≤ a ∧ a ≤ 0x9FFF) := hm
  omega

/-- Neither is anything a pump stores to around its dispatches. -/
theorem line_not_pump {a : ℕ} (h : a ∈ LineCells) : a ∉ PumpArea := by
  have hcases := line_cases h
  rintro ((hm | hr) | hf)
  · exact line_not_mailbox h hm
  · have : a = 0x8134 ∨ a = 0x8135 ∨ (0x8200 ≤ a ∧ a < 0x8300) := hr
    omega
  · have : a = 0x8180 ∨ (0x8300 ≤ a ∧ a < 0x8380) := hf
    omega

/-- Nor what the applier does. -/
theorem line_not_apply {a : ℕ} (h : a ∈ LineCells) : a ∉ ApplyArea := by
  rcases line_match h with hm | ⟨h1, h2⟩
  · exact match_not_apply hm
  · simp only [OWN_CRC] at h1 h2
    rintro (hv | himg)
    · have hvars : a = 0x8095 ∨ a = 0x8098 ∨ a = 0x8096 ∨ a = 0x8097 := hv
      omega
    · have := image_cases himg
      omega

/-! ### The frame of a report -/

/-- A machine with the report of a tick in its frame buffer. -/
structure HasReport (t w : ℕ) (c : Cpu) : Prop where
  handler : SES_ONFRAME c = RS_ON_CRC c
  stays : ¬ Rebases c
  length : c.cell FRMBUF = 6
  lo : c.cell (FRMBUF + 3) = t % 65536 % 256
  hi : c.cell (FRMBUF + 4) = t % 65536 / 256
  wlo : c.cell (FRMBUF + 5) = w % 256
  whi : c.cell (FRMBUF + 6) = w / 256

/-- A CRC frame in the buffer is the report of its tick. -/
theorem hasReport {c : Cpu} {seat t w : ℕ}
    (hc : Carries c [6, FT_CRC, seat, t % 65536 % 256, t % 65536 / 256, w % 256, w / 256]) :
    HasReport t w c := by
  have hcell : ∀ i < 7, c.cell (FRMBUF + i) =
      [6, FT_CRC, seat, t % 65536 % 256, t % 65536 / 256, w % 256, w / 256].getD i 0 :=
    fun i hi => hc.cell hi
  have hty : c.cell (FRMBUF + 1) = FT_CRC := hcell 1 (by omega)
  refine ⟨SES_ONFRAME_crc hty, fun hr => ?_, hcell 0 (by omega), hcell 3 (by omega),
    hcell 4 (by omega), hcell 5 (by omega), hcell 6 (by omega)⟩
  rw [hr.1] at hty
  cases hty

/-- Of the cells of the line an alarm stores to the flag only. -/
theorem alarm_kept (c : Cpu) {a : ℕ} (ha : a ∈ LineCells) (hne : a ≠ RS_PEND) :
    (RS_ON_CRC c).cell a = c.cell a := by
  refine (frame_RS_ON_CRC c).cell_eq ?_
  rintro ((hx | hx) | hx)
  · exact hne hx
  · exact wait_not_line (hx ▸ ha)
  · exact line_not_mailbox ha hx

/-! ### Letters on their way -/

/-- Bytes that are the frames of some letters. -/
def Spelled (d seat : ℕ) (ls : List Post) (bytes : List ℕ) : Prop :=
  ∃ fs, List.Forall₂ (Spells d seat) ls fs ∧ bytes = fs.flatten

/-- The letters to a console: what it has not read yet and what is still on the link. -/
def Feeds (d seat : ℕ) (ls : List Post) (c : Cpu) (wire : List ℕ) : Prop :=
  ∃ fs, List.Forall₂ (Spells d seat) ls fs ∧ Inbound c wire fs

/-- The letters a console handles on the machines `ds`, and those left for later. -/
structure HandedOn (d seat : ℕ) (ls : List Post) (ds : List Cpu) (c : Cpu) (wire : List ℕ)
    (read rest : List Post) : Prop where
  split : ls = read ++ rest
  frames : ∃ fs, List.Forall₂ (Spells d seat) read fs ∧ List.Forall₂ Carries ds fs
  feeds : Feeds d seat rest c wire

section Feeds

variable {d seat : ℕ} {ls ms : List Post} {c c' : Cpu} {wire wire' bytes : List ℕ}

/-- No bytes spell no letters. -/
theorem Spelled.nil (d seat : ℕ) : Spelled d seat [] [] := ⟨[], .nil, rfl⟩

/-- A frame that spells a letter spells it alone. -/
theorem Spelled.one {l : Post} {f : List ℕ} (h : Spells d seat l f) : Spelled d seat [l] f :=
  ⟨[f], .cons h .nil, List.flatten_singleton.symm⟩

/-- Letters are spelled one after the other. -/
theorem Spelled.append (h : Spelled d seat ls wire) (h' : Spelled d seat ms bytes) :
    Spelled d seat (ls ++ ms) (wire ++ bytes) := by
  obtain ⟨fs, hfs, rfl⟩ := h
  obtain ⟨gs, hgs, rfl⟩ := h'
  exact ⟨fs ++ gs, List.rel_append hfs hgs, List.flatten_append.symm⟩

/-- Their frames are frames of a peer. -/
theorem peerFrames {fs : List (List ℕ)} (hs : seat ≤ 3) (h : List.Forall₂ (Spells d seat) ls fs) :
    ∀ f ∈ fs, PeerFrame f := by
  induction h with
  | nil => exact List.forall_mem_nil _
  | cons h _ ih => exact List.forall_mem_cons.mpr ⟨h.peerFrame hs, ih⟩

/-- More letters go behind the others. -/
theorem Feeds.append (h : Feeds d seat ls c wire) (hs : seat ≤ 3) (h' : Spelled d seat ms bytes) :
    Feeds d seat (ls ++ ms) c (wire ++ bytes) := by
  obtain ⟨fs, hfs, hin⟩ := h
  obtain ⟨gs, hgs, rfl⟩ := h'
  have hall := List.rel_append hfs hgs
  refine ⟨fs ++ gs, hall, peerFrames hs hall, ?_, hin.waits⟩
  rw [← List.append_assoc, hin.bytes, List.flatten_append]

/-- Whatever leaves the ring alone leaves them as they are. -/
theorem Feeds.congr (h : Feeds d seat ls c wire) (hr : ∀ a ∈ RingCells, c'.cell a = c.cell a) :
    Feeds d seat ls c' wire := by
  obtain ⟨fs, hfs, hin⟩ := h
  exact ⟨fs, hfs, hin.congr hr⟩

/-- Letters whose frames are split are split. -/
theorem delivered_of_split {fs done rest : List (List ℕ)} {ds : List Cpu}
    (hfs : List.Forall₂ (Spells d seat) ls fs) (hsplit : fs = done ++ rest)
    (hc : List.Forall₂ Carries ds done) (hin : Inbound c wire rest) :
    ∃ read left, HandedOn d seat ls ds c wire read left ∧ read.length = done.length := by
  subst hsplit
  have hread := List.forall₂_take_append ls done rest hfs
  have hleft := List.forall₂_drop_append ls done rest hfs
  exact ⟨_, _, ⟨(List.take_append_drop _ _).symm, ⟨done, hread, hc⟩, ⟨rest, hleft, hin⟩⟩,
    hread.length_eq⟩

/-- A pump hands on at most 32 of them. -/
theorem Feeds.pump (h : Feeds d seat ls c wire) (p : Poll) (hw : delivers p ++ wire' = wire) :
    ∃ read rest,
      HandedOn d seat ls (pumpHanded SES_ONFRAME c p) (SES_PUMP SES_ONFRAME c p).cpu wire' read rest ∧
      read.length ≤ 32 := by
  obtain ⟨fs, hfs, hin⟩ := h
  obtain ⟨done, rest, hsplit, hc, hin', hshort⟩ := pump_delivers hin p hw
  obtain ⟨read, left, hd, hlen⟩ := delivered_of_split hfs hsplit hc hin'
  refine ⟨read, left, hd, ?_⟩
  have htwo : ∀ gs : List (List ℕ), (∀ f ∈ gs, 2 ≤ f.length) → 2 * gs.length ≤ gs.flatten.length := by
    intro gs hgs
    induction gs with
    | nil => simp
    | cons f gs ih =>
      have hf := hgs f List.mem_cons_self
      have hrest := ih fun g hg => hgs g (List.mem_cons_of_mem _ hg)
      rw [List.flatten_cons, List.length_append, List.length_cons]
      omega
  have htail := htwo done.tail fun f hf =>
    (hin.peer f (hsplit ▸ List.mem_append_left _ (List.mem_of_mem_tail hf))).isFrame.two_le
  rw [List.length_tail] at htail
  omega

/-- The rest of the pump that hands on START. -/
theorem Spelled.start (h : Spelled d seat ls wire) (hs : seat ≤ 3) (hw : unread c ++ wire' = wire) :
    ∃ read rest, HandedOn d seat ls (handed SES_ONFRAME 256 c) (parseLoop SES_ONFRAME 256 c).cpu wire' read
      rest := by
  obtain ⟨fs, hfs, rfl⟩ := h
  obtain ⟨done, rest, hsplit, hc, hin, -⟩ :=
    parseLoop_delivers 256 c wire' fs (peerFrames hs hfs) hw (buffered_lt _)
  obtain ⟨read, left, hd, -⟩ := delivered_of_split hfs hsplit hc hin
  exact ⟨read, left, hd⟩

end Feeds

end BoxingNetplay.Analysis
