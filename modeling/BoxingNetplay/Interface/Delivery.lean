import BoxingNetplay.Interface.Start
import BoxingNetplay.Interface.Pump
import BoxingNetplay.Interface.RelayFraming

/-!
# What a console accepts from a relay

A frame fits a console when the length table admits it, its handler does not find it too short,
and the counts it carries are at most four.  The pumps of a console that is fed nothing
else slip no byte: no handler touches the receive ring.
-/

set_option autoImplicit false

namespace BoxingNetplay.Interface

open BoxingNetplay.Library
open BoxingNetplay.Model

/-! ### Lengths -/

/-- The least body length the handler of a frame takes.
SOURCE: session.asm:587-772, resync.asm:77-81, 267-305 -/
def handlerMin (f : List ℕ) : ℕ :=
  if f.getD 1 0 = FT_INPUT then 6
  else if f.getD 1 0 = FT_LOBBY then 9 * min (f.getD 2 0) 8 + 2
  else if f.getD 1 0 = FT_START then 38
  else if f.getD 1 0 = FT_PEER_LEFT then 10
  else if f.getD 1 0 = FT_ROOM then 34
  else if f.getD 1 0 = FT_CRC then 6
  else if f.getD 1 0 = FT_STATE then
    if f.getD 3 0 = 0xFF then if f.getD 2 0 = 0 then 5 else 3 else 4
  else 0

/-- A frame that a console takes in whole. -/
structure Fits (f : List ℕ) : Prop where
  isFrame : IsFrame f
  handler : handlerMin f ≤ f.headD 0
  players : f.getD 1 0 = FT_START → f.getD 3 0 ≤ 4
  members : f.getD 1 0 = FT_ROOM → f.getD 2 0 ≤ 4

/-! ### A console that is fed such frames -/

/-- Taking a frame off the ring stores to the read index and the frame buffer. -/
theorem frame_taken {c c' : Cpu} {bs : List ℕ} (h : parseNext c = some (c', .frame bs)) :
    Frame {a | a = RX_RD ∨ (FRMBUF ≤ a ∧ a < FRMBUF + 128)} c c' := by
  unfold parseNext at h
  simp only at h
  split at h
  · cases h
  split at h
  · cases h
  rename_i h2 hok
  rw [Bool.not_eq_false] at hok
  have hb := flenOk_bounds hok
  split at h
  · cases h
  cases h
  refine (extracted _ c FRMBUF (by omega) ⟨le_rfl, by omega⟩).frame.mono ?_
  rintro a (rfl | ⟨h1, h3⟩)
  · exact Or.inl rfl
  · exact Or.inr ⟨h1, by omega⟩

/-- What a console keeps while it is fed frames that fit: two counts that bound what its handlers
write, and the count of slipped bytes. -/
structure Clean (slips : ℕ) (c : Cpu) : Prop where
  count : c.cell NET_COUNT ≤ 4
  lobby : c.cell LOBBY_CNT ≤ 8
  slip : c.cell DIAG_SLIP = slips

/-- A routine that leaves the cells of the stream alone keeps them. -/
theorem Clean.congr {slips : ℕ} {c c' : Cpu} (h : Clean slips c)
    (heq : ∀ a ∈ StreamCells, c'.cell a = c.cell a) : Clean slips c' := by
  have hmem : ∀ a, a = DIAG_SLIP ∨ a = NET_COUNT ∨ a = LOBBY_CNT → a ∈ StreamCells :=
    fun a ha => Or.inr ha
  refine ⟨?_, ?_, ?_⟩
  · rw [heq _ (hmem _ (Or.inr (Or.inl rfl)))]
    exact h.count
  · rw [heq _ (hmem _ (Or.inr (Or.inr rfl)))]
    exact h.lobby
  · rw [heq _ (hmem _ (Or.inl rfl))]
    exact h.slip

/-- Handling a frame that fits leaves the ring and the count of slips alone. -/
theorem handles_fits {slips : ℕ} {d : Cpu} {f : List ℕ} (hd : Clean slips d) (hc : Carries d f)
    (hf : Fits f) :
    Clean slips (SES_ONFRAME d) ∧ ∀ a ∈ RingCells, (SES_ONFRAME d).cell a = d.cell a := by
  have hcell : ∀ i < f.length, d.cell (FRMBUF + i) = f.getD i 0 := fun i hi => hc.cell hi
  have htype : d.cell (FRMBUF + 1) = f.getD 1 0 := hcell 1 hf.isFrame.two_le
  have hbut : ∀ {c' : Cpu}, (∀ a ∈ StreamCells, a ≠ NET_COUNT → a ≠ LOBBY_CNT →
      c'.cell a = d.cell a) → c'.cell NET_COUNT ≤ 4 → c'.cell LOBBY_CNT ≤ 8 →
      Clean slips c' ∧ ∀ a ∈ RingCells, c'.cell a = d.cell a := fun h h1 h2 => by
    refine ⟨⟨h1, h2, (h _ (Or.inr (Or.inl rfl)) (by decide) (by decide)).trans hd.slip⟩,
      fun a ha => h a (Or.inl ha) ?_ ?_⟩ <;>
      (rintro rfl; simp [RingCells] at ha)
  have hall : ∀ {c' : Cpu}, (∀ a ∈ StreamCells, c'.cell a = d.cell a) →
      Clean slips c' ∧ ∀ a ∈ RingCells, c'.cell a = d.cell a := fun h =>
    ⟨hd.congr h, fun a ha => h a (Or.inl ha)⟩
  -- all but LOBBY and START leave every cell of the stream alone
  refine SES_ONFRAME_rule (P := fun c => Clean slips c ∧ ∀ a ∈ RingCells, c.cell a = d.cell a) d
    (fun h => ?_) (fun h => ?_) (fun h => ?_) (fun h => ?_) (fun h => ?_) (fun h => ?_) (fun h => ?_)
    (fun h => ?_) ⟨hd, fun _ _ => rfl⟩
  · refine hall fun a ha => (frame_of_input d fun hin => ?_).cell_eq (stream_not_handler ha).1
    exact Nat.le_of_lt_succ (Nat.lt_of_lt_of_le hin.2.2.1 hd.count)
  · obtain ⟨hframe, hcount⟩ := frame_of_lobby d hd.lobby
    have hother : ∀ a ∈ StreamCells, a ≠ LOBBY_CNT → (of_lobby d).cell a = d.cell a := by
      intro a ha hne
      obtain ⟨-, -, -, -, h5, h6, -⟩ := stream_not_handler ha
      refine hframe.cell_eq ?_
      rintro (hx | hx)
      · exact h5 hx
      · exact hne (h6 hx)
    refine hbut (fun a ha _ hne => hother a ha hne) ?_ hcount
    rw [hother _ (Or.inr (Or.inr (Or.inl rfl))) (by decide)]
    exact hd.count
  · by_cases hshort : d.cell FRMBUF < 38
    · have heq : of_start d = d := if_pos hshort
      rw [heq]
      exact ⟨hd, fun _ _ => rfl⟩
    have hs := started d (Nat.not_lt.mp hshort)
    have hother : ∀ a ∈ StreamCells, a ≠ NET_COUNT → (of_start d).cell a = d.cell a :=
      fun a ha hne => hs.frame.cell_eq fun hx => hne ((stream_not_handler ha).2.2.2.2.2.2.2.1 hx)
    refine hbut (fun a ha hne _ => hother a ha hne) ?_ ?_
    · have hlen : 3 < f.length := by
        match f, hf.isFrame with
        | len :: ty :: rest, hfr =>
          have h0 : d.cell FRMBUF = len := hcell 0 (by simp)
          have := hfr.2
          simp only [List.length_cons]
          omega
      rw [hs.count, hcell 3 hlen]
      exact hf.players (htype ▸ h)
    · rw [hother _ (Or.inr (Or.inr (Or.inr rfl))) (by decide)]
      exact hd.lobby
  · exact hall fun a ha => (frame_of_pl d).cell_eq (stream_not_handler ha).2.2.2.2.2.2.2.2
  · by_cases hshort : d.cell FRMBUF < 34
    · have heq : of_room d = d := by
        unfold of_room
        by_cases hact : d.cell NET_ACTIVE ≠ 0
        · rw [if_pos hact]
        · rw [if_neg hact, if_pos hshort]
      rw [heq]
      exact ⟨hd, fun _ _ => rfl⟩
    have hcount : d.cell (FRMBUF + 2) ≤ 9 := by
      have hlen : 2 < f.length := by
        match f, hf.isFrame with
        | len :: ty :: rest, hfr =>
          have h0 : d.cell FRMBUF = len := hcell 0 (by simp)
          have := hfr.2
          simp only [List.length_cons]
          omega
      rw [hcell 2 hlen]
      exact (hf.members (htype ▸ h)).trans (by decide)
    obtain ⟨hframe, hlobby⟩ := frame_of_room d hd.lobby fun _ => hcount
    refine hall fun a ha => ?_
    by_cases hne : a = LOBBY_CNT
    · rw [hne]
      exact hlobby
    obtain ⟨-, -, -, -, h5, h6, h7, -⟩ := stream_not_handler ha
    refine hframe.cell_eq ?_
    rintro ((hx | hx) | hx)
    · exact h5 hx
    · exact hne (h6 hx)
    · exact h7 hx
  · exact hall fun a ha => (frame_RS_ON_CRC d).cell_eq (stream_not_handler ha).2.1
  · refine hall fun a ha => (frame_RS_ON_STATE d).cell_eq ?_
    obtain ⟨-, -, h3, h4, -⟩ := stream_not_handler ha
    rintro (h | ⟨-, h⟩)
    · exact h3 h
    · exact h4 h
  · exact hall fun a ha => (frame_RS_ON_REQ d).cell_eq fun h =>
      (stream_not_handler ha).2.1 (Or.inl h)

/-- Frames that fit are in good hands. -/
theorem tame_fits (slips : ℕ) : Tame (Clean slips) Fits where
  isFrame hf := hf.isFrame
  takes h hc := by
    have hframe := frame_taken h
    refine ⟨?_, ?_, ?_⟩
    · rw [hframe.cell_eq (by simp)]
      exact hc.count
    · rw [hframe.cell_eq (by simp)]
      exact hc.lobby
    · rw [hframe.cell_eq (by simp)]
      exact hc.slip
  handles := handles_fits

/-- Receiving leaves all that alone. -/
theorem clean_receive {slips : ℕ} {c : Cpu} (h : Clean slips c) (p : Poll) :
    Clean slips (receive c p) := by
  have hcell : ∀ a, a = DIAG_SLIP ∨ a = NET_COUNT ∨ a = LOBBY_CNT →
      (receive c p).cell a = c.cell a := by
    intro a ha
    have hmb : a ∉ MailboxArea := fun hx => (stream_not_handler (Or.inr ha)).2.1 (Or.inr hx)
    refine ((frame_accumulate _ _).cell_eq ?_).trans ((frame_request c p).cell_eq hmb)
    rcases ha with rfl | rfl | rfl <;> simp
  refine ⟨?_, ?_, ?_⟩
  · rw [hcell _ (Or.inr (Or.inl rfl))]
    exact h.count
  · rw [hcell _ (Or.inr (Or.inr rfl))]
    exact h.lobby
  · rw [hcell _ (Or.inl rfl)]
    exact h.slip

/-- What is unread and what is still on the wire are frames that fit. -/
structure Fed (slips : ℕ) (c : Cpu) (wire : List ℕ) : Prop where
  clean : Clean slips c
  bytes : ∃ pending : List (List ℕ), (∀ f ∈ pending, Fits f) ∧ unread c ++ wire = pending.flatten
  waits : consoleFraming.verdict (unread c) = .wait

/-- A pump that takes bytes off the wire slips none. -/
theorem Fed.pump {slips : ℕ} {c : Cpu} {wire wire' : List ℕ} (h : Fed slips c wire) (p : Poll)
    (hw : delivers p ++ wire' = wire) : Fed slips (SES_PUMP SES_ONFRAME c p).cpu wire' := by
  obtain ⟨pending, hp, hb⟩ := h.bytes
  have hwait := length_le_of_wait h.waits
  rw [length_unread] at hwait
  have hbytes : unread (receive c p) ++ wire' = pending.flatten := by
    rw [unread_receive c p hwait, List.append_assoc, hw, hb]
  obtain ⟨done, rest, hsplit, hands⟩ := parseLoop_hands (tame_fits slips) 256 (receive c p)
    (clean_receive h.clean p) wire' pending hp hbytes (buffered_lt _)
  exact ⟨hands.keeps, ⟨rest, fun f hf => hp f (by
    rw [hsplit]
    exact List.mem_append_right _ hf), hands.bytes⟩, hands.waits⟩

theorem Fed.congr {slips : ℕ} {c c' : Cpu} {wire : List ℕ} (h : Fed slips c wire)
    (heq : ∀ a ∈ StreamCells, c'.cell a = c.cell a) : Fed slips c' wire := by
  have hu := (unread_congr fun a ha => heq a (Or.inl ha)).1
  refine ⟨h.clean.congr heq, ?_, ?_⟩
  · rw [hu]
    exact h.bytes
  · rw [hu]
    exact h.waits

/-- A pump, and what the console does before the next one: anything that leaves the cells of the stream
alone. -/
structure PumpTurn where
  poll : Poll
  after : Cpu → Cpu
  keeps : ∀ c, ∀ a ∈ StreamCells, (after c).cell a = c.cell a

/-- The console after some turns. -/
def pumpTurns : Cpu → List PumpTurn → Cpu
  | c, [] => c
  | c, t :: ts => pumpTurns (t.after (SES_PUMP SES_ONFRAME c t.poll).cpu) ts

/-- However its bytes arrive, a stream of frames that fit slips none. -/
theorem Fed.turns {slips : ℕ} {c : Cpu} {wire wire' : List ℕ} (h : Fed slips c wire)
    (ts : List PumpTurn) (hw : (ts.flatMap fun t => delivers t.poll) ++ wire' = wire) :
    Fed slips (pumpTurns c ts) wire' := by
  induction ts generalizing c wire with
  | nil =>
    rw [List.flatMap_nil, List.nil_append] at hw
    exact hw ▸ h
  | cons t ts ih =>
    rw [List.flatMap_cons, List.append_assoc] at hw
    exact ih ((h.pump t.poll hw).congr (t.keeps _)) rfl

/-- The length table admits a frame, and its handler does not find it too short. -/
def Accepted (f : List ℕ) : Prop :=
  f.getD 1 0 < 16 ∧ flenOk (f.getD 1 0) (f.headD 0) = true ∧ f.length = f.headD 0 + 1 ∧
    handlerMin f ≤ f.headD 0

/-- The length table admits it. -/
theorem Fits.accepted {f : List ℕ} (h : Fits f) : Accepted f := by
  match f, h with
  | len :: ty :: rest, h =>
    obtain ⟨hok, hlen⟩ := h.isFrame
    refine ⟨?_, hok, by rw [List.headD_cons, ← hlen]; rfl, h.handler⟩
    simp only [flenOk, Bool.and_eq_true, decide_eq_true_eq] at hok
    exact hok.1.1.1

/-- A console that starts with an empty ring and is fed the beginning of a stream, in any pieces,
slips no byte of it. -/
def NeverSlips (stream : List ℕ) : Prop :=
  ∀ (c : Cpu) (ts : List PumpTurn), c.cell RX_WR = c.cell RX_RD → c.cell NET_COUNT ≤ 4 →
    c.cell LOBBY_CNT ≤ 8 → (ts.flatMap fun t => delivers t.poll) <+: stream →
      (pumpTurns c ts).cell DIAG_SLIP = c.cell DIAG_SLIP

/-- The beginning of a stream of frames that fit is such a stream. -/
theorem neverSlips {fs : List (List ℕ)} (hfs : ∀ f ∈ fs, Fits f) {stream rest : List ℕ}
    (h : stream ++ rest = fs.flatten) : NeverSlips stream := by
  rintro c ts hring hcount hlobby ⟨left, hleft⟩
  have hbuf : buffered c = 0 := by
    have := c.cell_lt_cart (a := RX_RD) (by decide) (by decide)
    unfold buffered
    rw [hring]
    omega
  have hnil : unread c = [] := List.length_eq_zero_iff.mp (by rw [length_unread, hbuf])
  have hfed : Fed (c.cell DIAG_SLIP) c (stream ++ rest) :=
    ⟨⟨hcount, hlobby, rfl⟩, ⟨fs, hfs, by rw [hnil, List.nil_append, h]⟩, by rw [hnil]; rfl⟩
  have hsplit : (ts.flatMap fun t => delivers t.poll) ++ (left ++ rest) = stream ++ rest := by
    rw [← hleft, List.append_assoc]
  exact (hfed.turns ts hsplit).clean.slip

/-! ### What relays queue -/

open BoxingNetplay.Model.Wire

/-- A frame of a type the console knows, with a length the table admits. -/
theorem isFrame_frame {ftype : ℕ} {payload : List ℕ} (hlen : payload.length < 255)
    (hok : flenOk ftype (payload.length + 1) = true) : IsFrame (frame ftype payload) := by
  have hmod : (payload.length + 1) % 256 = payload.length + 1 := Nat.mod_eq_of_lt (by omega)
  rw [frame, hmod]
  exact ⟨hok, rfl⟩

/-- A frame begins with the length of its type and payload. -/
theorem headD_frame {ftype : ℕ} {payload : List ℕ} (hlen : payload.length < 255) :
    (frame ftype payload).headD 0 = payload.length + 1 := Nat.mod_eq_of_lt (by omega)

/-- A ROOM with at most four members fits. -/
theorem fits_room {payload : List ℕ} (h : payload.length = 33)
    (hn : payload.headD 0 ≤ ROSTER_SLOTS) : Fits (frame T_ROOM payload) where
  isFrame := isFrame_frame (by omega) (by rw [h]; rfl)
  handler := by
    rw [headD_frame (by omega), h]
    rfl
  players h := nomatch h
  members _ := by
    cases payload with
    | nil => exact Nat.zero_le _
    | cons n payload => exact hn

theorem fits_left {payload : List ℕ} (h : payload.length = 9) : Fits (frame T_PEER_LEFT payload) where
  isFrame := isFrame_frame (by omega) (by rw [h]; rfl)
  handler := by
    rw [headD_frame (by omega), h]
    rfl
  players h := nomatch h
  members h := nomatch h

theorem fits_start {payload : List ℕ} (h : payload.length = 37)
    (hn : payload.getD 1 0 ≤ ROSTER_SLOTS) : Fits (frame T_START payload) where
  isFrame := isFrame_frame (by omega) (by rw [h]; rfl)
  handler := by
    rw [headD_frame (by omega), h]
    rfl
  players _ := by
    match payload, hn with
    | [], _ => exact Nat.zero_le _
    | [_], _ => exact Nat.zero_le _
    | _ :: n :: _, hn => exact hn
  members h := nomatch h

theorem fits_pong : Fits (frame T_PONG []) :=
  ⟨⟨rfl, rfl⟩, Nat.zero_le _, fun h => (nomatch h), fun h => (nomatch h)⟩

/-- A lobby of up to eight entries, which are nine bytes each. -/
theorem fits_lobby {n : ℕ} {entries : List ℕ} (hn : n ≤ LOBBY_ENTRIES)
    (h : entries.length = 9 * n) : Fits (frame T_LOBBY (n :: entries)) := by
  simp only [LOBBY_ENTRIES] at hn
  have hlen : (n :: entries).length = 9 * n + 1 := by rw [List.length_cons, h]
  refine ⟨isFrame_frame (by omega) ?_, ?_, fun h => (nomatch h), fun h => (nomatch h)⟩
  · rw [hlen]
    simp only [flenOk, Bool.and_eq_true, decide_eq_true_eq]
    refine ⟨⟨⟨by decide, by decide⟩, ?_⟩, ?_⟩
    · change 2 ≤ _
      omega
    · change _ ≤ 74
      omega
  · rw [headD_frame (by omega), hlen]
    change 9 * min n 8 + 2 ≤ _
    omega

end BoxingNetplay.Interface
