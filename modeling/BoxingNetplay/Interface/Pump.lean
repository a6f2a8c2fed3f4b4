import BoxingNetplay.Interface.Handlers

/-!
# The pump and the frames it hands on

One round of the parse loop does to the unread bytes what the framing says (`parseNext_round`);
between two dispatches a pump stores to the mailbox, the ring and the frame buffer only
(`Handles`); and when what is unread and what is still on the wire together are complete
frames of a peer, a pump hands the next few of them on, in order (`pump_delivers`).
-/

set_option autoImplicit false

namespace BoxingNetplay.Interface

open BoxingNetplay.Library
open BoxingNetplay.Model

/-! ### One round of the parse loop -/

/-- With two bytes unread, the loop looks at the length and the type at the front. -/
theorem unread_front (c : Cpu) (h : 2 ≤ buffered c) :
    ∃ rest, unread c = c.cell (c.cell RX_RD + RXACC) ::
      c.cell ((c.cell RX_RD + 1) % 256 + RXACC) :: rest ∧ rest.length + 2 = buffered c := by
  have h2 : c.cell RX_RD < 256 := c.cell_lt_cart (by decide) (by decide)
  refine ⟨window (fun i => c.cell (RXACC + i)) 256 (c.cell RX_RD + 1 + 1) (buffered c - 2), ?_, ?_⟩
  · unfold unread
    conv_lhs => rw [show buffered c = buffered c - 2 + 1 + 1 by omega]
    rw [window_succ, window_succ, Nat.mod_eq_of_lt h2, Nat.add_comm RXACC, Nat.add_comm RXACC]
  · rw [length_window]
    omega

/-- Fewer than two unread bytes decide nothing. -/
theorem verdict_short (c : Cpu) (h : buffered c < 2) :
    consoleFraming.verdict (unread c) = .wait := by
  have hlen := length_unread c
  change consoleVerdict (unread c) = .wait
  match unread c, hlen with
  | [], _ => rfl
  | [_], _ => rfl
  | _ :: _ :: _, hlen =>
    rw [List.length_cons, List.length_cons] at hlen
    omega

/-- What one round of the parse loop does, as the framing sees it. -/
inductive Round (c : Cpu) : Option (Cpu × Item ℕ) → Prop where
  | wait (h : consoleFraming.verdict (unread c) = .wait) : Round c none
  | slip (c' : Cpu) (b : ℕ) (h : consoleFraming.verdict (unread c) = .slip)
      (hc : unread c = b :: unread c') : Round c (some (c', .slip b))
  | take (c' : Cpu) (n : ℕ) (h : consoleFraming.verdict (unread c) = .take n)
      (hc : unread c' = (unread c).drop n) : Round c (some (c', .frame ((unread c).take n)))

/-- Discarding a byte advances the read index and counts the slip. -/
theorem unread_slip (c : Cpu) (h : 0 < buffered c) :
    unread c = c.cell (c.cell RX_RD + RXACC) ::
      unread (DIAG_BUMP (c.sto RX_RD ((c.cell RX_RD + 1) % 256)) DIAG_SLIP) := by
  have hget := unread_get c FRMBUF h ⟨le_rfl, by omega⟩
  rw [hget]
  refine congrArg (List.cons _) (unread_congr ?_).1
  intro a ha
  have hdiag : a ∉ ({DIAG_SLIP} : Set ℕ) := by
    rintro rfl
    rcases ha with ha | ha | ha <;> simp at ha
  have hfrm : a ≠ FRMBUF := by
    rintro rfl
    rcases ha with ha | ha | ha <;> simp at ha
  rw [Cpu.sto_cell, Cpu.sto_cell, if_neg hfrm,
    (frame_DIAG_BUMP (A := {DIAG_SLIP}) _ rfl).cell_eq hdiag, Cpu.sto_cell]

/-- What a round takes off the ring follows the framing. -/
theorem parseNext_round (c : Cpu) : Round c (parseNext c) := by
  unfold parseNext
  by_cases h2 : buffered c < 2
  · rw [if_pos h2]
    exact .wait (verdict_short c h2)
  rw [if_neg h2]
  obtain ⟨rest, hfront, hrest⟩ := unread_front c (by omega)
  simp only
  generalize hlen : c.cell (c.cell RX_RD + RXACC) = len at hfront ⊢
  generalize c.cell ((c.cell RX_RD + 1) % 256 + RXACC) = ty at hfront ⊢
  have hverdict : consoleFraming.verdict (unread c) =
      if flenOk ty len then if len ≤ rest.length + 1 then .take (len + 1) else .wait else .slip := by
    rw [hfront]
    rfl
  cases hok : flenOk ty len with
  | false =>
    rw [if_pos rfl]
    refine .slip _ len (by rw [hverdict, hok]; rfl) ?_
    rw [← hlen]
    exact unread_slip c (by omega)
  | true =>
    rw [if_neg (by decide)]
    by_cases hwait : buffered c < len + 1
    · rw [if_pos hwait]
      refine .wait ?_
      rw [hverdict, hok, if_pos rfl, if_neg (by omega)]
    · have htake : consoleFraming.verdict (unread c) = .take (len + 1) := by
        rw [hverdict, hok, if_pos rfl, if_pos (by omega)]
      have hle := take_le htake
      rw [if_neg hwait, frameBuf_extract c (len + 1) (by omega) (by omega)]
      refine .take _ _ htake ?_
      exact (extracted (len + 1) c FRMBUF (by omega) ⟨le_rfl, by omega⟩).unread_eq

/-! ### Receiving -/

/-- The transactions of a pump leave the ring alone. -/
theorem unread_request (c : Cpu) (p : Poll) : unread (request c p).1 = unread c := by
  refine (unread_congr ?_).1
  intro a ha
  refine (frame_request c p).cell_eq ?_
  intro hmb
  rcases ha with rfl | rfl | ha
  · simp [MailboxArea] at hmb
  · simp [MailboxArea] at hmb
  · simp [MailboxArea] at hmb ha
    omega

/-- A poll delivers its data or nothing. -/
theorem delivers_eq (p : Poll) : delivers p = p.data ∨ delivers p = [] := by
  unfold delivers
  split
  · split
    · exact Or.inl rfl
    · exact Or.inr rfl
  · exact Or.inr rfl

/-- A poll delivers at most 64 bytes. -/
theorem length_delivers (p : Poll) : (delivers p).length ≤ 64 := by
  rcases delivers_eq p with hs | hs
  · exact hs ▸ p.short
  · rw [hs]
    simp

/-- What a poll delivers are bytes. -/
theorem bytes_delivers (p : Poll) : ∀ b ∈ delivers p, b < 256 := by
  intro b hb
  rcases delivers_eq p with hs | hs
  · exact p.bytes b (hs ▸ hb)
  · rw [hs] at hb
    cases hb

/-- A pump appends what the poll delivers, when at most 99 bytes were left over. -/
theorem unread_receive (c : Cpu) (p : Poll) (h : buffered c ≤ 99) :
    unread (receive c p) = unread c ++ delivers p := by
  have hbytes := bytes_delivers p
  have hshort := length_delivers p
  have hun := unread_request c p
  have hbuf := congrArg List.length hun
  rw [length_unread, length_unread] at hbuf
  unfold receive
  rw [request_data, unread_accumulate _ _ hbytes (by omega), hun]

/-- Receiving and extracting store to the mailbox, the ring, its indices, the frame buffer and
the slip counter. -/
def PumpArea : Set ℕ :=
  MailboxArea ∪ RingCells ∪ {a | a = DIAG_SLIP ∨ (FRMBUF ≤ a ∧ a < FRMBUF + 128)}

/-- The receive half of a pump stores to the pump's area. -/
theorem frame_receive (c : Cpu) (p : Poll) : Frame PumpArea c (receive c p) := by
  refine ((frame_request c p).mono fun _ h => Or.inl (Or.inl h)).trans
    ((frame_accumulate _ _).mono ?_)
  rintro a (h | h)
  · exact Or.inl (Or.inr (Or.inl h))
  · exact Or.inl (Or.inr (Or.inr (Or.inr h)))

/-- Taking a frame or a byte off the ring stores to the pump's area. -/
theorem frame_parseNext {c c' : Cpu} {i : Item ℕ} (h : parseNext c = some (c', i)) :
    Frame PumpArea c c' := by
  unfold parseNext at h
  have hrd : RX_RD ∈ PumpArea := Or.inl (Or.inr (Or.inr (Or.inl rfl)))
  by_cases h2 : buffered c < 2
  · rw [if_pos h2] at h
    cases h
  rw [if_neg h2] at h
  simp only at h
  cases hok : flenOk (c.cell ((c.cell RX_RD + 1) % 256 + RXACC)) (c.cell (c.cell RX_RD + RXACC)) with
  | false =>
    rw [hok, if_pos rfl] at h
    cases h
    exact ((Frame.refl _ c).sto hrd).trans (frame_DIAG_BUMP _ (Or.inr (Or.inl rfl)))
  | true =>
    rw [hok, if_neg (by decide)] at h
    have hb := flenOk_bounds hok
    split at h
    · cases h
    · rename_i hlen
      cases h
      refine (extracted _ c FRMBUF (by omega) ⟨le_rfl, by omega⟩).frame.mono ?_
      rintro a (rfl | ⟨ha1, ha2⟩)
      · exact hrd
      · exact Or.inr (Or.inr ⟨ha1, by omega⟩)

/-- The transactions of a pump send nothing. -/
theorem silent_request (c : Cpu) (p : Poll) : Silent c (request c p).1 := by
  have hstatus : Silent c (NET_STATUS c p) := by
    unfold NET_STATUS
    extract_lets c1 c2 c3 c4 c5 c6 c7
    have h6 : Silent c c6 := by
      refine Silent.trans ?_ (silent_MB_TRANSACT c5 p.status)
      repeat' apply Silent.sto
      exact Silent.refl _
    exact Silent.ite h6.sto.sto (Silent.ite h6.sto.sto h6.sto.sto.sto.sto)
  have hread : ∀ d, Silent d (NET_READ d p) := by
    intro d
    unfold NET_READ
    extract_lets c1 c2 c3 c4 c5 c6
    have h6 : Silent d c6 := by
      refine Silent.trans ?_ (silent_MB_TRANSACT c5 p.read)
      repeat' apply Silent.sto
      exact Silent.refl _
    exact Silent.ite h6.sto.sto h6.sto.sto
  unfold request
  simp only
  split
  · exact hstatus
  · split
    · exact hstatus
    · exact (hstatus.sto.sto).trans (hread _)

/-- Nor does receiving. -/
theorem silent_receive (c : Cpu) (p : Poll) : Silent c (receive c p) := by
  have hacc : ∀ (bs : List ℕ) (d : Cpu), Silent d (accumulate d bs) := by
    intro bs
    induction bs with
    | nil => exact Silent.refl
    | cons b bs ih => exact fun d => ((Silent.refl d).sto.sto).trans (ih _)
  exact (silent_request c p).trans (hacc _ _)

/-- Nor does taking a frame or a byte off the ring. -/
theorem silent_parseNext {c c' : Cpu} {i : Item ℕ} (h : parseNext c = some (c', i)) :
    Silent c c' := by
  have hext : ∀ (n : ℕ) (d : Cpu) (r5 : ℕ), Silent d (extract d r5 n) := by
    intro n
    induction n with
    | zero => exact fun d _ => Silent.refl d
    | succ n ih => exact fun d r5 => ((Silent.refl d).sto.sto).trans (ih _ _)
  unfold parseNext at h
  simp only at h
  split at h
  · cases h
  · split at h
    · cases h
      exact silent_DIAG_BUMP (Silent.refl c).sto DIAG_SLIP
    · split at h
      · cases h
      · cases h
        exact hext _ _ _

/-! ### The machines frames are dispatched on -/

/-- The machines on which a run of the parse loop hands a frame to its handler.
SOURCE: session.asm:488-553 -/
def handed (f : Cpu → Cpu) : ℕ → Cpu → List Cpu
  | 0, _ => []
  | fuel + 1, c =>
    match parseNext c with
    | none => []
    | some (c', .slip _) => handed f fuel c'
    | some (c', .frame _) => c' :: handed f fuel (f c')

/-- The machines on which a pump hands a frame to its handler. -/
def pumpHanded (f : Cpu → Cpu) (c : Cpu) (p : Poll) : List Cpu := handed f 256 (receive c p)

/-- What the pump does around its dispatches: it stores to its own area and sends nothing. -/
structure Moves (c c' : Cpu) : Prop where
  frame : Frame PumpArea c c'
  silent : Silent c c'

theorem Moves.refl (c : Cpu) : Moves c c := ⟨Frame.refl _ c, Silent.refl c⟩

theorem Moves.trans {c c' c'' : Cpu} (h : Moves c c') (h' : Moves c' c'') : Moves c c'' :=
  ⟨h.frame.trans h'.frame, h.silent.trans h'.silent⟩

/-- From one machine to another, calling a handler on each of a list in turn. -/
inductive Handles (f : Cpu → Cpu) : Cpu → List Cpu → Cpu → Prop where
  | done {c c' : Cpu} (h : Moves c c') : Handles f c [] c'
  | hand {c d c' : Cpu} {ds : List Cpu} (h : Moves c d) (hs : Handles f (f d) ds c') :
      Handles f c (d :: ds) c'

section Handler

variable {f : Cpu → Cpu}

/-- Moves before a run of dispatches belong to it. -/
theorem Handles.after {c c' c'' : Cpu} {ds : List Cpu} (h : Moves c c') (hs : Handles f c' ds c'') :
    Handles f c ds c'' := by
  cases hs with
  | done h' => exact .done (h.trans h')
  | hand h' hs => exact .hand (h.trans h') hs

/-- The parse loop calls its handler on the machines it hands frames on. -/
theorem handles_parseLoop (fuel : ℕ) (c : Cpu) :
    Handles f c (handed f fuel c) (parseLoop f fuel c).cpu := by
  induction fuel generalizing c with
  | zero => exact .done (Moves.refl c)
  | succ fuel ih =>
    unfold handed parseLoop parseStep
    cases hn : parseNext c with
    | none => exact .done (Moves.refl c)
    | some r =>
      obtain ⟨c', i⟩ := r
      have hm : Moves c c' := ⟨frame_parseNext hn, silent_parseNext hn⟩
      cases i with
      | slip b => exact (ih c').after hm
      | frame bs => exact .hand hm (ih (f c'))

/-- So does a pump. -/
theorem handles_pump (c : Cpu) (p : Poll) :
    Handles f c (pumpHanded f c p) (SES_PUMP f c p).cpu :=
  (handles_parseLoop 256 (receive c p)).after ⟨frame_receive c p, silent_receive c p⟩

/-- What moves and dispatches preserve, a pump preserves. -/
theorem Handles.preserves {P : Cpu → Prop} {c c' : Cpu} {ds : List Cpu} (h : Handles f c ds c')
    (hmove : ∀ {d d'}, Moves d d' → P d → P d') (hframe : ∀ d ∈ ds, P d → P (f d))
    (hc : P c) : P c' := by
  induction h with
  | done h => exact hmove h hc
  | hand h _ ih =>
    exact ih (fun d hd => hframe d (List.mem_cons_of_mem _ hd))
      (hframe _ List.mem_cons_self (hmove h hc))

end Handler

section Handlers

variable {d : Cpu}

/-- An INPUT goes to its handler. -/
theorem SES_ONFRAME_input (h : d.cell (FRMBUF + 1) = FT_INPUT) : SES_ONFRAME d = of_input d := by
  unfold SES_ONFRAME
  simp only [h]
  rfl

/-- A LOBBY goes to its handler. -/
theorem SES_ONFRAME_lobby (h : d.cell (FRMBUF + 1) = FT_LOBBY) : SES_ONFRAME d = of_lobby d := by
  unfold SES_ONFRAME
  simp only [h]
  rfl

/-- A START goes to its handler. -/
theorem SES_ONFRAME_start (h : d.cell (FRMBUF + 1) = FT_START) : SES_ONFRAME d = of_start d := by
  unfold SES_ONFRAME
  simp only [h]
  rfl

/-- A ROOM goes to its handler. -/
theorem SES_ONFRAME_room (h : d.cell (FRMBUF + 1) = FT_ROOM) : SES_ONFRAME d = of_room d := by
  unfold SES_ONFRAME
  simp only [h]
  rfl

/-- A CRC goes to its handler. -/
theorem SES_ONFRAME_crc (h : d.cell (FRMBUF + 1) = FT_CRC) : SES_ONFRAME d = RS_ON_CRC d := by
  unfold SES_ONFRAME
  simp only [h]
  rfl

/-- A STATE goes to its handler. -/
theorem SES_ONFRAME_state (h : d.cell (FRMBUF + 1) = FT_STATE) : SES_ONFRAME d = RS_ON_STATE d := by
  unfold SES_ONFRAME
  simp only [h]
  rfl

/-- A RESYNC goes to its handler. -/
theorem SES_ONFRAME_resync (h : d.cell (FRMBUF + 1) = FT_RESYNC) : SES_ONFRAME d = RS_ON_REQ d := by
  unfold SES_ONFRAME
  simp only [h]
  rfl

end Handlers

/-- What is shown for each handler, and for frames of other types, holds of the dispatch. -/
theorem SES_ONFRAME_rule {P : Cpu → Prop} (c : Cpu)
    (input : c.cell (FRMBUF + 1) = FT_INPUT → P (of_input c))
    (lobby : c.cell (FRMBUF + 1) = FT_LOBBY → P (of_lobby c))
    (start : c.cell (FRMBUF + 1) = FT_START → P (of_start c))
    (left : c.cell (FRMBUF + 1) = FT_PEER_LEFT → P (of_pl c))
    (room : c.cell (FRMBUF + 1) = FT_ROOM → P (of_room c))
    (crc : c.cell (FRMBUF + 1) = FT_CRC → P (RS_ON_CRC c))
    (state : c.cell (FRMBUF + 1) = FT_STATE → P (RS_ON_STATE c))
    (resync : c.cell (FRMBUF + 1) = FT_RESYNC → P (RS_ON_REQ c)) (other : P c) :
    P (SES_ONFRAME c) := by
  unfold SES_ONFRAME
  simp only
  split
  · exact input ‹_›
  split
  · exact lobby ‹_›
  split
  · exact start ‹_›
  split
  · exact left ‹_›
  split
  · exact room ‹_›
  split
  · exact crc ‹_›
  split
  · exact state ‹_›
  split
  · exact resync ‹_›
  · exact other

/-! ### Frames of a peer -/

/-- A frame a peer sends during a match: an INPUT of one of the four seats, a CRC, a
STATE or a RESYNC frame. -/
structure PeerFrame (f : List ℕ) : Prop where
  isFrame : IsFrame f
  type : f.getD 1 0 ∈ [FT_INPUT, FT_CRC, FT_STATE, FT_RESYNC]
  seat : f.getD 1 0 = FT_INPUT → f.getD 2 0 ≤ 3

/-- The frame buffer holds `f`. -/
def Carries (d : Cpu) (f : List ℕ) : Prop := frameBuf d f.length = f

/-- A byte of the frame in the buffer. -/
theorem Carries.cell {d : Cpu} {f : List ℕ} (h : Carries d f) {i : ℕ} (hi : i < f.length) :
    d.cell (FRMBUF + i) = f.getD i 0 := by
  have hget := congrArg (fun l => l.getD i 0) h
  simp only [frameBuf, List.getD_eq_getElem?_getD, List.getElem?_map, List.getElem?_range hi,
    Option.map_some, Option.getD_some] at hget
  rw [hget, List.getD_eq_getElem?_getD]

/-- A frame has a length byte and a type. -/
theorem IsFrame.two_le {f : List ℕ} (h : IsFrame f) : 2 ≤ f.length := by
  match f, h with
  | _ :: _ :: _, _ => simp

/-- The cells a run of pumps relies on: the ring, and three counters. -/
def StreamCells : Set ℕ := RingCells ∪ {a | a = DIAG_SLIP ∨ a = NET_COUNT ∨ a = LOBBY_CNT}

/-- A cell of the stream is in none of the areas the handlers store to, but for the two
counts. -/
theorem stream_not_handler {a : ℕ} (h : a ∈ StreamCells) :
    a ∉ RingPages ∪ Watermarks ∧ a ∉ {a | a = RS_PEND ∨ a = RS_PTMO} ∪ MailboxArea ∧
      a ∉ ResyncVars ∪ CrcRecords ∧ a ∉ ImageCells ∪ RebaseArea ∧ a ∉ DrawArea ∧
      (a ∈ LobbyData → a = LOBBY_CNT) ∧ a ∉ Roster ∧ (a ∈ StartArea → a = NET_COUNT) ∧
      a ∉ LeftArea := by
  have hcell : (a = 0x8134 ∨ a = 0x8135 ∨ (0x8200 ≤ a ∧ a < 0x8300)) ∨
      a = 0x8180 ∨ a = 0x819D ∨ a = 0x815C := h
  have hv : a ∉ ResyncVars := by
    simp only [ResyncVars, RESYNC_HOLD, RS_TMP2, DIAG_REJ, RS_PEND, RS_PTMO, TICK_LO, TICK_HI,
      LS_WAITC_LO, LS_WAITC_HI]
    rintro (h | h | h | h | h | h | h | h) <;> omega
  have hr : a ∉ RingPages := by
    rintro ⟨h1, -⟩
    simp only [SEAT_RING] at h1
    omega
  have hw : a ∉ Watermarks := by
    rintro ⟨h1, h2⟩
    simp only [SEAT_WM] at h1 h2
    omega
  have hc : a ∉ CrcRecords := by
    rintro ⟨h1, -⟩
    simp only [OWN_CRC] at h1
    omega
  have hn : a ∉ Roster := by
    rintro ⟨h1, h2⟩
    simp only [NAME_TBL] at h1 h2
    omega
  refine ⟨?_, ?_, ?_, ?_, ?_, ?_, hn, ?_, ?_⟩
  · rintro (h | h)
    · exact hr h
    · exact hw h
  · rintro (h | h)
    · simp only [RS_PEND, RS_PTMO] at h
      rcases h with h | h <;> omega
    · simp only [MailboxArea, MB_DEV, NAVAIL_HI, NREQ_LO, NGOT_HI, DIAG_TMO, DIAG_ERR, FN_SEQ] at h
      rcases h with h | h | h | h | h <;> omega
  · rintro (h | h)
    · exact hv h
    · exact hc h
  · rintro (h | (((h | h) | h) | h) | h)
    · have := image_cases h
      omega
    · simp only [DisplayArea, STIC_CS, STIC_EXT, ISR_VEC_LO, ISR_VEC_HI, SC_ISR_SAVE, BX_CNT2_LO,
        BX_CNT4_HI] at h
      rcases h with h | h | h | h | h | h | h <;> omega
    · exact hv h
    · exact hr h
    · exact hw h
    · exact hc h
  · refine not_mem_draw (by simp only [BACKTAB]; omega) ?_ ?_
    · simp only [UI_COLOR]
      omega
    · simp only [PP_TMP]
      omega
  · simp only [LobbyData, MENU_SEL, LOBBY_CNT, ROOM_CNT, ROOM_HOST, LOBBY_CACHE]
    rintro (h | h | h | h | h) <;> omega
  · simp only [NET_COUNT]
    rintro ((((h | h) | h) | h) | h)
    · simp only [NET_SEAT, NET_COUNT, RNG_LO, RNG_HI, NET_DELAY, TICK_LO, TICK_HI, NET_ACTIVE] at h
      rcases h with h | h | h | h | h | h | h | h <;> omega
    · exact absurd h hn
    · exact absurd h hr
    · exact absurd h hw
    · exact absurd h hc
  · rintro ((h | h) | h)
    · simp only [PEER_WHY, NET_DROPPED, LEFT_SEAT, LEFT_NAME] at h
      rcases h with h | h | h | h <;> omega
    · exact hr h
    · exact hw h

/-- A cell of the ring is in none of the areas the handlers of a peer's frames store to. -/
theorem ring_not_handler {a : ℕ} (h : a ∈ RingCells) :
    a ∉ RingPages ∪ Watermarks ∧ a ∉ {a | a = RS_PEND ∨ a = RS_PTMO} ∪ MailboxArea ∧
      a ∉ ResyncVars ∪ CrcRecords ∧ a ∉ ImageCells ∪ RebaseArea := by
  obtain ⟨h1, h2, h3, h4, -⟩ := stream_not_handler (Or.inl h)
  exact ⟨h1, h2, h3, h4⟩

/-- What the handlers of a peer's frames other than STATE store to. -/
def PeerArea : Set ℕ := RingPages ∪ Watermarks ∪ ({a | a = RS_PEND ∨ a = RS_PTMO} ∪ MailboxArea)

/-- Handling one stores there. -/
theorem frame_peer {d : Cpu} {f : List ℕ} (hp : PeerFrame f) (hc : Carries d f)
    (hs : f.getD 1 0 ≠ FT_STATE) : Frame PeerArea d (SES_ONFRAME d) := by
  have hlen := hp.isFrame.two_le
  have hty : d.cell (FRMBUF + 1) = f.getD 1 0 := hc.cell (by omega)
  have hmem := hp.type
  rw [← hty] at hmem hs
  simp only [List.mem_cons, List.not_mem_nil, or_false] at hmem
  rcases hmem with ht | ht | ht | ht
  · have hseat : inputAccepted d → d.cell (FRMBUF + 2) ≤ 3 := by
      rintro ⟨hl, -⟩
      have h3 : 3 ≤ f.length := by
        have h0 : d.cell FRMBUF = f.getD 0 0 := hc.cell (i := 0) (by omega)
        match f, hp.isFrame with
        | len :: ty :: rest, hf =>
          rw [h0, List.getD_cons_zero] at hl
          have := hf.2
          simp only [List.length_cons]
          omega
      rw [hc.cell (i := 2) (by omega)]
      exact hp.seat (hty ▸ ht)
    rw [SES_ONFRAME_input ht]
    exact (frame_of_input d hseat).mono fun _ h => Or.inl h
  · rw [SES_ONFRAME_crc ht]
    exact (frame_RS_ON_CRC d).mono fun _ h => Or.inr h
  · exact absurd ht hs
  · rw [SES_ONFRAME_resync ht]
    exact (frame_RS_ON_REQ d).mono fun _ h => Or.inr (Or.inl h)

/-- Handling a peer's frame leaves the ring alone. -/
theorem keepsRing_peer {d : Cpu} {f : List ℕ} (hp : PeerFrame f) (hc : Carries d f) :
    ∀ a ∈ RingCells, (SES_ONFRAME d).cell a = d.cell a := by
  intro a ha
  obtain ⟨h1, h2, h3, h4⟩ := ring_not_handler ha
  have hty : d.cell (FRMBUF + 1) = f.getD 1 0 := hc.cell hp.isFrame.two_le
  by_cases hs : f.getD 1 0 = FT_STATE
  · rw [SES_ONFRAME_state (by rw [hty, hs])]
    refine (frame_RS_ON_STATE d).cell_eq ?_
    rintro (h | ⟨-, h⟩)
    · exact h3 h
    · exact h4 h
  · refine (frame_peer hp hc hs).cell_eq ?_
    rintro (h | h)
    · exact h1 h
    · exact h2 h

/-! ### What is on its way -/

/-- What is unread and what is still on the wire are the frames still to be handled. -/
structure Inbound (c : Cpu) (wire : List ℕ) (pending : List (List ℕ)) : Prop where
  peer : ∀ f ∈ pending, PeerFrame f
  bytes : unread c ++ wire = pending.flatten
  waits : consoleFraming.verdict (unread c) = .wait

/-- Less than the first frame is unread. -/
theorem Inbound.short {c : Cpu} {wire f : List ℕ} {fs : List (List ℕ)}
    (h : Inbound c wire (f :: fs)) : buffered c < f.length := by
  by_contra hle
  have hf := verdict_of_isFrame (h.peer f List.mem_cons_self).isFrame
  have hbytes := h.bytes
  rw [List.flatten_cons] at hbytes
  obtain ⟨r, hr⟩ : ∃ r, unread c = f ++ r := by
    have htake := congrArg (List.take f.length) hbytes
    rw [List.take_append_of_le_length (by rw [length_unread]; omega), List.take_left] at htake
    exact ⟨(unread c).drop f.length, by conv_rhs => rw [← htake, List.length_take,
      Nat.min_eq_left (by rw [length_unread]; omega), List.take_append_drop]⟩
  have happ := consoleFraming.verdict_append f r (by rw [hf]; exact Verdict.noConfusion)
  rw [← hr, h.waits, hf] at happ
  cases happ

/-- Everything that keeps the ring keeps what is on its way. -/
theorem Inbound.congr {c c' : Cpu} {wire : List ℕ} {pending : List (List ℕ)}
    (h : Inbound c wire pending) (hr : ∀ a ∈ RingCells, c'.cell a = c.cell a) :
    Inbound c' wire pending := by
  have hu := (unread_congr hr).1
  exact ⟨h.peer, by rw [hu]; exact h.bytes, by rw [hu]; exact h.waits⟩

/-- A round that takes a frame leaves it in the frame buffer. -/
theorem carries_parseNext {c c' : Cpu} {bs : List ℕ} (h : parseNext c = some (c', .frame bs)) :
    Carries c' bs := by
  unfold parseNext at h
  simp only at h
  split at h
  · cases h
  · split at h
    · cases h
    · split at h
      · cases h
      · cases h
        unfold Carries
        simp [frameBuf]

/-- The parse loop hands on the frames it extracts, each in the frame buffer, in the order it extracts
them. -/
theorem carries_parseLoop (f : Cpu → Cpu) (fuel : ℕ) (c : Cpu) :
    List.Forall₂ Carries (handed f fuel c) (framesOf (parseLoop f fuel c).items) := by
  induction fuel generalizing c with
  | zero => exact .nil
  | succ fuel ih =>
    unfold handed parseLoop parseStep
    cases hn : parseNext c with
    | none => exact .nil
    | some r =>
      obtain ⟨c', i⟩ := r
      cases i with
      | slip b => exact ih c'
      | frame bs => exact .cons (carries_parseNext hn) (ih (f c'))

/-- Frames the handlers can be trusted with: they keep an invariant and leave the ring alone. -/
structure Tame (I : Cpu → Prop) (ok : List ℕ → Prop) : Prop where
  isFrame : ∀ {f}, ok f → IsFrame f
  takes : ∀ {c c' bs}, parseNext c = some (c', .frame bs) → I c → I c'
  handles : ∀ {d f}, I d → Carries d f → ok f →
    I (SES_ONFRAME d) ∧ ∀ a ∈ RingCells, (SES_ONFRAME d).cell a = d.cell a

/-- What a parse loop leaves of the frames on their way: those that are complete have been handed on,
in order, and nothing was slipped. -/
structure Hands (I : Cpu → Prop) (fuel : ℕ) (c : Cpu) (wire : List ℕ) (done rest : List (List ℕ)) :
    Prop where
  carries : List.Forall₂ Carries (handed SES_ONFRAME fuel c) done
  keeps : I (parseLoop SES_ONFRAME fuel c).cpu
  bytes : unread (parseLoop SES_ONFRAME fuel c).cpu ++ wire = rest.flatten
  waits : consoleFraming.verdict (unread (parseLoop SES_ONFRAME fuel c).cpu) = .wait
  short : done.flatten.length ≤ buffered c

/-- With the next frames unread in full or in part, the parse loop hands on, in order, those that
are complete, and stops at the first that is not. -/
theorem parseLoop_hands {I : Cpu → Prop} {ok : List ℕ → Prop} (ht : Tame I ok) (fuel : ℕ) (c : Cpu)
    (hI : I c) (wire : List ℕ) (pending : List (List ℕ)) (hp : ∀ f ∈ pending, ok f)
    (hb : unread c ++ wire = pending.flatten) (h : buffered c < fuel) :
    ∃ done rest, pending = done ++ rest ∧ Hands I fuel c wire done rest := by
  induction fuel generalizing c pending with
  | zero => omega
  | succ fuel ih =>
    have hround := parseNext_round c
    generalize hn : parseNext c = r at hround
    -- the verdict on what is unread is the verdict on the whole stream
    have hfinal := consoleFraming.verdict_append (unread c) wire
    rw [hb] at hfinal
    cases hround with
    | wait hv =>
      have hloop : parseLoop SES_ONFRAME (fuel + 1) c = ⟨c, [], true⟩ := by
        rw [parseLoop, parseStep, hn]
        rfl
      have hnone : handed SES_ONFRAME (fuel + 1) c = [] := by rw [handed, hn]
      refine ⟨[], pending, rfl, ⟨hnone ▸ .nil, ?_, ?_, ?_, Nat.zero_le _⟩⟩
      · rw [hloop]
        exact hI
      · rw [hloop]
        exact hb
      · rw [hloop]
        exact hv
    | slip c' b hv hc =>
      rw [hv] at hfinal
      have hslip := hfinal Verdict.noConfusion
      cases pending with
      | nil =>
        rw [List.flatten_nil, consoleFraming.nil_wait] at hslip
        cases hslip
      | cons f fs =>
        have hf := verdict_of_isFrame (ht.isFrame (hp f List.mem_cons_self))
        have happ := consoleFraming.verdict_append f fs.flatten (by rw [hf]; exact Verdict.noConfusion)
        rw [List.flatten_cons, happ, hf] at hslip
        cases hslip
    | take c' n hv hc =>
      rw [hv] at hfinal
      have htake := hfinal Verdict.noConfusion
      cases pending with
      | nil =>
        rw [List.flatten_nil, consoleFraming.nil_wait] at htake
        cases htake
      | cons f fs =>
        have hf := verdict_of_isFrame (ht.isFrame (hp f List.mem_cons_self))
        have happ := consoleFraming.verdict_append f fs.flatten (by rw [hf]; exact Verdict.noConfusion)
        rw [List.flatten_cons, happ, hf] at htake
        injection htake with htake
        subst htake
        obtain ⟨hpos, hle⟩ := consoleFraming.take_pos _ _ hv
        have hlen : (unread c).take f.length = f := by
          have h2 := congrArg (List.take f.length) hb
          rwa [List.take_append_of_le_length hle, List.flatten_cons, List.take_left] at h2
        rw [hlen] at hn
        have hcar : Carries c' f := carries_parseNext hn
        obtain ⟨hI', hkeep⟩ := ht.handles (ht.takes hn hI) hcar (hp f List.mem_cons_self)
        obtain ⟨hu, hbuf⟩ := unread_congr hkeep
        have hrest : unread (SES_ONFRAME c') ++ wire = fs.flatten := by
          have h2 := congrArg (List.drop f.length) hb
          rw [List.drop_append_of_le_length hle, List.flatten_cons, List.drop_left] at h2
          rw [hu, hc, h2]
        have hcount : buffered (SES_ONFRAME c') + f.length = buffered c := by
          rw [hbuf, ← length_unread, hc, List.length_drop, length_unread]
          rw [length_unread] at hle
          omega
        obtain ⟨done, rest, hsplit, hands⟩ := ih (SES_ONFRAME c') hI' fs
          (fun g hg => hp g (List.mem_cons_of_mem _ hg)) hrest (by omega)
        have hloop : (parseLoop SES_ONFRAME (fuel + 1) c).cpu =
            (parseLoop SES_ONFRAME fuel (SES_ONFRAME c')).cpu := by
          rw [parseLoop, parseStep, hn]
          rfl
        have hhanded : handed SES_ONFRAME (fuel + 1) c = c' :: handed SES_ONFRAME fuel (SES_ONFRAME c') := by
          rw [handed, hn]
        refine ⟨f :: done, rest, by rw [hsplit, List.cons_append], ⟨?_, ?_, ?_, ?_, ?_⟩⟩
        · rw [hhanded]
          exact .cons hcar hands.carries
        · rw [hloop]
          exact hands.keeps
        · rw [hloop]
          exact hands.bytes
        · rw [hloop]
          exact hands.waits
        · have hshort := hands.short
          rw [List.flatten_cons, List.length_append]
          omega

/-- The frames of a peer need no invariant. -/
theorem tame_peer : Tame (fun _ => True) PeerFrame :=
  ⟨fun hp => hp.isFrame, fun _ _ => trivial, fun _ hc hp => ⟨trivial, keepsRing_peer hp hc⟩⟩

/-- A pump hands on, in order, some of the frames that are under way, and leaves the others so. -/
theorem parseLoop_delivers (fuel : ℕ) (c : Cpu) (wire : List ℕ) (pending : List (List ℕ))
    (hp : ∀ f ∈ pending, PeerFrame f) (hb : unread c ++ wire = pending.flatten)
    (h : buffered c < fuel) :
    ∃ done rest, pending = done ++ rest ∧ List.Forall₂ Carries (handed SES_ONFRAME fuel c) done ∧
      Inbound (parseLoop SES_ONFRAME fuel c).cpu wire rest ∧
      done.flatten.length ≤ buffered c := by
  obtain ⟨done, rest, hsplit, hands⟩ := parseLoop_hands tame_peer fuel c trivial wire pending hp hb h
  exact ⟨done, rest, hsplit, hands.carries, ⟨fun f hf => hp f (by
    rw [hsplit]
    exact List.mem_append_right _ hf), hands.bytes, hands.waits⟩, hands.short⟩

/-- A pump hands on the next frames, in order; the bytes of all but the first arrived with
this pump. -/
theorem pump_delivers {c : Cpu} {wire wire' : List ℕ} {pending : List (List ℕ)}
    (h : Inbound c wire pending) (p : Poll) (hw : delivers p ++ wire' = wire) :
    ∃ done rest, pending = done ++ rest ∧ List.Forall₂ Carries (pumpHanded SES_ONFRAME c p) done ∧
      Inbound (SES_PUMP SES_ONFRAME c p).cpu wire' rest ∧ done.tail.flatten.length ≤ 63 := by
  have hwait := length_le_of_wait h.waits
  rw [length_unread] at hwait
  have hrecv := unread_receive c p hwait
  have hbytes : unread (receive c p) ++ wire' = pending.flatten := by
    rw [hrecv, List.append_assoc, hw, h.bytes]
  obtain ⟨done, rest, hsplit, hall, hin, hle⟩ :=
    parseLoop_delivers 256 (receive c p) wire' pending h.peer hbytes (buffered_lt _)
  refine ⟨done, rest, hsplit, hall, hin, ?_⟩
  cases done with
  | nil => simp
  | cons f fs =>
    rw [hsplit, List.cons_append] at h
    have hshort := h.short
    have hlen := congrArg List.length hrecv
    rw [length_unread, List.length_append, length_unread] at hlen
    have h64 := length_delivers p
    rw [List.flatten_cons, List.length_append] at hle
    rw [List.tail_cons]
    omega

end BoxingNetplay.Interface
