import BoxingNetplay.Interface.Frame

/-!
# The receive ring as a list, the length table as a framing

`unread c` is the list of bytes in the receive ring of a console, oldest first.  The routines of
`SES_PUMP` act on it as list operations: `accumulate` appends, `extract` drops a prefix and
leaves it in the frame buffer, one round of the parse loop does what the framing
`consoleFraming` says about it.
-/

set_option autoImplicit false

namespace BoxingNetplay.Interface

open BoxingNetplay.Library
open BoxingNetplay.Model

/-! ### The length table as a framing -/

/-- What `SES_PUMP` decides about the bytes at the front of the stream.
SOURCE: session.asm:488-531 -/
def consoleVerdict : List ℕ → Verdict
  | len :: ty :: rest =>
    if flenOk ty len then if len ≤ rest.length + 1 then .take (len + 1) else .wait else .slip
  | _ => .wait

/-- A type of the table admits at least one body byte and at most 99. -/
theorem flenOk_bounds {ty len : ℕ} (h : flenOk ty len = true) : 1 ≤ len ∧ len ≤ 99 := by
  have hty : ty < 16 := by
    simp only [flenOk, Bool.and_eq_true, decide_eq_true_eq] at h
    exact h.1.1.1
  have hb : SES_FLEN.getD ty 0 % 256 ≤ len ∧ len ≤ SES_FLEN.getD ty 0 / 256 := by
    simp only [flenOk, Bool.and_eq_true, decide_eq_true_eq] at h
    exact ⟨h.1.2, h.2⟩
  have hne : SES_FLEN.getD ty 0 ≠ 0 := by
    simp only [flenOk, Bool.and_eq_true, bne_iff_ne] at h
    exact h.1.1.2
  have htable : ∀ t < 16, SES_FLEN.getD t 0 ≠ 0 →
      1 ≤ SES_FLEN.getD t 0 % 256 ∧ SES_FLEN.getD t 0 / 256 ≤ 99 := by decide
  have := htable ty hty hne
  omega

/-- The framing of the console's stream. -/
def consoleFraming : Framing ℕ where
  verdict := consoleVerdict
  nil_wait := rfl
  take_pos xs n h := by
    match xs, h with
    | len :: ty :: rest, h =>
      simp only [consoleVerdict] at h
      split at h
      · split at h
        · injection h with h
          rw [List.length_cons, List.length_cons]
          omega
        · cases h
      · cases h
  verdict_append xs ys h := by
    match xs, h with
    | [], h => exact absurd rfl h
    | [_], h => exact absurd rfl h
    | len :: ty :: rest, h =>
      simp only [consoleVerdict, List.cons_append, List.length_append] at h ⊢
      by_cases hok : flenOk ty len = true
      · rw [if_pos hok] at h ⊢
        by_cases hlen : len ≤ rest.length + 1
        · rw [if_pos hok, if_pos hlen, if_pos (by omega)]
        · rw [if_neg hlen] at h
          exact absurd rfl h
      · rw [if_neg hok, if_neg hok]

/-- A framing that waits holds at most 99 bytes. -/
theorem length_le_of_wait {xs : List ℕ} (h : consoleFraming.verdict xs = .wait) :
    xs.length ≤ 99 := by
  change consoleVerdict xs = .wait at h
  match xs, h with
  | [], _ => simp
  | [_], _ => simp
  | len :: ty :: rest, h =>
    simp only [consoleVerdict] at h
    split at h
    · rename_i hok
      have hb := flenOk_bounds hok
      split at h
      · cases h
      · rw [List.length_cons, List.length_cons]
        omega
    · cases h

/-- A complete frame: the length byte, a type that admits it, and the rest of the body.
SOURCE: session.asm:1059-1081 -/
def IsFrame : List ℕ → Prop
  | len :: ty :: rest => flenOk ty len = true ∧ rest.length + 1 = len
  | _ => False

/-- The framing takes a complete frame whole. -/
theorem verdict_of_isFrame {f : List ℕ} (h : IsFrame f) :
    consoleFraming.verdict f = .take f.length := by
  match f, h with
  | len :: ty :: rest, h =>
    change consoleVerdict (len :: ty :: rest) = _
    rw [consoleVerdict, if_pos h.1, if_pos h.2.ge, List.length_cons, List.length_cons, h.2]

/-- What the framing takes is at most 100 bytes. -/
theorem take_le {xs : List ℕ} {n : ℕ} (h : consoleFraming.verdict xs = .take n) : n ≤ 100 := by
  change consoleVerdict xs = .take n at h
  match xs, h with
  | len :: ty :: rest, h =>
    simp only [consoleVerdict] at h
    split at h
    · rename_i hok
      have hb := flenOk_bounds hok
      split at h
      · injection h with h
        omega
      · cases h
    · cases h

/-! ### What a poll delivers -/

/-- The bytes a pump reads: those of the reply, when both transactions are acknowledged, the
device is ready and something is waiting.
SOURCE: session.asm:456-476, mailbox.asm:177-248 -/
def delivers (p : Poll) : List ℕ :=
  match p.status, p.read with
  | .ack _, .ack _ => if p.devStatus = 1 ∧ p.avail % 65536 ≠ 0 then p.data else []
  | _, _ => []

/-- Whether a transaction is acknowledged. -/
def acked : MbReply → Bool
  | .ack _ => true
  | _ => false

/-- `MB_OK` after a transaction says whether it was acknowledged. -/
theorem MB_TRANSACT_ok (c : Cpu) (reply : MbReply) :
    (MB_TRANSACT c reply).cell MB_OK = if acked reply then 1 else 0 := by
  have hw : cellWidth MB_OK = 8 := cellWidth_cart (by decide) (by decide)
  unfold MB_TRANSACT
  extract_lets c1 c2 c3 c4 c5 next c6 trackMax
  cases reply with
  | timeout =>
    rw [(frame_DIAG_BUMP (A := {DIAG_TMO}) _ rfl).cell_eq (by simp)]
    simp [acked]
  | nak polls err =>
    rw [(frame_DIAG_BUMP (A := {DIAG_ERR}) _ rfl).cell_eq (by simp)]
    simp [acked]
  | ack polls => simp [acked, hw]

/-- What `NET_STATUS` reports. -/
theorem NET_STATUS_cells (c : Cpu) (p : Poll) :
    ((NET_STATUS c p).cell MB_OK ≠ 0 ↔ acked p.status = true ∧ p.devStatus = 1) ∧
    (acked p.status = true → (NET_STATUS c p).cell NAVAIL_LO = p.avail % 256 ∧
      (NET_STATUS c p).cell NAVAIL_HI = p.avail / 256 % 256) := by
  have hw : ∀ a, 0x8000 ≤ a → a ≤ 0x9FFF → cellWidth a = 8 := fun a h1 h2 => cellWidth_cart h1 h2
  have hok : cellWidth MB_OK = 8 := hw _ (by decide) (by decide)
  have hlo : cellWidth NAVAIL_LO = 8 := hw _ (by decide) (by decide)
  have hhi : cellWidth NAVAIL_HI = 8 := hw _ (by decide) (by decide)
  unfold NET_STATUS
  extract_lets c1 c2 c3 c4 c5 c6 c7
  have h6 : c6.cell MB_OK = if acked p.status then 1 else 0 := MB_TRANSACT_ok c5 p.status
  rw [h6]
  cases hack : acked p.status with
  | false =>
    rw [if_pos (by simp)]
    refine ⟨?_, fun h => by cases h⟩
    simp [h6, hack]
  | true =>
    rw [if_neg (by simp)]
    have h7ok : c7.cell MB_OK = 1 := by simp [c7, h6, hack]
    have h7lo : c7.cell NAVAIL_LO = p.avail % 256 := by simp [c7, hlo]
    have h7hi : c7.cell NAVAIL_HI = p.avail / 256 % 256 := by simp [c7, hhi]
    by_cases hdev : p.devStatus = 1
    · rw [if_pos hdev]
      exact ⟨by simp [h7ok, hdev], fun _ => ⟨h7lo, h7hi⟩⟩
    · rw [if_neg hdev]
      refine ⟨by simp [hdev], fun _ => ⟨?_, ?_⟩⟩
      · simpa using h7lo
      · simpa using h7hi

/-- What `NET_READ` reports about a reply of at most 64 bytes. -/
theorem NET_READ_got (c : Cpu) (p : Poll) :
    (NET_READ c p).cell NGOT_LO = if acked p.read then p.data.length else 0 := by
  have hw : cellWidth NGOT_LO = 8 := cellWidth_cart (by decide) (by decide)
  have hshort := p.short
  unfold NET_READ
  extract_lets c1 c2 c3 c4 c5 c6
  have h6 : c6.cell MB_OK = if acked p.read then 1 else 0 := MB_TRANSACT_ok c5 p.read
  rw [h6]
  cases acked p.read with
  | false => simp
  | true =>
    simp only [if_true, Nat.one_ne_zero, if_false, Cpu.sto_cell, hw]
    rw [if_neg (by decide)]
    omega

/-- The bytes a pump accumulates are those the poll delivers. -/
theorem request_data (c : Cpu) (p : Poll) : (request c p).2 = delivers p := by
  obtain ⟨hok, havail⟩ := NET_STATUS_cells c p
  unfold request
  simp only
  by_cases h : (NET_STATUS c p).cell MB_OK = 0
  · rw [if_pos h]
    have hno : ¬ (acked p.status = true ∧ p.devStatus = 1) := fun hh => hok.mpr hh h
    unfold delivers
    split
    · rename_i _ _ hs _
      rw [if_neg]
      rintro ⟨hdev, -⟩
      exact hno ⟨by rw [hs]; rfl, hdev⟩
    · rfl
  · rw [if_neg h]
    obtain ⟨hack, hdev⟩ := hok.mp h
    obtain ⟨hlo, hhi⟩ := havail hack
    obtain ⟨n, hs⟩ : ∃ n, p.status = .ack n := by
      cases hstat : p.status <;> simp [hstat, acked] at hack ⊢
    rw [hlo, hhi]
    by_cases hz : p.avail / 256 % 256 = 0 ∧ p.avail % 256 = 0
    · rw [if_pos hz]
      unfold delivers
      rw [hs]
      cases p.read with
      | ack k =>
        simp only
        rw [if_neg]
        rintro ⟨-, hne⟩
        omega
      | _ => rfl
    · rw [if_neg hz]
      simp only [NET_READ_got]
      unfold delivers
      rw [hs]
      cases p.read with
      | ack k =>
        simp only [acked, if_true]
        rw [if_pos ⟨hdev, by omega⟩, List.take_length]
      | _ => simp [acked]

/-! ### The ring -/

/-- The ring and its two indices.
SOURCE: ram.asm:85-86, 181 -/
def RingCells : Set ℕ := {a | a = RX_WR ∨ a = RX_RD ∨ (RXACC ≤ a ∧ a < RXACC + 256)}

/-- A routine that leaves the ring and its indices alone. -/
def KeepsRing (f : Cpu → Cpu) : Prop := ∀ c, ∀ a ∈ RingCells, (f c).cell a = c.cell a

/-- The bytes received and not yet consumed, oldest first. -/
def unread (c : Cpu) : List ℕ :=
  window (fun i => c.cell (RXACC + i)) 256 (c.cell RX_RD) (buffered c)

@[simp] theorem length_unread (c : Cpu) : (unread c).length = buffered c := length_window ..

/-- Fewer than 256 bytes are ever unread. -/
theorem buffered_lt (c : Cpu) : buffered c < 256 := Nat.mod_lt _ (by omega)

/-- The write index is the slot after the last unread byte. -/
theorem write_slot (c : Cpu) : c.cell RX_WR = (c.cell RX_RD + buffered c) % 256 := by
  have h1 : c.cell RX_WR < 256 := c.cell_lt_cart (by decide) (by decide)
  have h2 : c.cell RX_RD < 256 := c.cell_lt_cart (by decide) (by decide)
  unfold buffered
  omega

/-- Machines that agree on the ring hold the same unread bytes. -/
theorem unread_congr {c c' : Cpu} (h : ∀ a ∈ RingCells, c'.cell a = c.cell a) :
    unread c' = unread c ∧ buffered c' = buffered c := by
  have hwr : c'.cell RX_WR = c.cell RX_WR := h _ (Or.inl rfl)
  have hrd : c'.cell RX_RD = c.cell RX_RD := h _ (Or.inr (Or.inl rfl))
  have hbuf : buffered c' = buffered c := by
    unfold buffered
    rw [hwr, hrd]
  refine ⟨?_, hbuf⟩
  unfold unread
  rw [hbuf, hrd]
  refine window_congr _ _ _ ?_
  intro i _
  refine h _ (Or.inr (Or.inr ⟨by omega, ?_⟩))
  have := Nat.mod_lt (c.cell RX_RD + i) (show 0 < 256 by omega)
  omega

/-- One received byte is appended. -/
theorem unread_put (c : Cpu) (b : ℕ) (hb : b < 256) (h : buffered c + 1 < 256) :
    unread ((c.sto (c.cell RX_WR + RXACC) b).sto RX_WR ((c.cell RX_WR + 1) % 256)) =
      unread c ++ [b] := by
  have h1 : c.cell RX_WR < 256 := c.cell_lt_cart (by decide) (by decide)
  have h2 : c.cell RX_RD < 256 := c.cell_lt_cart (by decide) (by decide)
  have hslot := write_slot c
  have hbuf : buffered ((c.sto (c.cell RX_WR + RXACC) b).sto RX_WR
      ((c.cell RX_WR + 1) % 256)) = buffered c + 1 := by
    have hmod : (c.cell RX_WR + 1) % 256 % 2 ^ cellWidth RX_WR = (c.cell RX_WR + 1) % 256 := by
      rw [cellWidth_cart (by decide) (by decide)]
      omega
    have hrd : RX_RD ≠ c.cell RX_WR + RXACC := by
      simp only [RX_RD, RXACC, RX_WR]
      omega
    unfold buffered at h ⊢
    simp only [Cpu.sto_cell, hmod, if_true, if_neg hrd, RX_RD, RX_WR]
    rw [if_neg (by decide)]
    simp only [RX_RD, RX_WR] at h h1 h2
    omega
  unfold unread
  rw [hbuf, window_concat]
  have hrd : ((c.sto (c.cell RX_WR + RXACC) b).sto RX_WR ((c.cell RX_WR + 1) % 256)).cell RX_RD =
      c.cell RX_RD := by
    have hne : RX_RD ≠ c.cell RX_WR + RXACC := by
      simp only [RX_RD, RXACC, RX_WR]
      omega
    rw [Cpu.sto_cell, if_neg (by decide), Cpu.sto_cell, if_neg hne]
  have hcell : ∀ i < 256, ((c.sto (c.cell RX_WR + RXACC) b).sto RX_WR
      ((c.cell RX_WR + 1) % 256)).cell (RXACC + i) =
        if i = c.cell RX_WR then b else c.cell (RXACC + i) := by
    intro i hi
    rw [Cpu.sto_cell, if_neg (by simp only [RXACC, RX_WR]; omega), Cpu.sto_cell]
    by_cases hiw : i = c.cell RX_WR
    · rw [if_pos hiw, if_pos (by omega), cellWidth_cart (by simp only [RXACC]; omega)
        (by simp only [RXACC]; omega)]
      omega
    · rw [if_neg hiw, if_neg (by omega)]
  rw [hrd]
  refine congrArg₂ _ (window_congr _ _ _ ?_) ?_
  · intro i hi
    have hne : (c.cell RX_RD + i) % 256 ≠ c.cell RX_WR := by
      rw [hslot]
      exact slot_ne_of_lt (by omega) hi
    rw [hcell _ (Nat.mod_lt _ (by omega)), if_neg hne]
  · rw [hcell _ (Nat.mod_lt _ (by omega)), if_pos hslot.symm]

/-- Received bytes are appended, in order, while they fit. -/
theorem unread_accumulate (c : Cpu) (bs : List ℕ) (hb : ∀ b ∈ bs, b < 256)
    (h : buffered c + bs.length < 256) : unread (accumulate c bs) = unread c ++ bs := by
  induction bs generalizing c with
  | nil => rw [accumulate, List.append_nil]
  | cons b bs ih =>
    rw [List.length_cons] at h
    have hput := unread_put c b (hb b (by simp)) (by omega)
    have hlen := congrArg List.length hput
    rw [List.length_append, length_unread, length_unread, List.length_singleton] at hlen
    rw [accumulate, ih _ (fun x hx => hb x (by simp [hx])) (by omega), hput, List.append_assoc,
      List.singleton_append]

/-- `accumulate` stores to the ring and the write index. -/
theorem frame_accumulate (c : Cpu) (bs : List ℕ) :
    Frame {a | a = RX_WR ∨ (RXACC ≤ a ∧ a < RXACC + 256)} c (accumulate c bs) := by
  induction bs generalizing c with
  | nil => exact Frame.refl _ c
  | cons b bs ih =>
    have h1 : c.cell RX_WR < 256 := c.cell_lt_cart (by decide) (by decide)
    refine Frame.trans (((Frame.refl _ c).sto ?_).sto ?_) (ih _)
    · exact Or.inr ⟨by omega, by omega⟩
    · exact Or.inl rfl

/-! ### Extraction -/

/-- One byte moved from the front of the ring. -/
theorem unread_get (c : Cpu) (r5 : ℕ) (h : 0 < buffered c)
    (h5 : FRMBUF ≤ r5 ∧ r5 < FRMBUF + 128) :
    unread c = c.cell (c.cell RX_RD + RXACC) ::
      unread ((c.sto r5 (c.cell (c.cell RX_RD + RXACC))).sto RX_RD
        ((c.cell RX_RD + 1) % 256)) := by
  have h1 : c.cell RX_WR < 256 := c.cell_lt_cart (by decide) (by decide)
  have h2 : c.cell RX_RD < 256 := c.cell_lt_cart (by decide) (by decide)
  set c' := (c.sto r5 (c.cell (c.cell RX_RD + RXACC))).sto RX_RD ((c.cell RX_RD + 1) % 256)
    with hc'
  simp only [FRMBUF] at h5
  have hrd : c'.cell RX_RD = (c.cell RX_RD + 1) % 256 := by
    rw [hc', Cpu.sto_cell, if_pos rfl, cellWidth_cart (by decide) (by decide)]
    omega
  have hwr : c'.cell RX_WR = c.cell RX_WR := by
    rw [hc', Cpu.sto_cell, if_neg (by decide), Cpu.sto_cell,
      if_neg (by simp only [RX_WR]; omega)]
  have hbuf : buffered c = buffered c' + 1 := by
    unfold buffered at h ⊢
    rw [hrd, hwr]
    omega
  have hcell : ∀ i < 256, c'.cell (RXACC + i) = c.cell (RXACC + i) := by
    intro i hi
    rw [hc', Cpu.sto_cell, if_neg (by simp only [RXACC, RX_RD]; omega), Cpu.sto_cell,
      if_neg (by simp only [RXACC]; omega)]
  unfold unread
  rw [hbuf, window_succ]
  refine congrArg₂ _ ?_ ?_
  · rw [Nat.mod_eq_of_lt h2, Nat.add_comm]
  · rw [hrd, window_mod]
    refine window_congr _ _ _ ?_
    intro i _
    exact (hcell _ (Nat.mod_lt _ (by omega))).symm

/-- What moving `n` bytes to the frame buffer leaves. -/
structure Extracted (c c' : Cpu) (r5 n : ℕ) : Prop where
  unread_eq : unread c' = (unread c).drop n
  cells : ∀ i < n, some (c'.cell (r5 + i)) = (unread c)[i]?
  frame : Frame {a | a = RX_RD ∨ (r5 ≤ a ∧ a < r5 + n)} c c'

/-- `extract` drops the first `n` bytes and leaves them at `r5`. -/
theorem extracted (n : ℕ) (c : Cpu) (r5 : ℕ) (h : n ≤ buffered c)
    (h5 : FRMBUF ≤ r5 ∧ r5 + n ≤ FRMBUF + 128) : Extracted c (extract c r5 n) r5 n := by
  induction n generalizing c r5 with
  | zero => exact ⟨rfl, fun i hi => absurd hi (Nat.not_lt_zero i), Frame.refl _ c⟩
  | succ n ih =>
    have hget := unread_get c r5 (by omega) ⟨h5.1, by omega⟩
    rw [extract]
    have hrd : ((c.sto r5 (c.cell (c.cell RX_RD + RXACC))).cell RX_RD) = c.cell RX_RD := by
      rw [Cpu.sto_cell, if_neg (by simp only [RX_RD, FRMBUF] at h5 ⊢; omega)]
    simp only [hrd]
    set v := c.cell (c.cell RX_RD + RXACC) with hv
    have hv256 : v < 256 := by
      have h2 : c.cell RX_RD < 256 := c.cell_lt_cart (by decide) (by decide)
      exact c.cell_lt_cart (by simp only [RXACC]; omega) (by simp only [RXACC]; omega)
    set c1 := (c.sto r5 v).sto RX_RD ((c.cell RX_RD + 1) % 256) with hc1
    have hlen := congrArg List.length hget
    rw [List.length_cons, length_unread, length_unread] at hlen
    have hrec := ih c1 (r5 + 1) (by omega) ⟨by omega, by omega⟩
    refine ⟨?_, ?_, ?_⟩
    · rw [hrec.unread_eq, hget, List.drop_succ_cons]
    · intro i hi
      cases i with
      | zero =>
        have hout : r5 ∉ {a | a = RX_RD ∨ (r5 + 1 ≤ a ∧ a < r5 + 1 + n)} := by
          rintro (hrd5 | ⟨hle, _⟩)
          · simp only [RX_RD, FRMBUF] at hrd5 h5
            omega
          · omega
        rw [show r5 + 0 = r5 from rfl, hrec.frame.cell_eq hout, hget, List.getElem?_cons_zero, hc1,
          Cpu.sto_cell, if_neg (by simp only [RX_RD, FRMBUF] at h5 ⊢; omega), Cpu.sto_cell,
          if_pos rfl, cellWidth_cart (by simp only [FRMBUF] at h5; omega)
            (by simp only [FRMBUF] at h5; omega), Nat.mod_eq_of_lt (by omega)]
      | succ i =>
        have hi' := hrec.cells i (by omega)
        rw [hget, List.getElem?_cons_succ, ← hi']
        rw [show r5 + (i + 1) = r5 + 1 + i by omega]
    · refine Frame.trans (((Frame.refl _ c).sto ?_).sto ?_) (hrec.frame.mono ?_)
      · exact Or.inr ⟨by omega, by omega⟩
      · exact Or.inl rfl
      · rintro a (rfl | ⟨h1, h2⟩)
        · exact Or.inl rfl
        · exact Or.inr ⟨by omega, by omega⟩

/-- The frame buffer after an extraction holds the first `n` unread bytes. -/
theorem frameBuf_extract (c : Cpu) (n : ℕ) (h : n ≤ buffered c) (hn : n ≤ 128) :
    frameBuf (extract c FRMBUF n) n = (unread c).take n := by
  have hx := extracted n c FRMBUF h ⟨le_rfl, by omega⟩
  refine List.ext_getElem? ?_
  intro i
  unfold frameBuf
  rw [List.getElem?_map, List.getElem?_take]
  by_cases hi : i < n
  · rw [List.getElem?_range hi, if_pos hi, Option.map_some, hx.cells i hi]
  · rw [if_neg hi, List.getElem?_eq_none (by simpa using hi), Option.map_none]

end BoxingNetplay.Interface
