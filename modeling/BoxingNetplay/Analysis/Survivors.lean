import BoxingNetplay.Analysis.FrameLengths
import BoxingNetplay.Analysis.HalfImage
import BoxingNetplay.Analysis.MatchStart

/-!
# The players a lobby offers

The relay lists a player as joinable by its own tables: who is in no room, or in one that has neither
started nor filled up.  A player who has been in a match stays on the relay's list when the match ends
and is in no room; its console has left the lobby loop for good.
-/

set_option autoImplicit false

namespace BoxingNetplay.Analysis

open BoxingNetplay.Library
open BoxingNetplay.Model
open BoxingNetplay.Model.Wire
open BoxingNetplay.Interface

/-! ### Consoles that listen -/

/-- What a player reads off the wire at one step. -/
def reads (k : Player) (t : PlayerTurn) : List ℕ :=
  match k.place with
  | .playing phase => taken ⟨k.cpu, phase⟩ t.toOutside
  | .stock => []
  | _ => delivers t.poll

/-- A console that has connected, and all it has read since. -/
inductive Listens : Player → List ℕ → Prop where
  | start (c : Cpu) (w : Login) (h : (NET_START c w).place = .lobby) : Listens (NET_START c w) []
  | step {k : Player} {bs : List ℕ} (h : Listens k bs) (t : PlayerTurn) :
      Listens (k.step t) (bs ++ reads k t)

/-- It goes round the lobby loop, and there is no match. -/
def Playable (k : Player) : Prop := k.place = .lobby ∧ k.cpu.cell NET_ACTIVE = 0

/-! ### One frame -/

/-- A START in the stream. -/
def Starts (f : List ℕ) : Prop := f.getD 1 0 = T_START

instance (f : List ℕ) : Decidable (Starts f) := inferInstanceAs (Decidable (_ = _))

/-- The two counts that bound what handlers store. -/
structure Bounded (c : Cpu) : Prop where
  count : c.cell NET_COUNT ≤ 4
  lobby : c.cell LOBBY_CNT ≤ 8

/-- Such a machine is clean, with the bytes it has slipped so far. -/
theorem Bounded.clean {c : Cpu} (h : Bounded c) : Clean (c.cell DIAG_SLIP) c := ⟨h.count, h.lobby, rfl⟩

theorem Bounded.congr {c c' : Cpu} (h : Bounded c) (h1 : c'.cell NET_COUNT = c.cell NET_COUNT)
    (h2 : c'.cell LOBBY_CNT = c.cell LOBBY_CNT) : Bounded c' := ⟨h1.le.trans h.count, h2.le.trans h.lobby⟩

/-- The pump keeps it so around its dispatches. -/
theorem Bounded.moves {c c' : Cpu} (h : Bounded c) (hm : Moves c c') : Bounded c' := by
  apply h.congr <;> apply hm.frame.cell_eq <;> simp [PumpArea, RingCells, MailboxArea]

/-- No handler but START's stores to `NET_ACTIVE`. -/
theorem active_of_frame {d : Cpu} {f : List ℕ} (hd : Bounded d) (hc : Carries d f) (hf : Fits f) :
    (SES_ONFRAME d).cell NET_ACTIVE = if Starts f then 1 else d.cell NET_ACTIVE := by
  have htype : d.cell (FRMBUF + 1) = f.getD 1 0 := hc.cell hf.isFrame.two_le
  by_cases hs : Starts f
  · rw [if_pos hs]
    apply active_of_start
    apply And.intro (htype.trans hs)
    have hmin := hf.handler
    have hstart : f.getD 1 0 = FT_START := hs
    unfold handlerMin at hmin
    rw [hstart] at hmin
    match f, hf.isFrame, hmin with
    | len :: ty :: rest, _, hmin =>
      have h0 : d.cell FRMBUF = len := hc.cell (i := 0) (by simp)
      rw [h0]
      exact hmin
  rw [if_neg hs]
  apply SES_ONFRAME_rule (P := fun c => c.cell NET_ACTIVE = d.cell NET_ACTIVE) d
  · intro _
    apply (frame_of_input d _).cell_eq (by simp [RingPages, Watermarks])
    intro hin
    exact Nat.le_of_lt_succ (Nat.lt_of_lt_of_le hin.2.2.1 hd.count)
  · intro _
    apply (frame_of_lobby d hd.lobby).1.cell_eq
    simp [DrawArea, ScreenArea, LobbyData]
  · intro h
    exact absurd (htype.symm.trans h) hs
  · intro _
    apply (frame_of_pl d).cell_eq
    simp [LeftArea, RingPages, Watermarks]
  · intro _
    apply (frame_of_room_any d hd.lobby).cell_eq
    simp [Aside, MailboxArea, Roster]
  · intro _
    apply (frame_RS_ON_CRC d).cell_eq
    simp [MailboxArea]
  · intro _
    apply (frame_RS_ON_STATE d).cell_eq
    have hlobby : NET_ACTIVE ∈ LobbyCells := Or.inl rfl
    rintro ((hx | hx) | ⟨-, hx | hx⟩)
    · simp [ResyncVars] at hx
    · exact (lobby_not_inputs hlobby).2.1 hx
    · exact lobby_not_apply hlobby (Or.inr hx)
    · exact lobby_not_resync hlobby (by simp) (by simp) (by simp) hx
  · intro _
    apply (frame_RS_ON_REQ d).cell_eq
    simp
  · rfl

/-- So after a run of frames there is a match iff there was one or one of them is a START. -/
theorem active_of_handles {c c' : Cpu} {ds : List Cpu} {fs : List (List ℕ)} (h : Handles SES_ONFRAME c ds c')
    (hfs : List.Forall₂ Carries ds fs) (hfit : ∀ f ∈ fs, Fits f) (hc : Bounded c) :
    Bounded c' ∧ (c'.cell NET_ACTIVE = 0 ↔ c.cell NET_ACTIVE = 0 ∧ ∀ f ∈ fs, ¬ Starts f) := by
  have hmove : ∀ {d d' : Cpu}, Moves d d' → d'.cell NET_ACTIVE = d.cell NET_ACTIVE := fun hm =>
    hm.frame.cell_eq (lobby_not_pump (Or.inl rfl))
  induction h generalizing fs with
  | done hm =>
    cases hfs
    simp [hmove hm, hc.moves hm]
  | @hand c d c' ds hm _ ih =>
    cases hfs with
    | @cons _ f _ fs hcarry hrest =>
      have hd := hc.moves hm
      have hone := hfit f List.mem_cons_self
      have hclean := (handles_fits hd.clean hcarry hone).1
      obtain ⟨hb, hiff⟩ := ih hrest (fun g hg => hfit g (List.mem_cons_of_mem _ hg))
        ⟨hclean.count, hclean.lobby⟩
      apply And.intro hb
      rw [hiff, active_of_frame hd hcarry hone, List.forall_mem_cons, hmove hm]
      split
      · rename_i hs
        simp [hs]
      · rename_i hs
        simp [hs]

/-! ### What a listening console has read -/

/-- The bytes of the frames that are still to come. -/
structure Awaits (k : Player) (rest : List ℕ) (pending : List (List ℕ)) : Prop where
  bounded : Bounded k.cpu
  idle : k.cpu.cell NET_ACTIVE = 0
  bytes : unread k.cpu ++ rest = pending.flatten
  waits : consoleFraming.verdict (unread k.cpu) = .wait

/-- Of the frames `fs`, after `bs` of their bytes: in the lobby no START has been handled, and elsewhere one
has been read. -/
structure Heeds (fs : List (List ℕ)) (k : Player) (bs rest : List ℕ) : Prop where
  lobby : k.place = .lobby → ∃ done pending, fs = done ++ pending ∧ Awaits k rest pending ∧
    ∀ f ∈ done, ¬ Starts f
  away : k.place ≠ .lobby → ∃ done f pending, fs = done ++ f :: pending ∧ Starts f ∧
    (done ++ [f]).flatten.length ≤ bs.length

/-- Connecting reads nothing. -/
theorem heeds_start (fs : List (List ℕ)) (c : Cpu) (w : Login) (h : (NET_START c w).place = .lobby) :
    Heeds fs (NET_START c w) [] fs.flatten := by
  have hf := aside_SES_MAIN (((c.fill NET_RAM NET_RAM_SIZE 0).sto DELAY_EN 0).sto NET_COUNT 2) w
  have hin := inLobby_start c w
  have hzero : ∀ a, a = RX_WR ∨ a = RX_RD → (NET_START c w).cpu.cell a = 0 := by
    rintro a (rfl | rfl) <;> apply (hf.cell_eq (by simp [Aside, MailboxArea])).trans <;> simp
  have hempty : unread (NET_START c w).cpu = [] := by
    have hlen := length_unread (NET_START c w).cpu
    rw [buffered, hzero _ (Or.inl rfl), hzero _ (Or.inr rfl)] at hlen
    exact List.eq_nil_of_length_eq_zero hlen
  constructor
  · intro _
    refine ⟨[], fs, rfl, ⟨⟨hin.count.le.trans (by omega), hin.entries⟩, hin.active, ?_, ?_⟩, ?_⟩
    · rw [hempty, List.nil_append]
    · rw [hempty, consoleFraming.nil_wait]
    · intro f hf
      cases hf
  · intro hne
    exact absurd h hne

/-- A pump in the lobby handles the frames it completes. -/
theorem Awaits.pump {k : Player} {rest rest' : List ℕ} {pending : List (List ℕ)} (h : Awaits k rest pending)
    (hfit : ∀ f ∈ pending, Fits f) (p : Poll) (hw : delivers p ++ rest' = rest) :
    ∃ done pending', pending = done ++ pending' ∧ Bounded (SES_PUMP SES_ONFRAME k.cpu p).cpu ∧
      unread (SES_PUMP SES_ONFRAME k.cpu p).cpu ++ rest' = pending'.flatten ∧
      consoleFraming.verdict (unread (SES_PUMP SES_ONFRAME k.cpu p).cpu) = .wait ∧
      ((SES_PUMP SES_ONFRAME k.cpu p).cpu.cell NET_ACTIVE = 0 ↔ ∀ f ∈ done, ¬ Starts f) := by
  have hwait := length_le_of_wait h.waits
  rw [length_unread] at hwait
  have hbytes : unread (receive k.cpu p) ++ rest' = pending.flatten := by
    rw [unread_receive _ _ hwait, List.append_assoc, hw, h.bytes]
  obtain ⟨done, pending', hsplit, hands⟩ := parseLoop_hands (tame_fits _) 256 (receive k.cpu p)
    (clean_receive h.bounded.clean p) rest' pending hfit hbytes (buffered_lt _)
  have hdone : ∀ f ∈ done, Fits f := by
    intro f hf
    apply hfit
    rw [hsplit]
    exact List.mem_append_left _ hf
  obtain ⟨hb, hactive⟩ := active_of_handles (handles_pump k.cpu p) hands.carries hdone h.bounded
  refine ⟨done, pending', hsplit, hb, hands.bytes, hands.waits, ?_⟩
  rw [hactive]
  exact and_iff_right h.idle

/-- A console that has left the lobby does not come back. -/
theorem place_step (k : Player) (t : PlayerTurn) (h : k.place ≠ .lobby) : (k.step t).place ≠ .lobby := by
  unfold Player.step
  cases hp : k.place with
  | lobby => exact absurd hp h
  | roster =>
    simp only [rosterRound]
    split <;> simp
  | playing phase => simp
  | stock => simp [hp]

theorem ring_not_aside {a : ℕ} (h : a ∈ RingCells) : a ∉ Aside := by
  simp only [RingCells, Set.mem_ofPred_eq, RX_WR, RX_RD, RXACC] at h
  simp only [Aside, MailboxArea, Set.mem_union, Set.mem_ofPred_eq, UI_COLOR, PP_TMP, MENU_SEL, MENU_PREV,
    SES_TMR_LO, SES_SAVE102, NAME_BUF, NAME_LEN, FN_SEQ, MB_DEV, NAVAIL_HI, NREQ_LO, NGOT_HI, DIAG_TMO,
    DIAG_ERR]
  omega

/-- Every step keeps what has been read. -/
theorem Heeds.step {fs : List (List ℕ)} {k : Player} {bs rest rest' : List ℕ} (h : Heeds fs k bs rest)
    (hfit : ∀ f ∈ fs, Fits f) (hall : bs ++ rest = fs.flatten) (t : PlayerTurn)
    (hw : reads k t ++ rest' = rest) : Heeds fs (k.step t) (bs ++ reads k t) rest' := by
  by_cases hp : k.place = .lobby
  · obtain ⟨done, pending, hsplit, hawait, hdone⟩ := h.lobby hp
    have hreads : reads k t = delivers t.poll := by
      unfold reads
      rw [hp]
    have hpending : ∀ f ∈ pending, Fits f := by
      intro f hf
      apply hfit
      rw [hsplit]
      exact List.mem_append_right _ hf
    obtain ⟨now, pending', hnow, hb, hbytes, hwaits, hactive⟩ :=
      hawait.pump hpending t.poll (hreads ▸ hw)
    have hstep : k.step t = lobbyRound k.cpu t := by
      unfold Player.step
      rw [hp]
    by_cases hidle : (SES_PUMP SES_ONFRAME k.cpu t.poll).cpu.cell NET_ACTIVE = 0
    · have hturn := aside_turn (SES_PUMP SES_ONFRAME k.cpu t.poll).cpu t.pad hb.lobby
      have hround : lobbyRound k.cpu t =
          ⟨sesPace (menu (SES_PUMP SES_ONFRAME k.cpu t.poll).cpu t.pad), .lobby⟩ :=
        if_neg (not_not.mpr hidle)
      rw [hstep, hround]
      constructor
      · intro _
        refine ⟨done ++ now, pending', by rw [hsplit, hnow, List.append_assoc], ?_, ?_⟩
        · have hring := (unread_congr fun a ha => hturn.cell_eq (ring_not_aside ha)).1
          constructor
          · exact hb.congr (hturn.cell_eq (lobby_not_aside (by simp [LobbyCells])))
              (hturn.cell_eq (lobby_not_aside (by simp [LobbyCells])))
          · exact (hturn.cell_eq (lobby_not_aside (Or.inl rfl))).trans hidle
          · rw [hring]
            exact hbytes
          · rw [hring]
            exact hwaits
        · intro f hf
          rcases List.mem_append.mp hf with hf | hf
          · exact hdone f hf
          · exact hactive.mp hidle f hf
      · intro hne
        exact absurd rfl hne
    · have hround : lobbyRound k.cpu t = ⟨ses_go (SES_PUMP SES_ONFRAME k.cpu t.poll).cpu, .roster⟩ :=
        if_pos hidle
      rw [hstep, hround]
      constructor
      · intro hback
        cases hback
      · intro _
        -- one of the frames completed is a START
        rw [hactive] at hidle
        obtain ⟨f, hf, hstart⟩ : ∃ f ∈ now, Starts f := by simpa using hidle
        obtain ⟨pre, post, rfl⟩ := List.append_of_mem hf
        refine ⟨done ++ pre, f, post ++ pending', ?_, hstart, ?_⟩
        · rw [hsplit, hnow]
          simp
        · have hlen := congrArg List.length hall
          have hrest := congrArg List.length hbytes
          have htaken := congrArg List.length hw
          rw [hsplit, hnow] at hlen
          simp only [List.length_append, List.flatten_append, List.flatten_cons, List.flatten_nil,
            List.length_nil] at hlen hrest htaken ⊢
          omega
  · constructor
    · intro hback
      exact absurd hback (place_step k t hp)
    · intro _
      obtain ⟨done, f, pending, hsplit, hs, hlen⟩ := h.away hp
      refine ⟨done, f, pending, hsplit, hs, hlen.trans ?_⟩
      rw [List.length_append]
      exact Nat.le_add_right _ _

/-- What a console that listens to frames that fit has read is the beginning of them. -/
theorem heeds {fs : List (List ℕ)} (hfit : ∀ f ∈ fs, Fits f) {k : Player} {bs : List ℕ} (h : Listens k bs) :
    ∀ rest, bs ++ rest = fs.flatten → Heeds fs k bs rest := by
  induction h with
  | start c w h =>
    intro rest hall
    rw [List.nil_append] at hall
    rw [hall]
    exact heeds_start fs c w h
  | @step k bs _ t ih =>
    intro rest hall
    rw [List.append_assoc] at hall
    exact (ih _ hall).step hfit hall t rfl

/-- A console that has read the frames queued to it is in the lobby, with no match, iff none of them was a
START. -/
theorem playable_iff {fs : List (List ℕ)} (hfit : ∀ f ∈ fs, Fits f) {k : Player}
    (h : Listens k fs.flatten) : Playable k ↔ ∀ f ∈ fs, ¬ Starts f := by
  have hheeds := heeds hfit h [] (List.append_nil _)
  by_cases hp : k.place = .lobby
  · obtain ⟨done, pending, hsplit, hawait, hdone⟩ := hheeds.lobby hp
    have hnone : pending = [] := by
      cases pending with
      | nil => rfl
      | cons f pending =>
        -- a complete frame would not have been left
        have hver := verdict_of_isFrame (hfit f (by rw [hsplit]; simp)).isFrame
        have happ := consoleFraming.verdict_append f pending.flatten (by rw [hver]; exact Verdict.noConfusion)
        have hbytes := hawait.bytes
        rw [List.append_nil, List.flatten_cons] at hbytes
        have hwaits := hawait.waits
        rw [hbytes, happ, hver] at hwaits
        cases hwaits
    rw [hnone, List.append_nil] at hsplit
    rw [hsplit]
    exact ⟨fun _ => hdone, fun _ => ⟨hp, hawait.idle⟩⟩
  · obtain ⟨done, f, pending, hsplit, hs, -⟩ := hheeds.away hp
    constructor
    · intro hplay
      exact absurd hplay.1 hp
    · intro hno
      exact absurd hs (hno f (by rw [hsplit]; simp))

/-! ### The offers of the lobby -/

open BoxingNetplay.Model.RelayServer in
/-- After a run of the relay that consoles feed, the list for client `cj` has client `ci` as joinable, and the
console of `ci` has read the frames queued to it.
SOURCE: intv_relay_server.py:401-417 -/
structure Offered (cfg : Config) (is : List Input) (cj ci : ℕ) (k : Player) : Prop where
  fed : serverFed cfg start is
  listed : ci ∈ others (run cfg is) cj
  joinable : (status cfg (run cfg is) ci).testBit 7 = false
  read : Listens k ((run cfg is).clients ci).queued.flatten

open BoxingNetplay.Model.RelayServer in
/-- A player the lobby offers can be played exactly when no match has begun for it on this connection: the
survivors of a match are offered, and cannot.
SOURCE: intv_relay_server.py:297-318, 401-446, lockstep.asm:351-380, session.asm:122-238 -/
theorem offered_is_playable {cfg : Config} {is : List Input} {cj ci : ℕ} {k : Player}
    (h : Offered cfg is cj ci k) :
    Playable k ↔ ∀ f ∈ ((run cfg is).clients ci).queued, ¬ Starts f :=
  playable_iff (fits_run is h.fed ci).1 h.read

/-! ### Concrete runs -/

/-- Bytes that arrive in the lobby or under the roster are read. -/
theorem Listens.deliver {k : Player} {bs : List ℕ} (h : Listens k bs)
    (hp : k.place = .lobby ∨ k.place = .roster) (data : List ℕ) (hne : data ≠ [])
    (hd : data.length ≤ 64 ∧ ∀ b ∈ data, b < 256) :
    Listens (k.step (deliveryOf data hd)) (bs ++ data) := by
  have hstep := h.step (deliveryOf data hd)
  have hreads : reads k (deliveryOf data hd) = data := by
    unfold reads
    rcases hp with hp | hp <;> rw [hp] <;> exact delivers_deliveryOf hne hd
  rwa [hreads] at hstep

/-- Two polls of a console that has just connected. -/
theorem listens_twice (xs ys : List ℕ) (hx : xs ≠ []) (hy : ys ≠ [])
    (hxs : xs.length ≤ 64 ∧ ∀ b ∈ xs, b < 256) (hys : ys.length ≤ 64 ∧ ∀ b ∈ ys, b < 256) :
    ∃ k, Listens k (xs ++ ys) := by
  have hplace : arrived.place = .lobby := place_of_login default rfl rfl
  have hfirst := (Listens.start default namelessLogin hplace).deliver (Or.inl hplace) xs hx hxs
  have hround : (arrived.step (deliveryOf xs hxs)).place = .lobby ∨
      (arrived.step (deliveryOf xs hxs)).place = .roster := by
    unfold Player.step
    rw [hplace]
    simp only [lobbyRound]
    split <;> simp
  exact ⟨_, hfirst.deliver hround ys hy hys⟩

open BoxingNetplay.Model.RelayServer in
/-- Two players meet, the first starts the match and leaves it; a third one asks who is there. -/
def shortMatch : List Input :=
  [⟨.accept 1 0, [], []⟩, ⟨.accept 2 0, [], []⟩, ⟨.accept 3 0, [], []⟩,
    ⟨.ready 0 false (some (.got (frame T_HELLO [2, 65, 65]))), [.took 99], []⟩,
    ⟨.ready 1 false (some (.got (frame T_HELLO [2, 66, 66]))), [.took 99], []⟩,
    ⟨.ready 1 false (some (.got (frame T_JOIN [65, 65, 0, 0, 0, 0, 0, 0]))), [.took 99, .took 99], []⟩,
    ⟨.ready 0 false (some (.got (frame T_GO []))), [.took 99, .took 99], [7]⟩,
    ⟨.ready 0 false (some (.got [])), [.took 99], []⟩,
    ⟨.ready 2 false (some (.got (frame T_HELLO [2, 67, 67]))), [.took 99], []⟩]

open BoxingNetplay.Model.RelayServer in
/-- Consoles build what the relay reads in it. -/
theorem shortMatch_fed : serverFed (.ofSource 3 0) start shortMatch ∧
    serverFed (.ofSource 3 0) start (shortMatch.take 5) := by
  have hhello : ∀ a : ℕ, FromConsole (frame T_HELLO [2, a, a]) := by
    intro a
    apply fromConsole_flatten [frame T_HELLO [2, a, a]] _ (by simp)
    intro f hf
    rw [List.mem_singleton.mp hf]
    exact Built.hello [a, a] (by simp)
  have hjoin : FromConsole (frame T_HELLO [2, 66, 66] ++ frame T_JOIN [65, 65, 0, 0, 0, 0, 0, 0]) := by
    apply fromConsole_flatten [frame T_HELLO [2, 66, 66], frame T_JOIN [65, 65, 0, 0, 0, 0, 0, 0]] _ rfl
    intro f hf
    rcases List.mem_pair.mp hf with rfl | rfl
    · exact Built.hello [66, 66] (by decide)
    · exact Built.join [65, 65, 0, 0, 0, 0, 0, 0] rfl
  have hgo : FromConsole (frame T_HELLO [2, 65, 65] ++ frame T_GO []) := by
    apply fromConsole_flatten [frame T_HELLO [2, 65, 65], frame T_GO []] _ rfl
    intro f hf
    rcases List.mem_pair.mp hf with rfl | rfl
    · exact Built.hello [65, 65] (by decide)
    · exact Built.go
  have hclose : FromConsole (frame T_HELLO [2, 65, 65] ++ frame T_GO [] ++ []) := by
    rw [List.append_nil]
    exact hgo
  exact ⟨⟨trivial, trivial, trivial, hhello 65, hhello 66, hjoin, hgo, hclose, hhello 67, trivial⟩,
    trivial, trivial, trivial, hhello 65, hhello 66, trivial⟩

open BoxingNetplay.Model.RelayServer in
/-- A player who has just come is offered, and can be played. -/
theorem newcomer_is_playable : ∃ k, Listens k
    ((run (.ofSource 3 0) (shortMatch.take 5)).clients 1).queued.flatten ∧ Playable k := by
  have hplace : arrived.place = .lobby := place_of_login default rfl rfl
  have hread := (Listens.start default namelessLogin hplace).deliver (Or.inl hplace)
    ((run (.ofSource 3 0) (shortMatch.take 5)).clients 1).queued.flatten
    (by decide +kernel) (by decide +kernel)
  have hoffer : Offered (.ofSource 3 0) (shortMatch.take 5) 0 1 _ :=
    ⟨shortMatch_fed.2, by decide +kernel, by decide +kernel, hread⟩
  exact ⟨_, hread, (offered_is_playable hoffer).mpr (by decide +kernel)⟩

open BoxingNetplay.Model.RelayServer in
/-- The one who was left behind in the match is offered, and cannot. -/
theorem survivor_is_offered : ¬ ∀ (cfg : Config) (is : List Input) (cj ci : ℕ) (k : Player),
    Offered cfg is cj ci k → Playable k := by
  intro h
  have hsplit : ((run (.ofSource 3 0) shortMatch).clients 1).queued.flatten =
      ((run (.ofSource 3 0) shortMatch).clients 1).queued.flatten.take 64 ++
        ((run (.ofSource 3 0) shortMatch).clients 1).queued.flatten.drop 64 :=
    (List.take_append_drop 64 _).symm
  obtain ⟨k, hread⟩ := listens_twice
    (((run (.ofSource 3 0) shortMatch).clients 1).queued.flatten.take 64)
    (((run (.ofSource 3 0) shortMatch).clients 1).queued.flatten.drop 64)
    (by decide +kernel) (by decide +kernel) (by decide +kernel) (by decide +kernel)
  rw [← hsplit] at hread
  have hplay := h (.ofSource 3 0) shortMatch 2 1 k
    ⟨shortMatch_fed.1, by decide +kernel, by decide +kernel, hread⟩
  have hnone := (playable_iff (fits_run shortMatch shortMatch_fed.1 1).1 hread).mp hplay
  exact absurd hnone (by decide +kernel)

end BoxingNetplay.Analysis
