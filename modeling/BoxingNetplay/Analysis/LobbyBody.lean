import Mathlib.Algebra.Order.BigOperators.Group.List
import BoxingNetplay.Interface.LobbyWorker

/-!
# The body and `json.dumps`

The buffers of the single strings always suffice.  What differs from `json.dumps` is DEL, which
`copy_ascii` lets through and `json_esc` does not escape, and a body of `JSON_MAX` bytes or more, for
which there is no body at all.
-/

set_option autoImplicit false

namespace BoxingNetplay.Analysis.LobbyBody

open BoxingNetplay.Library.Json
open BoxingNetplay.Model.LobbyPublisher
open BoxingNetplay.Interface.LobbyWorker

/-! ### One string -/

/-- The bytes that a byte of an accepted string takes in JSON. -/
def width (c : ℕ) : ℕ :=
  if c = 0x22 ∨ c = 0x5C ∨ c = 0x08 ∨ c = 0x0C ∨ c = 0x0A ∨ c = 0x0D ∨ c = 0x09 then 2
  else if c < 0x20 then 6
  else 1

/-- A byte takes as many as its replacement has. -/
theorem length_replacement (c : ℕ) : (replacement c).length = width c := by
  unfold replacement width
  split_ifs <;> first | rfl | omega

/-- That is at most six. -/
theorem width_le (c : ℕ) : width c ≤ 6 := by
  unfold width
  split_ifs <;> omega

/-- A byte that `copy_ascii` lets through is escaped as `json.dumps` does it, unless it is DEL. -/
theorem replacement_eq {c : ℕ} (h : c < 0x7F) : replacement c = escape c := by
  have hall : ∀ c < 0x7F, replacement c = escape c := by decide
  exact hall c h

/-- The loop succeeds exactly when the whole string fits. -/
theorem json_esc_loop_eq (sz : ℕ) (dst src : List ℕ) : json_esc_loop sz dst src =
    if sz ≤ dst.length + (src.flatMap replacement).length then none
    else some (dst ++ src.flatMap replacement) := by
  induction src generalizing dst with
  | nil => simp [json_esc_loop]
  | cons p rest ih =>
    rw [json_esc_loop, ih, List.flatMap_cons, List.length_append, List.length_append,
      List.append_assoc, Nat.add_assoc]
    by_cases h : sz ≤ dst.length + (replacement p).length
    · rw [if_pos h, if_pos (by omega)]
    · rw [if_neg h]

/-- The replacements of a string take what its bytes do. -/
theorem length_escaped (s : List ℕ) : (s.flatMap replacement).length = (s.map width).sum := by
  rw [List.length_flatMap]
  simp only [length_replacement]

/-- A buffer of six times the size takes every accepted string. -/
theorem json_esc_buffer {sz : ℕ} (b : AsciiBuffer sz) :
    json_esc b.bytes (sz * 6) = some (b.bytes.flatMap replacement) := by
  have hsum : (b.bytes.map width).sum ≤ b.bytes.length * 6 := by
    have hsix := List.sum_le_card_nsmul (b.bytes.map width) 6 fun w hw => by
      obtain ⟨c, -, rfl⟩ := List.mem_map.mp hw
      exact width_le c
    simpa [List.length_map] using hsix
  have hlen := b.fits
  rw [json_esc, json_esc_loop_eq, length_escaped, List.length_nil, if_neg (by omega)]
  rfl

/-- Without DEL the string is what `json.dumps` writes between the quotes. -/
theorem escaped_eq {sz : ℕ} (b : AsciiBuffer sz) (h : 0x7F ∉ b.bytes) :
    b.bytes.flatMap replacement = b.bytes.flatMap escape := by
  apply List.flatMap_congr
  intro c hc
  have hle := (b.ascii c hc).2
  have hne : c ≠ 0x7F := fun heq => h (heq ▸ hc)
  exact replacement_eq (by omega)

/-- DEL stays. -/
theorem del_kept {s : List ℕ} (h : 0x7F ∈ s) : 0x7F ∈ s.flatMap replacement :=
  List.mem_flatMap.mpr ⟨0x7F, h, by decide⟩

/-! ### The body -/

/-- What `snprintf` would write into a buffer without end. -/
def text (l : Lobby) : List ℕ :=
  ascii "\x7b\"game\": \"" ++ l.game.bytes.flatMap replacement ++ ascii "\", \"appkey\": " ++
    decimal l.appkey ++ ascii ", \"server\": \"" ++ l.server.bytes.flatMap replacement ++
    ascii "\", \"region\": \"" ++ l.region.bytes.flatMap replacement ++
    ascii "\", \"serverurl\": \"" ++ l.serverurl.bytes.flatMap replacement ++
    ascii "\", \"status\": \"" ++ status l.offline ++ ascii "\", \"maxplayers\": " ++
    decimal l.maxplayers ++ ascii ", \"curplayers\": " ++ decimal l.curplayers ++
    ascii ", \"clients\": [\x7b\"platform\": \"intv\", \"url\": \"" ++
    l.client_url.bytes.flatMap replacement ++ ascii "\"\x7d]\x7d"

/-- The body is what `snprintf` would write, if that fits with its NUL. -/
theorem render_json_eq (l : Lobby) (sz : ℕ) :
    render_json l sz = if sz ≤ (text l).length then none else some (text l) := by
  unfold render_json text
  simp only [json_esc_buffer, Option.bind_eq_bind, Option.bind_some]

/-- The strings of the record. -/
def strings (l : Lobby) : List (List ℕ) :=
  [l.game.bytes, l.server.bytes, l.region.bytes, l.serverurl.bytes, l.client_url.bytes]

/-- The dictionary with the record's values. -/
def document (l : Lobby) : Value :=
  payload l.game.bytes l.server.bytes l.region.bytes l.serverurl.bytes l.client_url.bytes l.appkey
    l.maxplayers l.curplayers l.offline

/-- A status needs no escapes. -/
theorem quoted_status (offline : Bool) : quoted (status offline) = 0x22 :: status offline ++ [0x22] := by
  cases offline <;> decide

/-- Without DEL the body is what `json.dumps` gives. -/
theorem text_eq (l : Lobby) (h : ∀ s ∈ strings l, 0x7F ∉ s) : text l = dumps (document l) := by
  simp only [strings, List.mem_cons, List.not_mem_nil, or_false, forall_eq_or_imp, forall_eq] at h
  obtain ⟨hg, hs, hr, hsu, hcu⟩ := h
  have hgame : ascii "\x7b\"game\": \"" = [0x7B] ++ quoted (ascii "game") ++ [0x3A, 0x20, 0x22] := by
    decide
  have happkey : ascii "\", \"appkey\": " =
      [0x22, 0x2C, 0x20] ++ quoted (ascii "appkey") ++ [0x3A, 0x20] := by decide
  have hserver : ascii ", \"server\": \"" =
      [0x2C, 0x20] ++ quoted (ascii "server") ++ [0x3A, 0x20, 0x22] := by decide
  have hregion : ascii "\", \"region\": \"" =
      [0x22, 0x2C, 0x20] ++ quoted (ascii "region") ++ [0x3A, 0x20, 0x22] := by decide
  have hserverurl : ascii "\", \"serverurl\": \"" =
      [0x22, 0x2C, 0x20] ++ quoted (ascii "serverurl") ++ [0x3A, 0x20, 0x22] := by decide
  have hstatus : ascii "\", \"status\": \"" =
      [0x22, 0x2C, 0x20] ++ quoted (ascii "status") ++ [0x3A, 0x20, 0x22] := by decide
  have hmaxplayers : ascii "\", \"maxplayers\": " =
      [0x22, 0x2C, 0x20] ++ quoted (ascii "maxplayers") ++ [0x3A, 0x20] := by decide
  have hcurplayers : ascii ", \"curplayers\": " =
      [0x2C, 0x20] ++ quoted (ascii "curplayers") ++ [0x3A, 0x20] := by decide
  have hclients : ascii ", \"clients\": [\x7b\"platform\": \"intv\", \"url\": \"" =
      [0x2C, 0x20] ++ quoted (ascii "clients") ++ [0x3A, 0x20, 0x5B, 0x7B] ++
        quoted (ascii "platform") ++ [0x3A, 0x20] ++ quoted (ascii "intv") ++ [0x2C, 0x20] ++
        quoted (ascii "url") ++ [0x3A, 0x20, 0x22] := by decide
  have hend : ascii "\"\x7d]\x7d" = [0x22, 0x7D, 0x5D, 0x7D] := by decide
  unfold text document payload
  rw [hgame, happkey, hserver, hregion, hserverurl, hstatus, hmaxplayers, hcurplayers, hclients, hend]
  simp only [escaped_eq _ hg, escaped_eq _ hs, escaped_eq _ hr, escaped_eq _ hsu, escaped_eq _ hcu,
    dumps, dumpsFields, dumpsItems, quoted_status]
  simp only [quoted, List.append_assoc, List.cons_append, List.nil_append]

/-- With DEL it is not, whatever `json.dumps` gives. -/
theorem text_ne (l : Lobby) (h : ∃ s ∈ strings l, 0x7F ∈ s) (v : Value) : text l ≠ dumps v := by
  intro heq
  have hmem : 0x7F ∈ text l := by
    obtain ⟨s, hs, hdel⟩ := h
    have hkept := del_kept hdel
    simp only [strings, List.mem_cons, List.not_mem_nil, or_false] at hs
    unfold text
    generalize 0x7F = c at hkept ⊢
    simp only [List.mem_append]
    obtain rfl | rfl | rfl | rfl | rfl := hs <;> simp only [hkept, true_or, or_true]
  rw [heq] at hmem
  have := (printable_dumps v _ hmem).2
  omega

/-- The bytes of a body whose strings, numbers and status are given. -/
def bodyLength (ss : List (List ℕ)) (is : List ℤ) (offline : Bool) : ℕ :=
  161 + (ss.map fun s => (s.map width).sum).sum + (is.map fun i => (decimal i).length).sum +
    if offline then 7 else 6

/-- The two have seven bytes and six. -/
theorem length_status (offline : Bool) : (status offline).length = if offline then 7 else 6 := by
  cases offline <;> decide

/-- What `snprintf` would write has as many bytes as the strings, the numbers and the status take. -/
theorem length_text (l : Lobby) : (text l).length =
    bodyLength (strings l) [l.appkey, l.maxplayers, l.curplayers] l.offline := by
  have hliterals : (ascii "\x7b\"game\": \"").length + (ascii "\", \"appkey\": ").length +
      (ascii ", \"server\": \"").length + (ascii "\", \"region\": \"").length +
      (ascii "\", \"serverurl\": \"").length + (ascii "\", \"status\": \"").length +
      (ascii "\", \"maxplayers\": ").length + (ascii ", \"curplayers\": ").length +
      (ascii ", \"clients\": [\x7b\"platform\": \"intv\", \"url\": \"").length +
      (ascii "\"\x7d]\x7d").length = 161 := by decide
  unfold text
  simp only [List.length_append]
  simp only [length_escaped, length_status]
  simp only [bodyLength, strings, List.map_cons, List.map_nil, List.sum_cons, List.sum_nil, add_zero]
  omega

/-- The body is that of `json.dumps` exactly when no string has a DEL and it fits. -/
theorem render_json_iff (l : Lobby) :
    render_json l JSON_MAX = some (dumps (document l)) ↔ (∀ s ∈ strings l, 0x7F ∉ s) ∧
      bodyLength (strings l) [l.appkey, l.maxplayers, l.curplayers] l.offline < JSON_MAX := by
  rw [render_json_eq, length_text]
  constructor
  · intro h
    split at h
    · cases h
    · constructor
      · intro s hs hdel
        exact text_ne l ⟨s, hs, hdel⟩ _ (Option.some.inj h)
      · exact not_le.mp ‹_›
  · rintro ⟨hclean, hfits⟩
    rw [if_neg (not_le.mpr hfits), text_eq l hclean]

/-! ### What `lobby_start` accepts -/

/-- The strings among the arguments that go into the body. -/
def argStrings (a : Args) : List (List ℕ) :=
  [a.game_name.bytes, a.server_name.bytes, a.region.bytes, a.serverurl.bytes, a.client_url.bytes]

/-- A string that is accepted is copied as it is. -/
theorem copy_ascii_bytes {sz : ℕ} {src : CString} {b : AsciiBuffer sz}
    (h : copy_ascii sz src = some b) : b.bytes = src.bytes := by
  unfold copy_ascii at h
  split at h
  · cases h
  · split at h
    · cases h
    · cases h
      rfl

/-- The record has the values of the arguments. -/
theorem started_values {a : Args} {l : Lobby} (h : lobby_start a = some l) :
    strings l = argStrings a ∧ l.appkey = a.appkey ∧ l.maxplayers = a.maxplayers := by
  simp only [lobby_start, Option.bind_eq_bind, Option.bind_eq_some_iff, Option.some.injEq] at h
  obtain ⟨-, -, su, hsu, cu, hcu, g, hg, s, hs, r, hr, rfl⟩ := h
  simp only [strings, argStrings, copy_ascii_bytes hsu, copy_ascii_bytes hcu, copy_ascii_bytes hg,
    copy_ascii_bytes hs, copy_ascii_bytes hr, and_self]

/-- The body is the text of `json.dumps` exactly when no string has a DEL and the body is shorter
than its buffer. -/
theorem body_is_dumps {a : Args} {l : Lobby} (h : lobby_start a = some l) (n : ℤ) (offline : Bool) :
    render_json { l with curplayers := n, offline := offline } JSON_MAX =
      some (dumps (payload a.game_name.bytes a.server_name.bytes a.region.bytes a.serverurl.bytes
        a.client_url.bytes a.appkey a.maxplayers n offline)) ↔
    (∀ s ∈ argStrings a, 0x7F ∉ s) ∧
      bodyLength (argStrings a) [a.appkey, a.maxplayers, n] offline < JSON_MAX := by
  obtain ⟨hstrings, happkey, hmax⟩ := started_values h
  have hdoc : document { l with curplayers := n, offline := offline } =
      payload a.game_name.bytes a.server_name.bytes a.region.bytes a.serverurl.bytes
        a.client_url.bytes a.appkey a.maxplayers n offline := by
    simp only [strings, argStrings, List.cons.injEq] at hstrings
    obtain ⟨hg, hs, hr, hsu, hcu, -⟩ := hstrings
    simp only [document, hg, hs, hr, hsu, hcu, happkey, hmax]
  have hlist : strings { l with curplayers := n, offline := offline } = argStrings a := hstrings
  have hiff := render_json_iff { l with curplayers := n, offline := offline }
  rw [hdoc, hlist] at hiff
  simpa only [happkey, hmax] using hiff

/-- The relay's own command line. -/
theorem commandLine_body : ∃ l, lobby_start commandLine = some l ∧
    render_json { l with curplayers := 2, offline := false } JSON_MAX =
      some (dumps (payload (ascii "Boxing") (ascii "Boxing Netplay") (ascii "us")
        (ascii "TCP://fujinet.online:9109/") (ascii "TNFS://fujinet.online/boxing.int") 17 4 2
        false)) := by
  have hsome : (lobby_start commandLine).isSome = true := by decide +kernel
  obtain ⟨l, hl⟩ := Option.isSome_iff_exists.mp hsome
  refine ⟨l, hl, (body_is_dumps hl 2 false).mpr ⟨by decide, by decide +kernel⟩⟩

/-- A game called DEL. -/
def delGame : Args := { commandLine with game_name := ⟨[0x7F], by decide⟩ }

/-- The two bodies differ for it. -/
theorem delGame_differs : ¬ ∀ (a : Args) (l : Lobby) (n : ℤ) (offline : Bool),
    lobby_start a = some l → render_json { l with curplayers := n, offline := offline } JSON_MAX =
      some (dumps (payload a.game_name.bytes a.server_name.bytes a.region.bytes a.serverurl.bytes
        a.client_url.bytes a.appkey a.maxplayers n offline)) := by
  intro h
  have hsome : (lobby_start delGame).isSome = true := by decide +kernel
  obtain ⟨l, hl⟩ := Option.isSome_iff_exists.mp hsome
  have hbody := h delGame l 0 false hl
  rw [render_json_eq] at hbody
  split at hbody
  · cases hbody
  · have hdel : ∃ s ∈ strings l, 0x7F ∈ s := by
      rw [(started_values hl).1]
      decide
    exact text_ne { l with curplayers := 0, offline := false } hdel _ (Option.some.inj hbody)

end BoxingNetplay.Analysis.LobbyBody
