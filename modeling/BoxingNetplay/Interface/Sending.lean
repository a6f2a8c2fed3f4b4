import BoxingNetplay.Interface.Push
import BoxingNetplay.Interface.Delivery

/-!
# What consoles send

The frames a console builds, in the lobby and in a match, and what a relay makes of a stream of
them: each is whole, and those that are relayed fit the console they are relayed to.
-/

set_option autoImplicit false

namespace BoxingNetplay.Interface

open BoxingNetplay.Library
open BoxingNetplay.Model
open BoxingNetplay.Model.Wire

/-- A frame that a console builds: HELLO with a name of two to eight characters, LIST, JOIN with
the eight characters of a lobby entry, GO; INPUT, CRC and RESYNC; and the frames of a push.
SOURCE: session.asm:94-120, 177-191, 217-236, 273-284, lockstep.asm:142-162, 313-330,
resync.asm:122-135, 163-256 -/
inductive Built : List ℕ → Prop where
  | hello (name : List ℕ) (h : 2 ≤ name.length ∧ name.length ≤ 8) :
      Built ((name.length + 2) :: T_HELLO :: 2 :: name)
  | list : Built [1, T_LIST]
  | join (name : List ℕ) (h : name.length = 8) : Built (9 :: T_JOIN :: name)
  | go : Built [1, T_GO]
  | input (seat lo hi decoded keypad : ℕ) : Built [6, FT_INPUT, seat, lo, hi, decoded, keypad]
  | crc (seat lo hi sumLo sumHi : ℕ) : Built [6, FT_CRC, seat, lo, hi, sumLo, sumHi]
  | resync (lo hi : ℕ) : Built [3, FT_RESYNC, lo, hi]
  | push (c : Cpu) (f : List ℕ) (h : f ∈ pushFrames c) : Built f

/-! ### The frames of a push -/

/-- A chunk: a position inside the image, and at least one byte. -/
theorem mem_chunkFrames {c : Cpu} {f : List ℕ} (fuel : ℕ) {pos : ℕ} (hpos : pos ≤ IMG_TOTAL)
    (hf : f ∈ chunkFrames c pos fuel) : ∃ p, p < IMG_TOTAL ∧ f = chunkFrame c p := by
  induction fuel generalizing pos with
  | zero => cases hf
  | succ fuel ih =>
    simp only [chunkFrames] at hf
    split at hf
    · cases hf
    rename_i hne
    rcases List.mem_cons.mp hf with hf | hf
    · exact ⟨pos, Nat.lt_of_le_of_ne hpos hne, hf⟩
    · exact ih (chunkLen_le hpos).2 hf

/-- The frames of a push are its BEGIN, chunks inside the image, and its END. -/
theorem mem_pushFrames {c : Cpu} {f : List ℕ} (hf : f ∈ pushFrames c) :
    f = beginFrame c ∨ (∃ p, p < IMG_TOTAL ∧ f = chunkFrame c p) ∨ f = endFrame := by
  rcases List.mem_cons.mp hf with hf | hf
  · exact Or.inl hf
  rcases List.mem_append.mp hf with hf | hf
  · exact Or.inr (Or.inl (mem_chunkFrames 9 (Nat.zero_le _) hf))
  · exact Or.inr (Or.inr (List.mem_singleton.mp hf))

/-- A frame of a push has three to 99 body bytes, and a BEGIN five. -/
theorem fits_push {c : Cpu} {f : List ℕ} (hf : f ∈ pushFrames c) : Fits f := by
  rcases mem_pushFrames hf with rfl | ⟨p, hp, rfl⟩ | rfl
  · exact ⟨⟨rfl, rfl⟩, Nat.le_refl 5, (fun h => by cases h), fun h => by cases h⟩
  · obtain ⟨hlen, -⟩ := chunkLen_le (Nat.le_of_lt hp)
    have hone := chunkLen_pos hp
    refine ⟨⟨?_, ?_⟩, ?_, (fun h => by cases h), fun h => by cases h⟩
    · simp only [flenOk, Bool.and_eq_true, decide_eq_true_eq]
      refine ⟨⟨⟨by decide, by decide⟩, ?_⟩, ?_⟩
      · change 3 ≤ _
        omega
      · change _ ≤ 99
        omega
    · simp
    · change (if p / 256 = 0xFF then _ else 4) ≤ chunkLen p + 3
      simp only [IMG_TOTAL] at hp
      rw [if_neg (by omega)]
      omega
  · exact ⟨⟨rfl, rfl⟩, Nat.le_refl 3, (fun h => by cases h), fun h => by cases h⟩

/-! ### At the relay -/

/-- What a console builds fits the relay's framing. -/
theorem Built.isWhole {f : List ℕ} (h : Built f) : IsWhole f := by
  cases h with
  | hello name h => exact ⟨by omega, by omega, rfl⟩
  | list => exact ⟨by decide, by decide, rfl⟩
  | join name h => exact ⟨by decide, by decide, by rw [List.length_cons, h]⟩
  | go => exact ⟨by decide, by decide, rfl⟩
  | input => exact ⟨by decide, by decide, rfl⟩
  | crc => exact ⟨by decide, by decide, rfl⟩
  | resync => exact ⟨by decide, by decide, rfl⟩
  | push c f hf =>
    match f, (fits_push hf).isFrame with
    | len :: ty :: rest, hfr =>
      have hb := flenOk_bounds hfr.1
      exact ⟨hb.1, by omega, hfr.2⟩

/-- What of it is relayed fits a console. -/
theorem Built.fits {f : List ℕ} (h : Built f) (hr : relayed (f.getD 1 0) = true) : Fits f := by
  cases h with
  | hello => cases hr
  | list => cases hr
  | join => cases hr
  | go => cases hr
  | input => exact ⟨⟨rfl, rfl⟩, Nat.le_refl 6, fun h => (nomatch h), fun h => (nomatch h)⟩
  | crc => exact ⟨⟨rfl, rfl⟩, Nat.le_refl 6, fun h => (nomatch h), fun h => (nomatch h)⟩
  | resync => exact ⟨⟨rfl, rfl⟩, Nat.zero_le _, fun h => (nomatch h), fun h => (nomatch h)⟩
  | push c f hf => exact fits_push hf

/-- The bytes received from a console so far: the beginning of some frames it built. -/
def FromConsole (xs : List ℕ) : Prop :=
  ∃ (fs : List (List ℕ)) (ys : List ℕ), (∀ f ∈ fs, Built f) ∧ xs ++ ys = fs.flatten

/-- The frames in them are frames it built. -/
theorem built_of_scan {xs f : List ℕ} (h : FromConsole xs)
    (hf : Item.frame f ∈ (relayFraming.scan xs).1) : Built f := by
  obtain ⟨fs, ys, hfs, heq⟩ := h
  have hscan := relayFraming.scan_append xs ys
  rw [heq, relayFraming.scan_flatten fs fun g hg => (hfs g hg).isWhole.verdict] at hscan
  have hmem : Item.frame f ∈ fs.map Item.frame := by
    have hitems : fs.map Item.frame = _ := congrArg Prod.fst hscan
    rw [hitems]
    exact List.mem_append_left _ hf
  obtain ⟨g, hg, heq⟩ := List.mem_map.mp hmem
  injection heq with heq
  exact heq ▸ hfs g hg

end BoxingNetplay.Interface
