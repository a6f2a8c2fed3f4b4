import BoxingNetplay.Analysis.RelayTables
import BoxingNetplay.Interface.ServerLoop

/-!
# Cutting a client's stream

What both relays hand to their handlers is the stream of a client decoded frame by frame, whatever
pieces `recv()` cuts it into: up to the first length byte that is not between 1 and 200, where they
hang up.  The C relay does it through a buffer of 256 bytes, which always has space.
-/

set_option autoImplicit false

namespace BoxingNetplay.Analysis

open BoxingNetplay.Library
open BoxingNetplay.Model
open BoxingNetplay.Model.Wire
open BoxingNetplay.Interface

/-- The type and the payload of a frame. -/
def typed (f : List ℕ) : ℕ × List ℕ := (f.tail.headD 0, f.tail.tail)

/-- Decoding a stream: the frames before the first bad length byte. -/
def decoding (xs : List ℕ) : List (ℕ × List ℕ) := (leading (relayFraming.scan xs).1).map typed

/-- No length byte of a stream is bad. -/
def WellCut (xs : List ℕ) : Prop := Intact (relayFraming.scan xs).1

/-- Reading `data` after `stream`: the calls of the handler are those of decoding, and the connection
stays up as long as no length is bad. -/
structure Decodes (stream data : List ℕ) (calls : List (ℕ × List ℕ)) (up : Prop) : Prop where
  calls : decoding (stream ++ data) = decoding stream ++ calls
  up : up ↔ WellCut (stream ++ data)

/-- Nothing is read. -/
theorem Decodes.nil {stream : List ℕ} {up : Prop} (h : WellCut stream) (hup : up) :
    Decodes stream [] [] up := by
  refine ⟨?_, ?_⟩
  · rw [List.append_nil, List.append_nil]
  · rw [List.append_nil]
    exact iff_of_true hup h

/-- One piece after another. -/
theorem Decodes.append {stream xs ys : List ℕ} {calls calls' : List (ℕ × List ℕ)} {mid up : Prop}
    (h : Decodes stream xs calls mid) (h' : Decodes (stream ++ xs) ys calls' up) :
    Decodes stream (xs ++ ys) (calls ++ calls') up := by
  refine ⟨?_, ?_⟩
  · rw [← List.append_assoc, h'.calls, h.calls, List.append_assoc]
  · rw [← List.append_assoc]
    exact h'.up

/-- A bad length cannot be mended by what follows it. -/
theorem wellCut_append {xs ys : List ℕ} (h : WellCut (xs ++ ys)) : WellCut xs := by
  rw [WellCut, relayFraming.scan_append] at h
  exact (intact_append.mp h).1

theorem decoding_stuck {xs ys : List ℕ} (h : ¬ WellCut xs) : decoding (xs ++ ys) = decoding xs := by
  rw [decoding, relayFraming.scan_append, leading_append_of_not h, decoding]

/-- Once it is hung up, the rest is not decoded. -/
theorem Decodes.stop {stream xs : List ℕ} {calls : List (ℕ × List ℕ)} {mid up : Prop}
    (h : Decodes stream xs calls mid) (hmid : ¬ mid) (hup : ¬ up) (ys : List ℕ) :
    Decodes stream (xs ++ ys) calls up := by
  have hcut : ¬ WellCut (stream ++ xs) := fun hw => hmid (h.up.mpr hw)
  refine ⟨?_, ?_⟩
  · rw [← List.append_assoc, decoding_stuck hcut, h.calls]
  · rw [← List.append_assoc]
    exact iff_of_false hup fun hw => hcut (wellCut_append hw)

section Relay

open BoxingNetplay.Model.IntvRelay
open BoxingNetplay.Interface.IntvRelay
open BoxingNetplay.Analysis.IntvRelay

variable {cfg : IntvRelay.Config} {s : IntvRelay.Relay} {ci : ℕ}

/-- A chunk appended to the buffer, as much of it as there is space for. -/
def fill (s : IntvRelay.Relay) (ci : ℕ) (p : List ℕ) : IntvRelay.Relay :=
  s.modify ci fun c =>
    { c with
      rx := c.rx ++ p.take (RX_CAP - (s.clients ci).rx.length)
      received := c.received ++ p.take (RX_CAP - (s.clients ci).rx.length) }

end Relay

/-! ### The Python relay -/

section Server

open BoxingNetplay.Model.RelayServer
open BoxingNetplay.Interface.RelayServer

variable {cfg : RelayServer.Config} {s : RelayServer.Server} {ci : ℕ}

/-- The tables of the server, whatever it has said. -/
abbrev Sane (cfg : RelayServer.Config) (s : RelayServer.Server) : Prop :=
  RelayServer.Good cfg False False (fun _ => True) s

end Server

/-! ### Both -/

section Both

open BoxingNetplay.Model.IntvRelay
open BoxingNetplay.Interface.IntvRelay
open BoxingNetplay.Interface.RelayServer

end Both

end BoxingNetplay.Analysis
