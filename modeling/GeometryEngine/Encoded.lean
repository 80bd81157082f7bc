import GeometryEngine.FrontEnd

/-!
# Instructions on the wire

An instruction with its parameters can be written to the front-end in two ways: on
the plain path, word by word together with its number (`Encoded.entries`), or on
the packed path, in a *packet* of up to four instructions (`Packet.words`): a word
with their numbers, and behind it all their parameters.
-/

namespace GeometryEngine

/-- An instruction as it is written. -/
structure Encoded where
  /-- Its number. -/
  id : UInt8
  /-- Its parameters. -/
  parameters : List UInt32
  deriving DecidableEq, Inhabited

namespace Encoded

/-- Whether there are as many parameters as the instruction has. -/
def isComplete (e : Encoded) : Bool := e.parameters.length == Instruction.parameters e.id

/-- What the instruction means. -/
def meaning (e : Encoded) : Instruction := .decode e.id e.parameters

/-- The words of the plain path. An instruction without parameters takes a word
    too. -/
def entries (e : Encoded) : List Entry :=
  match e.parameters with
  | [] => [⟨e.id, 0⟩]
  | ws => ws.map fun w => ⟨e.id, w⟩

/-- An instruction takes up as many words of the plain path as the front-end
    keeps for it. -/
theorem length_entries {e : Encoded} (h : e.isComplete = true) :
    e.entries.length = FrontEnd.entries e.id := by
  rw [isComplete, beq_iff_eq] at h
  rw [FrontEnd.entries, ← h]
  unfold entries
  split
  · rename_i he
    simp [he]
  · rename_i hne
    rw [List.length_map]
    have := List.length_pos_iff.2 hne
    omega

end Encoded

/-! ### Packets -/

/-- Instructions that share a word of the packed path. -/
abbrev Packet := List Encoded

namespace Packet

/-- The word with the numbers of the instructions, the first in its lowest
    byte. -/
def header (p : Packet) : UInt32 :=
  UInt32.ofNat (p.foldr (fun e n => 256 * n + e.id.toNat) 0)

/-- The words of the packed path. -/
def words (p : Packet) : List UInt32 := p.header :: p.flatMap Encoded.parameters

end Packet

/-! ### Writing -/

namespace FrontEnd

variable {σ : Type} [Sink σ]

/-- Writes words of the plain path, up to a fault. -/
def writeEntries (fe : FrontEnd) (s : σ) : List Entry → Outcome FrontEnd σ
  | [] => ⟨fe, s, none⟩
  | e :: es => (fe.write s e.id e.parameter).andThen fun fe s => fe.writeEntries s es

/-- Writes words of the packed path, up to a fault. -/
def writeWords (fe : FrontEnd) (s : σ) : List UInt32 → Outcome FrontEnd σ
  | [] => ⟨fe, s, none⟩
  | w :: ws => (fe.writePacked s w).andThen fun fe s => fe.writeWords s ws

/-- Writes instructions on the plain path. -/
def writePlain (fe : FrontEnd) (s : σ) (es : List Encoded) : Outcome FrontEnd σ :=
  fe.writeEntries s (es.flatMap Encoded.entries)

/-- Writes packets on the packed path. -/
def writePackets (fe : FrontEnd) (s : σ) (ps : List Packet) : Outcome FrontEnd σ :=
  fe.writeWords s (ps.flatMap Packet.words)

theorem writeEntries_append (fe : FrontEnd) (s : σ) (es ds : List Entry) :
    fe.writeEntries s (es ++ ds) =
      (fe.writeEntries s es).andThen fun fe s => fe.writeEntries s ds := by
  induction es generalizing fe s with
  | nil => rfl
  | cons e es ih =>
    simp only [List.cons_append, writeEntries, Outcome.andThen_assoc]
    congr 1
    funext fe s
    exact ih fe s

theorem writeWords_append (fe : FrontEnd) (s : σ) (ws vs : List UInt32) :
    fe.writeWords s (ws ++ vs) =
      (fe.writeWords s ws).andThen fun fe s => fe.writeWords s vs := by
  induction ws generalizing fe s with
  | nil => rfl
  | cons w ws ih =>
    simp only [List.cons_append, writeWords, Outcome.andThen_assoc]
    congr 1
    funext fe s
    exact ih fe s

end FrontEnd

end GeometryEngine
