import GeometryEngine.Sink

/-!
# A record of commands

A receiver that accepts every command and does nothing but keep it. What the
front-end sends can be read off the record, apart from what any engine makes of
it.
-/

namespace GeometryEngine

/-- The commands that were sent, the oldest first. -/
structure Transcript where
  /-- The commands. -/
  commands : List Command := []
  deriving DecidableEq, Inhabited

namespace Transcript

instance : Sink Transcript where
  submit t c := (.accepted, ⟨t.commands ++ [c]⟩)
  notify t _ := t

@[simp] theorem submit_eq (t : Transcript) (c : Command) :
    Sink.submit t c = (.accepted, ⟨t.commands ++ [c]⟩) := rfl

@[simp] theorem notify_eq (t : Transcript) (n : Notice) : Sink.notify t n = t := rfl

/-- Whether a command sends a polygon. -/
def isPolygon : Command → Bool
  | .polygon .. => true
  | _ => false

/-- The polygons among the commands. -/
def polygons (t : Transcript) : List Command := t.commands.filter isPolygon

end Transcript

end GeometryEngine
