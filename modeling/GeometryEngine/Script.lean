import GeometryEngine.Sink

/-!
# Verdicts by a script

A receiver that gives the verdicts of a list, one after another, whatever is submitted to
it, and accepts everything once the list is used up. What the front-end does when its
commands meet certain verdicts can be tried out with it.
-/

namespace GeometryEngine

/-- The verdicts that are still to be given, the next one first. -/
structure Script where
  /-- The verdicts. -/
  verdicts : List Verdict
  deriving DecidableEq, Inhabited

namespace Script

instance : Sink Script where
  submit s _ :=
    match s.verdicts with
    | [] => (.accepted, s)
    | v :: verdicts => (v, ⟨verdicts⟩)
  notify s _ := s

end Script

end GeometryEngine
