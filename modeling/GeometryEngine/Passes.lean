import GeometryEngine.Checked

/-!
# Buffers that are used again

A pass is not given new buffers. Its buckets are those of the pass before, with what that
has left in them; they are emptied first, and filled again while the triangles go back to
their top corners one by one (`Slot.beginPass?`). Nor does it have to be given a picture of
its own: lines may be drawn on the rows of a larger one, from some row on
(`Slot.drawFrom`).
-/

namespace GeometryEngine

namespace Slot

/-- Puts triangles into buckets, counting from `n`, and takes each of them back to its top
    corner, as far as corners are vertices and lines have buckets. -/
def restartFrom? (s : Slot) (n : Nat) (b : WordBuckets) :
    List Triangle → Option (WordBuckets × List Triangle)
  | [] => some (b, [])
  | t :: ts => do
    let b ← s.enter? t n b
    let (b, ts) ← s.restartFrom? (n + 1) b ts
    some (b, t.restart :: ts)

/-- Begins a pass with the buckets of an earlier one. -/
def beginPass? (s : Slot) (old : WordBuckets) : Option (WordBuckets × Slot) := do
  let (b, ts) ← s.restartFrom? 0 (old.map fun _ => []) s.triangles.toList
  some (b, { s with triangles := ts.toArray })

/-- Draws a whole frame in a pass of its own, with the buckets of an earlier one. -/
def renderOver? (s : Slot) (old : WordBuckets) (config : RenderConfig) (c : Cursor)
    (canvas : Canvas) : Option (WordBuckets × Cursor × Canvas × Slot) := do
  let (b, s) ← s.beginPass? old
  let drawn ← s.draw? config b c 0 canvas
  some (b, drawn)

/-- Draws lines on the part of a picture that begins with the pixel `base`. -/
def drawFrom (s : Slot) (base : Nat) (config : RenderConfig) (buckets : Buckets) (c : Cursor)
    (y : Int) (canvas : Canvas) : Cursor × Canvas × Slot :=
  let (c, part, s) := s.draw config buckets c y (canvas.extract base canvas.size)
  (c, canvas.extract 0 base ++ part, s)

end Slot

end GeometryEngine
