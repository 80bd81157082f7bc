import GeometryEngine.Renderer
import GeometryEngine.SceneText

/-!
# Looking before reading

Set-up, the text of a frame and drawing read and write arrays in places that they do
not check: the corners of a triangle are numbers of vertices, a bucket holds numbers of
triangles, and a pixel is told by its column. Here is what they do once more, but with a
look at each place first. Where there is no such vertex, triangle, bucket or pixel,
everything is given up.

The numbers of triangles are kept in 16 bits each, and they are put into the buckets one
triangle after another, as a pass begins (`Slot.buckets?`).
-/

namespace GeometryEngine

/-! ### Corners -/

namespace Slot

/-- The vertex with the number `i`, if there is one. -/
def vertex? (s : Slot) (i : Int32) : Option Vertex :=
  if 0 ≤ i then s.vertices[i.toNatClampNeg]? else none

/-- The vertex with the number `i` as a corner, if there is one. -/
def corner? (s : Slot) (i : Int32) : Option Corner :=
  (s.vertex? i).map fun v => ⟨i, v.screenX, v.screenY⟩

end Slot

/-- The triangle with the given corners, which are in no order yet, made ready for
    drawing. -/
def Triangle.setUpAt (p q r : Corner) (t : Triangle) : Except (Int32 × Int32 × Int32) Triangle :=
  let (p, q, r) := Corner.sort p q r
  if q.y - p.y < 0 ∨ r.y - q.y < 0 then .error (p.y, q.y, r.y) else .ok (t.ofCorners p q r)

namespace Slot

/-- A triangle made ready for drawing, unless a corner is no vertex. -/
def setUpTriangle? (s : Slot) (t : Triangle) :
    Option (Except (Int32 × Int32 × Int32) Triangle) := do
  let p ← s.corner? t.v0
  let q ← s.corner? t.v1
  let r ← s.corner? t.v2
  some (t.setUpAt p q r)

/-- Sets up triangles one after another, counting from `n`, as far as corners are
    vertices. -/
def setUpFrom? (setUp? : Triangle → Option (Except (Int32 × Int32 × Int32) Triangle)) (n : Nat) :
    List Triangle → Option (Except (Nat × Int32 × Int32 × Int32) (List Triangle))
  | [] => some (.ok [])
  | t :: ts =>
    (setUp? t).bind fun
    | .error lines => some (.error (n, lines))
    | .ok t => (setUpFrom? setUp? (n + 1) ts).map (Except.map (List.cons t))

/-- The slot with all triangles made ready for drawing, unless a corner is no vertex. -/
def setUp? (s : Slot) : Option (Except (Nat × Int32 × Int32 × Int32) Slot) :=
  (setUpFrom? s.setUpTriangle? 0 s.triangles.toList).map
    (Except.map fun ts => { s with triangles := ts.toArray })

end Slot

namespace SceneText

/-- The lines for a triangle with the number `i` and the given corners. -/
def ofCorners (v0 v1 v2 : Vertex) (i : Nat) : String :=
  "tri " ++ toString i ++ ":\n" ++
    "    ccoord: " ++ corners clipPoint v0 v1 v2 ++ "\n" ++
    "    scoord: " ++ corners screenPoint v0 v1 v2 ++ "\n"

/-- The lines for a triangle, unless a corner is no vertex. -/
def triangle? (s : Slot) (t : Triangle) (i : Nat) : Option String := do
  let v0 ← s.vertex? t.v0
  let v1 ← s.vertex? t.v1
  let v2 ← s.vertex? t.v2
  some (ofCorners v0 v1 v2 i)

/-- The text of a frame, unless a corner is no vertex. -/
def ofSlot? (s : Slot) : Option String :=
  (s.triangles.toList.zipIdx.mapM fun (t, i) => triangle? s t i).map fun ts =>
    "begin scene\n" ++ String.join ts

end SceneText

/-! ### Buckets -/

/-- The triangles on each line of the screen, with 16 bits for each number. -/
abbrev WordBuckets := Array (List UInt16)

namespace WordBuckets

/-- The buckets with numbers of any size. -/
def widen (b : WordBuckets) : Buckets := b.map (List.map UInt16.toNat)

/-- Puts the number `i` into `count` buckets from that of line `y` on. -/
def enter? (i : UInt16) (y : Nat) : Nat → WordBuckets → Option WordBuckets
  | 0, b => some b
  | count + 1, b => do
    let is ← b[y]?
    enter? i (y + 1) count (b.setIfInBounds y (is ++ [i]))

end WordBuckets

namespace Slot

/-- Puts the number `i` of a triangle into the buckets of the lines that it reaches
    over. -/
def enter? (s : Slot) (t : Triangle) (i : Nat) (b : WordBuckets) : Option WordBuckets := do
  let top ← s.vertex? t.v0
  let bottom ← s.vertex? t.v2
  let first := max top.screenY.toInt 0
  let last := min bottom.screenY.toInt (screenHeight - 1)
  WordBuckets.enter? (.ofNat i) first.toNat (last + 1 - first).toNat b

/-- The buckets of all lines of the screen. -/
def buckets? (s : Slot) : Option WordBuckets :=
  s.triangles.toList.zipIdx.foldlM (fun b (t, i) => s.enter? t i b)
    (Array.replicate screenHeight [])

end Slot

/-! ### Lines -/

namespace Canvas

/-- Sets the pixel in column `x` of a line, if it is part of the line and of the
    picture. -/
def set? (canvas : Canvas) (line : Line) (x : Int) (value : UInt32) : Option Canvas :=
  if 0 ≤ x ∧ x < line.width ∧ 0 ≤ line.offset + x ∧ line.offset + x < canvas.size then
    some (canvas.set (line.offset + x).toNat value)
  else none

/-- Sets `count` pixels of a line from column `x` on. -/
def fill? (line : Line) (value : UInt32) (x : Int) : Nat → Canvas → Option Canvas
  | 0, canvas => some canvas
  | count + 1, canvas => do fill? line value (x + 1) count (← canvas.set? line x value)

end Canvas

/-- Fills a line of the picture between the bounds of a triangle. -/
def Triangle.fill? (t : Triangle) (line : Line) (value : UInt32) (canvas : Canvas) :
    Option Canvas :=
  let first := max t.now.left.floor.toInt 0
  let last := min t.now.right.floor.toInt (min line.width screenWidth - 1)
  Canvas.fill? line value first (last + 1 - first).toNat canvas

namespace Drawing

/-- Draws the triangle number `i`, if there is one, on a line of the picture. -/
def drawTriangle? (config : RenderConfig) (line : Line) (y : Int) (d : Drawing) (i : Nat) :
    Option Drawing := do
  let t ← d.triangles[i]?
  let canvas ← if config.enabled then t.fill? line config.pixel d.canvas else some d.canvas
  some { canvas, triangles := d.triangles.setIfInBounds i (t.advance y) }

/-- Draws a line of the picture that shows line `y`. -/
def drawLine? (config : RenderConfig) (buckets : WordBuckets) (line : Line) (y : Int)
    (d : Drawing) : Option Drawing :=
  if 0 ≤ y ∧ y < screenHeight then do
    let is ← buckets[y.toNat]?
    is.foldlM (fun d i => d.drawTriangle? config line y i.toNat) d
  else some d

/-- Draws all lines that are left of the picture. -/
def drawLines? (config : RenderConfig) (buckets : WordBuckets) (c : Cursor) (y : Int)
    (d : Drawing) : Option (Cursor × Drawing) :=
  match _h : c.nextLine? with
  | none => some (c, d)
  | some (line, c') => do
    drawLines? config buckets c' (y + 1) (← d.drawLine? config buckets line y)
termination_by c.left.toNat
decreasing_by
  have := Cursor.left_of_nextLine? _h
  omega

end Drawing

/-- Draws a frame from line `y` on, in a pass with the given buckets. -/
def Slot.draw? (s : Slot) (config : RenderConfig) (buckets : WordBuckets) (c : Cursor) (y : Int)
    (canvas : Canvas) : Option (Cursor × Canvas × Slot) := do
  let (c, d) ← Drawing.drawLines? config buckets c y ⟨canvas, s.triangles⟩
  some (c, d.canvas, { s with triangles := d.triangles })

end GeometryEngine
