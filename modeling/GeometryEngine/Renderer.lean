import GeometryEngine.Canvas
import GeometryEngine.Frames

/-!
# Drawing

A frame is drawn in passes. At the beginning of a pass the triangles go back to
their top corners, and every line of the screen gets a *bucket*: the numbers of
the triangles that lie on it (`Slot.buckets`). Then lines are drawn from some line
on downward: every triangle of a line's bucket fills the pixels between its
bounds, which then move on to the next line (`drawLines`).

The bounds move on also where nothing is filled, so a pass that is not enabled
leaves the same triangles behind as one that is.
-/

namespace GeometryEngine

/-- How a frame is drawn. -/
structure RenderConfig where
  /-- Whether anything is drawn. -/
  enabled : Bool := true
  /-- The colour, with 6 bits for each of red, green and blue. -/
  color : UInt32 := 0x3FFFF
  deriving DecidableEq, Inhabited

/-- The value of a pixel that was drawn. Bit 26 tells it from other pixels. -/
def RenderConfig.pixel (config : RenderConfig) : UInt32 := 0x4000000 ||| config.color

/-! ### Buckets -/

/-- The triangles on each line of the screen. -/
abbrev Buckets := Array (List Nat)

/-- The triangles on line `y`. -/
def Buckets.line (buckets : Buckets) (y : Nat) : List Nat := buckets.getD y []

namespace Slot

/-- Whether the triangle reaches over line `y`. -/
def covers (s : Slot) (t : Triangle) (y : Nat) : Bool :=
  (s.vertex t.v0).screenY.toInt ≤ y && (y : Int) ≤ (s.vertex t.v2).screenY.toInt

/-- The numbers of the triangles that reach over line `y`, in order. -/
def bucket (s : Slot) (y : Nat) : List Nat :=
  (List.range s.triangles.size).filter fun i => s.covers (s.triangles.getD i {}) y

/-- The buckets of all lines of the screen. -/
def buckets (s : Slot) : Buckets := ((List.range screenHeight).map s.bucket).toArray

/-- The frame with all triangles back at their top corners. -/
def restart (s : Slot) : Slot := { s with triangles := s.triangles.map Triangle.restart }

end Slot

/-! ### Lines -/

/-- A picture that is being drawn, and the triangles on their way down. -/
structure Drawing where
  /-- The picture. -/
  canvas : Canvas
  /-- The triangles of the frame. -/
  triangles : Array Triangle

/-- Fills a line of the picture between the bounds of a triangle, as far as they
    are on the line and on the screen. -/
def Triangle.fill (t : Triangle) (line : Line) (value : UInt32) (canvas : Canvas) : Canvas :=
  let first := max t.now.left.floor.toInt 0
  let last := min t.now.right.floor.toInt (min line.width screenWidth - 1)
  canvas.fill value (line.offset + first).toNat (last + 1 - first).toNat

namespace Drawing

/-- Draws a triangle on a line of the picture that shows line `y` of the screen,
    and moves its bounds on. -/
def drawTriangle (config : RenderConfig) (line : Line) (y : Int) (d : Drawing) (i : Nat) :
    Drawing :=
  match d.triangles[i]? with
  | none => d
  | some t =>
    { canvas := if config.enabled then t.fill line config.pixel d.canvas else d.canvas
      triangles := d.triangles.setIfInBounds i (t.advance y) }

/-- Draws a line of the picture that shows line `y`; off the screen there is
    nothing to draw. -/
def drawLine (config : RenderConfig) (buckets : Buckets) (line : Line) (y : Int) (d : Drawing) :
    Drawing :=
  if 0 ≤ y ∧ y < screenHeight then
    (buckets.line y.toNat).foldl (drawTriangle config line y) d
  else d

/-- What drawing a triangle keeps is kept by drawing a line. -/
theorem drawLine_keep {P : Drawing → Prop} {config : RenderConfig} {line : Line} {y : Int}
    (kept : ∀ d i, P d → P (d.drawTriangle config line y i)) (buckets : Buckets) {d : Drawing}
    (h : P d) : P (d.drawLine config buckets line y) := by
  rw [drawLine]
  split
  · exact List.foldlRecOn (motive := P) _ _ h fun d hd i _ => kept d i hd
  · exact h

/-- What drawing a triangle keeps between two pictures is kept by drawing a line of both. -/
theorem drawLine_rel {R : Drawing → Drawing → Prop} {config config' : RenderConfig}
    {line line' : Line} {y : Int}
    (kept : ∀ d d' i, R d d' →
      R (d.drawTriangle config line y i) (d'.drawTriangle config' line' y i))
    (buckets : Buckets) {d d' : Drawing} (h : R d d') :
    R (d.drawLine config buckets line y) (d'.drawLine config' buckets line' y) := by
  rw [drawLine, drawLine]
  split
  · exact List.foldl_rel (r := R) h fun i _ d d' hd => kept d d' i hd
  · exact h

/-- Draws all lines that are left of the picture, the first of which shows line
    `y`. -/
def drawLines (config : RenderConfig) (buckets : Buckets) (c : Cursor) (y : Int) (d : Drawing) :
    Cursor × Drawing :=
  match _h : c.nextLine? with
  | none => (c, d)
  | some (line, c') => drawLines config buckets c' (y + 1) (d.drawLine config buckets line y)
termination_by c.left.toNat
decreasing_by
  have := Cursor.left_of_nextLine? _h
  omega

end Drawing

/-- Draws a frame from line `y` on, in a pass with the given buckets. -/
def Slot.draw (s : Slot) (config : RenderConfig) (buckets : Buckets) (c : Cursor) (y : Int)
    (canvas : Canvas) : Cursor × Canvas × Slot :=
  let (c, d) := Drawing.drawLines config buckets c y ⟨canvas, s.triangles⟩
  (c, d.canvas, { s with triangles := d.triangles })

/-- Draws a whole frame in a pass of its own. -/
def Slot.render (s : Slot) (config : RenderConfig) (c : Cursor) (canvas : Canvas) :
    Buckets × Cursor × Canvas × Slot :=
  let buckets := s.buckets
  (buckets, s.restart.draw config buckets c 0 canvas)

end GeometryEngine
