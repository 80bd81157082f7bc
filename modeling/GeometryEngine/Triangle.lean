import GeometryEngine.Fixed

/-!
# Triangles

A triangle names its corners by their numbers in a list of vertices. Before it
is drawn it is *set up*: its corners are put in order from top to bottom, and
the columns between which it is filled, its `Bounds`, are given at the top
corner together with their change from each line to the next. The change is
another one from the line of the middle corner on, the *bend*.

The bounds move while the triangle is drawn (`Triangle.advance`), and
`Triangle.restart` takes them back to the top.
-/

namespace GeometryEngine

/-! ### Bounds -/

/-- The columns between which a line of a triangle is filled, or the change of
    both from one line to the next. -/
structure Bounds where
  /-- The left bound. -/
  left : Fixed := 0
  /-- The right bound. -/
  right : Fixed := 0
  deriving DecidableEq, Inhabited

instance : Add Bounds := ⟨fun a b => ⟨a.left + b.left, a.right + b.right⟩⟩

@[simp] theorem Bounds.left_add (a b : Bounds) : (a + b).left = a.left + b.left := rfl

@[simp] theorem Bounds.right_add (a b : Bounds) : (a + b).right = a.right + b.right := rfl

/-! ### Triangles -/

/-- A triangle of a frame. -/
structure Triangle where
  /-- The first corner; the top one after set-up. -/
  v0 : Int32 := 0
  /-- The second corner; the middle one after set-up. -/
  v1 : Int32 := 0
  /-- The third corner; the bottom one after set-up. -/
  v2 : Int32 := 0
  /-- The fourth corner that was submitted, which a triangle does not use. -/
  v3 : Int32 := 0
  /-- The attributes, which are kept for the reader of a frame. -/
  attributes : UInt32 := 0
  /-- The line of the middle corner. -/
  bend : Int32 := 0
  /-- The change of the bounds on the lines above the bend. -/
  upper : Bounds := {}
  /-- The change of the bounds from the bend on. -/
  lower : Bounds := {}
  /-- The bounds at the top corner. -/
  start : Bounds := {}
  /-- The bounds on the line that is drawn next. -/
  now : Bounds := {}
  deriving DecidableEq, Inhabited

/-- A corner of a triangle with its place on the screen. -/
structure Corner where
  /-- The number of the vertex. -/
  index : Int32
  /-- The column of the vertex. -/
  x : Int32
  /-- The line of the vertex. -/
  y : Int32
  deriving DecidableEq, Inhabited

namespace Corner

/-- Two corners, the upper one first. -/
def order (p q : Corner) : Corner × Corner := if q.y < p.y then (q, p) else (p, q)

/-- Three corners from top to bottom. -/
def sort (p q r : Corner) : Corner × Corner × Corner :=
  let (p, q) := order p q
  let (p, r) := order p r
  let (q, r) := order q r
  (p, q, r)

end Corner

namespace Triangle

/-- The change per line of an edge that runs over `dx` columns and `dy` lines.
    An edge without height runs over its columns in a single step. -/
def slope (dx dy : Int32) : Fixed :=
  if 0 < dy then (Fixed.ofInt dx).divInt dy else Fixed.ofInt dx

/-- The change per line of the edge from the top to the bottom corner; of an
    edge without height it is `0`. -/
def longSlope (dx dy : Int32) : Fixed :=
  if 0 < dy then (Fixed.ofInt dx).divInt dy else 0

/-- The triangle with corners that are in order from top to bottom. The middle
    corner is on the left if the edge to it starts off further to the left than
    the long edge. A triangle with a level top starts past its top edge. -/
def ofCorners (t : Triangle) (p q r : Corner) : Triangle :=
  let long := longSlope (r.x - p.x) ((q.y - p.y) + (r.y - q.y))
  let above := slope (q.x - p.x) (q.y - p.y)
  let below := slope (r.x - q.x) (r.y - q.y)
  let middleRight : Bool := long < above
  let upper : Bounds := if middleRight then ⟨long, above⟩ else ⟨above, long⟩
  let lower : Bounds := if middleRight then ⟨long, below⟩ else ⟨below, long⟩
  let apex : Bounds := ⟨Fixed.ofInt p.x, Fixed.ofInt p.x⟩
  let start := if q.y - p.y = 0 then apex + upper else apex
  { t with
    v0 := p.index, v1 := q.index, v2 := r.index
    bend := q.y, upper, lower, start, now := start }

/-- The triangle with its corners named in order from top to bottom. -/
def inOrder (corner : Int32 → Corner) (t : Triangle) : Triangle :=
  let (p, q, r) := Corner.sort (corner t.v0) (corner t.v1) (corner t.v2)
  { t with v0 := p.index, v1 := q.index, v2 := r.index }

/-- The triangle made ready for drawing, or the lines of its sorted corners if
    the distance between two of them is too large for a word. -/
def setUp (corner : Int32 → Corner) (t : Triangle) :
    Except (Int32 × Int32 × Int32) Triangle :=
  let (p, q, r) := Corner.sort (corner t.v0) (corner t.v1) (corner t.v2)
  if q.y - p.y < 0 ∨ r.y - q.y < 0 then .error (p.y, q.y, r.y) else .ok (t.ofCorners p q r)

/-- The bounds back at the top corner. -/
def restart (t : Triangle) : Triangle := { t with now := t.start }

/-- The bounds moved on from line `y` to the next. -/
def advance (y : Int) (t : Triangle) : Triangle :=
  { t with now := t.now + if y < t.bend.toInt then t.upper else t.lower }

end Triangle

end GeometryEngine
