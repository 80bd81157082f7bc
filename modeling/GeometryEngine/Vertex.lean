import GeometryEngine.Viewport

/-!
# Vertices

A vertex arrives in clip space, as `(x, y, z, w)`. It lies in the view volume
if `-w ≤ x ≤ w` and `-w ≤ y ≤ w`; the sides it lies beyond are flagged when it
arrives. A vertex with `w = 0` has no place on the screen and is flagged as
beyond every plane. Depth is not tested, so nothing else flags the near and far
planes.

The place on the screen is worked out later, and once: the flag
`Flag.projected` tells whether it has been.
-/

namespace GeometryEngine

/-! ### Flags -/

namespace Flag

/-- Beyond the left side of the view volume. -/
def left : UInt32 := 1

/-- Beyond the right side. -/
def right : UInt32 := 2

/-- Beyond the top. -/
def top : UInt32 := 4

/-- Beyond the bottom. -/
def bottom : UInt32 := 8

/-- Beyond the near plane. -/
def near : UInt32 := 16

/-- Beyond the far plane. -/
def far : UInt32 := 32

/-- The place on the screen is known. -/
def projected : UInt32 := 64

/-- All the planes of the view volume. -/
def anyPlane : UInt32 := left ||| right ||| top ||| bottom ||| near ||| far

end Flag

/-! ### Vertices -/

/-- A vertex in clip space and, once projected, on the screen. -/
structure Vertex where
  /-- The first clip coordinate. -/
  x : Fixed := 0
  /-- The second clip coordinate. -/
  y : Fixed := 0
  /-- The third clip coordinate. -/
  z : Fixed := 0
  /-- The clip coordinate that the others are divided by. -/
  w : Fixed := 0
  /-- The planes the vertex lies beyond, and whether it is projected. -/
  flags : UInt32 := 0
  /-- The column on the screen. -/
  screenX : Int32 := 0
  /-- The line on the screen. -/
  screenY : Int32 := 0
  /-- The depth on the screen. -/
  depth : Int32 := 0
  deriving DecidableEq, Inhabited

namespace Vertex

/-- The planes of the view volume that a point of clip space lies beyond. -/
def planesBeyond (x y w : Fixed) : UInt32 :=
  (if x < -w then Flag.left else 0) ||| (if w < x then Flag.right else 0) |||
    (if y < -w then Flag.top else 0) ||| (if w < y then Flag.bottom else 0) |||
    (if w = 0 then Flag.anyPlane else 0)

/-- A vertex as it arrives. -/
def ofClip (x y z w : Fixed) : Vertex := { x, y, z, w, flags := planesBeyond x y w }

/-- Whether the vertex lies beyond a plane of the view volume. -/
def isOutside (v : Vertex) : Bool := v.flags &&& Flag.anyPlane != 0

/-- Whether the place on the screen is known. -/
def isProjected (v : Vertex) : Bool := v.flags &&& Flag.projected != 0

/-- Where `a / w`, from `-1` to `1`, lies on a side of `size` pixels from
    `origin` on. The side is halved before the division, since the division
    works on 12 more bits than a whole side leaves free. -/
def spread (a w : Fixed) (size origin : Int32) : Int32 :=
  (((a + w) * ((Fixed.ofInt size).divInt 2 / w)).addInt origin).floor

/-- The vertex with its place on the screen. A vertex that is already projected
    stays where it is. -/
def project (view : Viewport) (v : Vertex) : Vertex :=
  if v.isProjected then v else
    { v with
      flags := v.flags ||| Flag.projected
      screenX := spread v.x v.w view.width view.left
      screenY := spread v.y v.w view.height view.top
      depth := ((v.z + v.w).divInt 2 / v.w).floor }

/-! ### What projection changes -/

theorem project_of_isProjected (view : Viewport) {v : Vertex} (h : v.isProjected = true) :
    v.project view = v := by
  simp [project, h]

theorem isProjected_project (view : Viewport) (v : Vertex) :
    (v.project view).isProjected = true := by
  unfold project
  split
  · assumption
  · simp only [isProjected, bne_iff_ne, ne_eq]
    intro h
    have := congrArg (fun f : UInt32 => f.toNat.testBit 6) h
    have bit : Nat.testBit 64 6 = true := by decide
    simp [Flag.projected, bit] at this

/-- Projection is done once: a second viewport changes nothing. -/
theorem project_project (view view' : Viewport) (v : Vertex) :
    (v.project view).project view' = v.project view :=
  project_of_isProjected view' (isProjected_project view v)

end Vertex

end GeometryEngine
