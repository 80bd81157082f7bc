import GeometryEngine.Engine

/-!
# Looking before dividing

A vertex is divided by its last coordinate when it is projected, and nothing there looks at
the divisor: the flags that tell which vertices can be divided are set when they arrive.
Here is what a command does once more, but with a look at each divisor first. Where it is
none of the divisors that are let through, everything is given up.
-/

namespace GeometryEngine

/-- The quotient of two numbers, if the divisor is let through. -/
def Fixed.div? (may : Fixed → Bool) (a b : Fixed) : Option Fixed :=
  if may b then some (a / b) else none

namespace Vertex

/-- Where `a / w`, from `-1` to `1`, lies on a side of `size` pixels from `origin` on. -/
def spread? (may : Fixed → Bool) (a w : Fixed) (size origin : Int32) : Option Int32 := do
  let stride ← Fixed.div? may ((Fixed.ofInt size).divInt 2) w
  some (((a + w) * stride).addInt origin).floor

/-- The vertex with its place on the screen. -/
def project? (may : Fixed → Bool) (view : Viewport) (v : Vertex) : Option Vertex :=
  if v.isProjected then some v else do
    let screenX ← spread? may v.x v.w view.width view.left
    let screenY ← spread? may v.y v.w view.height view.top
    let depth ← Fixed.div? may ((v.z + v.w).divInt 2) v.w
    some { v with
      flags := v.flags ||| Flag.projected
      screenX, screenY
      depth := depth.floor }

end Vertex

/-- The slot with the vertex number `i` projected. -/
def Slot.project? (may : Fixed → Bool) (view : Viewport) (s : Slot) (i : Int32) : Option Slot := do
  let vertices ← s.vertices.modifyM i.toNatClampNeg (Vertex.project? may view)
  some { s with vertices }

namespace Engine

/-- The frame with one more polygon. -/
def addPolygon? (may : Fixed → Bool) (view : Viewport) (v0 v1 v2 v3 : Int32)
    (attributes : UInt32) (s : Slot) : Option Slot :=
  let cs := corners v0 v1 v2 v3 attributes
  if anyOutside s cs then some s else do
    let s ← cs.foldlM (Slot.project? may view) s
    some ((trianglesOf v0 v1 v2 v3 attributes).foldl (fun s t => s.pushTriangle t) s)

/-- Carries out a command. Only polygons have vertices projected. -/
def process? (may : Fixed → Bool) (e : Engine) : Command → Option (Except Fault Engine)
  | .polygon v0 v1 v2 v3 attributes =>
    match polygonFault? e.frames.counter e.frames.next v0 v1 v2 v3 attributes with
    | some f => some (.error f)
    | none => do
      let s ← addPolygon? may e.viewport v0 v1 v2 v3 attributes e.frames.next
      some (.ok { e with frames := e.frames.mapNext fun _ => s })
  | c => some (e.process c)

end Engine

end GeometryEngine
