import GeometryEngine.Decimal
import GeometryEngine.Frames

/-!
# Frames as text

A frame is written down for its reader as a list of triangles, each with the clip
coordinates of its corners, to three decimal places, and their places on the
screen.
-/

namespace GeometryEngine.SceneText

/-- The clip coordinates of a vertex. -/
def clipPoint (v : Vertex) : String :=
  "(" ++ v.x.decimal 3 ++ "," ++ v.y.decimal 3 ++ "," ++ v.z.decimal 3 ++ "," ++
    v.w.decimal 3 ++ ")"

/-- The place of a vertex on the screen. -/
def screenPoint (v : Vertex) : String :=
  "(" ++ toString v.screenX.toInt ++ "," ++ toString v.screenY.toInt ++ ")"

/-- What is written of three corners, one after another. -/
def corners (point : Vertex → String) (v0 v1 v2 : Vertex) : String :=
  point v0 ++ "-" ++ point v1 ++ "-" ++ point v2

/-- The lines for the triangle number `i`. -/
def triangle (s : Slot) (t : Triangle) (i : Nat) : String :=
  let v0 := s.vertex t.v0
  let v1 := s.vertex t.v1
  let v2 := s.vertex t.v2
  "tri " ++ toString i ++ ":\n" ++
    "    ccoord: " ++ corners clipPoint v0 v1 v2 ++ "\n" ++
    "    scoord: " ++ corners screenPoint v0 v1 v2 ++ "\n"

/-- The text of a frame. -/
def ofSlot (s : Slot) : String :=
  "begin scene\n" ++
    String.join (s.triangles.toList.zipIdx.map fun (t, i) => triangle s t i)

end GeometryEngine.SceneText
