import GeometryEngine.Command

/-!
# Vertex lists

Vertices come in lists, and every list makes polygons of one kind. The vertices of
a list are grouped as they arrive: a polygon is complete as soon as its last
vertex is there (`VertexList.completed?`). Only the latest four vertices are
remembered.

| list             | polygon complete with vertex | corners                      |
|------------------|------------------------------|------------------------------|
| triangles        | 3, 6, 9, …                   | the last three               |
| quads            | 4, 8, 12, …                  | the last four                |
| triangle strip   | 3, 4, 5, …                   | the last three               |
| quad strip       | 4, 6, 8, …                   | the last four, zigzagging    |
-/

namespace GeometryEngine

/-- How the vertices of a list make polygons. -/
inductive ListKind
  | triangles
  | quads
  | triangleStrip
  | quadStrip
  deriving DecidableEq, Inhabited

/-- The kind with a given number, of which the lowest two bits count. -/
def ListKind.ofWord (w : UInt32) : ListKind :=
  match w.toNat % 4 with
  | 0 => .triangles
  | 1 => .quads
  | 2 => .triangleStrip
  | _ => .quadStrip

/-- A polygon of a list, by the numbers of its vertices in the frame. -/
inductive Outline
  | triangle (v0 v1 v2 : Nat)
  | quad (v0 v1 v2 v3 : Nat)
  deriving DecidableEq, Inhabited

namespace Outline

/-- The number of triangles it is kept as. -/
def triangles : Outline → Nat
  | .triangle .. => 1
  | .quad .. => 2

/-- The command that sends a polygon with the given attributes. Whether it is a
    quad is told by the `quadBit`, whatever that bit of the attributes was. -/
def command (attributes : UInt32) : Outline → Command
  | .triangle v0 v1 v2 =>
    .polygon (.ofNat v0) (.ofNat v1) (.ofNat v2) 0 (attributes &&& ~~~quadBit)
  | .quad v0 v1 v2 v3 =>
    .polygon (.ofNat v0) (.ofNat v1) (.ofNat v2) (.ofNat v3)
      (attributes &&& ~~~quadBit ||| quadBit)

end Outline

/-- The list that vertices are added to. -/
structure VertexList where
  /-- How its vertices make polygons. -/
  kind : ListKind := .triangles
  /-- The attributes of its polygons. -/
  attributes : UInt32 := 0
  /-- The number of its vertices. -/
  length : Nat := 0
  /-- The number in the frame of the fourth vertex from the end. -/
  fourthLast : Nat := 0
  /-- The number of the third vertex from the end. -/
  thirdLast : Nat := 0
  /-- The number of the last vertex but one. -/
  secondLast : Nat := 0
  /-- The number of the last vertex. -/
  last : Nat := 0
  deriving DecidableEq, Inhabited

namespace VertexList

/-- A new list. What was remembered of the vertices before it plays no part in
    its polygons. -/
def restart (l : VertexList) (kind : ListKind) (attributes : UInt32) : VertexList :=
  { l with kind, attributes, length := 0 }

/-- The list with the vertex number `i` of the frame added. -/
def push (i : Nat) (l : VertexList) : VertexList :=
  { l with
    length := l.length + 1
    fourthLast := l.thirdLast, thirdLast := l.secondLast, secondLast := l.last, last := i }

/-- The polygon that the last vertex has completed, if it has. The vertices of a
    quad strip zigzag, so its last two change places. -/
def completed? (l : VertexList) : Option Outline :=
  match l.kind with
  | .triangles =>
    if l.length % 3 = 0 then some (.triangle l.thirdLast l.secondLast l.last) else none
  | .quads =>
    if l.length % 4 = 0 then some (.quad l.fourthLast l.thirdLast l.secondLast l.last) else none
  | .triangleStrip =>
    if 3 ≤ l.length then some (.triangle l.thirdLast l.secondLast l.last) else none
  | .quadStrip =>
    if 4 ≤ l.length ∧ l.length % 2 = 0 then
      some (.quad l.fourthLast l.thirdLast l.last l.secondLast)
    else none

end VertexList

end GeometryEngine
