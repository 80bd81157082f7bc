import GeometryEngine.Viewport

/-!
# Commands and faults

What an engine can be told to do, and what can be wrong with it. A fault is a
contradiction in the commands themselves, such as a polygon that refers to a
vertex that was never sent; it can only come from a broken source of commands.
-/

namespace GeometryEngine

/-- The attribute bit that marks a polygon with four corners on its way to the
    engine. -/
def quadBit : UInt32 := 0x80000000

/-- A command to the engine. -/
inductive Command
  /-- Spread clip space over another viewport from now on. -/
  | viewport (view : Viewport)
  /-- Add a vertex, given in clip space. -/
  | vertex (x y z w : Fixed)
  /-- Add a polygon with the given corners. It has three of them unless its
      attributes have the `quadBit`. -/
  | polygon (v0 v1 v2 v3 : Int32) (attributes : UInt32)
  /-- Show the frame that has been built and begin another one. -/
  | swapBuffers
  deriving DecidableEq, Inhabited

/-- A contradiction in the commands. -/
inductive Fault
  /-- A vertex too many: its number, counted from 1, and the frame. -/
  | vertexOverflow (number : Nat) (frame : UInt32)
  /-- A triangle too many: the number of triangles, and the frame. -/
  | polygonOverflow (triangles : Nat) (frame : UInt32)
  /-- A corner without a vertex: which corner, the vertex it names, and the
      number of vertices. -/
  | polygonIndex (corner : Nat) (index : Int32) (vertices : Nat)
  /-- A triangle whose sorted corners are too far apart: which triangle, and
      the lines of its corners. -/
  | vertexOrder (triangle : Nat) (y0 y1 y2 : Int32)
  deriving DecidableEq, Inhabited

/-- The number a fault is reported by. -/
def Fault.code : Fault → Nat
  | .vertexOverflow .. => 1
  | .polygonOverflow .. => 2
  | .polygonIndex .. => 3
  | .vertexOrder .. => 4

/-- What became of a command that was submitted. -/
inductive Verdict
  /-- It was carried out, or will be. -/
  | accepted
  /-- It was turned away, and has no effect. -/
  | refused
  /-- It was carried out as far as the fault. -/
  | raised (fault : Fault)
  deriving DecidableEq, Inhabited

end GeometryEngine
