import GeometryEngine.Engine

/-!
# Commands carried out in place

`Engine.process` makes a new engine, or none, and `Engine.abandon` says what is left behind
if it makes none. Here the same commands are carried out in place: corners are looked at one
after another, vertices are projected and triangles are stored or set up one by one. A fault
ends the command there, and what has been changed by then stays changed
(`Engine.carryOut`).

What a fault leaves half-done is thus a question about the order of these steps, which
`Engine.process` and `Engine.abandon` do not show. That they tell the same is a theorem
(`Engine.carryOut_eq`).
-/

namespace GeometryEngine

namespace Engine

/-- An activity that changes the engine step by step, until it ends or a fault cuts it
    short. -/
abbrev InPlace (α : Type) := EStateM Fault Engine α

/-- The frame that is being built. -/
def nextFrame : InPlace Slot := do return (← get).frames.next

/-- Changes the frame that is being built. -/
def changeNext (g : Slot → Slot) : InPlace Unit :=
  modify fun e => { e with frames := e.frames.mapNext g }

/-! ### Polygons -/

/-- Looks at corners, the first of which has the position `n`, and tells whether one of
    them lies outside the view volume. -/
def inspect (n : Nat) : List Int32 → InPlace Bool
  | [] => return false
  | i :: is => do
    let s ← nextFrame
    if s.resolves i then
      let others ← inspect (n + 1) is
      return (s.vertex i).isOutside || others
    else throw (.polygonIndex n i s.vertices.size)

/-- Adds a polygon. First its corners are looked at, then the room that is left; then its
    corners are projected, and its triangles stored. -/
def addPolygonInPlace (v0 v1 v2 v3 : Int32) (attributes : UInt32) : InPlace Unit := do
  let cs := corners v0 v1 v2 v3 attributes
  if ← inspect 0 cs then return
  let e ← get
  let total := e.frames.next.triangles.size + (cs.length - 2)
  if Slot.capacity < total then throw (.polygonOverflow total e.frames.counter)
  forM cs fun i => changeNext fun s => s.project e.viewport i
  forM (trianglesOf v0 v1 v2 v3 attributes) fun t => changeNext (Slot.pushTriangle t)

/-! ### Swaps -/

/-- Puts a triangle in the place of the one with the number `i`. -/
def putTriangle (i : Nat) (t : Triangle) : InPlace Unit :=
  changeNext fun s => { s with triangles := s.triangles.setIfInBounds i t }

/-- Sets up the triangle number `i`. Its corners are already in order when they turn out to
    be too far apart. -/
def setUpInPlace (i : Nat) : InPlace Unit := do
  let s ← nextFrame
  let t := s.triangles.getD i {}
  let (p, q, r) := Corner.sort (s.corner t.v0) (s.corner t.v1) (s.corner t.v2)
  putTriangle i { t with v0 := p.index, v1 := q.index, v2 := r.index }
  if q.y - p.y < 0 ∨ r.y - q.y < 0 then throw (.vertexOrder i p.y q.y r.y)
  putTriangle i (t.ofCorners p q r)

/-- The first part of a swap: one triangle after another is set up. -/
def prepareInPlace : InPlace Unit := do
  let s ← nextFrame
  forM (List.range s.triangles.size) setUpInPlace

/-! ### Commands -/

/-- What an activity leaves behind that changes the engine as a whole, or not at all. -/
def outright (e : Engine) : Except Fault Engine → EStateM.Result Fault Engine Unit
  | .ok e' => .ok () e'
  | .error f => .error f e

/-- What a command should leave behind: the next state, or what is left of the engine by a
    fault. -/
def outcome (e : Engine) (c : Command) : EStateM.Result Fault Engine Unit :=
  match e.process c with
  | .ok e' => .ok () e'
  | .error f => .error f (e.abandon c)

/-- Carries out a command. -/
def carryOut : Command → InPlace Unit
  | .viewport view => modify fun e => { e with viewport := view }
  | .vertex x y z w => do
    let e ← get
    let count := e.frames.next.vertices.size
    if Slot.capacity ≤ count then throw (.vertexOverflow (count + 1) e.frames.counter)
    changeNext (Slot.pushVertex (.ofClip x y z w))
  | .polygon v0 v1 v2 v3 attributes => addPolygonInPlace v0 v1 v2 v3 attributes
  | .swapBuffers => do
    prepareInPlace
    modify promote

/-- Submits a command to be carried out at once. A fault halts the engine as the command
    has left it. -/
def submitInPlace (e : Engine) (c : Command) : Verdict × Engine :=
  if e.isHalted then (.refused, e) else
    match (carryOut c).run e with
    | .ok _ e => (.accepted, e)
    | .error f e => (.raised f, e.halt f)

end Engine

end GeometryEngine
