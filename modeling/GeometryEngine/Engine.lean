import GeometryEngine.Command
import GeometryEngine.Frames

/-!
# The engine

The engine carries out commands against the frame that is being built. A command
that contradicts itself raises a fault (`Engine.process` gives either the next
state or the fault). An engine that meets a fault while commands are submitted to
it halts: it keeps the fault and turns away all further commands
(`Engine.submit`).

A swap is done in two parts. First the triangles of the next frame are set up
(`Engine.prepare`); then the frames change places (`Engine.promote`). Only the
second part touches the frame that is shown.

Set-up can only fail for a state that was loaded. It then leaves the next frame
behind half set up, and the frames do not change places. Any other command that
raises a fault changes nothing (`Engine.abandon`).
-/

namespace GeometryEngine

/-- The state of the engine. -/
structure Engine where
  /-- The part of the screen that vertices are spread over from now on. -/
  viewport : Viewport := {}
  /-- The frame that is shown and the one that is being built. -/
  frames : Frames := {}
  /-- The fault that the engine has halted with, if it has. -/
  fault : Option Fault := none
  deriving DecidableEq, Inhabited

namespace Engine

/-- Whether the engine has halted. -/
def isHalted (e : Engine) : Bool := e.fault.isSome

/-! ### Polygons -/

/-- The corners of a polygon that count: three, or four with the `quadBit`. -/
def corners (v0 v1 v2 v3 : Int32) (attributes : UInt32) : List Int32 :=
  if attributes &&& quadBit = 0 then [v0, v1, v2] else [v0, v1, v2, v3]

/-- The first corner that is no vertex of the slot, with its position. -/
def dangling? (s : Slot) (corners : List Int32) : Option (Int32 × Nat) :=
  corners.zipIdx.find? fun c => !s.resolves c.1

/-- Whether a corner lies outside the view volume. -/
def anyOutside (s : Slot) (corners : List Int32) : Bool :=
  corners.any fun i => (s.vertex i).isOutside

/-- The triangles that a polygon is kept as. The second half of a quad has its
    top and bottom corners in common with the first half, and the quad's fourth
    corner between them. -/
def trianglesOf (v0 v1 v2 v3 : Int32) (attributes : UInt32) : List Triangle :=
  let first : Triangle := { v0, v1, v2, v3, attributes := attributes &&& ~~~quadBit }
  if attributes &&& quadBit = 0 then [first] else [first, { first with v1 := v3 }]

/-- What is wrong with a polygon, if anything. Its corners have to be vertices;
    if none of them lies outside the view volume, there has to be room for its
    triangles. -/
def polygonFault? (frame : UInt32) (s : Slot) (v0 v1 v2 v3 : Int32) (attributes : UInt32) :
    Option Fault :=
  let cs := corners v0 v1 v2 v3 attributes
  match dangling? s cs with
  | some (index, corner) => some (.polygonIndex corner index s.vertices.size)
  | none =>
    let total := s.triangles.size + (cs.length - 2)
    if !anyOutside s cs && Slot.capacity < total then some (.polygonOverflow total frame)
    else none

/-- The frame with one more polygon. A polygon with a corner outside the view
    volume is left out. The corners of any other are projected. -/
def addPolygon (view : Viewport) (v0 v1 v2 v3 : Int32) (attributes : UInt32) (s : Slot) : Slot :=
  let cs := corners v0 v1 v2 v3 attributes
  if anyOutside s cs then s else
    (trianglesOf v0 v1 v2 v3 attributes).foldl (fun s t => s.pushTriangle t)
      (cs.foldl (Slot.project view) s)

/-! ### Swaps -/

/-- The first part of a swap: the triangles of the next frame are set up. -/
def prepare (e : Engine) : Except Fault Engine :=
  match e.frames.next.setUp with
  | .error (triangle, y0, y1, y2) => .error (.vertexOrder triangle y0 y1 y2)
  | .ok s => .ok { e with frames := e.frames.mapNext fun _ => s }

/-- The second part of a swap: the next frame is shown. -/
def promote (e : Engine) : Engine := { e with frames := e.frames.swap }

/-! ### Commands -/

/-- Carries out a command, which either leads to the next state or raises a fault. -/
def process (e : Engine) : Command → Except Fault Engine
  | .viewport view => .ok { e with viewport := view }
  | .vertex x y z w =>
    let count := e.frames.next.vertices.size
    if count < Slot.capacity then
      .ok { e with frames := e.frames.mapNext (Slot.pushVertex (.ofClip x y z w)) }
    else .error (.vertexOverflow (count + 1) e.frames.counter)
  | .polygon v0 v1 v2 v3 attributes =>
    match polygonFault? e.frames.counter e.frames.next v0 v1 v2 v3 attributes with
    | some f => .error f
    | none =>
      .ok { e with frames := e.frames.mapNext (addPolygon e.viewport v0 v1 v2 v3 attributes) }
  | .swapBuffers =>
    match e.prepare with
    | .error f => .error f
    | .ok e => .ok e.promote

/-- What a command leaves behind that raises a fault: a swap, the triangles that it
    has set up, and any other command everything as it was. -/
def abandon (e : Engine) : Command → Engine
  | .swapBuffers => { e with frames := e.frames.mapNext Slot.halfSetUp }
  | _ => e

/-- The engine stopped for good by a fault. -/
def halt (e : Engine) (f : Fault) : Engine := { e with fault := some f }

/-- Submits a command to be carried out at once. -/
def submit (e : Engine) (c : Command) : Verdict × Engine :=
  if e.isHalted then (.refused, e) else
    match e.process c with
    | .ok e => (.accepted, e)
    | .error f => (.raised f, (e.abandon c).halt f)

end Engine

end GeometryEngine
