import GeometryEngine.Instruction
import GeometryEngine.Sink

/-!
# Carrying out instructions

The registers of the front-end: its matrices, the point of the last vertex, the
current vertex list, and how much it has sent for the frame that is being built.

Vertices are taken to clip space here and sent on one by one; polygons refer to
them by their numbers in the frame. So that these numbers stay right, a vertex is
counted only if it was accepted. What a frame has no room for is dropped here.
-/

namespace GeometryEngine

/-- The registers of the front-end. -/
structure Registers where
  /-- The matrices. -/
  matrices : MatrixUnit := {}
  /-- The point of the last vertex. -/
  position : Point := {}
  /-- The attributes of the lists that are begun from now on. -/
  attributes : UInt32 := 0
  /-- The current vertex list. -/
  list : VertexList := {}
  /-- The number of vertices sent for the frame that is being built. -/
  vertices : Nat := 0
  /-- The number of triangles sent for it. -/
  triangles : Nat := 0
  deriving DecidableEq, Inhabited

namespace Registers

variable {σ : Type} [Sink σ]

/-- The number of vertices, and of triangles, that are sent for one frame. -/
def frameLimit : Nat := 4096

/-- Changes the matrices. -/
def mapMatrices (f : MatrixUnit → MatrixUnit) (r : Registers) : Registers :=
  { r with matrices := f r.matrices }

/-- The command that sends a vertex at the current point. -/
def vertexCommand (r : Registers) : Command :=
  let p := r.matrices.clip.apply r.position
  .vertex p.x p.y p.z p.w

/-- The registers with one more vertex counted. -/
def countVertex (r : Registers) : Registers :=
  { r with list := r.list.push r.vertices, vertices := r.vertices + 1 }

/-- Sends a polygon. -/
def sendPolygon (o : Outline) (r : Registers) (s : σ) : Outcome Registers σ :=
  if frameLimit < r.triangles + o.triangles then ⟨r, Sink.notify s .polygonBeyondLimit, none⟩
  else
    match Sink.submit s (o.command r.list.attributes) with
    | (.accepted, s) => ⟨{ r with triangles := r.triangles + o.triangles }, s, none⟩
    | (.refused, s) => ⟨r, Sink.notify s .polygonRefused, none⟩
    | (.raised f, s) => ⟨r, s, some f⟩

/-- Sends the polygon that the last vertex has completed, if it has. -/
def sendCompleted (r : Registers) (s : σ) : Outcome Registers σ :=
  match r.list.completed? with
  | none => ⟨r, s, none⟩
  | some o => r.sendPolygon o s

/-- Sends a vertex at the current point, and the polygon that it completes. -/
def sendVertex (r : Registers) (s : σ) : Outcome Registers σ :=
  if frameLimit ≤ r.vertices then ⟨r, Sink.notify s .vertexBeyondLimit, none⟩
  else
    let r := r.mapMatrices MatrixUnit.refresh
    match Sink.submit s r.vertexCommand with
    | (.accepted, s) => r.countVertex.sendCompleted s
    | (.refused, s) => ⟨r, Sink.notify s .vertexRefused, none⟩
    | (.raised f, s) => ⟨r, s, some f⟩

/-- The registers for a new frame: its vertices are counted from the beginning. -/
def beginFrame (r : Registers) : Registers :=
  { r with vertices := 0, triangles := 0, list := { r.list with length := 0 } }

/-- Sends a swap. A new frame is begun even if the swap is turned away. -/
def sendSwap (r : Registers) (s : σ) : Outcome Registers σ :=
  match Sink.submit s .swapBuffers with
  | (.accepted, s) => ⟨r.beginFrame, s, none⟩
  | (.refused, s) => ⟨r.beginFrame, Sink.notify s .swapRefused, none⟩
  | (.raised f, s) => ⟨r, s, some f⟩

/-- Sends a viewport. -/
def sendViewport (view : Viewport) (r : Registers) (s : σ) : Outcome Registers σ :=
  match Sink.submit s (.viewport view) with
  | (.accepted, s) => ⟨r, s, none⟩
  | (.refused, s) => ⟨r, Sink.notify s .viewportRefused, none⟩
  | (.raised f, s) => ⟨r, s, some f⟩

/-- The registers with the current point moved to the coordinates that are
    given. -/
def moveTo (x y z : Option Fixed) (r : Registers) : Registers :=
  { r with
    position :=
      { r.position with
        x := x.getD r.position.x, y := y.getD r.position.y, z := z.getD r.position.z } }

/-- The registers with the current point moved by a distance. -/
def moveBy (dx dy dz : Fixed) (r : Registers) : Registers :=
  r.moveTo (some (r.position.x + dx)) (some (r.position.y + dy)) (some (r.position.z + dz))

/-- Carries out an instruction. -/
def execute (r : Registers) (s : σ) : Instruction → Outcome Registers σ
  | .nothing => ⟨r, s, none⟩
  | .setMode mode => ⟨r.mapMatrices fun u => { u with mode }, s, none⟩
  | .push => ⟨r.mapMatrices .push, s, none⟩
  | .pop distance => ⟨r.mapMatrices (.pop distance), s, none⟩
  | .store slot => ⟨r.mapMatrices (.store slot), s, none⟩
  | .restore slot => ⟨r.mapMatrices (.restore slot), s, none⟩
  | .load m => ⟨r.mapMatrices (.load m), s, none⟩
  | .multiply m => ⟨r.mapMatrices (.multiply m), s, none⟩
  | .place x y z => (r.moveTo x y z).sendVertex s
  | .offset dx dy dz => (r.moveBy dx dy dz).sendVertex s
  | .setAttributes attributes => ⟨{ r with attributes }, s, none⟩
  | .beginList kind => ⟨{ r with list := r.list.restart kind r.attributes }, s, none⟩
  | .swapBuffers => r.sendSwap s
  | .setViewport view => r.sendViewport view s
  | .unknown id => ⟨r, Sink.notify s (.unknownCommand id), none⟩

end Registers

end GeometryEngine
