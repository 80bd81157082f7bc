import GeometryEngine.Command

/-!
# Notices

What the engine and its front-end report to whoever runs them, and the wording
and colour of each report.
-/

namespace GeometryEngine

/-- A report of the engine or its front-end. -/
inductive Notice
  /-- A contradiction in the commands. -/
  | fault (fault : Fault)
  /-- The engine has halted. -/
  | halted (fault : Fault)
  /-- A save state was not accepted. -/
  | stateRejected
  /-- Another frame is shown: its number, and what it holds. -/
  | swapped (frame : UInt32) (vertices triangles : Nat)
  /-- The frame was written to the scene file: the number of its triangles. -/
  | sceneWritten (triangles : Nat)
  /-- The scene file could not be opened. -/
  | sceneUnwritable (path : String)
  /-- The geometry thread has begun. -/
  | threadStarted
  /-- The geometry thread has come to its end. -/
  | threadStopped
  /-- The front-end was sent a command that it does not know. -/
  | unknownCommand (id : UInt8)
  /-- A vertex beyond what a frame has room for was dropped. -/
  | vertexBeyondLimit
  /-- A triangle beyond what a frame has room for was dropped. -/
  | polygonBeyondLimit
  /-- The engine turned a vertex away. -/
  | vertexRefused
  /-- The engine turned a polygon away. -/
  | polygonRefused
  /-- The engine turned a swap away. -/
  | swapRefused
  /-- The engine turned a viewport away. -/
  | viewportRefused
  deriving DecidableEq, Inhabited

/-- How serious a notice is. -/
inductive Severity
  | critical
  | warning
  | info
  deriving DecidableEq, Inhabited

/-- The terminal code for the colour of a notice: red, yellow or none. -/
def Severity.colour : Severity → String
  | .critical => "\x1b[31m"
  | .warning => "\x1b[33m"
  | .info => "\x1b[0m"

/-- What is said about a fault. -/
def Fault.text : Fault → String
  | .vertexOverflow number frame =>
    "Vertex RAM overflow: vertex " ++ toString number ++ " submitted in frame " ++
      toString frame.toNat
  | .polygonOverflow triangles frame =>
    "Polygon RAM overflow: " ++ toString triangles ++ " triangles submitted in frame " ++
      toString frame.toNat
  | .polygonIndex corner index vertices =>
    "Polygon vertex " ++ toString corner ++ " has an invalid index: " ++ toString index.toInt ++
      " (vertex count: " ++ toString vertices ++ ")"
  | .vertexOrder triangle y0 y1 y2 =>
    "Polygon " ++ toString triangle ++ " has unsorted vertices: Y = " ++ toString y0.toInt ++
      ", " ++ toString y1.toInt ++ ", " ++ toString y2.toInt

namespace Notice

/-- How serious a notice is. -/
def severity : Notice → Severity
  | .fault _ | .halted _ | .stateRejected => .critical
  | .swapped .. | .sceneWritten _ | .threadStarted | .threadStopped => .info
  | .sceneUnwritable _ | .unknownCommand _ | .vertexBeyondLimit | .polygonBeyondLimit |
    .vertexRefused | .polygonRefused | .swapRefused | .viewportRefused => .warning

/-- A number in hexadecimal, with capital letters. -/
def hexadecimal (n : Nat) : String := String.ofList ((Nat.toDigits 16 n).map Char.toUpper)

/-- What a notice says. -/
def text : Notice → String
  | .fault f => f.text
  | .halted f => "Halting the 3D engine with error " ++ toString f.code
  | .stateRejected => "Failed to load 3D engine state"
  | .swapped frame vertices triangles =>
    "Swapped 3D buffers to frame " ++ toString frame.toNat ++ " with " ++ toString vertices ++
      " vertices and " ++ toString triangles ++ " polygons"
  | .sceneWritten triangles => "Dumped scene with " ++ toString triangles ++ " polygons"
  | .sceneUnwritable path => "Failed to open scene dump file: " ++ path
  | .threadStarted => "Starting the geometry thread"
  | .threadStopped => "Stopping the geometry thread"
  | .unknownCommand id => "Unknown GXFIFO command: 0x" ++ hexadecimal id.toNat
  | .vertexBeyondLimit => "Dropping vertex past the limit of 4096 per frame"
  | .polygonBeyondLimit => "Dropping polygon past the limit of 4096 triangles per frame"
  | .vertexRefused => "Dropping vertex sent to a stopped 3D engine"
  | .polygonRefused => "Dropping polygon sent to a stopped 3D engine"
  | .swapRefused => "Dropping buffer swap sent to a stopped 3D engine"
  | .viewportRefused => "Dropping viewport sent to a stopped 3D engine"

/-- A notice as it is printed, in its colour and on a line of its own. -/
def print (n : Notice) : String := n.severity.colour ++ n.text ++ "\n"

end Notice

end GeometryEngine
