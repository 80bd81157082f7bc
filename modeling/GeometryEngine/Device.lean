import GeometryEngine.Pipeline
import GeometryEngine.SaveState
import GeometryEngine.SceneText
import GeometryEngine.Settings
import GeometryEngine.Sink

/-!
# The device

The engine with all that surrounds it: its thread, the settings, the files below
the working directory and what was reported. If the settings ask for it, every
frame is written to a file before it is shown, the first one in place of what the
file held.

The thread is given its turn after every action, and works until it waits. Who
submits a command to a full queue, while the thread waits for the display, can
only be released by a stop; so the queue is stopped then, and the command
refused.
-/

namespace GeometryEngine

/-- The engine with its surroundings. -/
structure Device where
  /-- The engine and its thread. -/
  pipeline : Pipeline
  /-- The settings. -/
  settings : Settings := {}
  /-- The files. -/
  files : FileTree := {}
  /-- What was reported, the latest last. -/
  notices : Array Notice := #[]

namespace Device

/-! ### Reports -/

/-- Reports something. -/
def note (d : Device) (n : Notice) : Device := { d with notices := d.notices.push n }

/-- Writes a frame down. -/
def writeScene (d : Device) (frame : UInt32) (s : Slot) : Device :=
  let path := d.settings.scenePath
  let text := SceneText.ofSlot s
  let written :=
    if frame = 0 then d.files.write? path text else d.files.append? path text
  match written with
  | none => d.note (.sceneUnwritable (Text.cut path))
  | some files => { d with files }.note (.sceneWritten s.triangles.size)

/-- Takes note of something that was learnt. -/
def absorb (d : Device) : Report → Device
  | .notice n => d.note n
  | .scene frame s => if d.settings.writesScenes then d.writeScene frame s else d

/-- Goes on with another state of the engine, and takes note of what was
    learnt. -/
def follow (d : Device) (p : Pipeline) (reports : List Report) : Device :=
  reports.foldl absorb { d with pipeline := p }

/-! ### The thread -/

/-- Lets the thread work until it waits. -/
def settle (d : Device) : Device :=
  let (p, reports) := d.pipeline.settle []
  d.follow p reports

/-- Begins the thread, if the settings ask for it. -/
def start (d : Device) : Device :=
  if d.settings.threaded then
    let (p, reports) := d.pipeline.start
    (d.follow p reports).settle
  else d

/-- Waits for the thread to end, if there is one. -/
def stop (d : Device) : Device :=
  let (p, reports) := d.pipeline.stop
  d.follow p reports

/-- A new engine with the given settings and files. -/
def boot (settings : Settings) (files : FileTree) : Device :=
  { settings, files, pipeline := { queue := .ofCapacity settings.queueSize } : Device }.start

/-! ### Commands -/

/-- Submits a command. -/
def submit (d : Device) (c : Command) : Verdict × Device :=
  match d.pipeline.submit? c with
  | some (v, p, reports) => (v, (d.follow p reports).settle)
  | none => (.refused, { d with pipeline := d.pipeline.requestStop })

/-- Carries out a command at once, without halting the engine at a fault. -/
def process (d : Device) (c : Command) : Verdict × Device :=
  match Pipeline.perform d.pipeline.engine c with
  | .ok (engine, reports) =>
    (.accepted, d.follow { d.pipeline with engine } reports)
  | .error f =>
    (.raised f,
      { d with pipeline.engine := d.pipeline.engine.abandon c }.note (.fault f))

instance : Sink Device where
  submit := submit
  notify := note

/-! ### Save states -/

/-- The save state of the engine. -/
def save (d : Device) : List UInt8 := d.pipeline.engine.save

/-- Reads a save state, and tells whether it was accepted. -/
def load (d : Device) (bs : List UInt8) : Device × Bool :=
  match d.pipeline.engine.load bs with
  | (engine, true) => ({ d with pipeline := { d.pipeline with engine } }, true)
  | (engine, false) =>
    ({ d with pipeline := { d.pipeline with engine } }.note .stateRejected, false)

/-! ### The display -/

/-- Takes the current frame. -/
def hold (d : Device) : Device := { d with pipeline := d.pipeline.hold }

/-- Lets go of the current frame. -/
def release (d : Device) : Device := { d with pipeline := d.pipeline.release }.settle

/-- A new engine in the same surroundings. The display lets go of the frame first,
    so that the thread, which may wait for it, carries out what is left in the queue
    and comes to its end. -/
def renew (d : Device) : Device :=
  let d := d.release.stop
  { d with pipeline := { queue := .ofCapacity d.settings.queueSize } }.start

/-- The frame that is shown. -/
def current (d : Device) : Slot := d.pipeline.engine.frames.current

/-- The frame that is being built. -/
def next (d : Device) : Slot := d.pipeline.engine.frames.next

/-- Puts back the frame that is shown, after it was drawn. -/
def putCurrent (d : Device) (s : Slot) : Device :=
  let e := d.pipeline.engine
  { d with pipeline := { d.pipeline with
      engine := { e with frames := e.frames.mapCurrent fun _ => s } } }

/-- Begins a pass over the frame that is shown: it is taken, its triangles go back
    to their top corners, and the buckets are made. -/
def beginPass (d : Device) : Buckets × Device :=
  (d.current.buckets, d.hold.putCurrent d.current.restart)

/-- Draws from line `y` on, in a pass that was begun. -/
def draw (d : Device) (config : RenderConfig) (buckets : Buckets) (c : Cursor) (y : Int)
    (canvas : Canvas) : Cursor × Canvas × Device :=
  let (c, canvas, s) := d.current.draw config buckets c y canvas
  (c, canvas, d.putCurrent s)

/-- Draws the whole frame in a pass of its own. -/
def render (d : Device) (config : RenderConfig) (c : Cursor) (canvas : Canvas) :
    Buckets × Cursor × Canvas × Device :=
  let (buckets, c, canvas, s) := d.current.render config c canvas
  (buckets, c, canvas, (d.hold.putCurrent s).release)

end Device

end GeometryEngine
