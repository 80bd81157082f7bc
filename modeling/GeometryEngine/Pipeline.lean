import GeometryEngine.Engine
import GeometryEngine.Notice
import GeometryEngine.Queue

/-!
# The geometry thread

Commands are carried out by whoever submits them, or by a thread of their own
that takes them from a queue. Then three parties share the engine: those who
submit commands, the thread, and the display, which holds on to the current
frame while it draws.

The thread works in small steps (`Pipeline.step?`), each of which the others see
as a whole: take a command, carry it out, count it. It waits when the queue is
empty, and before it shows a frame as long as the display holds the current one.
At a fault it halts the engine, and stops and empties the queue.

`Pipeline.settle` lets the thread work until it waits or ends. It comes to an
end because every step lowers the work that is left (`work_lt_of_step?`).
-/

namespace GeometryEngine

/-- What the thread is doing. -/
inductive Worker
  /-- There is no thread: commands are carried out by their submitters. -/
  | absent
  /-- It waits for a command. -/
  | idle
  /-- It has taken a command. -/
  | holding (c : Command)
  /-- It has set up a frame that held so many vertices and triangles, and waits to
      show it. -/
  | showing (vertices triangles : Nat)
  /-- It has carried out a command, which is not counted yet. -/
  | counting
  /-- It has halted the engine, and is about to stop the queue. -/
  | stopping
  /-- It is about to empty the queue. -/
  | clearing
  /-- It has come to its end. -/
  | ended
  deriving DecidableEq, Inhabited

/-- The number of steps that the thread has at most before it. -/
def Worker.work : Worker → Nat
  | .absent | .ended => 0
  | .idle => 1
  | .clearing | .counting => 2
  | .stopping | .showing .. => 3
  | .holding _ => 4

/-- Something that others learn of a step. -/
inductive Report
  /-- A notice. -/
  | notice (n : Notice)
  /-- A frame is ready to be shown: its number, and what it holds. -/
  | scene (frame : UInt32) (s : Slot)

/-- The engine, its thread, and what lies between them and the others. -/
structure Pipeline where
  /-- The engine. -/
  engine : Engine := {}
  /-- The commands that wait for the thread. -/
  queue : Queue Command
  /-- What the thread is doing. -/
  worker : Worker := .absent
  /-- Whether the display holds the current frame. -/
  held : Bool := false
  /-- The number of commands that were handed over to the thread. -/
  submitted : Nat := 0
  /-- The number of commands that the thread has carried out. -/
  processed : Nat := 0

namespace Pipeline

/-- Whether there is a thread, be it at its end. -/
def isThreaded (p : Pipeline) : Bool := p.worker != .absent

/-! ### Steps of the engine -/

/-- What is learnt of a frame that was made ready. -/
def sceneReport (e : Engine) : Report := .scene e.frames.counter e.frames.next

/-- What is learnt of a frame that is shown, from the engine before the swap, and
    what the frame held when it was set up. It may hold more by then, as commands
    that are carried out at once do not wait for the thread. -/
def swapReport (e : Engine) (vertices triangles : Nat) : Report :=
  .notice (.swapped (e.frames.counter + 1) vertices triangles)

/-- Carries out a command as a whole, with what is learnt of it. -/
def perform (e : Engine) : Command → Except Fault (Engine × List Report)
  | .swapBuffers =>
    match e.prepare with
    | .error f => .error f
    | .ok e =>
      .ok (e.promote, [sceneReport e,
        swapReport e e.frames.next.vertices.size e.frames.next.triangles.size])
  | c =>
    match e.process c with
    | .error f => .error f
    | .ok e => .ok (e, [])

/-- What is learnt of a fault that halts the engine. -/
def haltReports (f : Fault) : List Report := [.notice (.fault f), .notice (.halted f)]

/-! ### Steps of the thread -/

/-- The thread has met a fault in a command. -/
def fail (p : Pipeline) (c : Command) (f : Fault) : Pipeline × List Report :=
  ({ p with engine := (p.engine.abandon c).halt f, worker := .stopping }, haltReports f)

/-- The next step of the thread, with what is learnt of it; there is none while
    it waits, and after its end. -/
def step? (p : Pipeline) : Option (Pipeline × List Report) :=
  match p.worker with
  | .absent | .ended => none
  | .idle =>
    match p.queue.pop with
    | .blocked => none
    | .closed => some ({ p with worker := .ended }, [.notice .threadStopped])
    | .taken c queue => some ({ p with queue, worker := .holding c }, [])
  | .holding .swapBuffers =>
    match p.engine.prepare with
    | .error f => some (p.fail .swapBuffers f)
    | .ok engine =>
      let s := engine.frames.next
      some ({ p with engine, worker := .showing s.vertices.size s.triangles.size },
        [sceneReport engine])
  | .holding c =>
    match p.engine.process c with
    | .error f => some (p.fail c f)
    | .ok engine => some ({ p with engine, worker := .counting }, [])
  | .showing vertices triangles =>
    if p.held then none else
      some ({ p with engine := p.engine.promote, worker := .counting },
        [swapReport p.engine vertices triangles])
  | .counting => some ({ p with processed := p.processed + 1, worker := .idle }, [])
  | .stopping => some ({ p with queue := p.queue.stop, worker := .clearing }, [])
  | .clearing => some ({ p with queue := p.queue.clear, worker := .ended }, [])

/-- The number of steps that the thread has at most before it, those for the
    commands in the queue included. -/
def work (p : Pipeline) : Nat := 4 * p.queue.items.length + p.worker.work

/-- Every step of the thread lowers the work that is left. -/
theorem work_lt_of_step? {p p' : Pipeline} {reports : List Report}
    (h : p.step? = some (p', reports)) : p'.work < p.work := by
  unfold step? at h
  split at h <;> rename_i hw
  · cases h
  · cases h
  · split at h
    · cases h
    · cases h; simp [work, hw, Worker.work]
    · rename_i c queue hpop
      cases h
      have hitems := (Queue.items_of_pop hpop).1
      simp [work, hw, Worker.work, hitems]
      omega
  · split at h <;> cases h <;> simp [work, hw, Worker.work]
  · split at h <;> cases h <;> simp [work, hw, Worker.work]
  · split at h
    · cases h
    · cases h; simp [work, hw, Worker.work]
  · cases h; simp [work, hw, Worker.work]
  · cases h; simp [work, hw, Worker.work, Queue.stop]
  · cases h; simp [work, hw, Worker.work, Queue.clear]

/-- Lets the thread work until it waits or ends, with what is learnt of it
    behind what has been learnt before. -/
def settle (p : Pipeline) (reports : List Report) : Pipeline × List Report :=
  match _h : p.step? with
  | none => (p, reports)
  | some (p', more) => settle p' (reports ++ more)
termination_by p.work
decreasing_by exact work_lt_of_step? _h

/-! ### Those who submit commands -/

/-- Begins the thread, unless there is one or the engine has halted. -/
def start (p : Pipeline) : Pipeline × List Report :=
  if p.isThreaded || p.engine.isHalted then (p, []) else
    ({ p with queue := p.queue.start, worker := .idle }, [.notice .threadStarted])

/-- Asks the thread to end: the queue is stopped, and the thread ends once it is
    empty. -/
def requestStop (p : Pipeline) : Pipeline :=
  if p.isThreaded then { p with queue := p.queue.stop } else p

/-- Does away with a thread that has come to its end. -/
def join (p : Pipeline) : Pipeline :=
  if p.worker = .ended then { p with worker := .absent } else p

/-- Asks the thread to end and waits for it. -/
def stop (p : Pipeline) : Pipeline × List Report :=
  let (p, reports) := p.requestStop.settle []
  (p.join, reports)

/-- Submits a command: carries it out if there is no thread, and hands it over
    to the thread otherwise. There is no answer while the queue is full. -/
def submit? (p : Pipeline) (c : Command) : Option (Verdict × Pipeline × List Report) :=
  if p.engine.isHalted then some (.refused, p, [])
  else if p.isThreaded then
    match p.queue.push c with
    | .accepted queue => some (.accepted, { p with queue, submitted := p.submitted + 1 }, [])
    | .refused => some (.refused, p, [])
    | .blocked => none
  else
    match perform p.engine c with
    | .ok (engine, reports) => some (.accepted, { p with engine }, reports)
    | .error f =>
      some (.raised f,
        { p with engine := (p.engine.abandon c).halt f, queue := p.queue.stop.clear },
        haltReports f)

/-! ### The display -/

/-- The display takes the current frame. -/
def hold (p : Pipeline) : Pipeline := { p with held := true }

/-- The display lets go of the current frame. -/
def release (p : Pipeline) : Pipeline := { p with held := false }

end Pipeline

end GeometryEngine
