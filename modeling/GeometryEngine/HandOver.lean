import GeometryEngine.Pipeline
import GeometryEngine.Renderer

/-!
# How commands are handed over

Several submitters, the geometry thread, the display, and someone who starts and
stops the thread share one engine. Each of them goes on by small steps, and the
steps of all of them may follow each other in any order; what a single step does,
the others see as a whole.

A submitter first looks whether the engine has halted, and whether there is a
thread. If there is one, it counts its command, then puts it into the queue, and
takes its count back if the queue has turned the command away
(`Pipeline.HandOver`). So there are moments at which a command is counted that is
in nobody's hands but its submitter's, and the numbers of commands submitted and
processed alone do not tell what is under way. `Pipeline.isFlushed` is what
somebody waits for who wants all commands to be carried out.

These steps are the same whoever takes them. What is put on record of them, and in
which order a submitter takes them, is a matter of those who do.
-/

namespace GeometryEngine

/-- What a submitter is doing. -/
inductive Submitter
  /-- Nothing. -/
  | free
  /-- It has seen a healthy engine with a thread, and is about to count a command. -/
  | looked (c : Command)
  /-- It has counted a command, and is about to put it into the queue. -/
  | counted (c : Command)
  /-- Its command was turned away, and it is about to take back its count. -/
  | turnedAway (c : Command)
  deriving DecidableEq, Inhabited

/-- Whether a submitter has counted a command of which it does not know yet what
    becomes of it, or which it has to take back. -/
def Submitter.isBusy : Submitter → Bool
  | .counted _ | .turnedAway _ => true
  | .free | .looked _ => false

/-- The number of commands that the thread has taken and not counted yet. -/
def Worker.inHand : Worker → Nat
  | .holding _ | .showing .. | .counting => 1
  | .absent | .idle | .stopping | .clearing | .ended => 0

namespace Pipeline

/-- Whether the thread has carried out all commands that are counted, or will
    carry out no more. -/
def isFlushed (p : Pipeline) : Bool := p.submitted ≤ p.processed || p.engine.isHalted

/-- Changes the frame that is shown. -/
def mapCurrent (f : Slot → Slot) (p : Pipeline) : Pipeline :=
  { p with engine := { p.engine with frames := p.engine.frames.mapCurrent f } }

/-- A step of a submitter with a command, and the verdict if it learns it by that. -/
inductive HandOver (p : Pipeline) (c : Command) :
    Submitter → Option Verdict → Pipeline → Submitter → Prop
  /-- It sees that the engine has not halted and that there is a thread. -/
  | look (healthy : p.engine.isHalted = false) (threaded : p.isThreaded = true) :
      HandOver p c .free none p (.looked c)
  /-- It sees that the engine has halted, and its command is turned away. -/
  | skip (halted : p.engine.isHalted = true) : HandOver p c .free (some .refused) p .free
  /-- It carries its command out itself, since there is no thread. A swap that raises no
      fault waits for the display. -/
  | carryOut {v : Verdict} {p' : Pipeline} {reports : List Report}
      (healthy : p.engine.isHalted = false) (unthreaded : p.isThreaded = false)
      (shown : c = .swapBuffers → v = .accepted → p.held = false)
      (h : p.submit? c = some (v, p', reports)) : HandOver p c .free (some v) p' .free
  /-- It counts its command for the thread that it has seen, even if that has come to its
      end by now. -/
  | count : HandOver p c (.looked c) none { p with submitted := p.submitted + 1 } (.counted c)
  /-- It puts its command into the queue. -/
  | push {q : Queue Command} (room : p.queue.push c = .accepted q) :
      HandOver p c (.counted c) (some .accepted) { p with queue := q } .free
  /-- It is turned away by the stopped queue. -/
  | refuse (stopped : p.queue.push c = .refused) : HandOver p c (.counted c) none p (.turnedAway c)
  /-- It takes back its count. -/
  | uncount :
      HandOver p c (.turnedAway c) (some .refused) { p with submitted := p.submitted - 1 } .free

/-- A step of someone who starts and stops the thread. -/
inductive Control (p : Pipeline) : Pipeline → Prop
  /-- The thread is started. -/
  | start : Control p p.start.1
  /-- The thread is asked to end. -/
  | requestStop : Control p p.requestStop
  /-- The thread has come to its end and is done away with. -/
  | join : Control p p.join

/-- A step of the display. -/
inductive Display (p : Pipeline) : Pipeline → Prop
  /-- It takes the current frame. -/
  | hold (free : p.held = false) : Display p p.hold
  /-- It begins to draw the frame that it holds. -/
  | restart (held : p.held = true) : Display p (p.mapCurrent Slot.restart)
  /-- It draws lines of the frame that it holds. -/
  | draw (held : p.held = true) (config : RenderConfig) (buckets : Buckets) (c : Cursor) (y : Int)
      (canvas : Canvas) :
      Display p (p.mapCurrent fun s => (s.draw config buckets c y canvas).2.2)
  /-- It lets go of the current frame. -/
  | release (held : p.held = true) : Display p p.release

end Pipeline

end GeometryEngine
