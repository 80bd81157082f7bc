import GeometryEngine.HandOver
import GeometryEngine.SaveState

/-!
# Many at once

Several submitters, the geometry thread, the display, and someone who starts and
stops the thread share one engine and take their steps in any order
(`Traffic.Step`). Here it is the frames that matter, and when they are shown.

Without a thread, submitters carry out their commands themselves, and they take
turns: nobody begins with a command while another one waits to show a frame that it
has set up. A swap takes two steps then, as it does for the thread, since the
display goes on between them. A state is loaded only when nothing is under way and
the display does not hold the frame.
-/

namespace GeometryEngine

/-- The number of frames that the thread has set up and not shown yet. -/
def Worker.unshown : Worker → Nat
  | .showing .. => 1
  | .absent | .idle | .holding _ | .counting | .stopping | .clearing | .ended => 0

/-- An engine with its thread, and those who submit commands to it. -/
structure Traffic where
  /-- The engine and its thread. -/
  pipeline : Pipeline
  /-- The submitters. -/
  submitters : List Submitter
  /-- Whether one of them, without a thread, has set up a frame and waits to show it. -/
  showing : Bool := false

namespace Traffic

/-- A new engine without a thread, with as many submitters and as much room in its
    queue as wanted. -/
def fresh (wanted submitters : Nat) : Traffic where
  pipeline := { queue := .ofCapacity wanted }
  submitters := List.replicate submitters .free

/-- The number of frames that are set up and not shown yet. -/
def unshown (t : Traffic) : Nat := t.pipeline.worker.unshown + t.showing.toNat

/-- Both frames. -/
def frames (t : Traffic) : Frames := t.pipeline.engine.frames

/-- A single step of one of those who share the engine. -/
inductive Step : Traffic → Traffic → Prop
  /-- The thread goes on. -/
  | work {t : Traffic} {p : Pipeline} {reports : List Report}
      (h : t.pipeline.step? = some (p, reports)) : Step t { t with pipeline := p }
  /-- The display goes on. -/
  | display {t : Traffic} {p : Pipeline} (h : t.pipeline.Display p) :
      Step t { t with pipeline := p }
  /-- A submitter goes on. It begins with a command when it is its turn; a swap that it
      carries out itself takes more than this step, unless it raises a fault. -/
  | handOver {t : Traffic} (i : Nat) {c : Command} {s s' : Submitter} {v : Option Verdict}
      {p : Pipeline} (here : t.submitters[i]? = some s) (h : t.pipeline.HandOver c s v p s')
      (begins : s = .free → t.showing = false ∧ (c = .swapBuffers → v ≠ some .accepted)) :
      Step t { t with pipeline := p, submitters := t.submitters.set i s' }
  /-- A submitter carries out the first part of a swap itself. -/
  | prepare {t : Traffic} (i : Nat) {e : Engine} (free : t.submitters[i]? = some .free)
      (unthreaded : t.pipeline.isThreaded = false) (healthy : t.pipeline.engine.isHalted = false)
      (clear : t.showing = false) (h : t.pipeline.engine.prepare = .ok e) :
      Step t { t with pipeline := { t.pipeline with engine := e }, showing := true }
  /-- It carries out the second part, since the display does not hold the frame. -/
  | promote {t : Traffic} (showing : t.showing = true) (free : t.pipeline.held = false) :
      Step t { t with
        pipeline := { t.pipeline with engine := t.pipeline.engine.promote }, showing := false }
  /-- A state is loaded, after a wait for all commands. -/
  | load {t : Traffic} (bs : List UInt8) (clear : t.showing = false)
      (flushed : t.pipeline.isThreaded = false ∨ t.pipeline.isFlushed = true)
      (free : t.pipeline.held = false) :
      Step t { t with
        pipeline := { t.pipeline with engine := (t.pipeline.engine.load bs).1 } }
  /-- The thread is started or stopped. While a submitter waits to show a frame there is none
      to be stopped. -/
  | control {t : Traffic} {p : Pipeline} (clear : t.showing = false) (h : t.pipeline.Control p) :
      Step t { t with pipeline := p }

/-- Any number of steps. -/
inductive Steps : Traffic → Traffic → Prop
  /-- No step. -/
  | refl {t : Traffic} : Steps t t
  /-- Some steps and one more. -/
  | tail {t u v : Traffic} : Steps t u → Step u v → Steps t v

/-- Any number of steps, between states that all have a property. -/
inductive Within (P : Traffic → Prop) : Traffic → Traffic → Prop
  /-- No step. -/
  | refl {t : Traffic} (here : P t) : Within P t t
  /-- Some steps and one more. -/
  | tail {t u v : Traffic} : Within P t u → Step u v → P v → Within P t v

/-- After some steps from `first`, a frame was set up as `s`, and up to `t` it has waited
    to be shown. -/
def SetUpSince (first : Traffic) (s : Slot) (t : Traffic) : Prop :=
  ∃ r u, Steps first r ∧ r.unshown = 0 ∧ r.frames.next.setUp = .ok s ∧ Step r u ∧
    Within (fun v => v.unshown ≠ 0) u t

theorem Steps.trans {t u v : Traffic} (h : Steps t u) (h' : Steps u v) : Steps t v := by
  induction h' with
  | refl => exact h
  | tail _ hs ih => exact ih.tail hs

/-- What holds at the beginning and is kept by every step holds after any number
    of steps. -/
theorem Steps.keep {P : Traffic → Prop} (kept : ∀ t u, Step t u → P t → P u) {t u : Traffic}
    (h : Steps t u) (ht : P t) : P u := by
  induction h with
  | refl => exact ht
  | tail _ hs ih => exact kept _ _ hs ih

end Traffic

end GeometryEngine
