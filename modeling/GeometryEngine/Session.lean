import GeometryEngine.Calls
import GeometryEngine.Renderer
import GeometryEngine.SaveState

/-!
# Sessions

A session is what is done, one thing after another, with an engine that carries
out its commands at once: a front-end writes to it, commands are submitted to it
directly, its frame is drawn, and its state is saved and loaded. What was done is
a list of actions, and a run carries them out (`Session.run`).

A pass may be cut short and begun again, and lines may be drawn in it any number
of times; only its buckets are remembered.
-/

namespace GeometryEngine

instance : Sink Engine where
  submit := Engine.submit
  notify e _ := e

@[simp] theorem Engine.sink_submit (e : Engine) (c : Command) : Sink.submit e c = e.submit c := rfl

@[simp] theorem Engine.sink_notify (e : Engine) (n : Notice) : Sink.notify e n = e := rfl

/-- An engine, its front-end, the buckets of the last pass, and what was saved. -/
structure Session where
  /-- The front-end. -/
  frontEnd : FrontEnd := {}
  /-- The engine. -/
  engine : Engine := {}
  /-- The buckets of the last pass. -/
  buckets : Buckets := #[]
  /-- The states that were saved, the latest first. -/
  saves : List (List UInt8) := []

namespace Session

/-- Something that is done in a session. -/
inductive Action
  /-- The front-end is called. -/
  | call (c : FrontEnd.Call)
  /-- A command is submitted to the engine. -/
  | submit (c : Command)
  /-- A command is carried out, and a fault does not halt the engine. -/
  | process (c : Command)
  /-- A pass over the current frame is begun. -/
  | beginPass
  /-- Lines are drawn. -/
  | draw (config : RenderConfig) (c : Cursor) (y : Int) (canvas : Canvas)
  /-- The state is saved. -/
  | save
  /-- A state is loaded. -/
  | load (bs : List UInt8)

/-- Whether an action belongs to a pass. -/
def Action.isDrawing : Action → Bool
  | .beginPass | .draw .. => true
  | _ => false

/-- Changes the current frame. -/
def mapCurrent (f : Slot → Slot) (s : Session) : Session :=
  { s with engine := { s.engine with frames := s.engine.frames.mapCurrent f } }

/-- The session after an action. -/
def step (s : Session) : Action → Session
  | .call c =>
    let o := s.frontEnd.call s.engine c
    { s with frontEnd := o.state, engine := o.sink }
  | .submit c => { s with engine := (s.engine.submit c).2 }
  | .process c =>
    match s.engine.process c with
    | .ok engine => { s with engine }
    | .error _ => { s with engine := s.engine.abandon c }
  | .beginPass => { s with buckets := s.engine.frames.current.buckets }.mapCurrent Slot.restart
  | .draw config c y canvas =>
    s.mapCurrent fun slot => (slot.draw config s.buckets c y canvas).2.2
  | .save => { s with saves := s.engine.save :: s.saves }
  | .load bs => { s with engine := (s.engine.load bs).1 }

/-- The session after all actions of a list. -/
def run (s : Session) (actions : List Action) : Session := actions.foldl step s

/-- What holds at the beginning and is kept by every action that occurs holds at
    the end. -/
theorem run_induction {P : Session → Prop} {actions : List Action}
    (kept : ∀ s, ∀ a ∈ actions, P s → P (s.step a)) {s : Session} (h : P s) :
    P (s.run actions) := by
  induction actions generalizing s with
  | nil => exact h
  | cons a as ih =>
    exact ih (fun s b hb => kept s b (List.mem_cons_of_mem _ hb)) (kept s a List.mem_cons_self h)

/-- A state that was saved in the session, or that is not accepted. -/
def mayLoad (s : Session) (bs : List UInt8) : Prop :=
  bs ∈ s.saves ∨ (s.engine.load bs).2 = false

end Session

end GeometryEngine
