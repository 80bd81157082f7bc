import GeometryEngine.Notice

/-!
# Where commands go

The front-end sends commands and reports without knowing who receives them: an
engine that carries them out at once, one with a thread, or a record of what was
sent. All it learns is what became of each command.
-/

namespace GeometryEngine

/-- Something that commands can be submitted to. -/
class Sink (σ : Type) where
  /-- Submits a command. -/
  submit : σ → Command → Verdict × σ
  /-- Reports something. -/
  notify : σ → Notice → σ

/-- What an activity leaves behind: the state of the one who acts, the receiver
    of its commands, and the fault that has cut it short, if one has. -/
structure Outcome (α σ : Type) where
  /-- The state of the one who acts. -/
  state : α
  /-- The receiver. -/
  sink : σ
  /-- The fault. -/
  fault : Option Fault := none

/-- Carries on, unless a fault has cut the activity short. -/
def Outcome.andThen {α σ : Type} (o : Outcome α σ) (next : α → σ → Outcome α σ) : Outcome α σ :=
  match o.fault with
  | some _ => o
  | none => next o.state o.sink

theorem Outcome.andThen_assoc {α σ : Type} (o : Outcome α σ) (f g : α → σ → Outcome α σ) :
    (o.andThen f).andThen g = o.andThen fun a s => (f a s).andThen g := by
  cases h : o.fault <;> simp [andThen, h]

/-- Changes the state that is left behind. -/
def Outcome.map {α β σ : Type} (f : α → β) (o : Outcome α σ) : Outcome β σ :=
  { state := f o.state, sink := o.sink, fault := o.fault }

end GeometryEngine
