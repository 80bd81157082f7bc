import GeometryEngine.FrontEnd

/-!
# Calls of the front-end

Everything that can be done to a front-end from outside, as data, so that a
statement about all runs is one about all lists of calls. A fault ends the call
that it arises in; the calls after it are made all the same.
-/

namespace GeometryEngine

namespace FrontEnd

/-- Something that is done to a front-end. -/
inductive Call
  /-- Write a word of the plain path. -/
  | write (id : UInt8) (parameter : UInt32)
  /-- Write a word of the packed path. -/
  | writePacked (w : UInt32)
  /-- Write the status word. -/
  | writeStatus (w : UInt32)
  /-- Read the clip matrix. -/
  | readClip
  deriving DecidableEq, Inhabited

variable {σ : Type} [Sink σ]

/-- Makes a call. -/
def call (fe : FrontEnd) (s : σ) : Call → Outcome FrontEnd σ
  | .write id parameter => fe.write s id parameter
  | .writePacked w => fe.writePacked s w
  | .writeStatus w => ⟨fe.writeStatus w, s, none⟩
  | .readClip => ⟨fe.readClip.2, s, none⟩

/-- Makes calls one after another. -/
def callAll (fe : FrontEnd) (s : σ) : List Call → FrontEnd × σ
  | [] => (fe, s)
  | c :: cs => callAll (fe.call s c).state (fe.call s c).sink cs

theorem callAll_append (fe : FrontEnd) (s : σ) (cs ds : List Call) :
    fe.callAll s (cs ++ ds) = (fe.callAll s cs).1.callAll (fe.callAll s cs).2 ds := by
  induction cs generalizing fe s with
  | nil => rfl
  | cons c cs ih => exact ih _ _

/-- What holds at the beginning and is kept by every call holds after all calls. -/
theorem callAll_induction {P : FrontEnd → σ → Prop}
    (kept : ∀ fe s c, P fe s → P (fe.call s c).state (fe.call s c).sink)
    {fe : FrontEnd} {s : σ} (h : P fe s) (cs : List Call) :
    P (fe.callAll s cs).1 (fe.callAll s cs).2 := by
  induction cs generalizing fe s with
  | nil => exact h
  | cons c cs ih => exact ih (kept fe s c h)

end FrontEnd

end GeometryEngine
