import GeometryEngine.Calls

/-!
# Whoever receives the commands

The front-end does not know who receives its commands. Two consequences of that are
told here once.

* `FrontEnd.call_view`: if one receiver shows all that another does
  (`Sink.IsView`), then a call to the front-end does the same with both.
* `FrontEnd.Keeps.call`: what every instruction keeps, and what does not depend on
  the clip matrix and the stack errors, every call keeps, however its words arrive.
  What is kept may speak of the fault that cuts a call short, so that it can also say
  that there is none.
-/

namespace GeometryEngine

/-! ### Views of a receiver -/

/-- The same outcome, with another receiver in place of its own. -/
def Outcome.mapSink {α σ τ : Type} (f : σ → τ) (o : Outcome α σ) : Outcome α τ :=
  ⟨o.state, f o.sink, o.fault⟩

theorem Outcome.mapSink_andThen {α σ τ : Type} {f : σ → τ} {o : Outcome α σ}
    {next : α → σ → Outcome α σ} {next' : α → τ → Outcome α τ}
    (h : ∀ a s, next' a (f s) = (next a s).mapSink f) :
    (o.mapSink f).andThen next' = (o.andThen next).mapSink f := by
  unfold andThen
  cases hf : o.fault with
  | none => simp only [mapSink, hf, h]
  | some fault => simp only [mapSink, hf]

/-- `f` shows a receiver as one of another kind, which answers in the same way. -/
structure Sink.IsView {σ τ : Type} [Sink σ] [Sink τ] (f : σ → τ) : Prop where
  submit : ∀ s c, Sink.submit (f s) c = ((Sink.submit s c).1, f (Sink.submit s c).2)
  notify : ∀ s n, Sink.notify (f s) n = f (Sink.notify s n)

section View

variable {σ τ : Type} [Sink σ] [Sink τ] {f : σ → τ} (hf : Sink.IsView f)
include hf

namespace Registers

theorem sendPolygon_view (o : Outline) (r : Registers) (s : σ) :
    r.sendPolygon o (f s) = (r.sendPolygon o s).mapSink f := by
  simp only [sendPolygon, hf.submit, hf.notify]
  split
  · rfl
  · obtain ⟨_ | _ | _, s'⟩ := Sink.submit s (o.command r.list.attributes) <;>
      simp only [Outcome.mapSink, hf.notify]

theorem sendCompleted_view (r : Registers) (s : σ) :
    r.sendCompleted (f s) = (r.sendCompleted s).mapSink f := by
  unfold sendCompleted
  split
  · rfl
  · exact sendPolygon_view hf _ r s

theorem sendVertex_view (r : Registers) (s : σ) :
    r.sendVertex (f s) = (r.sendVertex s).mapSink f := by
  simp only [sendVertex, hf.submit, hf.notify]
  split
  · rfl
  · obtain ⟨_ | _ | _, s'⟩ := Sink.submit s (r.mapMatrices MatrixUnit.refresh).vertexCommand
    · exact sendCompleted_view hf _ s'
    · simp only [Outcome.mapSink, hf.notify]
    · rfl

theorem sendSwap_view (r : Registers) (s : σ) :
    r.sendSwap (f s) = (r.sendSwap s).mapSink f := by
  simp only [sendSwap, hf.submit]
  obtain ⟨_ | _ | _, s'⟩ := Sink.submit s .swapBuffers <;>
    simp only [Outcome.mapSink, hf.notify]

theorem sendViewport_view (view : Viewport) (r : Registers) (s : σ) :
    r.sendViewport view (f s) = (r.sendViewport view s).mapSink f := by
  simp only [sendViewport, hf.submit]
  obtain ⟨_ | _ | _, s'⟩ := Sink.submit s (.viewport view) <;>
    simp only [Outcome.mapSink, hf.notify]

theorem execute_view (r : Registers) (s : σ) (i : Instruction) :
    r.execute (f s) i = (r.execute s i).mapSink f := by
  cases i with
  | place x y z => exact sendVertex_view hf _ s
  | offset dx dy dz => exact sendVertex_view hf _ s
  | swapBuffers => exact sendSwap_view hf r s
  | setViewport view => exact sendViewport_view hf view r s
  | unknown id => rw [execute, execute, hf.notify]; rfl
  | _ => rfl

end Registers

namespace FrontEnd

theorem drain_view (pending : List Entry) (r : Registers) (s : σ) :
    drain pending r (f s) = (drain pending r s).mapSink f := by
  fun_induction drain pending r s with
  | case1 r s => rw [drain]; rfl
  | case2 r s e rest few => rw [drain, if_pos few]; rfl
  | case3 r s e rest enough ws rest' o fault hfault =>
    rw [drain, if_neg enough]
    simp only [Registers.execute_view hf, Outcome.mapSink]
    rw [hfault]
  | case4 r s e rest enough ws rest' o hfault ih =>
    rw [drain, if_neg enough]
    simp only [Registers.execute_view hf, Outcome.mapSink]
    rw [hfault]
    exact ih

theorem write_view (fe : FrontEnd) (s : σ) (id : UInt8) (parameter : UInt32) :
    fe.write (f s) id parameter = (fe.write s id parameter).mapSink f := by
  rw [write, write, drain_view hf]
  rfl

theorem skipPacked_view (bytes : Nat) (fe : FrontEnd) (s : σ) :
    skipPacked bytes fe (f s) = (skipPacked bytes fe s).mapSink f := by
  induction bytes generalizing fe s with
  | zero => rfl
  | succ bytes ih =>
    rw [skipPacked, skipPacked]
    split
    · rw [write_view hf]
      exact Outcome.mapSink_andThen fun fe s => ih fe.dropPacked s
    · rfl

theorem writeParameter_view (fe : FrontEnd) (s : σ) (w : UInt32) :
    fe.writeParameter (f s) w = (fe.writeParameter s w).mapSink f := by
  rw [writeParameter, writeParameter, write_view hf]
  refine Outcome.mapSink_andThen fun fe s => ?_
  split <;> rfl

theorem writePacked_view (fe : FrontEnd) (s : σ) (w : UInt32) :
    fe.writePacked (f s) w = (fe.writePacked s w).mapSink f := by
  have first : (if fe.packed = 0 then ⟨{ fe with packed := w }, f s, none⟩
      else fe.writeParameter (f s) w) =
      Outcome.mapSink f (if fe.packed = 0 then ⟨{ fe with packed := w }, s, none⟩
        else fe.writeParameter s w) := by
    split
    · rfl
    · exact writeParameter_view hf fe s w
  rw [writePacked, writePacked, first]
  exact Outcome.mapSink_andThen fun fe s => skipPacked_view hf 4 fe s

/-- A call does the same with a receiver as with a view of it. -/
theorem call_view (fe : FrontEnd) (s : σ) (c : Call) :
    fe.call (f s) c = (fe.call s c).mapSink f := by
  cases c with
  | write id parameter => exact write_view hf fe s id parameter
  | writePacked w => exact writePacked_view hf fe s w
  | writeStatus w => rfl
  | readClip => rfl

end FrontEnd

end View

/-! ### What calls keep -/

namespace FrontEnd

variable {σ : Type} [Sink σ] {Φ : Option Fault → Registers → σ → Prop}

/-- `Φ` is kept by every instruction, which may end in a fault, and it depends neither
    on the clip matrix nor on what the status word takes back. -/
structure Keeps (Φ : Option Fault → Registers → σ → Prop) : Prop where
  execute : ∀ r s i, Φ none r s →
    Φ (r.execute s i).fault (r.execute s i).state (r.execute s i).sink
  refresh : ∀ r s, Φ none r s → Φ none (r.mapMatrices .refresh) s
  acknowledge : ∀ r s, Φ none r s → Φ none (r.mapMatrices .acknowledge) s

/-- The outcome of a call satisfies `Φ`. -/
def Meets (Φ : Option Fault → Registers → σ → Prop) (o : Outcome FrontEnd σ) : Prop :=
  Φ o.fault o.state.registers o.sink

omit [Sink σ] in
theorem Meets.andThen {o : Outcome FrontEnd σ} {next : FrontEnd → σ → Outcome FrontEnd σ}
    (ho : Meets Φ o) (h : ∀ fe s, Φ none fe.registers s → Meets Φ (next fe s)) :
    Meets Φ (o.andThen next) := by
  rw [Outcome.andThen]
  split
  · exact ho
  · rename_i hfault
    unfold Meets at ho
    rw [hfault] at ho
    exact h _ _ ho

namespace Keeps

variable (hk : Keeps Φ)
include hk

theorem drain (pending : List Entry) (r : Registers) (s : σ) (h : Φ none r s) :
    Meets Φ (drain pending r s) := by
  -- Each turn takes one instruction; the fault of the last one, if any, ends it.
  fun_induction FrontEnd.drain pending r s with
  | case1 r s => exact h
  | case2 r s e rest few => exact h
  | case3 r s e rest enough ws rest' o fault hfault =>
    have := hk.execute r s (Instruction.decode e.id ws) h
    rw [hfault] at this
    exact this
  | case4 r s e rest enough ws rest' o hfault ih =>
    have := hk.execute r s (Instruction.decode e.id ws) h
    rw [hfault] at this
    exact ih this

theorem write (fe : FrontEnd) (s : σ) (id : UInt8) (parameter : UInt32)
    (h : Φ none fe.registers s) : Meets Φ (fe.write s id parameter) :=
  hk.drain _ _ _ h

theorem skipPacked (bytes : Nat) (fe : FrontEnd) (s : σ) (h : Φ none fe.registers s) :
    Meets Φ (FrontEnd.skipPacked bytes fe s) := by
  induction bytes generalizing fe s with
  | zero => exact h
  | succ bytes ih =>
    rw [FrontEnd.skipPacked]
    split
    · exact (hk.write fe s _ _ h).andThen fun fe s h => ih fe.dropPacked s h
    · exact h

theorem writeParameter (fe : FrontEnd) (s : σ) (w : UInt32) (h : Φ none fe.registers s) :
    Meets Φ (fe.writeParameter s w) := by
  refine (hk.write fe s _ _ h).andThen fun fe s h => ?_
  split <;> exact h

theorem writePacked (fe : FrontEnd) (s : σ) (w : UInt32) (h : Φ none fe.registers s) :
    Meets Φ (fe.writePacked s w) := by
  rw [FrontEnd.writePacked]
  refine Meets.andThen ?_ fun fe s h => hk.skipPacked 4 fe s h
  split
  · exact h
  · exact hk.writeParameter fe s w h

/-- What is kept by every instruction is kept by every call. -/
theorem call (fe : FrontEnd) (s : σ) (c : Call) (h : Φ none fe.registers s) :
    Meets Φ (fe.call s c) := by
  cases c with
  | write id parameter => exact hk.write fe s id parameter h
  | writePacked w => exact hk.writePacked fe s w h
  | writeStatus w =>
    change Φ none (fe.writeStatus w).registers s
    rw [writeStatus]
    split
    · exact h
    · exact hk.acknowledge _ _ h
  | readClip => exact hk.refresh _ _ h

end Keeps

end FrontEnd

/-! ### What receivers keep -/

section Receiver

variable {σ : Type} [Sink σ] {P : σ → Prop}
  (submit : ∀ s c, P s → P (Sink.submit s c).2) (notify : ∀ s n, P s → P (Sink.notify s n))
include submit notify

namespace Registers

theorem sendPolygon_keep (o : Outline) (r : Registers) {s : σ} (h : P s) :
    P (r.sendPolygon o s).sink := by
  unfold sendPolygon
  split
  · exact notify s _ h
  · have := submit s (o.command r.list.attributes) h
    rcases hs : Sink.submit s (o.command r.list.attributes) with ⟨_ | _ | _, s'⟩ <;>
      rw [hs] at this
    · exact this
    · exact notify s' _ this
    · exact this

theorem sendVertex_keep (r : Registers) {s : σ} (h : P s) : P (r.sendVertex s).sink := by
  unfold sendVertex
  split
  · exact notify s _ h
  · have := submit s (r.mapMatrices .refresh).vertexCommand h
    rcases hs : Sink.submit s (r.mapMatrices .refresh).vertexCommand with ⟨_ | _ | _, s'⟩ <;>
      rw [hs] at this <;> simp only [hs]
    · unfold sendCompleted
      split
      · exact this
      · exact sendPolygon_keep submit notify _ _ this
    · exact notify s' _ this
    · exact this

theorem execute_keep (r : Registers) {s : σ} (h : P s) (i : Instruction) :
    P (r.execute s i).sink := by
  cases i with
  | place x y z => exact sendVertex_keep submit notify _ h
  | offset dx dy dz => exact sendVertex_keep submit notify _ h
  | swapBuffers =>
    have := submit s .swapBuffers h
    simp only [execute, sendSwap]
    rcases hs : Sink.submit s .swapBuffers with ⟨_ | _ | _, s'⟩ <;> rw [hs] at this
    · exact this
    · exact notify s' _ this
    · exact this
  | setViewport view =>
    have := submit s (.viewport view) h
    simp only [execute, sendViewport]
    rcases hs : Sink.submit s (.viewport view) with ⟨_ | _ | _, s'⟩ <;> rw [hs] at this
    · exact this
    · exact notify s' _ this
    · exact this
  | unknown id => exact notify s _ h
  | _ => exact h

end Registers

/-- What a receiver keeps with every command and every report, it keeps with every
    call. -/
theorem FrontEnd.keeps_of_submit : FrontEnd.Keeps fun _ _ s => P s where
  execute r _ i h := Registers.execute_keep submit notify r h i
  refresh _ _ h := h
  acknowledge _ _ h := h

end Receiver

end GeometryEngine
