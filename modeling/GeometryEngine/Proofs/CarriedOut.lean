import GeometryEngine.Calls
import GeometryEngine.Proofs.Instructions

/-!
# What a call carries out

Whatever is written to a front-end, and in whatever state it is: a call carries out instructions
one after another, up to a fault. Which instructions these are is told by the words that have
arrived, and depends neither on the registers nor on whoever receives the commands
(`FrontEnd.carriedOut`).

* `FrontEnd.complete`: the instructions at the front of the words that wait which have all
  their parameters, and the words after them.
* `FrontEnd.Carries`: an activity of the front-end has carried out instructions; what waits after
  it is told as long as there was no fault.
* `FrontEnd.carries_call`: every call does so.
* `FrontEnd.moments`: the moments at which instructions are carried out, each with the registers
  that the instruction meets.
-/

namespace GeometryEngine

/-! ### Instructions of a call -/

namespace FrontEnd

/-- The instructions at the front that have all their parameters, and the words after them. -/
def complete (pending : List Entry) : List Instruction × List Entry :=
  match pending with
  | [] => ([], [])
  | e :: rest =>
    if (e :: rest).length < Instruction.parameters e.id then ([], e :: rest)
    else
      let ws := ((e :: rest).take (entries e.id)).map Entry.parameter
      let others := complete (rest.drop (entries e.id - 1))
      (.decode e.id ws :: others.1, others.2)
termination_by pending.length
decreasing_by simp only [List.length_drop, List.length_cons]; omega

/-- The packed instructions that have no parameters, at most as many as there are bytes, and
    what is complete with them. -/
def skipped : Nat → List Entry → UInt32 → List Instruction
  | 0, _, _ => []
  | bytes + 1, pending, packed =>
    if packed ≠ 0 ∧ Instruction.parameters packed.toUInt8 = 0 then
      let done := complete (pending ++ [⟨packed.toUInt8, 0⟩])
      done.1 ++ skipped bytes done.2 (packed >>> 8)
    else []

/-- The packed instructions after a parameter. -/
def packedAfter (fe : FrontEnd) : UInt32 :=
  if (fe.packedParameters + 1).toNat = Instruction.parameters fe.nextPacked then fe.packed >>> 8
  else fe.packed

/-- The instructions that a call carries out unless a fault cuts it short. -/
def carriedOut (fe : FrontEnd) : Call → List Instruction
  | .write id w => (complete (fe.pending ++ [⟨id, w⟩])).1
  | .writePacked w =>
    if fe.packed = 0 then skipped 4 fe.pending w
    else
      let done := complete (fe.pending ++ [⟨fe.nextPacked, w⟩])
      done.1 ++ skipped 4 done.2 fe.packedAfter
  | .writeStatus _ | .readClip => []

end FrontEnd

/-- What a call does to the registers after all instructions. -/
def FrontEnd.Call.settle : FrontEnd.Call → Registers → Registers
  | .writeStatus w, r => if w &&& 0x8000 = 0 then r else r.mapMatrices .acknowledge
  | .readClip, r => r.mapMatrices .refresh
  | .write .., r | .writePacked _, r => r

section

variable {σ : Type} [Sink σ]

namespace FrontEnd

/-- What was written has carried out instructions with this outcome, and unless it was cut short
    the front-end satisfies `P`. -/
structure Carries (P : FrontEnd → Prop) (o : Outcome FrontEnd σ) (q : Outcome Registers σ) :
    Prop where
  registers : o.state.registers = q.state
  sink : o.sink = q.sink
  fault : o.fault = q.fault
  waiting : o.fault = none → P o.state

namespace Carries

omit [Sink σ]

variable {P Q : FrontEnd → Prop} {o : Outcome FrontEnd σ} {q : Outcome Registers σ}
  {next : FrontEnd → σ → Outcome FrontEnd σ} {next' : Registers → σ → Outcome Registers σ}

theorem andThen (ho : Carries P o q)
    (h : ∀ fe s, P fe → Carries Q (next fe s) (next' fe.registers s)) :
    Carries Q (o.andThen next) (q.andThen next') := by
  obtain ⟨fe, s, fault⟩ := o
  obtain ⟨r, s', fault'⟩ := q
  obtain ⟨rfl, rfl, rfl, waiting⟩ := ho
  cases fault with
  | some f => exact ⟨rfl, rfl, rfl, nofun⟩
  | none => exact h fe s (waiting rfl)

end Carries

theorem carries_drain (pending : List Entry) (r : Registers) (s : σ) :
    Carries (fun fe => fe.pending = (complete pending).2) (drain pending r s)
      (r.executeAll s (complete pending).1) := by
  fun_induction drain pending r s with
  | case1 r s =>
    rw [complete]
    exact ⟨rfl, rfl, rfl, fun _ => rfl⟩
  | case2 r s e rest few =>
    rw [complete, if_pos few]
    exact ⟨rfl, rfl, rfl, fun _ => rfl⟩
  | case3 r s e rest enough ws rest' o f hfault =>
    rw [complete, if_neg enough, Registers.executeAll, Outcome.andThen]
    simp only [o, ws] at hfault
    simp only [hfault]
    exact ⟨rfl, rfl, hfault.symm, fun sound => absurd sound (Option.some_ne_none f)⟩
  | case4 r s e rest enough ws rest' o hfault ih =>
    rw [complete, if_neg enough, Registers.executeAll, Outcome.andThen]
    simp only [o, ws] at hfault
    simp only [hfault]
    exact ih

theorem carries_write (fe : FrontEnd) (s : σ) (id : UInt8) (w : UInt32) :
    let done := complete (fe.pending ++ [⟨id, w⟩])
    Carries (fun fe' => fe'.pending = done.2 ∧ fe'.packed = fe.packed ∧
        fe'.packedParameters = fe.packedParameters)
      (fe.write s id w) (fe.registers.executeAll s done.1) := by
  intro done
  have drained := carries_drain (fe.pending ++ [⟨id, w⟩]) fe.registers s
  exact ⟨drained.registers, drained.sink, drained.fault,
    fun sound => ⟨drained.waiting sound, rfl, rfl⟩⟩

theorem carries_skipPacked (bytes : Nat) (fe : FrontEnd) (s : σ) :
    Carries (fun _ => True) (skipPacked bytes fe s)
      (fe.registers.executeAll s (skipped bytes fe.pending fe.packed)) := by
  induction bytes generalizing fe s with
  | zero => exact ⟨rfl, rfl, rfl, fun _ => trivial⟩
  | succ bytes ih =>
    rw [skipPacked, skipped, nextPacked]
    by_cases more : fe.packed ≠ 0 ∧ Instruction.parameters fe.packed.toUInt8 = 0
    · rw [if_pos more, if_pos more, Registers.executeAll_append]
      refine (carries_write fe s _ 0).andThen fun fe' s written => ?_
      obtain ⟨pending, packed, -⟩ := written
      rw [← pending, ← packed]
      exact ih fe'.dropPacked s
    · rw [if_neg more, if_neg more]
      exact ⟨rfl, rfl, rfl, fun _ => trivial⟩

theorem carries_writeParameter (fe : FrontEnd) (s : σ) (w : UInt32) :
    let done := complete (fe.pending ++ [⟨fe.nextPacked, w⟩])
    Carries (fun fe' => fe'.pending = done.2 ∧ fe'.packed = fe.packedAfter)
      (fe.writeParameter s w) (fe.registers.executeAll s done.1) := by
  intro done
  rw [writeParameter, ← Outcome.andThen_done (fe.registers.executeAll s done.1)]
  refine (carries_write fe s fe.nextPacked w).andThen fun fe' s written => ?_
  obtain ⟨pending, packed, count⟩ := written
  have next : fe'.nextPacked = fe.nextPacked := by rw [nextPacked, packed, nextPacked]
  rw [packedAfter, count, next]
  split
  · have dropped : fe'.dropPacked.packed = fe.packed >>> 8 := by rw [dropPacked, packed]
    exact ⟨rfl, rfl, rfl, fun _ => ⟨pending, dropped⟩⟩
  · exact ⟨rfl, rfl, rfl, fun _ => ⟨pending, packed⟩⟩

theorem carries_writePacked (fe : FrontEnd) (s : σ) (w : UInt32) :
    Carries (fun _ => True) (fe.writePacked s w)
      (fe.registers.executeAll s (fe.carriedOut (.writePacked w))) := by
  rw [writePacked, carriedOut]
  split
  · exact carries_skipPacked 4 { fe with packed := w } s
  · rw [Registers.executeAll_append]
    refine (carries_writeParameter fe s w).andThen fun fe' s written => ?_
    obtain ⟨pending, packed⟩ := written
    rw [← pending, ← packed]
    exact carries_skipPacked 4 fe' s

/-- A call carries out instructions. Reading the clip matrix and writing the status word carry
    out none, and do something to the registers themselves. -/
theorem carries_call (fe : FrontEnd) (s : σ) (c : Call) :
    let q := fe.registers.executeAll s (fe.carriedOut c)
    (fe.call s c).state.registers = c.settle q.state ∧ (fe.call s c).sink = q.sink ∧
      (fe.call s c).fault = q.fault := by
  cases c with
  | write id w =>
    have carries := carries_write fe s id w
    exact ⟨carries.registers, carries.sink, carries.fault⟩
  | writePacked w =>
    have carries := carries_writePacked fe s w
    exact ⟨carries.registers, carries.sink, carries.fault⟩
  | writeStatus w =>
    refine ⟨?_, rfl, rfl⟩
    simp only [call, writeStatus, Call.settle]
    split <;> rfl
  | readClip => exact ⟨rfl, rfl, rfl⟩

end FrontEnd

/-! ### Moments -/

/-- An instruction that is carried out. -/
structure Moment where
  /-- The registers before it. -/
  registers : Registers
  /-- The instruction. -/
  instruction : Instruction

/-- The moments at which instructions are carried out one after another, up to a fault. -/
def Registers.moments (r : Registers) (s : σ) : List Instruction → List Moment
  | [] => []
  | i :: is =>
    let o := r.execute s i
    ⟨r, i⟩ :: if o.fault.isNone then o.state.moments o.sink is else []

theorem Registers.moments_singleton (r : Registers) (s : σ) (i : Instruction) :
    r.moments s [i] = [⟨r, i⟩] := by
  simp only [moments, ite_self]

/-- What comes later meets what was left before it. -/
theorem Registers.moments_append {r : Registers} {s : σ} {is : List Instruction}
    (sound : (r.executeAll s is).fault = none) (js : List Instruction) :
    r.moments s (is ++ js) = r.moments s is ++
      (r.executeAll s is).state.moments (r.executeAll s is).sink js := by
  induction is generalizing r s with
  | nil => rfl
  | cons i is ih =>
    obtain ⟨first, rest⟩ := Outcome.eq_of_andThen sound
    rw [executeAll, rest] at sound ⊢
    simp only [List.cons_append, moments, first, Option.isNone_none, ↓reduceIte, ih sound]

/-- The moments at which instructions are carried out by calls. -/
def FrontEnd.moments (fe : FrontEnd) (s : σ) : List FrontEnd.Call → List Moment
  | [] => []
  | c :: cs =>
    let o := fe.call s c
    fe.registers.moments s (fe.carriedOut c) ++ o.state.moments o.sink cs

end

end GeometryEngine
