import GeometryEngine.Calls

/-!
# Front-ends that do the same

Two front-ends whose registers differ in something that nobody can tell do the same with every
call: they send the same, and meet the same faults. What their registers may differ in is said
by a relation (`FrontEnd.Alike`), and that nobody can tell by its being respected by every
instruction (`FrontEnd.Respects`).

* `FrontEnd.Respects.call`: then every call respects it, however its words arrive.
-/

namespace GeometryEngine

/-- Two outcomes with states that are related, and no other difference. -/
structure Outcome.Agree {α σ : Type} (R : α → α → Prop) (o o' : Outcome α σ) : Prop where
  state : R o.state o'.state
  sink : o.sink = o'.sink
  fault : o.fault = o'.fault

/-- Activities that go on alike end alike. -/
theorem Outcome.Agree.andThen {α σ : Type} {R : α → α → Prop} {o o' : Outcome α σ}
    {next next' : α → σ → Outcome α σ} (h : o.Agree R o')
    (hnext : ∀ a a' s, R a a' → (next a s).Agree R (next' a' s)) :
    (o.andThen next).Agree R (o'.andThen next') := by
  obtain ⟨a, s, fault⟩ := o
  obtain ⟨a', s', fault'⟩ := o'
  obtain ⟨related, rfl, rfl⟩ := h
  cases fault with
  | some f => exact ⟨related, rfl, rfl⟩
  | none => exact hnext a a' s related

namespace FrontEnd

variable {σ : Type} [Sink σ] {R : Registers → Registers → Prop}

/-- Two front-ends with registers that are related, and no other difference. -/
structure Alike (R : Registers → Registers → Prop) (fe fe' : FrontEnd) : Prop where
  registers : R fe.registers fe'.registers
  pending : fe.pending = fe'.pending
  packed : fe.packed = fe'.packed
  packedParameters : fe.packedParameters = fe'.packedParameters

theorem Alike.dropPacked {fe fe' : FrontEnd} (h : fe.Alike R fe') :
    fe.dropPacked.Alike R fe'.dropPacked where
  registers := h.registers
  pending := h.pending
  packed := by rw [FrontEnd.dropPacked, h.packed]; rfl
  packedParameters := h.packedParameters

/-- Every instruction does the same with registers that are related, and they stay so. They also
    stay so when the clip matrix is read and when the status word is written. -/
structure Respects (σ : Type) [Sink σ] (R : Registers → Registers → Prop) : Prop where
  execute : ∀ r r' (s : σ) i, R r r' → (r.execute s i).Agree R (r'.execute s i)
  refresh : ∀ r r', R r r' → R (r.mapMatrices .refresh) (r'.mapMatrices .refresh)
  acknowledge : ∀ r r', R r r' → R (r.mapMatrices .acknowledge) (r'.mapMatrices .acknowledge)

namespace Respects

variable (hR : Respects σ R) {fe fe' : FrontEnd}
include hR

theorem drain (pending : List Entry) (r : Registers) (s : σ) : ∀ r', R r r' →
    (FrontEnd.drain pending r s).Agree (Alike R) (FrontEnd.drain pending r' s) := by
  -- The same words wait in both, so they decode the same instructions.
  fun_induction FrontEnd.drain pending r s with
  | case1 r s =>
    intro r' h
    rw [FrontEnd.drain]
    exact ⟨⟨h, rfl, rfl, rfl⟩, rfl, rfl⟩
  | case2 r s e rest few =>
    intro r' h
    rw [FrontEnd.drain, if_pos few]
    exact ⟨⟨h, rfl, rfl, rfl⟩, rfl, rfl⟩
  | case3 r s e rest enough ws rest' o f hfault =>
    intro r' h
    have done := hR.execute r r' s (.decode e.id ws) h
    have fault' := done.fault ▸ hfault
    rw [FrontEnd.drain, if_neg enough]
    simp only [ws] at fault'
    simp only [fault']
    exact ⟨⟨done.state, rfl, rfl, rfl⟩, done.sink, rfl⟩
  | case4 r s e rest enough ws rest' o hfault ih =>
    intro r' h
    have done := hR.execute r r' s (.decode e.id ws) h
    have fault' := done.fault ▸ hfault
    rw [FrontEnd.drain, if_neg enough]
    simp only [ws] at fault'
    simp only [fault']
    have same : o.sink = (r'.execute s (.decode e.id ws)).sink := done.sink
    rw [same] at ih ⊢
    exact ih _ done.state

theorem write (h : fe.Alike R fe') (s : σ) (id : UInt8) (w : UInt32) :
    (fe.write s id w).Agree (Alike R) (fe'.write s id w) := by
  have drained := hR.drain (fe.pending ++ [⟨id, w⟩]) _ s _ h.registers
  rw [FrontEnd.write, FrontEnd.write, ← h.pending, ← h.packed, ← h.packedParameters]
  exact ⟨⟨drained.state.registers, drained.state.pending, rfl, rfl⟩, drained.sink, drained.fault⟩

theorem skipPacked (bytes : Nat) (h : fe.Alike R fe') (s : σ) :
    (FrontEnd.skipPacked bytes fe s).Agree (Alike R) (FrontEnd.skipPacked bytes fe' s) := by
  induction bytes generalizing fe fe' s with
  | zero => exact ⟨h, rfl, rfl⟩
  | succ bytes ih =>
    rw [FrontEnd.skipPacked, FrontEnd.skipPacked, nextPacked, nextPacked, ← h.packed]
    split
    · exact (hR.write h s _ 0).andThen fun fe fe' s h => ih h.dropPacked s
    · exact ⟨h, rfl, rfl⟩

theorem writeParameter (h : fe.Alike R fe') (s : σ) (w : UInt32) :
    (fe.writeParameter s w).Agree (Alike R) (fe'.writeParameter s w) := by
  rw [FrontEnd.writeParameter, FrontEnd.writeParameter, nextPacked, nextPacked, ← h.packed]
  refine (hR.write h s _ w).andThen fun fe fe' s h => ?_
  rw [nextPacked, nextPacked, ← h.packed, ← h.packedParameters]
  split
  · exact ⟨{ h.dropPacked with packedParameters := rfl }, rfl, rfl⟩
  · exact ⟨{ h with packed := rfl, packedParameters := rfl }, rfl, rfl⟩

theorem writePacked (h : fe.Alike R fe') (s : σ) (w : UInt32) :
    (fe.writePacked s w).Agree (Alike R) (fe'.writePacked s w) := by
  rw [FrontEnd.writePacked, FrontEnd.writePacked, ← h.packed]
  refine Outcome.Agree.andThen ?_ fun fe fe' s h => hR.skipPacked 4 h s
  split
  · exact ⟨⟨h.registers, h.pending, rfl, h.packedParameters⟩, rfl, rfl⟩
  · exact hR.writeParameter h s w

/-- A call does the same with front-ends that are alike. -/
theorem call (h : fe.Alike R fe') (s : σ) (c : Call) :
    (fe.call s c).Agree (Alike R) (fe'.call s c) := by
  cases c with
  | write id w => exact hR.write h s id w
  | writePacked w => exact hR.writePacked h s w
  | writeStatus w =>
    rw [FrontEnd.call, FrontEnd.call, writeStatus, writeStatus]
    split
    · exact ⟨h, rfl, rfl⟩
    · have registers := hR.acknowledge _ _ h.registers
      exact ⟨⟨registers, h.pending, h.packed, h.packedParameters⟩, rfl, rfl⟩
  | readClip =>
    have registers := hR.refresh _ _ h.registers
    exact ⟨⟨registers, h.pending, h.packed, h.packedParameters⟩, rfl, rfl⟩

end Respects

end FrontEnd

end GeometryEngine
