import GeometryEngine.Proofs.InPlace
import GeometryEngine.Proofs.Shown

/-!
# Faults

Which commands raise a fault, and what a fault leaves behind.

* `Engine.Raises`: what has to be wrong with a command for each fault. That the corners of a
  triangle cannot be put in order is not among it.
* `Session.run_raises`: a command raises just these faults, in every state that commands lead
  to, and nothing is left half-done, as the vertices of the frame were placed by projection
  (`Engine.outcome_of_placed`). An engine that has halted keeps the fault that it has halted
  with.
-/

namespace GeometryEngine

namespace Engine

/-! ### What is wrong with a command -/

/-- A command raises a fault. -/
inductive Raises (e : Engine) : Command → Fault → Prop
  /-- The frame has as many vertices as it has room for. -/
  | vertex {x y z w : Fixed} (full : e.frames.next.vertices.size = Slot.capacity) :
      Raises e (.vertex x y z w) (.vertexOverflow (Slot.capacity + 1) e.frames.counter)
  /-- A corner is not a vertex of the frame, whichever other corners lie outside the view
      volume; the first such corner is reported. -/
  | corner {v0 v1 v2 v3 i : Int32} {attributes : UInt32} {before after : List Int32}
      (split : corners v0 v1 v2 v3 attributes = before ++ i :: after)
      (resolved : ∀ j ∈ before, e.frames.next.resolves j = true)
      (dangling : e.frames.next.resolves i = false) :
      Raises e (.polygon v0 v1 v2 v3 attributes)
        (.polygonIndex before.length i e.frames.next.vertices.size)
  /-- All corners are vertices inside the view volume, but there is no room for the
      triangles. -/
  | room {v0 v1 v2 v3 : Int32} {attributes : UInt32} {total : Nat}
      (resolved : ∀ i ∈ corners v0 v1 v2 v3 attributes, e.frames.next.resolves i = true)
      (inside : ∀ i ∈ corners v0 v1 v2 v3 attributes,
        (e.frames.next.vertex i).isOutside = false)
      (counted : total = e.frames.next.triangles.size +
        if attributes &&& quadBit = 0 then 1 else 2)
      (full : Slot.capacity < total) :
      Raises e (.polygon v0 v1 v2 v3 attributes) (.polygonOverflow total e.frames.counter)

/-- The corner that is reported is the first one that is no vertex. -/
theorem dangling?_eq_some_iff {s : Slot} {cs : List Int32} {i : Int32} {n : Nat} :
    dangling? s cs = some (i, n) ↔
      ∃ before after, cs = before ++ i :: after ∧ (∀ j ∈ before, s.resolves j = true) ∧
        s.resolves i = false ∧ n = before.length := by
  rw [dangling?, List.find?_eq_some_iff_append]
  constructor
  · rintro ⟨dangling, before, after, split, resolved⟩
    have corners := congrArg (List.map Prod.fst) split
    rw [List.zipIdx_map_fst, List.map_append, List.map_cons] at corners
    refine ⟨before.map Prod.fst, after.map Prod.fst, corners, fun j hj => ?_, ?_, ?_⟩
    · obtain ⟨p, hp, rfl⟩ := List.mem_map.1 hj
      simpa using resolved p hp
    · simpa using dangling
    · -- A position is the number of the corners before it.
      have position : cs.zipIdx[before.length]? = some (i, n) := by simp [split]
      obtain ⟨j, -, same⟩ := Option.map_eq_some_iff.1 (List.getElem?_zipIdx ▸ position)
      simpa using (congrArg Prod.snd same).symm
  · rintro ⟨before, after, rfl, resolved, dangling, rfl⟩
    refine ⟨by simpa using dangling, before.zipIdx, after.zipIdx (before.length + 1), ?_, ?_⟩
    · rw [List.zipIdx_append, List.zipIdx_cons, Nat.zero_add]
    · intro p hp
      simpa using resolved p.1 (List.fst_mem_of_mem_zipIdx hp)

theorem anyOutside_eq_false_iff {s : Slot} {cs : List Int32} :
    anyOutside s cs = false ↔ ∀ i ∈ cs, (s.vertex i).isOutside = false := by
  simp only [anyOutside, List.any_eq_false, Bool.not_eq_true]

/-- A command raises just the faults that it should, as long as the frame that is built keeps
    within its room and was placed by projection. -/
theorem process_eq_error_iff {e : Engine} (fits : e.frames.next.Fits)
    (placed : e.frames.next.Placed) (c : Command) (f : Fault) :
    e.process c = .error f ↔ e.Raises c f := by
  constructor
  · intro h
    cases c with
    | viewport view => cases h
    | vertex x y z w =>
      rw [process] at h
      split at h <;> rename_i room <;> cases h
      have full : e.frames.next.vertices.size = Slot.capacity :=
        Nat.le_antisymm fits.vertices (Nat.not_lt.1 room)
      rw [full]
      exact .vertex full
    | polygon v0 v1 v2 v3 attributes =>
      rw [process] at h
      split at h <;> rename_i fault <;> cases h
      cases found : dangling? e.frames.next (corners v0 v1 v2 v3 attributes) with
      | some d =>
        rw [polygonFault?_of_dangling found] at fault
        cases fault
        obtain ⟨before, after, split, resolved, dangling, number⟩ := dangling?_eq_some_iff.1 found
        rw [number]
        exact .corner split resolved dangling
      | none =>
        obtain ⟨total, counted⟩ : ∃ total, total = e.frames.next.triangles.size +
            if attributes &&& quadBit = 0 then 1 else 2 := ⟨_, rfl⟩
        rw [polygonFault?_of_resolved found counted] at fault
        split at fault <;> rename_i full <;> cases fault
        exact .room ((dangling?_eq_none_iff _ _).1 found) (anyOutside_eq_false_iff.1 full.1)
          counted full.2
    | swapBuffers =>
      rw [process_swapBuffers placed] at h
      cases h
  · intro h
    cases h with
    | vertex full =>
      have none : ¬e.frames.next.vertices.size < Slot.capacity := by omega
      simp only [process, if_neg none]
      rw [full]
    | corner split resolved dangling =>
      have found := dangling?_eq_some_iff.2 ⟨_, _, split, resolved, dangling, rfl⟩
      simp only [process, polygonFault?_of_dangling found]
    | room resolved inside counted full =>
      have found := (dangling?_eq_none_iff _ _).2 resolved
      have none := anyOutside_eq_false_iff.2 inside
      simp only [process, polygonFault?_of_resolved found counted, if_pos (And.intro none full)]

/-! ### Halted engines -/

/-- An engine that has halted keeps the fault that it has halted with. -/
theorem fault_submit {e : Engine} {f : Fault} (h : e.fault = some f) (c : Command) :
    (e.submit c).2.fault = some f := by
  rw [submit_of_isHalted (Option.isSome_of_eq_some h)]
  exact h

end Engine

namespace Session

variable {s : Session} {f : Fault}

theorem fault_step (h : s.engine.fault = some f) (a : Action) :
    (s.step a).engine.fault = some f := by
  cases a with
  | call c =>
    have keeps : FrontEnd.Keeps fun _ _ (e : Engine) => e.fault = some f :=
      FrontEnd.keeps_of_submit (fun _ c h => Engine.fault_submit h c) (fun _ _ h => h)
    exact keeps.call s.frontEnd s.engine c h
  | submit c => exact Engine.fault_submit h c
  | process c =>
    rw [step]
    split
    · rename_i e he
      exact (Engine.fault_of_process he).trans h
    · exact (Engine.fault_abandon _ c).trans h
  | beginPass => exact h
  | draw config c y canvas => exact h
  | save => exact h
  | load bs => exact (s.engine.fault_load bs).trans h

/-- Whatever is done with an engine that has halted, it stays so. -/
theorem fault_run (h : s.engine.fault = some f) (actions : List Action) :
    (s.run actions).engine.fault = some f :=
  run_induction (P := fun s => s.engine.fault = some f) (fun _ a _ h => fault_step h a) h

/-- In every state that a new engine is brought to without loading a state, a command raises
    just the faults that it should, and then leaves all as it was, also when it is carried out
    in place.

    An engine that was healthy halts when it is submitted, with its frames and its viewport
    as they were, and turns away all that is submitted later. -/
theorem run_raises {actions : List Action} (others : ∀ a ∈ actions, ∀ bs, a ≠ .load bs)
    (c : Command) :
    let s := ({} : Session).run actions
    let e := s.engine
    (∀ f, e.process c = .error f ↔ e.Raises c f) ∧
      (Engine.carryOut c).run e = e.outright (e.process c) ∧
      e.submitInPlace c = e.submit c ∧
      ∀ f, e.Raises c f → e.fault = none →
        e.submit c = (.raised f, { e with fault := some f }) ∧
        ∀ later d,
          let e' := ((s.step (.submit c)).run later).engine
          e'.fault = some f ∧ e'.submit d = (.refused, e') := by
  intro s e
  have fits : e.frames.next.Fits := (run_fits actions).next
  have placed : e.frames.next.Placed := (shows_run .fresh others).next.placed
  have raises := Engine.process_eq_error_iff fits placed c
  have inPlace : (Engine.carryOut c).run e = e.outright (e.process c) :=
    (e.carryOut_eq c).trans (Engine.outcome_of_placed placed c)
  refine ⟨raises, inPlace, e.submitInPlace_eq c, fun f hf healthy => ?_⟩
  have faulty := (raises f).2 hf
  have submitted := Engine.submit_of_fault healthy faulty
  rw [Engine.abandon_of_placed placed faulty] at submitted
  refine ⟨submitted, fun later d => ?_⟩
  have halted : (s.step (.submit c)).engine.fault = some f := by
    change (e.submit c).2.fault = some f
    rw [submitted]
    rfl
  have kept := fault_run halted later
  exact ⟨kept, Engine.submit_of_isHalted (Option.isSome_of_eq_some kept)⟩

/-- A polygon whose second corner lies outside the view volume, and whose third is no vertex:
    it raises a fault, which leaves both vertices as they were. -/
theorem run_raises_dangling :
    let actions : List Action := [.submit (.vertex 0 0 0 1), .submit (.vertex 2 0 0 1)]
    let polygon : Command := .polygon 0 1 2 0 0
    let f : Fault := .polygonIndex 2 2 2
    let s := ({} : Session).run actions
    (∀ a ∈ actions, ∀ bs, a ≠ .load bs) ∧ s.engine.fault = none ∧ s.engine.Raises polygon f ∧
      (Engine.carryOut polygon).run s.engine = .error f s.engine ∧
      s.engine.submitInPlace polygon = (.raised f, { s.engine with fault := some f }) ∧
      let e' := ((s.step (.submit polygon)).run [.process (.vertex 0 0 0 1), .save]).engine
      e'.frames.next.vertices.size = 3 ∧ e'.submit .swapBuffers = (.refused, e') := by
  intro actions polygon f s
  have others : ∀ a ∈ actions, ∀ bs, a ≠ .load bs := by simp [actions]
  obtain ⟨raises, inPlace, submitted, halts⟩ := run_raises others polygon
  have faulty : s.engine.process polygon = .error f := by decide +kernel
  obtain ⟨answer, later⟩ := halts f ((raises f).1 faulty) rfl
  refine ⟨others, rfl, (raises f).1 faulty, ?_, submitted.trans answer, ?_, ?_⟩
  · rw [inPlace, faulty]
    rfl
  · decide +kernel
  · exact (later _ _).2

end Session

end GeometryEngine
