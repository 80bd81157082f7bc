import GeometryEngine.InPlace
import GeometryEngine.Proofs.Commands

/-!
# Commands carried out in place come to the same

A command that is carried out step by step leaves behind what it should, in every state of
the engine (`Engine.carryOut_eq`): the next state, or what `Engine.abandon` says is left by a
fault. So it makes no difference for what is submitted (`Engine.submitInPlace_eq`).

* For vertices and polygons the order of the steps is the reason: nothing is projected or
  stored before all has been looked at.
* A swap sets up one triangle after another. As far as it has come, the triangles are ready,
  and the others are as they were (`Engine.run_forM_setUpInPlace`).

Where the frame was placed by projection, no set-up fails, and so no command leaves anything
half-done (`Engine.outcome_of_placed`).
-/

namespace GeometryEngine

namespace Engine

variable {α : Type}

/-! ### Single steps -/

@[simp] theorem run_nextFrame (e : Engine) : nextFrame.run e = .ok e.frames.next e := rfl

@[simp] theorem run_changeNext (g : Slot → Slot) (e : Engine) :
    (changeNext g).run e = .ok () { e with frames := e.frames.mapNext g } := rfl

/-- Changes of the next frame, one after another, are one change of it. -/
theorem run_forM_changeNext (g : α → Slot → Slot) (as : List α) (e : Engine) :
    (forM as fun a => changeNext (g a)).run e =
      .ok () { e with frames := e.frames.mapNext fun s => as.foldl (fun s a => g a s) s } := by
  induction as generalizing e with
  | nil =>
    rw [List.forM_nil, EStateM.run_pure]
    exact congrArg (fun frames => EStateM.Result.ok () { e with frames }) e.frames.mapNext_id.symm
  | cons a as ih =>
    simp only [List.forM_cons, EStateM.run_bind, run_changeNext, ih, Frames.mapNext_mapNext,
      List.foldl_cons]

/-! ### Vertices and polygons -/

/-- A vertex is added after the room for it was looked at. -/
theorem run_carryOut_vertex (e : Engine) (x y z w : Fixed) :
    (carryOut (.vertex x y z w)).run e = e.outcome (.vertex x y z w) := by
  simp only [carryOut, EStateM.run_bind, EStateM.run_get, outcome, process]
  by_cases full : Slot.capacity ≤ e.frames.next.vertices.size
  · simp only [if_pos full, if_neg (Nat.not_lt.2 full), EStateM.run_bind, EStateM.run_throw,
      abandon]
  · simp only [if_neg full, if_pos (Nat.not_le.1 full), run_changeNext]

/-- Looking at corners changes nothing. -/
theorem run_inspect (n : Nat) (is : List Int32) (e : Engine) :
    (inspect n is).run e =
      match (is.zipIdx n).find? fun c => !e.frames.next.resolves c.1 with
      | some (i, k) => .error (.polygonIndex k i e.frames.next.vertices.size) e
      | none => .ok (anyOutside e.frames.next is) e := by
  induction is generalizing n with
  | nil => rfl
  | cons i is ih =>
    simp only [inspect, EStateM.run_bind, run_nextFrame, List.zipIdx_cons, List.find?_cons]
    cases e.frames.next.resolves i with
    | false => rfl
    | true =>
      simp only [if_true, EStateM.run_bind, ih, Bool.not_true]
      cases (is.zipIdx (n + 1)).find? fun c => !e.frames.next.resolves c.1 <;> rfl

/-- Nothing of a polygon is projected or stored before its corners and the room for it were
    looked at. -/
theorem run_carryOut_polygon (e : Engine) (v0 v1 v2 v3 : Int32) (attributes : UInt32) :
    (carryOut (.polygon v0 v1 v2 v3 attributes)).run e =
      e.outcome (.polygon v0 v1 v2 v3 attributes) := by
  have looked := run_inspect 0 (corners v0 v1 v2 v3 attributes) e
  rw [← dangling?] at looked
  rw [outcome, process, carryOut, addPolygonInPlace, EStateM.run_bind, looked]
  cases found : dangling? e.frames.next (corners v0 v1 v2 v3 attributes) with
  | some d =>
    rw [polygonFault?_of_dangling found]
    rfl
  | none =>
    obtain ⟨total, counted⟩ : ∃ total, total = e.frames.next.triangles.size +
        if attributes &&& quadBit = 0 then 1 else 2 := ⟨_, rfl⟩
    rw [polygonFault?_of_resolved found counted]
    cases outside : anyOutside e.frames.next (corners v0 v1 v2 v3 attributes) with
    | true =>
      -- A polygon that is left out is a change of the next frame that changes nothing.
      have same : addPolygon e.viewport v0 v1 v2 v3 attributes e.frames.next =
          id e.frames.next := if_pos outside
      simp only [if_true, EStateM.run_pure, Bool.true_eq_false, false_and, if_false,
        Frames.mapNext_congr same, Frames.mapNext_id]
    | false =>
      simp only [Bool.false_eq_true, if_false, EStateM.run_bind, EStateM.run_get, length_corners,
        ← counted, true_and]
      by_cases full : Slot.capacity < total
      · simp only [if_pos full, EStateM.run_bind, EStateM.run_throw, abandon]
      · have added : e.frames.mapNext (addPolygon e.viewport v0 v1 v2 v3 attributes) =
            e.frames.mapNext fun s =>
              (trianglesOf v0 v1 v2 v3 attributes).foldl (fun s t => s.pushTriangle t)
                ((corners v0 v1 v2 v3 attributes).foldl (Slot.project e.viewport) s) :=
          Frames.mapNext_congr (if_neg (Bool.eq_false_iff.1 outside))
        simp only [if_neg full, EStateM.run_bind, run_forM_changeNext, Frames.mapNext_mapNext,
          added]

/-! ### Swaps -/

/-- The engine with another next frame. -/
def building (e : Engine) (s : Slot) : Engine :=
  { e with frames := e.frames.mapNext fun _ => s }

@[simp] theorem next_building (e : Engine) (s : Slot) : (e.building s).frames.next = s :=
  Frames.next_mapNext _ _

theorem building_next (e : Engine) : e.building e.frames.next = e := by
  have same : e.frames.mapNext (fun _ => e.frames.next) = e.frames.mapNext id :=
    Frames.mapNext_congr rfl
  rw [building, same, Frames.mapNext_id]

theorem abandon_swapBuffers (e : Engine) :
    e.abandon .swapBuffers = e.building e.frames.next.halfSetUp := by
  have same : e.frames.mapNext Slot.halfSetUp =
      e.frames.mapNext fun _ => e.frames.next.halfSetUp := Frames.mapNext_congr rfl
  rw [abandon, building, same]

theorem run_changeNext_building (e : Engine) (s : Slot) (g : Slot → Slot) :
    (changeNext g).run (e.building s) = .ok () (e.building (g s)) := by
  simp only [run_changeNext, building, Frames.mapNext_mapNext]

/-- A triangle takes its own place again, ready or at least with its corners in order. -/
theorem run_setUpInPlace (e : Engine) (vs : Array Vertex) (ready ts : List Triangle)
    (t : Triangle) :
    let frame (ts : List Triangle) : Engine := e.building ⟨vs, (ready ++ ts).toArray⟩
    let corner := (Slot.mk vs #[]).corner
    (setUpInPlace ready.length).run (frame (t :: ts)) =
      match t.setUp corner with
      | .ok u => .ok () (frame (u :: ts))
      | .error (y0, y1, y2) =>
        .error (.vertexOrder ready.length y0 y1 y2) (frame (t.inOrder corner :: ts)) := by
  intro frame corner
  have own : (ready ++ t :: ts).toArray.getD ready.length {} = t := by
    simp [Array.getD_eq_getD_getElem?]
  have put (t u : Triangle) :
      (putTriangle ready.length u).run (frame (t :: ts)) = .ok () (frame (u :: ts)) := by
    refine (run_changeNext_building e _ _).trans ?_
    simp [frame]
  have same : (Slot.mk vs (ready ++ t :: ts).toArray).corner = corner := rfl
  rw [setUpInPlace, EStateM.run_bind, run_nextFrame, Triangle.setUp, Triangle.inOrder]
  simp only [frame, next_building, own, same]
  generalize Corner.sort (corner t.v0) (corner t.v1) (corner t.v2) = pqr
  obtain ⟨p, q, r⟩ := pqr
  dsimp only
  rw [EStateM.run_bind, put]
  dsimp only
  split
  · rfl
  · exact put _ _

/-- One triangle after another is set up: those before the turn of `ts` are ready, and the
    others are as they were. -/
theorem run_forM_setUpInPlace (e : Engine) (vs : Array Vertex) (ready ts : List Triangle) :
    let frame (ts : List Triangle) : Engine := e.building ⟨vs, (ready ++ ts).toArray⟩
    let corner := (Slot.mk vs #[]).corner
    (forM (List.range' ready.length ts.length) setUpInPlace).run (frame ts) =
      match Slot.setUpFrom (Triangle.setUp corner) ready.length ts with
      | .ok us => .ok () (frame us)
      | .error (i, y0, y1, y2) => .error (.vertexOrder i y0 y1 y2)
          (frame (Slot.setUpPart (Triangle.setUp corner) (Triangle.inOrder corner) ts)) := by
  intro frame corner
  induction ts generalizing ready with
  | nil => rfl
  | cons t ts ih =>
    have first := run_setUpInPlace e vs ready ts t
    dsimp only at first
    rw [List.length_cons, List.range'_succ, List.forM_cons, EStateM.run_bind, first]
    rw [Slot.setUpFrom, Slot.setUpPart]
    cases set : t.setUp corner with
    | error lines => rfl
    | ok u =>
      -- From here on `u` is one of the triangles that are ready.
      have rest := ih (ready ++ [u])
      simp only [List.length_append, List.length_singleton, List.append_assoc,
        List.singleton_append] at rest
      simp only [frame, rest]
      cases Slot.setUpFrom (Triangle.setUp corner) (ready.length + 1) ts <;> rfl

/-- The first part of a swap makes the next frame ready, or stays half-done. -/
theorem run_prepareInPlace (e : Engine) :
    prepareInPlace.run e =
      match e.prepare with
      | .ok e' => .ok () e'
      | .error f => .error f (e.abandon .swapBuffers) := by
  have all := run_forM_setUpInPlace e e.frames.next.vertices [] e.frames.next.triangles.toList
  simp only [List.nil_append, List.length_nil, Array.length_toList, ← List.range_eq_range'] at all
  rw [Array.toArray_toList, building_next] at all
  rw [prepareInPlace, EStateM.run_bind, run_nextFrame]
  dsimp only
  rw [all, prepare, Slot.setUp]
  have same : (Slot.mk e.frames.next.vertices #[]).corner = e.frames.next.corner := rfl
  rw [same]
  cases Slot.setUpFrom (Triangle.setUp e.frames.next.corner) 0 e.frames.next.triangles.toList with
  | ok ts => rfl
  | error lines =>
    rw [abandon_swapBuffers]
    rfl

theorem run_carryOut_swapBuffers (e : Engine) :
    (carryOut .swapBuffers).run e = e.outcome .swapBuffers := by
  rw [carryOut, EStateM.run_bind, run_prepareInPlace, outcome, process]
  cases e.prepare <;> rfl

/-! ### Commands -/

/-- Carried out in place, a command leaves behind what it should. -/
theorem carryOut_eq (e : Engine) (c : Command) : (carryOut c).run e = e.outcome c := by
  cases c with
  | viewport view => rfl
  | vertex x y z w => exact e.run_carryOut_vertex x y z w
  | polygon v0 v1 v2 v3 attributes => exact e.run_carryOut_polygon v0 v1 v2 v3 attributes
  | swapBuffers => exact e.run_carryOut_swapBuffers

/-- So it makes no difference whether a command that is submitted is carried out in place. -/
theorem submitInPlace_eq (e : Engine) (c : Command) : e.submitInPlace c = e.submit c := by
  rw [submitInPlace, submit, carryOut_eq, outcome]
  cases e.process c <;> rfl

-- A triangle whose corners are too far apart for a word, as only a load can bring it about: the
-- swap fails, and the corners of the triangle are in order after it.
example :
    let top : Vertex := { screenY := -2147483648 }
    let bottom : Vertex := { screenY := 2147483647 }
    let frame (t : Triangle) : Frames := { even := ⟨#[top, bottom], #[t]⟩ }
    let f : Fault := .vertexOrder 0 (-2147483648) 2147483647 2147483647
    ({ frames := frame { v0 := 1, v1 := 0, v2 := 1 } } : Engine).submit .swapBuffers =
      (.raised f, { frames := frame { v0 := 0, v1 := 1, v2 := 1 }, fault := some f }) := by
  decide +kernel

/-- In a frame that was placed by projection, a command changes all that it has to change, or
    nothing. -/
theorem outcome_of_placed {e : Engine} (placed : e.frames.next.Placed) (c : Command) :
    e.outcome c = e.outright (e.process c) := by
  rw [outcome]
  cases processed : e.process c with
  | ok e' => rfl
  | error f => exact congrArg (EStateM.Result.error f) (abandon_of_placed placed processed)

end Engine

end GeometryEngine
