import GeometryEngine.Proofs.Commands
import GeometryEngine.Renderer

/-!
# Frames at rest

A frame that is drawn changes only in the bounds with which its triangles come to the
next line. Two engines whose frames differ in nothing else have the same *still*
engine (`Engine.still`).

* `Slot.still_draw`: drawing does not show in what is still;
* `Engine.still_submit`: commands do not depend on anything else, since a set-up gives
  triangles new bounds.
-/

namespace GeometryEngine

/-- A triangle without the bounds that drawing moves. -/
def Triangle.still (t : Triangle) : Triangle := { t with now := {} }

/-- A frame without the bounds that drawing moves. -/
def Slot.still (s : Slot) : Slot := { s with triangles := s.triangles.map Triangle.still }

/-- Both slots without the bounds that drawing moves. -/
def Frames.still (f : Frames) : Frames := { f with even := f.even.still, odd := f.odd.still }

/-- An engine without the bounds that drawing moves. -/
def Engine.still (e : Engine) : Engine := { e with frames := e.frames.still }

/-! ### Drawing -/

namespace Drawing

variable (config : RenderConfig)

theorem still_drawTriangle (line : Line) (y : Int) (d : Drawing) (i : Nat) :
    (d.drawTriangle config line y i).triangles.map Triangle.still =
      d.triangles.map Triangle.still := by
  rw [drawTriangle]
  split
  · rfl
  · rename_i t ht
    obtain ⟨inside, ht⟩ := Array.getElem?_eq_some_iff.1 ht
    -- Only the triangle that is drawn has changed, and nothing of it but its bounds.
    refine Array.ext_getElem? fun j => ?_
    rw [Array.map_setIfInBounds, Array.getElem?_setIfInBounds]
    split
    · rename_i same
      subst same
      rw [if_pos (by simpa using inside), Array.getElem?_map, Array.getElem?_eq_getElem inside, ht]
      rfl
    · rfl

theorem still_drawLine (buckets : Buckets) (line : Line) (y : Int) (d : Drawing) :
    (d.drawLine config buckets line y).triangles.map Triangle.still =
      d.triangles.map Triangle.still :=
  drawLine_keep (P := fun e => e.triangles.map Triangle.still = d.triangles.map Triangle.still)
    (fun e i same => (still_drawTriangle config line y e i).trans same) buckets rfl

theorem still_drawLines (buckets : Buckets) (c : Cursor) (y : Int) (d : Drawing) :
    (d.drawLines config buckets c y).2.triangles.map Triangle.still =
      d.triangles.map Triangle.still := by
  fun_induction drawLines config buckets c y d with
  | case1 c y d last => rfl
  | case2 c y d line c' next ih => exact ih.trans (still_drawLine config buckets line y d)

end Drawing

namespace Slot

variable (s : Slot)

/-- Drawing moves nothing but the bounds. -/
theorem still_draw (config : RenderConfig) (buckets : Buckets) (c : Cursor) (y : Int)
    (canvas : Canvas) : (s.draw config buckets c y canvas).2.2.still = s.still :=
  congrArg (Slot.mk s.vertices)
    (Drawing.still_drawLines config buckets c y ⟨canvas, s.triangles⟩)

theorem still_restart : s.restart.still = s.still := by
  rw [still, restart, Array.map_map]
  rfl

end Slot

/-! ### Commands -/

namespace Slot

variable (s : Slot)

@[simp] theorem still_still : s.still.still = s.still := by
  rw [still, still, Array.map_map]
  rfl

theorem still_pushTriangle (t : Triangle) :
    (s.pushTriangle t).still = s.still.pushTriangle t.still :=
  congrArg (Slot.mk s.vertices) Array.map_push

theorem still_project (view : Viewport) (i : Int32) :
    (s.project view i).still = s.still.project view i := rfl

theorem addPolygon_still (view : Viewport) (v0 v1 v2 v3 : Int32) (attributes : UInt32) :
    (Engine.addPolygon view v0 v1 v2 v3 attributes s.still).still =
      (Engine.addPolygon view v0 v1 v2 v3 attributes s).still := by
  have clipped : Engine.anyOutside s.still = Engine.anyOutside s := rfl
  simp only [Engine.addPolygon, clipped]
  split
  · exact s.still_still
  · -- Projecting its corners and adding its triangles may as well begin with the still frame.
    refine List.foldl_rel (r := fun s s' : Slot => s.still = s'.still) ?_ ?_
    · refine List.foldl_rel (r := fun s s' : Slot => s.still = s'.still) s.still_still ?_
      intro i _ s s' h
      rw [still_project, h, ← still_project]
    · intro t _ s s' h
      rw [still_pushTriangle, h, ← still_pushTriangle]

end Slot

namespace Triangle

theorem ofCorners_still (t : Triangle) (p q r : Corner) :
    t.still.ofCorners p q r = t.ofCorners p q r := rfl

theorem setUp_still (corner : Int32 → Corner) (t : Triangle) :
    t.still.setUp corner = t.setUp corner := by
  simp only [setUp, ofCorners_still]
  rfl

theorem inOrder_still (corner : Int32 → Corner) (t : Triangle) :
    (t.still.inOrder corner).still = (t.inOrder corner).still := by
  have corners : t.still.v0 = t.v0 ∧ t.still.v1 = t.v1 ∧ t.still.v2 = t.v2 := ⟨rfl, rfl, rfl⟩
  rw [inOrder, inOrder, corners.1, corners.2.1, corners.2.2]
  rfl

end Triangle

namespace Slot

variable (s : Slot)

theorem setUpFrom_map (setUp : Triangle → Except (Int32 × Int32 × Int32) Triangle)
    (g : Triangle → Triangle) (n : Nat) (ts : List Triangle) :
    setUpFrom setUp n (ts.map g) = setUpFrom (fun t => setUp (g t)) n ts := by
  induction ts generalizing n with
  | nil => rfl
  | cons t ts ih => simp only [List.map_cons, setUpFrom, ih]

/-- A set-up gives all triangles new bounds. -/
theorem setUp_still : s.still.setUp = s.setUp := by
  have corner : s.still.corner = s.corner := rfl
  have triangles : setUpFrom (Triangle.setUp s.corner) 0 s.still.triangles.toList =
      setUpFrom (Triangle.setUp s.corner) 0 s.triangles.toList := by
    rw [still, Array.toList_map, setUpFrom_map]
    exact congrArg (setUpFrom · 0 _) (funext fun t => t.setUp_still _)
  rw [setUp, setUp, corner, triangles]
  rfl

theorem setUpPart_still (corner : Int32 → Corner) (ts : List Triangle) :
    (setUpPart (Triangle.setUp corner) (Triangle.inOrder corner) (ts.map Triangle.still)).map
        Triangle.still =
      (setUpPart (Triangle.setUp corner) (Triangle.inOrder corner) ts).map Triangle.still := by
  induction ts with
  | nil => rfl
  | cons t ts ih =>
    simp only [List.map_cons, setUpPart, Triangle.setUp_still]
    cases t.setUp corner with
    | error lines =>
      rw [List.map_cons, List.map_cons, Triangle.inOrder_still, List.map_map]
      rfl
    | ok u => rw [List.map_cons, List.map_cons, ih]

theorem halfSetUp_still : s.still.halfSetUp.still = s.halfSetUp.still := by
  have part := setUpPart_still s.corner s.triangles.toList
  simp only [still, halfSetUp, Array.toList_map, List.map_toArray]
  exact congrArg (fun ts => Slot.mk s.vertices ts.toArray) part

end Slot

namespace Frames

variable (f : Frames)

@[simp] theorem next_still : f.still.next = f.next.still := by
  change (if f.buildsOdd then f.odd.still else f.even.still) = _
  rw [next]
  split <;> rfl

/-- What changes nothing but bounds in the current frame does not show. -/
theorem still_mapCurrent {g : Slot → Slot} (h : ∀ s, (g s).still = s.still) :
    (f.mapCurrent g).still = f.still := by
  unfold mapCurrent still
  split <;> simp only [h]

theorem mapNext_still (g : Slot → Slot) (h : ∀ s, (g s.still).still = (g s).still) :
    (f.still.mapNext g).still = (f.mapNext g).still := by
  change (if f.buildsOdd then { f.still with odd := g f.odd.still }
    else { f.still with even := g f.even.still } : Frames).still = _
  unfold mapNext still
  split <;> simp only [h, Slot.still_still]

theorem swap_still : f.still.swap.still = f.swap.still :=
  mapNext_still { f with counter := f.counter + 1 } (fun _ => {}) fun _ => rfl

@[simp] theorem still_still : f.still.still = f.still := by
  simp only [still, Slot.still_still]

end Frames

namespace Engine

variable (e : Engine)

@[simp] theorem still_still : e.still.still = e.still :=
  congrArg (fun frames => { e with frames }) e.frames.still_still

@[simp] theorem isHalted_still : e.still.isHalted = e.isHalted := rfl

@[simp] theorem frames_still : e.still.frames = e.frames.still := rfl

theorem mapNext_still {g : Slot → Slot} (h : ∀ s, (g s.still).still = (g s).still) :
    ({ e.still with frames := e.frames.still.mapNext g } : Engine).still =
      ({ e with frames := e.frames.mapNext g } : Engine).still :=
  congrArg (fun frames => { e with frames }) (e.frames.mapNext_still g h)

theorem polygonFault?_still (frame : UInt32) (s : Slot) (v0 v1 v2 v3 : Int32)
    (attributes : UInt32) :
    polygonFault? frame s.still v0 v1 v2 v3 attributes =
      polygonFault? frame s v0 v1 v2 v3 attributes := by
  have dangling : dangling? s.still = dangling? s := rfl
  have outside : anyOutside s.still = anyOutside s := rfl
  have triangles : s.still.triangles.size = s.triangles.size := Array.size_map
  simp only [polygonFault?, dangling, outside, triangles]
  rfl

/-- A set-up brings engines to the same state that differ only in bounds. -/
theorem prepare_still : e.still.prepare.map still = e.prepare.map still := by
  rw [prepare, prepare, frames_still, Frames.next_still, Slot.setUp_still]
  split
  · rfl
  · rename_i s _
    exact congrArg Except.ok (e.mapNext_still fun _ => rfl)

theorem promote_still : e.still.promote.still = e.promote.still :=
  congrArg (fun frames => { e with frames }) e.frames.swap_still

/-- The outcome of a command does not depend on the bounds. -/
theorem process_still (c : Command) :
    (e.still.process c).map still = (e.process c).map still := by
  cases c with
  | viewport view =>
    exact congrArg (fun frames => Except.ok { e with viewport := view, frames })
      e.frames.still_still
  | vertex x y z w =>
    have vertices : e.frames.next.still.vertices.size = e.frames.next.vertices.size := rfl
    simp only [process, frames_still, Frames.next_still, vertices]
    split
    · exact congrArg Except.ok (e.mapNext_still fun s => Slot.still_still (s.pushVertex _))
    · rfl
  | polygon v0 v1 v2 v3 attributes =>
    have counter : e.frames.still.counter = e.frames.counter := rfl
    simp only [process, frames_still, Frames.next_still, counter, polygonFault?_still]
    split
    · rfl
    · exact congrArg Except.ok
        (e.mapNext_still fun s => s.addPolygon_still e.viewport v0 v1 v2 v3 attributes)
  | swapBuffers =>
    have promoted (o : Except Fault Engine) :
        (o.map promote).map still = (o.map still).map fun e => e.promote.still := by
      cases o with
      | error f => rfl
      | ok e => exact congrArg Except.ok e.promote_still.symm
    rw [process_swap, process_swap, promoted, promoted, prepare_still]

/-- Nor does what a fault leaves behind. -/
theorem abandon_still (c : Command) : (e.still.abandon c).still = (e.abandon c).still := by
  cases c with
  | swapBuffers => exact e.mapNext_still Slot.halfSetUp_still
  | _ => exact e.still_still

/-- What a submission answers, and what it leaves behind, does not depend on the
    bounds. -/
theorem submit_still (c : Command) :
    (e.still.submit c).1 = (e.submit c).1 ∧ (e.still.submit c).2.still = (e.submit c).2.still := by
  have processed := e.process_still c
  rw [submit, submit, isHalted_still]
  split
  · exact ⟨rfl, e.still_still⟩
  · -- Both engines carry the command out, or both meet the same fault.
    cases he : e.process c <;> cases hs : e.still.process c <;> rw [he, hs] at processed <;>
      simp only [Except.map, reduceCtorEq, Except.ok.injEq, Except.error.injEq] at processed
    · subst processed
      exact ⟨rfl, congrArg (halt · _) (e.abandon_still c)⟩
    · exact ⟨rfl, processed⟩

variable {e} {e' : Engine}

theorem isHalted_eq_of_still (h : e.still = e'.still) : e.isHalted = e'.isHalted := by
  rw [← e.isHalted_still, h, e'.isHalted_still]

theorem size_next_of_still (h : e.still = e'.still) :
    e.frames.next.vertices.size = e'.frames.next.vertices.size := by
  have next := congrArg (fun e : Engine => e.frames.next) h
  simp only [frames_still, Frames.next_still] at next
  have size : e.frames.next.still.vertices.size = e'.frames.next.still.vertices.size :=
    congrArg (fun s : Slot => s.vertices.size) next
  exact size

/-- They give the same verdicts. -/
theorem verdict_of_still (h : e.still = e'.still) (c : Command) :
    (e.submit c).1 = (e'.submit c).1 := by
  rw [← (e.submit_still c).1, h, (e'.submit_still c).1]

/-- Engines that differ only in bounds differ in nothing else after a command. -/
theorem still_submit (h : e.still = e'.still) (c : Command) :
    (e.submit c).2.still = (e'.submit c).2.still := by
  rw [← (e.submit_still c).2, h, (e'.submit_still c).2]

theorem still_submitAll (h : e.still = e'.still) (cs : List Command) :
    (e.submitAll cs).still = (e'.submitAll cs).still :=
  List.foldl_rel (r := fun e e' : Engine => e.still = e'.still) h
    fun c _ _ _ same => still_submit same c

theorem still_promote (h : e.still = e'.still) : e.promote.still = e'.promote.still := by
  rw [← e.promote_still, h, e'.promote_still]

end Engine

end GeometryEngine
