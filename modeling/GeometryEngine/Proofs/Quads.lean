import GeometryEngine.Proofs.Faults

/-!
# Quads

A quad is kept as two triangles, which have its first and its third corner in common. Sent as
two triangles, one after the other, it leaves the same engine behind
(`Engine.process_quad`), although its corners are then looked at and projected in another
order, and two of them twice.

The reason is that a corner is projected once: after the first triangle, the corners that both
have in common stay as they are (`Slot.IsInside.project_eq`), and none of the four has moved
out of the view volume (`Slot.IsVisible.project`).
-/

namespace GeometryEngine

namespace Slot

variable {s : Slot} {i j : Int32} (view : Viewport)

/-- There is a vertex with the number `i`, and it is not beyond any plane. -/
structure IsVisible (s : Slot) (i : Int32) : Prop where
  resolved : s.resolves i = true
  inside : (s.vertex i).isOutside = false

/-- Projecting vertices does not hide others. -/
theorem IsVisible.project (h : s.IsVisible j) (i : Int32) : (s.project view i).IsVisible j :=
  ⟨resolves_project view h.resolved i,
    (isOutside_vertex_project view h.resolved i).trans h.inside⟩

theorem IsVisible.foldl_project (h : s.IsVisible j) (is : List Int32) :
    (is.foldl (Slot.project view) s).IsVisible j :=
  s.foldl_project_keep view (P := fun s => s.IsVisible j) is (fun _ i h => h.project view i) h

/-- A vertex whose place is known is not projected again. -/
theorem IsInside.project_eq (h : s.IsInside i) : s.project view i = s := by
  refine congrArg (Slot.mk · s.triangles) (Array.ext_getElem? fun j => ?_)
  rw [Array.getElem?_modify]
  split
  · rename_i here
    rw [← here, getElem?_of_resolves h.resolved, Option.map_some,
      Vertex.project_of_isProjected view h.projected]
  · rfl

/-- After its two halves the corners of a quad are projected as they are after the quad. -/
theorem project_halves {v0 v1 v2 v3 : Int32} (h0 : s.IsVisible v0) (h1 : s.IsVisible v1)
    (h2 : s.IsVisible v2) :
    [v0, v3, v2].foldl (project view) ([v0, v1, v2].foldl (project view) s) =
      [v0, v1, v2, v3].foldl (project view) s := by
  have visible : ∀ i ∈ [v0, v1, v2], s.resolves i = true ∧ (s.vertex i).isOutside = false := by
    simp [h0.resolved, h1.resolved, h2.resolved, h0.inside, h1.inside, h2.inside]
  have first := isInside_foldl_project view visible
  -- The first corner is in its place before the fourth is projected, and the third after it.
  have top := (first v0 (by simp)).project_eq view
  have bottom := ((first v2 (by simp)).project view v3).project_eq view
  simp only [List.foldl_cons, List.foldl_nil] at top bottom ⊢
  rw [top, bottom]

/-- Projects vertices, then stores triangles. -/
def store (is : List Int32) (ts : List Triangle) (s : Slot) : Slot :=
  { is.foldl (project view) s with triangles := s.triangles ++ ts.toArray }

theorem IsVisible.store (h : s.IsVisible j) (is : List Int32) (ts : List Triangle) :
    (s.store view is ts).IsVisible j :=
  ⟨(h.foldl_project view is).resolved, (h.foldl_project view is).inside⟩

/-- Which triangles there are plays no part in projection. -/
theorem vertices_foldl_project {s s' : Slot} (same : s'.vertices = s.vertices) (is : List Int32) :
    (is.foldl (project view) s').vertices = (is.foldl (project view) s).vertices := by
  induction is generalizing s s' with
  | nil => exact same
  | cons i is ih => exact ih (congrArg (Array.modify · _ _) same)

theorem store_halves {v0 v1 v2 v3 : Int32} (h0 : s.IsVisible v0) (h1 : s.IsVisible v1)
    (h2 : s.IsVisible v2) (t t' : Triangle) :
    (s.store view [v0, v1, v2] [t]).store view [v0, v3, v2] [t'] =
      s.store view [v0, v1, v2, v3] [t, t'] := by
  have again : ([v0, v3, v2].foldl (project view) (s.store view [v0, v1, v2] [t])).vertices =
      ([v0, v3, v2].foldl (project view) ([v0, v1, v2].foldl (project view) s)).vertices :=
    vertices_foldl_project view rfl _
  rw [project_halves view h0 h1 h2] at again
  exact congrArg₂ Slot.mk again (Array.append_assoc ..)

end Slot

namespace Engine

/-- A polygon whose corners are all visible is stored, if there is room for its triangles. -/
theorem process_of_isVisible {e : Engine} {v0 v1 v2 v3 : Int32} {attributes : UInt32}
    (visible : ∀ i ∈ corners v0 v1 v2 v3 attributes, e.frames.next.IsVisible i)
    (room : e.frames.next.triangles.size + ((corners v0 v1 v2 v3 attributes).length - 2) ≤
      Slot.capacity) :
    e.process (.polygon v0 v1 v2 v3 attributes) =
      .ok { e with frames := e.frames.mapNext (Slot.store e.viewport
        (corners v0 v1 v2 v3 attributes) (trianglesOf v0 v1 v2 v3 attributes)) } := by
  have none := anyOutside_eq_false_iff.2 fun i hi => (visible i hi).inside
  rw [process_polygon (fun i hi => (visible i hi).resolved) room]
  refine congrArg (fun frames => Except.ok { e with frames }) (Frames.mapNext_congr ?_)
  rw [Slot.addPolygon_eq, if_neg (Bool.eq_false_iff.1 none)]
  rfl

/-- A triangle is not split up. -/
theorem process_triangle {e : Engine} {v0 v1 v2 : Int32} (h0 : e.frames.next.IsVisible v0)
    (h1 : e.frames.next.IsVisible v1) (h2 : e.frames.next.IsVisible v2) (v3 : Int32)
    (attributes : UInt32) (room : e.frames.next.triangles.size + 1 ≤ Slot.capacity) :
    e.process (.polygon v0 v1 v2 v3 (attributes &&& ~~~quadBit)) =
      .ok { e with frames := e.frames.mapNext (Slot.store e.viewport [v0, v1, v2]
        [{ v0, v1, v2, v3, attributes := attributes &&& ~~~quadBit }]) } := by
  have three := corners_of_triangle v0 v1 v2 v3 attributes
  have one : trianglesOf v0 v1 v2 v3 (attributes &&& ~~~quadBit) =
      [{ v0, v1, v2, v3, attributes := attributes &&& ~~~quadBit }] := by
    rw [trianglesOf, if_pos (and_not_and_quadBit attributes), UInt32.and_assoc, UInt32.and_self]
  rw [process_of_isVisible, three, one]
  · rw [three]
    simp only [List.forall_mem_cons]
    exact ⟨h0, h1, h2, List.forall_mem_nil _⟩
  · rwa [three]

/-- The halves of a quad, one after the other. -/
theorem process_halves {e : Engine} {v0 v1 v2 v3 : Int32} (h0 : e.frames.next.IsVisible v0)
    (h1 : e.frames.next.IsVisible v1) (h2 : e.frames.next.IsVisible v2)
    (h3 : e.frames.next.IsVisible v3) (attributes : UInt32)
    (room : e.frames.next.triangles.size + 2 ≤ Slot.capacity) :
    ((e.process (.polygon v0 v1 v2 v3 (attributes &&& ~~~quadBit))).bind fun e =>
      e.process (.polygon v0 v3 v2 v3 (attributes &&& ~~~quadBit))) =
      .ok { e with frames := e.frames.mapNext (Slot.store e.viewport [v0, v1, v2, v3]
        [{ v0, v1, v2, v3, attributes := attributes &&& ~~~quadBit },
          { v0, v1 := v3, v2, v3, attributes := attributes &&& ~~~quadBit }]) } := by
  -- The frame that the first triangle leaves behind has one triangle more, and all four corners
  -- are still visible in it.
  let stored := Slot.store e.viewport [v0, v1, v2]
    [{ v0, v1, v2, v3, attributes := attributes &&& ~~~quadBit }]
  have left : (e.frames.mapNext stored).next = stored e.frames.next := Frames.next_mapNext _ _
  have counted : (stored e.frames.next).triangles.size = e.frames.next.triangles.size + 1 :=
    Array.size_append
  have kept (i : Int32) (h : e.frames.next.IsVisible i) :
      (e.frames.mapNext stored).next.IsVisible i := left ▸ h.store e.viewport _ _
  have one := process_triangle h0 h1 h2 v3 attributes (Nat.le_of_succ_le room)
  have two := process_triangle (e := { e with frames := e.frames.mapNext stored })
    (kept v0 h0) (kept v3 h3) (kept v2 h2) v3 attributes (by rwa [left, counted])
  rw [one, Except.bind, two, Frames.mapNext_mapNext]
  refine congrArg (fun frames => Except.ok { e with frames }) (Frames.mapNext_congr ?_)
  exact Slot.store_halves e.viewport h0 h1 h2 _ _

/-- A polygon with a corner beyond a plane changes nothing, whatever room there is. -/
theorem process_of_isOutside {e : Engine} {v0 v1 v2 v3 i : Int32} {attributes : UInt32}
    (resolved : ∀ j ∈ corners v0 v1 v2 v3 attributes, e.frames.next.resolves j = true)
    (corner : i ∈ corners v0 v1 v2 v3 attributes)
    (outside : (e.frames.next.vertex i).isOutside = true) :
    e.process (.polygon v0 v1 v2 v3 attributes) = .ok e := by
  have some : anyOutside e.frames.next (corners v0 v1 v2 v3 attributes) = true :=
    List.any_eq_true.2 ⟨i, corner, outside⟩
  have found := (dangling?_eq_none_iff _ _).2 resolved
  have left : addPolygon e.viewport v0 v1 v2 v3 attributes e.frames.next = id e.frames.next :=
    if_pos some
  rw [process, polygonFault?_of_resolved found rfl, some]
  simp only [Bool.true_eq_false, false_and, if_false, Frames.mapNext_congr left, Frames.mapNext_id]

/-- A quad whose corners are all vertices leaves the same engine behind as its two halves, one
    after the other: the triangle of its first three corners, and the triangle of its first,
    fourth and third corner, both without the bit of a quad and with the fourth corner as it
    was sent. For this all corners have to be inside the view volume, and two more triangles
    to find room.

    If a corner is beyond a plane, the quad changes nothing, whatever becomes of a half of it
    that is sent alone. -/
theorem process_quad (e : Engine) {v0 v1 v2 v3 : Int32} {attributes : UInt32}
    (quad : attributes &&& quadBit ≠ 0)
    (resolved : ∀ i ∈ [v0, v1, v2, v3], e.frames.next.resolves i = true) :
    let next := e.frames.next
    let plain := attributes &&& ~~~quadBit
    let first : Triangle := { v0, v1, v2, v3, attributes := plain }
    ((∀ i ∈ [v0, v1, v2, v3], (next.vertex i).isOutside = false) →
      next.triangles.size + 2 ≤ Slot.capacity →
      ∃ e', e.process (.polygon v0 v1 v2 v3 attributes) = .ok e' ∧
        ((e.process (.polygon v0 v1 v2 v3 plain)).bind fun e =>
          e.process (.polygon v0 v3 v2 v3 plain)) = .ok e' ∧
        e'.frames.next.triangles = next.triangles ++ #[first, { first with v1 := v3 }]) ∧
    ((∃ i ∈ [v0, v1, v2, v3], (next.vertex i).isOutside = true) →
      e.process (.polygon v0 v1 v2 v3 attributes) = .ok e) := by
  intro next plain first
  have four : corners v0 v1 v2 v3 attributes = [v0, v1, v2, v3] := if_neg quad
  have both : trianglesOf v0 v1 v2 v3 attributes = [first, { first with v1 := v3 }] := if_neg quad
  rw [← four] at resolved
  refine ⟨fun inside room => ?_, fun ⟨i, corner, outside⟩ =>
    process_of_isOutside resolved (four ▸ corner) outside⟩
  have visible (i : Int32) (hi : i ∈ [v0, v1, v2, v3]) : next.IsVisible i :=
    ⟨resolved i (four ▸ hi), inside i hi⟩
  have whole := process_of_isVisible (e := e) (fun i hi => visible i (four ▸ hi)) (by rwa [four])
  rw [four, both] at whole
  refine ⟨_, whole, ?_, by rw [Frames.next_mapNext]; rfl⟩
  exact process_halves (visible v0 (by simp)) (visible v1 (by simp)) (visible v2 (by simp))
    (visible v3 (by simp)) attributes room

/-- A quad with its second corner repeated, and one with its fourth corner beyond a plane: the
    first is stored as its halves are, the second is left out, but a half of it is not. -/
theorem process_quad_repeated :
    let e := (({} : Session).run
      [.submit (.vertex 0 0 0 1), .submit (.vertex 1 0 0 1), .submit (.vertex 0 1 0 1),
        .submit (.vertex 2 0 0 1)]).engine
    let half : Triangle := { v0 := 0, v1 := 1, v2 := 2, v3 := 1 }
    (∃ e', e.process (.polygon 0 1 2 1 quadBit) = .ok e' ∧
        ((e.process (.polygon 0 1 2 1 0)).bind fun e => e.process (.polygon 0 1 2 1 0)) =
          .ok e' ∧ e'.frames.next.triangles = #[half, half]) ∧
      e.process (.polygon 0 1 2 3 quadBit) = .ok e ∧
      ((e.process (.polygon 0 1 2 3 0)).map fun e => e.frames.next.triangles.size) = .ok 1 := by
  intro e half
  have quad : quadBit &&& quadBit ≠ 0 := by decide
  have plain : quadBit &&& ~~~quadBit = 0 := by decide
  have noTriangles : e.frames.next.triangles = #[] := by decide +kernel
  have resolved (v3 : Int32) (h : e.frames.next.resolves v3 = true) :
      ∀ i ∈ [0, 1, 2, v3], e.frames.next.resolves i = true := by
    simp only [List.forall_mem_cons]
    exact ⟨by decide +kernel, by decide +kernel, by decide +kernel, h, List.forall_mem_nil _⟩
  have inside : ∀ i ∈ [(0 : Int32), 1, 2, 1], (e.frames.next.vertex i).isOutside = false := by
    simp only [List.forall_mem_cons]
    exact ⟨by decide +kernel, by decide +kernel, by decide +kernel, by decide +kernel,
      List.forall_mem_nil _⟩
  obtain ⟨same, -⟩ := process_quad e quad (resolved 1 (by decide +kernel))
  rw [plain, noTriangles, Array.empty_append] at same
  obtain ⟨-, leftOut⟩ := process_quad e quad (resolved 3 (by decide +kernel))
  exact ⟨same inside (by decide +kernel), leftOut ⟨3, by decide +kernel⟩, by decide +kernel⟩

end Engine

end GeometryEngine
