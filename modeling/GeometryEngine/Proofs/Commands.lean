import GeometryEngine.Engine
import GeometryEngine.Proofs.SetUp
import Mathlib.Algebra.Group.Nat.Defs

/-!
# What commands do

For each command, when it is carried out and what it leaves behind.

* A vertex is accepted if there is room for it (`Engine.process_vertex`).
* A polygon is accepted if its corners are vertices of the frame and there is room for
  its triangles (`Engine.process_polygon`).
* A swap is accepted if the vertices of the frame were placed by projection
  (`Engine.process_swapBuffers`), which every polygon keeps (`Slot.Placed.addPolygon`).

The other way round, a command that raises no fault has had just this effect
(`Engine.effect_of_process`).

Commands that are submitted one after another leave behind `Engine.submitAll`; once the
engine has halted, nothing more comes of them (`Engine.submitAll_of_isHalted`).
-/

namespace GeometryEngine

/-! ### Bits -/

theorem bits_or_and (a b mask : UInt32) : (a ||| b) &&& mask = a &&& mask ||| b &&& mask := by
  rw [← UInt32.toBitVec_inj]
  exact BitVec.and_or_distrib_right

/-- A mask that was set is found. -/
theorem bits_or_and_self (a mask : UInt32) : (a ||| mask) &&& mask = mask := by
  rw [← UInt32.toBitVec_inj, UInt32.toBitVec_and, UInt32.toBitVec_or]
  -- Every bit of the second word absorbs that of the first.
  ext i
  rw [BitVec.getElem_and, BitVec.getElem_or]
  cases mask.toBitVec[i] <;> simp

/-! ### Polygons -/

/-- The number of a vertex resolves. -/
theorem Slot.resolves_ofNat {s : Slot} {v : Nat} (h : v < s.vertices.size)
    (word : v < 2 ^ 31) : s.resolves (.ofNat v) = true := by
  have value : (Int32.ofNat v).toInt = v := Int32.toInt_ofNat_of_lt word
  rw [resolves, Bool.and_eq_true, decide_eq_true_eq, decide_eq_true_eq, Int32.le_iff_toInt_le,
    value]
  exact ⟨Int.natCast_nonneg v, Int.ofNat_lt.2 h⟩

namespace Engine

theorem and_not_and_quadBit (attributes : UInt32) : attributes &&& ~~~quadBit &&& quadBit = 0 := by
  rw [UInt32.and_assoc, UInt32.not_and_self, UInt32.and_zero]

/-- Without the bit of a quad a polygon has three corners. -/
theorem corners_of_triangle (v0 v1 v2 v3 : Int32) (attributes : UInt32) :
    corners v0 v1 v2 v3 (attributes &&& ~~~quadBit) = [v0, v1, v2] := by
  rw [corners, if_pos (and_not_and_quadBit attributes)]

/-- With the bit of a quad it has four. -/
theorem corners_of_quad (v0 v1 v2 v3 : Int32) (attributes : UInt32) :
    corners v0 v1 v2 v3 (attributes &&& ~~~quadBit ||| quadBit) = [v0, v1, v2, v3] := by
  have set : (attributes &&& ~~~quadBit ||| quadBit) &&& quadBit ≠ 0 := by
    rw [bits_or_and_self]
    decide
  rw [corners, if_neg set]

theorem length_corners (v0 v1 v2 v3 : Int32) (attributes : UInt32) :
    (corners v0 v1 v2 v3 attributes).length - 2 = if attributes &&& quadBit = 0 then 1 else 2 := by
  rw [corners]
  split <;> rfl

theorem length_trianglesOf (v0 v1 v2 v3 : Int32) (attributes : UInt32) :
    (trianglesOf v0 v1 v2 v3 attributes).length =
      (corners v0 v1 v2 v3 attributes).length - 2 := by
  unfold trianglesOf corners
  dsimp only
  split <;> rfl

/-- The triangles of a polygon have its corners. -/
theorem mem_corners_of_mem_trianglesOf {v0 v1 v2 v3 : Int32} {attributes : UInt32} {t : Triangle}
    (ht : t ∈ trianglesOf v0 v1 v2 v3 attributes) :
    ∀ i ∈ [t.v0, t.v1, t.v2], i ∈ corners v0 v1 v2 v3 attributes := by
  rw [trianglesOf] at ht
  rw [corners]
  split at ht <;> rename_i count
  · rw [if_pos count]
    cases List.mem_singleton.1 ht
    exact fun _ hi => hi
  · rw [if_neg count]
    simp only [List.mem_cons, List.not_mem_nil, or_false] at ht
    rcases ht with rfl | rfl <;> simp

theorem dangling?_eq_none_iff (s : Slot) (cs : List Int32) :
    dangling? s cs = none ↔ ∀ c ∈ cs, s.resolves c = true := by
  simp only [dangling?, List.find?_eq_none, Bool.not_eq_true, Bool.not_eq_false']
  constructor
  · intro h c hc
    obtain ⟨i, hi⟩ := List.getElem?_of_mem hc
    exact h (c, i) (List.mk_mem_zipIdx_iff_getElem?.2 hi)
  · intro h c hc
    exact h c.1 (List.fst_mem_of_mem_zipIdx hc)

/-- With a corner that is no vertex, nothing else of a polygon matters. -/
theorem polygonFault?_of_dangling {frame : UInt32} {s : Slot} {v0 v1 v2 v3 i : Int32}
    {attributes : UInt32} {n : Nat}
    (found : dangling? s (corners v0 v1 v2 v3 attributes) = some (i, n)) :
    polygonFault? frame s v0 v1 v2 v3 attributes = some (.polygonIndex n i s.vertices.size) := by
  simp only [polygonFault?, found]

/-- With vertices for all corners, it matters whether the triangles are to be stored and find
    no room. -/
theorem polygonFault?_of_resolved {frame : UInt32} {s : Slot} {v0 v1 v2 v3 : Int32}
    {attributes : UInt32} {total : Nat}
    (found : dangling? s (corners v0 v1 v2 v3 attributes) = none)
    (counted : total = s.triangles.size + if attributes &&& quadBit = 0 then 1 else 2) :
    polygonFault? frame s v0 v1 v2 v3 attributes =
      if anyOutside s (corners v0 v1 v2 v3 attributes) = false ∧ Slot.capacity < total then
        some (.polygonOverflow total frame)
      else none := by
  simp only [polygonFault?, found, length_corners, ← counted, Bool.and_eq_true, Bool.not_eq_true',
    decide_eq_true_eq]

/-- A polygon is accepted if its corners are vertices and there is room for its
    triangles. -/
theorem process_polygon {e : Engine} {v0 v1 v2 v3 : Int32} {attributes : UInt32}
    (resolved : ∀ c ∈ corners v0 v1 v2 v3 attributes, e.frames.next.resolves c = true)
    (room : e.frames.next.triangles.size + ((corners v0 v1 v2 v3 attributes).length - 2) ≤
      Slot.capacity) :
    e.process (.polygon v0 v1 v2 v3 attributes) =
      .ok { e with
        frames := e.frames.mapNext (addPolygon e.viewport v0 v1 v2 v3 attributes) } := by
  have sound : polygonFault? e.frames.counter e.frames.next v0 v1 v2 v3 attributes = none := by
    simp only [polygonFault?, (dangling?_eq_none_iff _ _).2 resolved, Nat.not_lt.2 room,
      decide_false, Bool.and_false, Bool.false_eq_true, ↓reduceIte]
  rw [process, sound]

end Engine

/-! ### What a polygon leaves behind -/

namespace Slot

variable (s : Slot) (view : Viewport)

@[simp] theorem size_vertices_project (i : Int32) :
    (s.project view i).vertices.size = s.vertices.size := Array.size_modify

/-- Projecting vertices one after another keeps what projecting one of them keeps. -/
theorem foldl_project_keep {P : Slot → Prop} (cs : List Int32)
    (kept : ∀ s i, P s → P (s.project view i)) (h : P s) : P (cs.foldl (project view) s) := by
  induction cs generalizing s with
  | nil => exact h
  | cons c cs ih => exact ih _ (kept s c h)

theorem triangles_foldl_project (cs : List Int32) :
    (cs.foldl (project view) s).triangles = s.triangles :=
  s.foldl_project_keep view (P := fun t => t.triangles = s.triangles) cs (fun _ _ h => h) rfl

theorem foldl_pushTriangle (ts : List Triangle) :
    ts.foldl (fun s t => s.pushTriangle t) s =
      { s with triangles := s.triangles ++ ts.toArray } := by
  induction ts generalizing s with
  | nil => simp
  | cons t ts ih =>
    rw [List.foldl_cons, ih]
    simp [pushTriangle]

variable (v0 v1 v2 v3 : Int32) (attributes : UInt32)

/-- A polygon inside the view volume is added behind the others, and its corners are
    projected. -/
theorem addPolygon_eq :
    Engine.addPolygon view v0 v1 v2 v3 attributes s =
      if Engine.anyOutside s (Engine.corners v0 v1 v2 v3 attributes) then s else
        { (Engine.corners v0 v1 v2 v3 attributes).foldl (project view) s with
          triangles := s.triangles ++ (Engine.trianglesOf v0 v1 v2 v3 attributes).toArray } := by
  rw [Engine.addPolygon, foldl_pushTriangle, triangles_foldl_project]

theorem size_vertices_addPolygon :
    (Engine.addPolygon view v0 v1 v2 v3 attributes s).vertices.size = s.vertices.size := by
  rw [addPolygon_eq]
  split
  · rfl
  · exact s.foldl_project_keep view (P := fun t => t.vertices.size = s.vertices.size) _
      (fun t i h => (t.size_vertices_project view i).trans h) rfl

/-- A polygon adds as many triangles as it has corners beyond the second, or none. -/
theorem size_triangles_addPolygon_le :
    (Engine.addPolygon view v0 v1 v2 v3 attributes s).triangles.size ≤
      s.triangles.size + ((Engine.corners v0 v1 v2 v3 attributes).length - 2) := by
  rw [addPolygon_eq]
  split
  · exact Nat.le_add_right _ _
  · rw [Array.size_append, ← Engine.length_trianglesOf]
    exact Nat.le_refl _

variable {s} in
/-- Polygons place vertices by projection only. -/
theorem Placed.addPolygon (h : s.Placed) :
    (Engine.addPolygon view v0 v1 v2 v3 attributes s).Placed := by
  rw [addPolygon_eq]
  split
  · exact h
  · exact s.foldl_project_keep view (P := Placed) _ (fun _ i h => h.project view i) h

end Slot

/-! ### Commands -/

namespace Engine

variable {e : Engine}

/-- A vertex is accepted if there is room for it. -/
theorem process_vertex (room : e.frames.next.vertices.size < Slot.capacity) (x y z w : Fixed) :
    e.process (.vertex x y z w) =
      .ok { e with frames := e.frames.mapNext (Slot.pushVertex (.ofClip x y z w)) } :=
  if_pos room

/-- A swap is its two parts. -/
theorem process_swap (e : Engine) : e.process .swapBuffers = e.prepare.map promote := by
  rw [process]
  cases e.prepare <;> rfl

/-- The first part of a swap makes the next frame ready. -/
theorem prepare_eq (h : e.frames.next.Placed) :
    e.prepare = .ok { e with frames := e.frames.mapNext fun _ => e.frames.next.ready } := by
  rw [prepare, Slot.setUp_eq_ready h]

/-- A swap is carried out if the vertices were placed by projection. -/
theorem process_swapBuffers (h : e.frames.next.Placed) :
    e.process .swapBuffers =
      .ok { e with frames := (e.frames.mapNext fun _ => e.frames.next.ready).swap } := by
  rw [process_swap, prepare_eq h]
  rfl

variable {e' : Engine} {c : Command} {f : Fault}

theorem isHalted_eq_false_iff : e.isHalted = false ↔ e.fault = none :=
  Option.isSome_eq_false_iff.trans Option.isNone_iff_eq_none

/-- A healthy engine does what it is told. -/
theorem submit_of_process (healthy : e.fault = none) (h : e.process c = .ok e') :
    e.submit c = (.accepted, e') := by
  rw [submit, isHalted, healthy, h]
  rfl

/-- It halts at a fault. -/
theorem submit_of_fault (healthy : e.fault = none) (h : e.process c = .error f) :
    e.submit c = (.raised f, (e.abandon c).halt f) := by
  rw [submit, isHalted, healthy, h]
  rfl

/-- An engine that has halted does nothing. -/
theorem submit_of_isHalted (h : e.isHalted = true) : e.submit c = (.refused, e) := if_pos h

/-- An engine that is healthy after a command was so before, and has carried it out. -/
theorem process_of_healthy (healthy : (e.submit c).2.fault = none) :
    e.fault = none ∧ e.process c = .ok (e.submit c).2 := by
  cases halted : e.isHalted with
  | true =>
    rw [submit_of_isHalted halted] at healthy
    exact absurd (isHalted_eq_false_iff.2 healthy) (Bool.not_eq_false _ ▸ halted)
  | false =>
    have fault := isHalted_eq_false_iff.1 halted
    cases processed : e.process c with
    | ok e' => exact ⟨fault, by rw [submit_of_process fault processed]⟩
    | error f =>
      rw [submit_of_fault fault processed] at healthy
      cases healthy

/-- The first part of a swap sets the next frame up. -/
theorem effect_of_prepare (h : e.prepare = .ok e') :
    ∃ s, e.frames.next.setUp = .ok s ∧
      e' = { e with frames := e.frames.mapNext fun _ => s } := by
  rw [prepare] at h
  split at h <;> rename_i set
  · cases h
  · cases h
    exact ⟨_, set, rfl⟩

theorem fault_of_prepare (h : e.prepare = .ok e') : e'.fault = e.fault := by
  obtain ⟨s, -, rfl⟩ := effect_of_prepare h
  rfl

/-- What a command does that raises no fault. -/
inductive Effect (e : Engine) : Command → Engine → Prop
  /-- The viewport is replaced. -/
  | viewport (view : Viewport) : Effect e (.viewport view) { e with viewport := view }
  /-- There is room for a vertex, and it is added. -/
  | vertex {x y z w : Fixed} (room : e.frames.next.vertices.size < Slot.capacity) :
      Effect e (.vertex x y z w)
        { e with frames := e.frames.mapNext (Slot.pushVertex (.ofClip x y z w)) }
  /-- Nothing is wrong with a polygon, and it is added. -/
  | polygon {v0 v1 v2 v3 : Int32} {attributes : UInt32}
      (sound : polygonFault? e.frames.counter e.frames.next v0 v1 v2 v3 attributes = none) :
      Effect e (.polygon v0 v1 v2 v3 attributes)
        { e with frames := e.frames.mapNext (addPolygon e.viewport v0 v1 v2 v3 attributes) }
  /-- The next frame is set up and shown. -/
  | swapBuffers {e' : Engine} (prepared : e.prepare = .ok e') : Effect e .swapBuffers e'.promote

/-- A command that is carried out does nothing else. -/
theorem effect_of_process (h : e.process c = .ok e') : e.Effect c e' := by
  cases c with
  | viewport view =>
    cases h
    exact .viewport view
  | vertex x y z w =>
    simp only [process] at h
    split at h <;> rename_i room <;> cases h
    exact .vertex room
  | polygon v0 v1 v2 v3 attributes =>
    simp only [process] at h
    split at h <;> rename_i sound <;> cases h
    exact .polygon sound
  | swapBuffers =>
    rw [process_swap] at h
    cases prepared : e.prepare with
    | error f =>
      rw [prepared] at h
      cases h
    | ok e₁ =>
      rw [prepared] at h
      cases h
      exact .swapBuffers prepared

/-- A command that is carried out raises no fault. -/
theorem fault_of_process (h : e.process c = .ok e') : e'.fault = e.fault := by
  cases effect_of_process h with
  | @swapBuffers e₁ prepared => exact (fault_of_prepare prepared : e₁.fault = e.fault)
  | _ => rfl

/-- All commands but swaps build the next frame. -/
theorem frames_of_process (h : e.process c = .ok e') (other : c ≠ .swapBuffers) :
    ∃ g, e'.frames = e.frames.mapNext g := by
  cases effect_of_process h with
  | viewport view => exact ⟨id, e.frames.mapNext_id.symm⟩
  | vertex room => exact ⟨_, rfl⟩
  | polygon sound => exact ⟨_, rfl⟩
  | swapBuffers prepared => exact absurd rfl other

/-! ### What a fault leaves behind -/

/-- Only a swap leaves anything half-done. -/
theorem abandon_of_ne (other : c ≠ .swapBuffers) : e.abandon c = e := by
  cases c with
  | swapBuffers => exact absurd rfl other
  | _ => rfl

/-- Nothing is half-done if the vertices were placed by projection, as no swap fails then. -/
theorem abandon_of_placed (placed : e.frames.next.Placed) (h : e.process c = .error f) :
    e.abandon c = e := by
  refine abandon_of_ne fun swap => ?_
  rw [swap, process_swapBuffers placed] at h
  cases h

theorem abandon_cases (e : Engine) (c : Command) :
    e.abandon c = e ∨
      e.abandon c = { e with frames := e.frames.mapNext Slot.halfSetUp } := by
  cases c with
  | swapBuffers => exact .inr rfl
  | _ => exact .inl rfl

@[simp] theorem fault_abandon (e : Engine) (c : Command) : (e.abandon c).fault = e.fault := by
  cases c <;> rfl

/-- At most the next frame is changed. -/
theorem frames_abandon (e : Engine) (c : Command) :
    ∃ g, (e.abandon c).frames = e.frames.mapNext g := by
  obtain same | half := e.abandon_cases c
  · exact ⟨id, by rw [same, e.frames.mapNext_id]⟩
  · exact ⟨_, by rw [half]⟩

/-- No vertex is changed. -/
@[simp] theorem vertices_next_abandon (e : Engine) (c : Command) :
    (e.abandon c).frames.next.vertices = e.frames.next.vertices := by
  obtain same | half := e.abandon_cases c
  · rw [same]
  · rw [half, Frames.next_mapNext, Slot.halfSetUp]

/-! ### Many commands -/

/-- The engine after commands were submitted to it one after another. -/
def submitAll (e : Engine) (cs : List Command) : Engine := cs.foldl (fun e c => (e.submit c).2) e

theorem submitAll_cons (e : Engine) (c : Command) (cs : List Command) :
    e.submitAll (c :: cs) = (e.submit c).2.submitAll cs := rfl

theorem submitAll_append (e : Engine) (cs ds : List Command) :
    e.submitAll (cs ++ ds) = (e.submitAll cs).submitAll ds := List.foldl_append

theorem submitAll_of_isHalted (h : e.isHalted = true) (cs : List Command) : e.submitAll cs = e := by
  induction cs with
  | nil => rfl
  | cons c cs ih => rw [submitAll_cons, submit_of_isHalted h, ih]

end Engine

end GeometryEngine
