import GeometryEngine.Session
import GeometryEngine.Proofs.Receivers
import GeometryEngine.Proofs.SaveState
import GeometryEngine.Proofs.Still

/-!
# Slots always fit

In a session, whatever is submitted, drawn or loaded, both slots keep within the room
that they have, and the corners of all triangles are vertices of their slot
(`Session.run_fits`). No step of the session has to be accepted for that: a command that
raises a fault leaves the frames as they were, or the next one half set up, and a state
that is not accepted leaves empty frames behind.

Set-up exchanges the corners of a triangle, and drawing moves its bounds. Neither
changes which vertices a triangle refers to, however far it comes (`Slot.Fits.setUp`,
`Slot.Fits.halfSetUp`, `Slot.fits_still_iff`).
-/

namespace GeometryEngine

/-! ### A slot -/

namespace Slot

variable {s s' : Slot}

theorem fits_empty : ({} : Slot).Fits where
  vertices := Nat.zero_le _
  triangles := Nat.zero_le _
  resolved _ h := absurd h (Array.not_mem_empty _)

theorem resolves_iff {i : Int32} :
    s.resolves i = true ↔ 0 ≤ i.toInt ∧ i.toInt < s.vertices.size := by
  rw [resolves, Bool.and_eq_true, decide_eq_true_eq, decide_eq_true_eq, Int32.le_iff_toInt_le,
    Int32.toInt_zero]

theorem resolvesTriangle_iff {t : Triangle} :
    s.resolvesTriangle t = true ↔
      s.resolves t.v0 = true ∧ s.resolves t.v1 = true ∧ s.resolves t.v2 = true := by
  rw [resolvesTriangle, Bool.and_eq_true, Bool.and_eq_true, and_assoc]

theorem resolves_of_le {i : Int32} (h : s.resolves i = true)
    (more : s.vertices.size ≤ s'.vertices.size) : s'.resolves i = true := by
  rw [resolves_iff] at h ⊢
  omega

theorem resolvesTriangle_of_le {t : Triangle} (h : s.resolvesTriangle t = true)
    (more : s.vertices.size ≤ s'.vertices.size) : s'.resolvesTriangle t = true := by
  obtain ⟨h0, h1, h2⟩ := resolvesTriangle_iff.1 h
  exact resolvesTriangle_iff.2
    ⟨resolves_of_le h0 more, resolves_of_le h1 more, resolves_of_le h2 more⟩

theorem Fits.pushVertex (h : s.Fits) (room : s.vertices.size < capacity) (v : Vertex) :
    (s.pushVertex v).Fits where
  vertices := by
    rw [Slot.pushVertex, Array.size_push]
    exact room
  triangles := h.triangles
  resolved t ht := by
    refine resolvesTriangle_of_le (h.resolved t ht) ?_
    rw [Slot.pushVertex, Array.size_push]
    exact Nat.le_succ _

/-- What refers to vertices as a polygon does so as its triangles. -/
theorem resolvesTriangle_of_corners {v0 v1 v2 v3 : Int32} {attributes : UInt32}
    (h : ∀ c ∈ Engine.corners v0 v1 v2 v3 attributes, s.resolves c = true) :
    ∀ t ∈ Engine.trianglesOf v0 v1 v2 v3 attributes, s.resolvesTriangle t = true := by
  intro t ht
  have resolved (i : Int32) (hi : i ∈ [t.v0, t.v1, t.v2]) : s.resolves i = true :=
    h i (Engine.mem_corners_of_mem_trianglesOf ht i hi)
  exact resolvesTriangle_iff.2
    ⟨resolved t.v0 (by simp), resolved t.v1 (by simp), resolved t.v2 (by simp)⟩

theorem mem_triangles_addPolygon (view : Viewport) {v0 v1 v2 v3 : Int32} {attributes : UInt32}
    {t : Triangle} (ht : t ∈ (Engine.addPolygon view v0 v1 v2 v3 attributes s).triangles) :
    t ∈ s.triangles ∨ t ∈ Engine.trianglesOf v0 v1 v2 v3 attributes := by
  rw [addPolygon_eq] at ht
  split at ht
  · exact .inl ht
  · exact (Array.mem_append.1 ht).imp_right List.mem_toArray.1

/-- A polygon that raises no fault refers to vertices, and finds room if it is not left
    out. -/
theorem polygonFault?_eq_none {frame : UInt32} {v0 v1 v2 v3 : Int32} {attributes : UInt32}
    (sound : Engine.polygonFault? frame s v0 v1 v2 v3 attributes = none) :
    let cs := Engine.corners v0 v1 v2 v3 attributes
    (∀ c ∈ cs, s.resolves c = true) ∧
      (Engine.anyOutside s cs = true ∨ s.triangles.size + (cs.length - 2) ≤ capacity) := by
  intro cs
  rw [Engine.polygonFault?] at sound
  cases hd : Engine.dangling? s cs with
  | some d =>
    simp only [cs] at hd
    simp only [hd] at sound
    cases sound
  | none =>
    refine ⟨(Engine.dangling?_eq_none_iff _ _).1 hd, ?_⟩
    simp only [cs] at hd
    simp only [hd, ite_eq_right_iff, reduceCtorEq, imp_false, Bool.and_eq_true,
      Bool.not_eq_eq_eq_not, Bool.not_true, decide_eq_true_eq, not_and, Nat.not_lt] at sound
    cases outside : Engine.anyOutside s cs with
    | true => exact .inl rfl
    | false => exact .inr (sound outside)

theorem Fits.addPolygon (h : s.Fits) {frame : UInt32} {v0 v1 v2 v3 : Int32} {attributes : UInt32}
    (sound : Engine.polygonFault? frame s v0 v1 v2 v3 attributes = none) (view : Viewport) :
    (Engine.addPolygon view v0 v1 v2 v3 attributes s).Fits := by
  obtain ⟨corners, room⟩ := polygonFault?_eq_none sound
  have same := size_vertices_addPolygon s view v0 v1 v2 v3 attributes
  constructor
  case vertices => exact same ▸ h.vertices
  case triangles =>
    rcases room with outside | room
    · rw [Engine.addPolygon, if_pos outside]
      exact h.triangles
    · exact Nat.le_trans (size_triangles_addPolygon_le ..) room
  case resolved =>
    intro t ht
    refine resolvesTriangle_of_le (s := s) ?_ (Nat.le_of_eq same.symm)
    rcases mem_triangles_addPolygon view ht with ht | ht
    · exact h.resolved t ht
    · exact resolvesTriangle_of_corners corners t ht

/-- The corners of a triangle in order are no others. -/
theorem resolves_sort {t : Triangle} (h : s.resolvesTriangle t = true) :
    let sorted := Corner.sort (s.corner t.v0) (s.corner t.v1) (s.corner t.v2)
    s.resolves sorted.1.index = true ∧ s.resolves sorted.2.1.index = true ∧
      s.resolves sorted.2.2.index = true := by
  obtain ⟨h0, h1, h2⟩ := resolvesTriangle_iff.1 h
  exact Corner.sort_all (P := fun c => s.resolves c.index = true)
    (p := s.corner t.v0) (q := s.corner t.v1) (r := s.corner t.v2) h0 h1 h2

theorem resolvesTriangle_inOrder {t : Triangle} (h : s.resolvesTriangle t = true) :
    s.resolvesTriangle (t.inOrder s.corner) = true := by
  have sorted := resolves_sort h
  rw [Triangle.inOrder]
  generalize Corner.sort (s.corner t.v0) (s.corner t.v1) (s.corner t.v2) = pqr at sorted ⊢
  obtain ⟨p, q, r⟩ := pqr
  exact resolvesTriangle_iff.2 sorted

theorem resolvesTriangle_setUp {t t' : Triangle} (h : s.resolvesTriangle t = true)
    (ht : t.setUp s.corner = .ok t') : s.resolvesTriangle t' = true := by
  have sorted := resolves_sort h
  rw [Triangle.setUp] at ht
  generalize Corner.sort (s.corner t.v0) (s.corner t.v1) (s.corner t.v2) = pqr at sorted ht
  obtain ⟨p, q, r⟩ := pqr
  dsimp only at ht
  split at ht <;> cases ht
  exact resolvesTriangle_iff.2 sorted

/-- Every triangle that was set up comes from one of the slot. -/
theorem of_setUpFrom {setUp : Triangle → Except (Int32 × Int32 × Int32) Triangle} {n : Nat}
    {ts ts' : List Triangle} (h : setUpFrom setUp n ts = .ok ts') :
    ts'.length = ts.length ∧ ∀ t' ∈ ts', ∃ t ∈ ts, setUp t = .ok t' := by
  induction ts generalizing n ts' with
  | nil =>
    cases h
    exact ⟨rfl, nofun⟩
  | cons t ts ih =>
    rw [setUpFrom] at h
    split at h
    · cases h
    · rename_i u hu
      split at h <;> cases h
      rename_i us hus
      obtain ⟨length, all⟩ := ih hus
      refine ⟨congrArg Nat.succ length, List.forall_mem_cons.2 ⟨?_, fun t' ht' => ?_⟩⟩
      · exact ⟨t, List.mem_cons_self, hu⟩
      · obtain ⟨v, hv, setUp⟩ := all t' ht'
        exact ⟨v, List.mem_cons_of_mem _ hv, setUp⟩

theorem Fits.setUp (h : s.Fits) (hs : s.setUp = .ok s') : s'.Fits := by
  rw [Slot.setUp] at hs
  split at hs <;> cases hs
  rename_i ts hts
  obtain ⟨length, all⟩ := of_setUpFrom hts
  refine ⟨h.vertices, ?_, fun t' ht' => ?_⟩
  · rw [List.size_toArray, length, Array.length_toList]
    exact h.triangles
  · obtain ⟨t, ht, setUp⟩ := all t' (List.mem_toArray.1 ht')
    exact resolvesTriangle_setUp (h.resolved t (Array.mem_toList_iff.1 ht)) setUp

section

variable {setUp : Triangle → Except (Int32 × Int32 × Int32) Triangle}
  {inOrder : Triangle → Triangle}

theorem length_setUpPart (ts : List Triangle) :
    (setUpPart setUp inOrder ts).length = ts.length := by
  induction ts with
  | nil => rfl
  | cons t ts ih =>
    rw [setUpPart]
    split
    · rfl
    · rw [List.length_cons, List.length_cons, ih]

/-- What holds of the triangles and is kept by set-up holds of them however far they have
    come. -/
theorem forall_mem_setUpPart {P : Triangle → Prop} {ts : List Triangle} (h : ∀ t ∈ ts, P t)
    (ready : ∀ t u, P t → setUp t = .ok u → P u) (ordered : ∀ t, P t → P (inOrder t)) :
    ∀ t ∈ setUpPart setUp inOrder ts, P t := by
  induction ts with
  | nil => exact h
  | cons t ts ih =>
    rw [List.forall_mem_cons] at h
    rw [setUpPart]
    split
    · exact List.forall_mem_cons.2 ⟨ordered t h.1, h.2⟩
    · rename_i u set
      exact List.forall_mem_cons.2 ⟨ready t u h.1 set, ih h.2⟩

end

@[simp] theorem size_triangles_halfSetUp (s : Slot) :
    s.halfSetUp.triangles.size = s.triangles.size := by
  rw [halfSetUp, List.size_toArray, length_setUpPart, Array.length_toList]

/-- A frame that is half set up fits as well. -/
theorem Fits.halfSetUp (h : s.Fits) : s.halfSetUp.Fits where
  vertices := h.vertices
  triangles := s.size_triangles_halfSetUp ▸ h.triangles
  resolved t ht :=
    forall_mem_setUpPart (P := fun t => s.resolvesTriangle t = true)
      (fun t ht => h.resolved t (Array.mem_toList_iff.1 ht))
      (fun _ _ resolved => resolvesTriangle_setUp resolved)
      (fun _ => resolvesTriangle_inOrder) t (List.mem_toArray.1 ht)

/-- Whether a slot fits does not depend on the bounds that drawing moves. -/
theorem fits_still_iff : s.still.Fits ↔ s.Fits := by
  have size : s.still.triangles.size = s.triangles.size := Array.size_map
  refine ⟨fun h => ⟨h.vertices, size ▸ h.triangles, fun t ht => ?_⟩,
    fun h => ⟨h.vertices, size ▸ h.triangles, fun t ht => ?_⟩⟩
  · exact h.resolved t.still (Array.mem_map_of_mem ht)
  · obtain ⟨u, hu, rfl⟩ := Array.mem_map.1 ht
    exact h.resolved u hu

theorem Fits.restart (h : s.Fits) : s.restart.Fits := by
  rw [← fits_still_iff, still_restart, fits_still_iff]
  exact h

theorem Fits.draw (h : s.Fits) (config : RenderConfig) (buckets : Buckets) (c : Cursor) (y : Int)
    (canvas : Canvas) : (s.draw config buckets c y canvas).2.2.Fits := by
  rw [← fits_still_iff, still_draw, fits_still_iff]
  exact h

end Slot

/-! ### Both slots -/

namespace Frames

variable {f : Frames} {g : Slot → Slot}

theorem fits_empty : ({} : Frames).Fits := ⟨Slot.fits_empty, Slot.fits_empty⟩

theorem Fits.next (h : f.Fits) : f.next.Fits := by
  rw [Frames.next]
  split
  · exact h.odd
  · exact h.even

theorem Fits.current (h : f.Fits) : f.current.Fits := by
  rw [Frames.current]
  split
  · exact h.even
  · exact h.odd

theorem Fits.mapNext (h : f.Fits) (hg : (g f.next).Fits) : (f.mapNext g).Fits := by
  rw [Frames.mapNext, Frames.next] at *
  split at hg <;> rename_i odd
  · rw [if_pos odd]
    exact ⟨h.even, hg⟩
  · rw [if_neg odd]
    exact ⟨hg, h.odd⟩

theorem Fits.mapCurrent (h : f.Fits) (hg : (g f.current).Fits) : (f.mapCurrent g).Fits := by
  rw [Frames.mapCurrent, Frames.current] at *
  split at hg <;> rename_i odd
  · rw [if_pos odd]
    exact ⟨hg, h.odd⟩
  · rw [if_neg odd]
    exact ⟨h.even, hg⟩

theorem Fits.swap (h : f.Fits) : f.swap.Fits := by
  refine Fits.mapNext (f := { f with counter := f.counter + 1 }) ?_ Slot.fits_empty
  exact ⟨h.even, h.odd⟩

end Frames

/-! ### Engines -/

namespace Engine

variable {e e' : Engine}

theorem fits_prepare (h : e.frames.Fits) (he : e.prepare = .ok e') : e'.frames.Fits := by
  obtain ⟨s, set, rfl⟩ := effect_of_prepare he
  exact h.mapNext (g := fun _ => s) (h.next.setUp set)

/-- A command that is carried out leaves slots behind that fit. -/
theorem fits_process (h : e.frames.Fits) {c : Command} (he : e.process c = .ok e') :
    e'.frames.Fits := by
  cases effect_of_process he with
  | viewport view => exact h
  | vertex room => exact h.mapNext (h.next.pushVertex room _)
  | polygon sound => exact h.mapNext (h.next.addPolygon sound _)
  | swapBuffers prepared => exact (fits_prepare h prepared).swap

/-- So does one that raises a fault. -/
theorem fits_abandon (h : e.frames.Fits) (c : Command) : (e.abandon c).frames.Fits := by
  obtain same | half := e.abandon_cases c
  · rw [same]
    exact h
  · rw [half]
    exact h.mapNext h.next.halfSetUp

theorem fits_submit (h : e.frames.Fits) (c : Command) : (e.submit c).2.frames.Fits := by
  rw [submit]
  split
  · exact h
  · split
    · rename_i e' he
      exact fits_process h he
    · exact fits_abandon h c

/-- Whatever is loaded, the slots fit: those of a state that is accepted, and those that
    are empty because it is not. -/
theorem fits_load (e : Engine) (bs : List UInt8) : (e.load bs).1.frames.Fits := by
  obtain ⟨view, frames, hload⟩ | hload := e.load_cases bs
  · rw [hload]
    exact ((load_eq_iff { e with viewport := view, frames } e bs).1 hload).1
  · rw [hload]
    exact Frames.fits_empty

end Engine

/-- What keeps all that is submitted keeps every instruction, and every call. -/
theorem keeps_fits : FrontEnd.Keeps fun _ _ (e : Engine) => e.frames.Fits :=
  FrontEnd.keeps_of_submit (fun _ c h => Engine.fits_submit h c) (fun _ _ h => h)

/-! ### Sessions -/

namespace Session

variable {s : Session}

theorem fits_step (h : s.engine.frames.Fits) (a : Action) : (s.step a).engine.frames.Fits := by
  cases a with
  | call c => exact keeps_fits.call s.frontEnd s.engine c h
  | submit c => exact Engine.fits_submit h c
  | process c =>
    rw [step]
    split
    · rename_i e he
      exact Engine.fits_process h he
    · exact Engine.fits_abandon h c
  | beginPass => exact h.mapCurrent h.current.restart
  | draw config c y canvas =>
    exact h.mapCurrent (g := fun slot => (slot.draw config s.buckets c y canvas).2.2)
      (h.current.draw config s.buckets c y canvas)
  | save => exact h
  | load bs => exact Engine.fits_load s.engine bs

theorem run_fits (actions : List Action) : (({} : Session).run actions).engine.frames.Fits :=
  run_induction (P := fun s => s.engine.frames.Fits) (fun _ a _ h => fits_step h a)
    Frames.fits_empty

end Session

end GeometryEngine
