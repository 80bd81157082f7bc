import GeometryEngine.Divisors
import GeometryEngine.Proofs.Arrivals
import GeometryEngine.Proofs.Quads

/-!
# What vertices are divided by

Only vertices that are not beyond a plane are projected, and each of them once. So what matters
is whether those of them that are still to be projected can be divided
(`Slot.IsDivisible`): then every look at a divisor lets it through, and a command does what it
does without looking.

* `Engine.process?_eq`: this is so also when there is no room for any triangle.
* `Slot.Guarded.process`: commands do not undo it, as long as what arrives can be divided.
* `Session.guarded_events`: so it holds of every command that is carried out in a session.
* `Session.load_divides_iff`: after a load the engine can be made to divide by zero if and only if
  there is room for a triangle, and a vertex with a last coordinate of `0` that is neither
  projected nor flagged.
-/

namespace GeometryEngine

variable {may : Fixed → Bool} (view : Viewport)

/-! ### Looking at one vertex -/

theorem Vertex.project?_eq (v : Vertex) :
    v.project? may view = if v.isProjected || may v.w then some (v.project view) else none := by
  rw [project?, project]
  cases v.isProjected with
  | true => rfl
  | false => cases allowed : may v.w <;> simp [spread?, Fixed.div?, allowed, spread]

namespace Slot

variable {s : Slot} {i : Int32} {cs : List Int32}

theorem project?_eq (resolved : s.resolves i = true) :
    s.project? may view i =
      if (s.vertex i).isProjected || may (s.vertex i).w then some (s.project view i)
      else none := by
  obtain ⟨inside, found⟩ := Array.getElem?_eq_some_iff.1 (getElem?_of_resolves resolved)
  rw [project?, project, Array.modifyM, dif_pos inside, found]
  simp only [Vertex.project?_eq]
  split
  · simp [Array.modify, Array.modifyM, inside, found]
  · rfl

/-! ### Vertices that are still to be projected -/

/-- A vertex that is not beyond a plane is projected, or can be divided. -/
def IsDivisible (may : Fixed → Bool) (s : Slot) : Prop :=
  ∀ v ∈ s.vertices, v.isOutside = false → v.isProjected = true ∨ may v.w = true

/-- Vertices that are still to be projected can be divided, or there is no room for triangles
    between them. -/
def Guarded (may : Fixed → Bool) (s : Slot) : Prop :=
  s.IsDivisible may ∨ capacity ≤ s.triangles.size

theorem isDivisible_empty : IsDivisible may {} := fun _ hv => absurd hv (Array.not_mem_empty _)

theorem IsDivisible.pushVertex (h : s.IsDivisible may) {v : Vertex}
    (hv : v.isOutside = false → may v.w = true) : (s.pushVertex v).IsDivisible may := by
  intro u hu inside
  rcases Array.mem_push.1 hu with hu | rfl
  · exact h u hu inside
  · exact .inr (hv inside)

theorem IsDivisible.project (h : s.IsDivisible may) (i : Int32) :
    (s.project view i).IsDivisible may := by
  intro v hv inside
  obtain ⟨u, hu, rfl | rfl⟩ := mem_vertices_project view hv
  · exact h v hu inside
  · exact .inl (Vertex.isProjected_project view u)

theorem IsDivisible.addPolygon (h : s.IsDivisible may) (v0 v1 v2 v3 : Int32)
    (attributes : UInt32) :
    (Engine.addPolygon view v0 v1 v2 v3 attributes s).IsDivisible may := by
  rw [addPolygon_eq]
  split
  · exact h
  · exact s.foldl_project_keep view (P := IsDivisible may) _ (fun _ i h => h.project view i) h

theorem size_triangles_le_addPolygon (s : Slot) (v0 v1 v2 v3 : Int32) (attributes : UInt32) :
    s.triangles.size ≤ (Engine.addPolygon view v0 v1 v2 v3 attributes s).triangles.size := by
  rw [addPolygon_eq]
  split
  · exact Nat.le_refl _
  · rw [Array.size_append]
    exact Nat.le_add_right _ _

/-- Corners that are visible can be projected one after another. -/
theorem IsDivisible.foldlM_project? (h : s.IsDivisible may)
    (visible : ∀ c ∈ cs, s.IsVisible c) :
    cs.foldlM (Slot.project? may view) s = some (cs.foldl (Slot.project view) s) := by
  induction cs generalizing s with
  | nil => rfl
  | cons c cs ih =>
    obtain ⟨first, others⟩ := List.forall_mem_cons.1 visible
    have mem : s.vertex c ∈ s.vertices :=
      Array.mem_of_getElem? (getElem?_of_resolves first.resolved)
    have allowed := h _ mem first.inside
    rw [← Bool.or_eq_true] at allowed
    rw [List.foldlM_cons, project?_eq view first.resolved, if_pos allowed]
    exact ih (h.project view c) fun d hd => (others d hd).project view c

end Slot

/-! ### Commands -/

namespace Engine

variable {e e' : Engine} {c : Command}

/-- A command that raises a fault divides nothing before. -/
theorem process?_of_error {f : Fault} (he : e.process c = .error f) :
    e.process? may c = some (.error f) := by
  cases c with
  | polygon v0 v1 v2 v3 attributes =>
    simp only [process] at he
    split at he <;> rename_i fault <;> cases he
    simp only [process?, fault]
  | _ => exact congrArg some he

/-- A polygon is added without looking at divisors if its corners are resolved, and some of them
    are outside or all can be divided. -/
theorem addPolygon?_eq {s : Slot} {v0 v1 v2 v3 : Int32} {attributes : UInt32}
    (resolved : ∀ c ∈ corners v0 v1 v2 v3 attributes, s.resolves c = true)
    (h : anyOutside s (corners v0 v1 v2 v3 attributes) = true ∨ s.IsDivisible may) :
    addPolygon? may view v0 v1 v2 v3 attributes s =
      some (addPolygon view v0 v1 v2 v3 attributes s) := by
  rw [addPolygon?, addPolygon]
  cases outside : anyOutside s (corners v0 v1 v2 v3 attributes) with
  | true => rfl
  | false =>
    have divisible := h.resolve_left (Bool.eq_false_iff.1 outside)
    have visible : ∀ c ∈ corners v0 v1 v2 v3 attributes, s.IsVisible c := fun c hc =>
      ⟨resolved c hc, anyOutside_eq_false_iff.1 outside c hc⟩
    simp only [Bool.false_eq_true, if_false]
    rw [divisible.foldlM_project? view visible]
    rfl

/-- No divisor is held back while a command is carried out. -/
theorem process?_eq (h : e.frames.next.Guarded may) (c : Command) :
    e.process? may c = some (e.process c) := by
  cases c with
  | polygon v0 v1 v2 v3 attributes =>
    rw [process?, process]
    cases sound : polygonFault? e.frames.counter e.frames.next v0 v1 v2 v3 attributes with
    | some f => rfl
    | none =>
      obtain ⟨resolved, room⟩ := Slot.polygonFault?_eq_none sound
      -- If there is room for a triangle, it is the vertices that guard the frame.
      have guarded := room.imp_right fun room => h.resolve_right fun full => by
        have := length_corners v0 v1 v2 v3 attributes
        split at this <;> omega
      have same : e.frames.mapNext (fun _ => addPolygon e.viewport v0 v1 v2 v3 attributes
          e.frames.next) = e.frames.mapNext (addPolygon e.viewport v0 v1 v2 v3 attributes) :=
        Frames.mapNext_congr rfl
      simp only [addPolygon?_eq e.viewport resolved guarded, Option.bind_eq_bind,
        Option.bind_some, same]
  | _ => rfl

/-- So where a divisor is held back, the command would have been carried out. -/
theorem process_of_process?_eq_none (h : e.process? may c = none) :
    ∃ e', e.process c = .ok e' := by
  cases he : e.process c with
  | ok e' => exact ⟨e', rfl⟩
  | error f => cases (process?_of_error he).symm.trans h

/-- A frame that is not guarded has a polygon that brings up a divisor that is held back. -/
theorem exists_process?_eq_none (fits : e.frames.next.Fits) (h : ¬e.frames.next.Guarded may) :
    ∃ i : Int32, e.process? may (.polygon i i i 0 0) = none := by
  obtain ⟨⟨v, hv, inside, fresh, held⟩, room⟩ : (∃ v ∈ e.frames.next.vertices,
      v.isOutside = false ∧ v.isProjected = false ∧ may v.w = false) ∧
        e.frames.next.triangles.size < Slot.capacity := by
    simpa [Slot.Guarded, Slot.IsDivisible] using h
  obtain ⟨n, hn, rfl⟩ := Array.mem_iff_getElem.1 hv
  have few : n < 2 ^ 31 := Nat.lt_of_lt_of_le (Nat.lt_of_lt_of_le hn fits.vertices) (by decide)
  have resolved := Slot.resolves_ofNat hn few
  have same : e.frames.next.vertex (.ofNat n) = e.frames.next.vertices[n] := by
    have found := Slot.getElem?_of_resolves resolved
    rw [Int32.toNatClampNeg, Int32.toInt_ofNat_of_lt few, Int.toNat_natCast,
      Array.getElem?_eq_getElem hn] at found
    exact (Option.some.inj found).symm
  rw [← same] at inside fresh held
  have three : corners (.ofNat n) (.ofNat n) (.ofNat n) 0 0 = [.ofNat n, .ofNat n, .ofNat n] := rfl
  have visible : ∀ i ∈ [Int32.ofNat n, .ofNat n, .ofNat n], e.frames.next.IsVisible i := by
    simp [Slot.IsVisible.mk resolved inside]
  have sound : polygonFault? e.frames.counter e.frames.next (.ofNat n) (.ofNat n) (.ofNat n) 0 0 =
      none := by
    have found := (dangling?_eq_none_iff e.frames.next [.ofNat n, .ofNat n, .ofNat n]).2
      fun i hi => (visible i hi).resolved
    rw [polygonFault?_of_resolved (three ▸ found) rfl]
    exact if_neg fun full => Nat.not_lt.2 room full.2
  have none := anyOutside_eq_false_iff.2 fun i hi => (visible i hi).inside
  refine ⟨.ofNat n, ?_⟩
  simp only [process?, sound, addPolygon?, three, none, Bool.false_eq_true, if_false,
    List.foldlM_cons, Slot.project?_eq e.viewport resolved, fresh, held, Bool.or_false,
    Option.bind_eq_bind, Option.bind_none]

end Engine

theorem Slot.Guarded.process {e e' : Engine} {c : Command} (h : e.frames.next.Guarded may)
    (arrives : ∀ x y z w, (Vertex.ofClip x y z w).isOutside = false → may w = true)
    (he : e.process c = .ok e') : e'.frames.next.Guarded may := by
  cases Engine.effect_of_process he with
  | viewport view => exact h
  | @vertex x y z w room =>
    rw [Frames.next_mapNext]
    exact h.imp_left fun h => h.pushVertex (arrives x y z w)
  | @polygon v0 v1 v2 v3 attributes sound =>
    rw [Frames.next_mapNext]
    refine h.imp (fun h => h.addPolygon _ v0 v1 v2 v3 attributes) fun full => ?_
    exact Nat.le_trans full (size_triangles_le_addPolygon ..)
  | swapBuffers prepared =>
    rw [Engine.promote, Frames.next_swap]
    exact .inl isDivisible_empty

/-- Set-up changes no vertex, and takes no triangle away. -/
theorem Slot.Guarded.halfSetUp {s : Slot} (h : s.Guarded may) : s.halfSetUp.Guarded may :=
  h.imp_right fun full => s.size_triangles_halfSetUp ▸ full

/-! ### Sessions -/

section Events

variable {P : Slot → Prop}
  (kept : ∀ {e e' : Engine} {c : Command}, P e.frames.next → e.process c = .ok e' →
    P e'.frames.next)
  (left : ∀ s : Slot, P s → P s.halfSetUp)
include left

theorem Engine.next_abandon {e : Engine} (h : P e.frames.next) (c : Command) :
    P (e.abandon c).frames.next := by
  obtain same | half := e.abandon_cases c
  · rw [same]
    exact h
  · rw [half, Frames.next_mapNext]
    exact left _ h

include kept

theorem Engine.next_submit {e : Engine} (h : P e.frames.next) (c : Command) :
    P (e.submit c).2.frames.next ∧
      ∀ ev ∈ if e.isHalted then [] else e.events c, P ev.engine.frames.next := by
  rw [submit]
  split
  · exact ⟨h, List.forall_mem_nil _⟩
  · rw [events]
    cases he : e.process c with
    | ok e' => exact ⟨kept h he, List.forall_mem_singleton.2 h⟩
    | error f => exact ⟨next_abandon (P := P) left h c, List.forall_mem_nil _⟩

theorem Diary.keeps_next : FrontEnd.Keeps fun _ _ (d : Diary) =>
    P d.engine.frames.next ∧ ∀ ev ∈ d.events, P ev.engine.frames.next := by
  refine FrontEnd.keeps_of_submit (P := fun d : Diary => P d.engine.frames.next ∧
    ∀ ev ∈ d.events, P ev.engine.frames.next) (fun d c h => ?_) (fun _ _ h => h)
  obtain ⟨next, carried⟩ := d.engine.next_submit kept left h.1 c
  exact ⟨next, List.forall_mem_append.2 ⟨h.2, carried⟩⟩

namespace Session

variable {s : Session}

theorem next_step (h : P s.engine.frames.next) {a : Action} (other : ∀ bs, a ≠ .load bs) :
    P (s.step a).engine.frames.next ∧ ∀ ev ∈ s.eventsOf a, P ev.engine.frames.next := by
  cases a with
  | call c =>
    have seen := FrontEnd.call_view Diary.isView_engine s.frontEnd ⟨s.engine, []⟩ c
    rw [step, seen]
    exact (Diary.keeps_next kept left).call s.frontEnd ⟨s.engine, []⟩ c ⟨h, List.forall_mem_nil _⟩
  | submit c => exact Engine.next_submit kept left h c
  | process c =>
    rw [step, eventsOf, Engine.events]
    cases he : s.engine.process c with
    | ok e => exact ⟨kept h he, List.forall_mem_singleton.2 h⟩
    | error f => exact ⟨Engine.next_abandon (P := P) left h c, List.forall_mem_nil _⟩
  | beginPass => exact ⟨(Frames.next_mapCurrent Slot.restart _).symm ▸ h, List.forall_mem_nil _⟩
  | draw config c y canvas => exact ⟨(Frames.next_mapCurrent _ _).symm ▸ h, List.forall_mem_nil _⟩
  | save => exact ⟨h, List.forall_mem_nil _⟩
  | load bs => exact absurd rfl (other bs)

/-- What commands keep in the frame that they build is there for each of them. -/
theorem next_events (h : P s.engine.frames.next) {actions : List Action}
    (others : ∀ a ∈ actions, ∀ bs, a ≠ .load bs) :
    ∀ ev ∈ s.events actions, P ev.engine.frames.next := by
  induction actions generalizing s with
  | nil => exact List.forall_mem_nil _
  | cons a as ih =>
    obtain ⟨first, others⟩ := List.forall_mem_cons.1 others
    obtain ⟨next, now⟩ := next_step kept left h first
    exact List.forall_mem_append.2 ⟨now, ih next others⟩

end Session

end Events

namespace Session

variable {s : Session}

/-- In a session that begins with a guarded frame, and has no state loaded, no divisor is held
    back. -/
theorem guarded_events (h : s.engine.frames.next.Guarded may)
    (arrives : ∀ x y z w, (Vertex.ofClip x y z w).isOutside = false → may w = true)
    {actions : List Action} (others : ∀ a ∈ actions, ∀ bs, a ≠ .load bs) :
    ∀ ev ∈ s.events actions,
      ev.engine.process? may ev.command = some (ev.engine.process ev.command) :=
  fun ev hev => Engine.process?_eq
    (next_events (P := Slot.Guarded may) (fun h he => h.process arrives he) (fun _ h => h.halfSetUp)
      h others ev hev) _

theorem events_of_process?_eq_none {c : Command} (running : s.engine.isHalted = false)
    (h : s.engine.process? may c = none) : s.events [.submit c] = [⟨s.engine, c⟩] := by
  obtain ⟨e, processed⟩ := Engine.process_of_process?_eq_none h
  simp only [events, eventsOf, running, Engine.events, processed]
  rfl

/-- After a load, the engine divides by no zero, whatever is submitted to it, if and only if
    there is no room for a triangle in the frame that is built, or every vertex of that frame
    is flagged as beyond a plane, projected, or can be divided. Then nothing else that is done
    without another load makes it do so either. -/
theorem load_divides_iff (running : s.engine.isHalted = false) (bs : List UInt8) :
    let t := s.step (.load bs)
    let slot := t.engine.frames.next
    let divides (ev : Event) := ev.engine.process? (· != 0) ev.command = none
    let sound := (∀ v ∈ slot.vertices, v.isOutside = false → v.isProjected = true ∨ v.w ≠ 0) ∨
      Slot.capacity ≤ slot.triangles.size
    ((∀ commands : List Command, ∀ ev ∈ t.events (commands.map .submit), ¬divides ev) ↔ sound) ∧
      (sound → ∀ actions : List Action, (∀ a ∈ actions, ∀ bs, a ≠ .load bs) →
        ∀ ev ∈ t.events actions, ¬divides ev) := by
  intro t slot divides sound
  have guarded_iff : slot.Guarded (· != 0) ↔ sound := by
    simp only [Slot.Guarded, Slot.IsDivisible, sound, bne_iff_ne]
  have safe (h : sound) (actions : List Action) (others : ∀ a ∈ actions, ∀ bs, a ≠ .load bs) :
      ∀ ev ∈ t.events actions, ¬divides ev := by
    intro ev hev none
    have arrives (x y z w : Fixed) (inside : (Vertex.ofClip x y z w).isOutside = false) :
        (w != 0) = true := bne_iff_ne.2 (Vertex.w_ne_zero_of_ofClip inside)
    have looked := guarded_events (guarded_iff.2 h) arrives others ev hev
    exact Option.some_ne_none _ (looked.symm.trans none)
  refine ⟨⟨fun h => guarded_iff.1 (by_contra fun flaw => ?_), fun h commands => ?_⟩, safe⟩
  · have fits : slot.Fits := (Engine.fits_load s.engine bs).next
    obtain ⟨i, none⟩ := Engine.exists_process?_eq_none fits flaw
    have running : t.engine.isHalted = false := (Engine.isHalted_load s.engine bs).trans running
    refine h [.polygon i i i 0 0] ⟨t.engine, .polygon i i i 0 0⟩ ?_ none
    rw [List.map_singleton, events_of_process?_eq_none running none]
    exact List.mem_singleton_self _
  · refine safe h _ fun a ha bs => ?_
    obtain ⟨c, -, rfl⟩ := List.mem_map.1 ha
    exact nofun

/-- A vertex that was saved before it was projected can be divided after a load. -/
theorem load_divides_iff_saved :
    let saved := (({} : Session).run [.submit (.vertex 0 0 0 1)]).engine.save
    let t := ({} : Session).step (.load saved)
    ({} : Session).engine.isHalted = false ∧ t.engine.frames.next.vertices.size = 1 ∧
      ∀ commands : List Command, ∀ ev ∈ t.events (commands.map .submit),
        ev.engine.process? (· != 0) ev.command ≠ none := by
  intro saved t
  have sound : ∀ v ∈ t.engine.frames.next.vertices.toList,
      v.isOutside = false → v.isProjected = true ∨ v.w ≠ 0 := by decide +kernel
  exact ⟨rfl, by decide +kernel,
    (load_divides_iff rfl saved).1.2 (.inl fun v hv => sound v (Array.mem_toList_iff.2 hv))⟩

/-- A state with a vertex of zeros, which no flag keeps from being projected, is accepted. The
    first polygon at that vertex divides by zero. -/
theorem divides_by_zero_of_load :
    let bs : List UInt8 := List.replicate 20 0 ++ [1, 0, 0, 0] ++ List.replicate 44 0
    let t := ({} : Session).step (.load bs)
    (({} : Engine).load bs).2 = true ∧ t.engine.frames.next.vertices = #[{}] ∧
      ∃ ev ∈ t.events [.submit (.polygon 0 0 0 0 0)],
        ev.command = .polygon 0 0 0 0 0 ∧ ev.engine.process? (· != 0) ev.command = none := by
  intro bs t
  have none : t.engine.process? (· != 0) (.polygon 0 0 0 0 0) = none :=
    Option.isNone_iff_eq_none.1 (by decide +kernel)
  refine ⟨by decide +kernel, by decide +kernel, ⟨t.engine, .polygon 0 0 0 0 0⟩, ?_, rfl, none⟩
  have running : t.engine.isHalted = false := by decide +kernel
  rw [events_of_process?_eq_none running none]
  exact List.mem_singleton_self _

end Session

end GeometryEngine
