import GeometryEngine.Proofs.Projection
import GeometryEngine.Proofs.Shown
import Mathlib.Data.List.DropRight

/-!
# What has become of the vertices

The vertices of the frame that is being built, told from what was carried out since the last
swap: they are those that have arrived, in order, and each of them is projected by the first
polygon that refers to it, into the viewport of that moment.

* `Event`: a command that was carried out, with the engine that it met. A polygon with a corner
  beyond a plane is left out, and refers to no vertex (`Event.refersTo`).
* `Event.placed`: what has become of a vertex.
* `Engine.Records.process`: every command keeps to this, and so does every session
  (`Session.records_run`).
* `Session.run_projects`: a vertex is projected if and only if a polygon has referred to it, and
  nothing moves it after that.
-/

namespace GeometryEngine

/-! ### Vertices -/

namespace Vertex

theorem isProjected_ofClip (x y z w : Fixed) : (ofClip x y z w).isProjected = false := by
  rw [isProjected, ofClip, planesBeyond_and_projected]
  rfl

/-- Where projection places a vertex. -/
structure IsPlaced (view : Viewport) (v : Vertex) : Prop where
  screenX : v.screenX = spread v.x v.w view.width view.left
  screenY : v.screenY = spread v.y v.w view.height view.top
  depth : v.depth = ((v.z + v.w).divInt 2 / v.w).floor

theorem isPlaced_project (view : Viewport) {v : Vertex} (fresh : v.isProjected = false) :
    (v.project view).IsPlaced view := by
  rw [project, fresh]
  exact ⟨rfl, rfl, rfl⟩

/-- Two vertices have the same place in clip space, and lie beyond the same planes. -/
structure SameClip (v v' : Vertex) : Prop where
  x : v.x = v'.x
  y : v.y = v'.y
  z : v.z = v'.z
  w : v.w = v'.w
  planes : v.flags &&& Flag.anyPlane = v'.flags &&& Flag.anyPlane

namespace SameClip

variable {v v' v'' : Vertex}

theorem symm (h : v.SameClip v') : v'.SameClip v :=
  ⟨h.x.symm, h.y.symm, h.z.symm, h.w.symm, h.planes.symm⟩

theorem trans (h : v.SameClip v') (h' : v'.SameClip v'') : v.SameClip v'' :=
  ⟨h.x.trans h'.x, h.y.trans h'.y, h.z.trans h'.z, h.w.trans h'.w, h.planes.trans h'.planes⟩

end SameClip

theorem sameClip_project (view : Viewport) (v : Vertex) : (v.project view).SameClip v := by
  rw [project]
  split
  · exact ⟨rfl, rfl, rfl, rfl, rfl⟩
  · have apart : Flag.projected &&& Flag.anyPlane = 0 := by decide
    exact ⟨rfl, rfl, rfl, rfl, by rw [bits_or_and, apart, UInt32.or_zero]⟩

end Vertex

/-! ### Events -/

/-- A command that was carried out. -/
structure Event where
  /-- The engine before the command. -/
  engine : Engine
  /-- The command. -/
  command : Command

namespace Event

/-- The vertex that has arrived with the command. -/
def arrival? (ev : Event) : Option Vertex :=
  match ev.command with
  | .vertex x y z w => some (.ofClip x y z w)
  | _ => none

/-- Whether the command is a polygon with vertex number `i` among its corners, none of which
    lies beyond a plane. -/
def refersTo (i : Nat) (ev : Event) : Bool :=
  match ev.command with
  | .polygon v0 v1 v2 v3 attributes =>
    let cs := Engine.corners v0 v1 v2 v3 attributes
    !Engine.anyOutside ev.engine.frames.next cs && cs.any fun c => c.toInt == i
  | _ => false

/-- A vertex arrives with no place on the screen. -/
theorem isProjected_of_arrival? {ev : Event} {v : Vertex} (arrives : ev.arrival? = some v) :
    v.isProjected = false := by
  unfold arrival? at arrives
  split at arrives
  · cases arrives
    exact Vertex.isProjected_ofClip ..
  · cases arrives

/-- What was carried out for the frame that is being built. -/
def sinceSwap (log : List Event) : List Event :=
  log.rtakeWhile fun ev => ev.command ≠ .swapBuffers

/-- The vertices that have arrived. -/
def arrivals (frame : List Event) : List Vertex := frame.filterMap arrival?

/-- What has become of vertex number `i`, which has arrived as `v`. -/
def placed (frame : List Event) (i : Nat) (v : Vertex) : Vertex :=
  match frame.find? (refersTo i) with
  | some ev => v.project ev.engine.viewport
  | none => v

variable {frame : List Event} {i : Nat}

theorem sinceSwap_concat (log : List Event) (ev : Event) (other : ev.command ≠ .swapBuffers) :
    sinceSwap (log ++ [ev]) = sinceSwap log ++ [ev] :=
  List.rtakeWhile_concat_pos _ _ _ (decide_eq_true other)

theorem sinceSwap_concat_swap (log : List Event) (ev : Event) (swap : ev.command = .swapBuffers) :
    sinceSwap (log ++ [ev]) = [] :=
  List.rtakeWhile_concat_neg _ _ _ (by simpa using swap)

/-- Without a swap, all that comes later is for the same frame. -/
theorem sinceSwap_append (log : List Event) {more : List Event}
    (others : ∀ ev ∈ more, ev.command ≠ .swapBuffers) :
    sinceSwap (log ++ more) = sinceSwap log ++ more := by
  induction more using List.reverseRecOn with
  | nil => rw [List.append_nil, List.append_nil]
  | append_singleton more ev ih =>
    obtain ⟨earlier, last⟩ := List.forall_mem_append.1 others
    rw [← List.append_assoc, sinceSwap_concat _ ev (last ev (List.mem_singleton_self ev)),
      ih earlier, List.append_assoc]

/-- Only the first polygon that refers to a vertex moves it. -/
theorem placed_concat (frame : List Event) (ev : Event) (i : Nat) (v : Vertex) :
    placed (frame ++ [ev]) i v =
      if ev.refersTo i then (placed frame i v).project ev.engine.viewport
      else placed frame i v := by
  unfold placed
  rw [List.find?_append]
  cases frame.find? (refersTo i) with
  | some first =>
    rw [Option.some_or, Vertex.project_project, ite_self]
  | none =>
    rw [Option.none_or, List.find?_singleton]
    cases ev.refersTo i <;> rfl

/-- Whatever has become of a vertex, it is where it arrived in clip space. -/
theorem sameClip_placed (frame : List Event) (i : Nat) (v : Vertex) :
    (placed frame i v).SameClip v := by
  unfold placed
  split
  · exact Vertex.sameClip_project _ v
  · exact ⟨rfl, rfl, rfl, rfl, rfl⟩

/-- A vertex is projected as soon as a polygon refers to it. -/
theorem isProjected_placed (frame : List Event) (i : Nat) {v : Vertex}
    (fresh : v.isProjected = false) :
    (placed frame i v).isProjected = true ↔ ∃ ev ∈ frame, ev.refersTo i = true := by
  unfold placed
  split
  · rename_i ev found
    exact iff_of_true (Vertex.isProjected_project _ v)
      ⟨ev, List.mem_of_find?_eq_some found, List.find?_some found⟩
  · rename_i none
    rw [fresh]
    exact iff_of_false Bool.false_ne_true
      fun ⟨ev, hev, refers⟩ => List.find?_eq_none.1 none ev hev refers

/-- What has become of a vertex stays so, once it is projected. -/
theorem placed_append_of_some {first : Event} (found : frame.find? (refersTo i) = some first)
    (more : List Event) (v : Vertex) : placed (frame ++ more) i v = placed frame i v := by
  rw [placed, placed, List.find?_append, found, Option.some_or]

end Event

/-! ### Vertices of a frame -/

/-- Vertices that are projected one after another are all projected in the same viewport, and
    no vertex more than once. -/
theorem Slot.getElem?_foldl_project (s : Slot) (view : Viewport) (cs : List Int32) (i : Nat) :
    (cs.foldl (Slot.project view) s).vertices[i]? =
      s.vertices[i]?.map fun v =>
        if cs.any fun c => c.toNatClampNeg == i then v.project view else v := by
  induction cs generalizing s with
  | nil => simp
  | cons c cs ih =>
    rw [List.foldl_cons, ih, Slot.project, Array.getElem?_modify, List.any_cons]
    by_cases same : c.toNatClampNeg = i
    · cases s.vertices[i]? with
      | none => simp [same]
      | some v =>
        simp only [same, ↓reduceIte, Option.map_some, beq_self_eq_true, Bool.true_or,
          Vertex.project_project, ite_self]
    · simp only [same, ↓reduceIte, beq_eq_false_iff_ne.2 same, Bool.false_or]

/-- A polygon that is not left out refers to the vertices that it projects. -/
theorem Event.refersTo_polygon {e : Engine} {v0 v1 v2 v3 : Int32} {attributes : UInt32}
    (outside : Engine.anyOutside e.frames.next (Engine.corners v0 v1 v2 v3 attributes) = false)
    (resolved : ∀ c ∈ Engine.corners v0 v1 v2 v3 attributes, e.frames.next.resolves c = true)
    (i : Nat) :
    Event.refersTo i ⟨e, .polygon v0 v1 v2 v3 attributes⟩ =
      (Engine.corners v0 v1 v2 v3 attributes).any fun c => c.toNatClampNeg == i := by
  simp only [Event.refersTo, outside, Bool.not_false, Bool.true_and]
  rw [Bool.eq_iff_iff, List.any_eq_true, List.any_eq_true]
  refine exists_congr fun c => and_congr_right fun hc => ?_
  have bounds := Slot.resolves_iff.1 (resolved c hc)
  rw [beq_iff_eq, beq_iff_eq, Int32.toNatClampNeg]
  omega

namespace Engine

/-- What is in the frame that is being built is what was carried out for it. -/
structure Records (frame : List Event) (e : Engine) : Prop where
  vertices : e.frames.next.vertices.toList = (Event.arrivals frame).mapIdx (Event.placed frame)
  /-- Polygons have referred to vertices that were there. -/
  known : ∀ ev ∈ frame, ∀ i, ev.refersTo i = true → i < (Event.arrivals frame).length

namespace Records

variable {frame : List Event} {e e' : Engine} {c : Command}

theorem size (h : e.Records frame) :
    e.frames.next.vertices.size = (Event.arrivals frame).length := by
  rw [← Array.length_toList, h.vertices, List.length_mapIdx]

theorem getElem? (h : e.Records frame) (i : Nat) :
    e.frames.next.vertices[i]? = (Event.arrivals frame)[i]?.map (Event.placed frame i) := by
  rw [← Array.getElem?_toList, h.vertices, List.getElem?_mapIdx]

/-- What changes no vertex of the frame changes nothing. -/
theorem congr (h : e.Records frame) (same : e'.frames.next.vertices = e.frames.next.vertices) :
    e'.Records frame :=
  ⟨same ▸ h.vertices, h.known⟩

/-- A command that neither brings a vertex nor refers to one may be added. -/
theorem skip (h : e.Records frame) (ev : Event) (brings : ev.arrival? = none)
    (refers : ∀ i, ev.refersTo i = false)
    (next : e'.frames.next.vertices = e.frames.next.vertices) :
    e'.Records (frame ++ [ev]) := by
  have arrivals : Event.arrivals (frame ++ [ev]) = Event.arrivals frame := by
    simp [Event.arrivals, brings]
  have placed : Event.placed (frame ++ [ev]) = Event.placed frame := by
    funext i v
    rw [Event.placed_concat, refers i, if_neg Bool.false_ne_true]
  constructor
  · rw [next, arrivals, placed, h.vertices]
  · intro ev' hev i hi
    rw [arrivals]
    rcases List.mem_append.1 hev with hev | hev
    · exact h.known ev' hev i hi
    · rw [List.mem_singleton.1 hev, refers i] at hi
      cases hi

/-- A vertex that arrives is the last one, and no polygon has referred to it. -/
theorem vertex (h : e.Records frame) (x y z w : Fixed) :
    let e' := { e with frames := e.frames.mapNext (Slot.pushVertex (.ofClip x y z w)) }
    e'.Records (frame ++ [⟨e, .vertex x y z w⟩]) := by
  intro e'
  have arrivals : Event.arrivals (frame ++ [⟨e, .vertex x y z w⟩]) =
      Event.arrivals frame ++ [.ofClip x y z w] := by
    simp [Event.arrivals, Event.arrival?]
  have placed : Event.placed (frame ++ [⟨e, .vertex x y z w⟩]) = Event.placed frame := by
    funext i v
    rw [Event.placed_concat]
    rfl
  have unknown : frame.find? (Event.refersTo (Event.arrivals frame).length) = none := by
    refine List.find?_eq_none.2 fun ev hev refers => ?_
    exact Nat.lt_irrefl _ (h.known ev hev _ refers)
  constructor
  · rw [Frames.next_mapNext, Slot.pushVertex, Array.toList_push, h.vertices, arrivals, placed,
      List.mapIdx_concat]
    congr 2
    rw [Event.placed, unknown]
  · intro ev hev i hi
    rw [arrivals, List.length_append]
    rcases List.mem_append.1 hev with hev | hev
    · exact Nat.lt_add_right _ (h.known ev hev i hi)
    · rw [List.mem_singleton.1 hev] at hi
      cases hi

/-- A polygon projects the vertices that it refers to. -/
theorem polygon (h : e.Records frame) {v0 v1 v2 v3 : Int32} {attributes : UInt32}
    (sound : polygonFault? e.frames.counter e.frames.next v0 v1 v2 v3 attributes = none) :
    let e' := { e with
      frames := e.frames.mapNext (addPolygon e.viewport v0 v1 v2 v3 attributes) }
    e'.Records (frame ++ [⟨e, .polygon v0 v1 v2 v3 attributes⟩]) := by
  intro e'
  let cs := corners v0 v1 v2 v3 attributes
  cases outside : anyOutside e.frames.next cs with
  | true =>
    -- It is left out.
    refine h.skip ⟨e, .polygon v0 v1 v2 v3 attributes⟩ rfl (fun i => ?_) ?_
    · simp [Event.refersTo, cs, outside]
    · rw [Frames.next_mapNext, addPolygon, if_pos outside]
  | false =>
    have resolved : ∀ c ∈ cs, e.frames.next.resolves c = true :=
      (Slot.polygonFault?_eq_none sound).1
    have refers := Event.refersTo_polygon outside resolved
    have arrivals : Event.arrivals (frame ++ [⟨e, .polygon v0 v1 v2 v3 attributes⟩]) =
        Event.arrivals frame := by
      simp [Event.arrivals, Event.arrival?]
    constructor
    · refine List.ext_getElem? fun i => ?_
      rw [Frames.next_mapNext, Slot.addPolygon_eq, if_neg (by simpa using outside), arrivals,
        Array.getElem?_toList, List.getElem?_mapIdx]
      change (cs.foldl (Slot.project e.viewport) e.frames.next).vertices[i]? = _
      rw [Slot.getElem?_foldl_project, h.getElem?, Option.map_map]
      congr 1
      funext v
      rw [Event.placed_concat, refers]
      rfl
    · intro ev hev i hi
      rw [arrivals]
      rcases List.mem_append.1 hev with hev | hev
      · exact h.known ev hev i hi
      · rw [List.mem_singleton.1 hev, refers, List.any_eq_true] at hi
        obtain ⟨c, hc, same⟩ := hi
        rw [beq_iff_eq] at same
        have bounds := Slot.resolves_iff.1 (resolved c hc)
        rw [h.size] at bounds
        rw [← same, Int32.toNatClampNeg]
        omega

/-- A command that is carried out is recorded. -/
theorem process {log : List Event} (h : e.Records (Event.sinceSwap log))
    (he : e.process c = .ok e') : e'.Records (Event.sinceSwap (log ++ [⟨e, c⟩])) := by
  cases effect_of_process he with
  | viewport view =>
    rw [Event.sinceSwap_concat log ⟨e, .viewport view⟩ nofun]
    exact h.skip ⟨e, .viewport view⟩ rfl (fun _ => rfl) rfl
  | @vertex x y z w room =>
    rw [Event.sinceSwap_concat log ⟨e, .vertex x y z w⟩ nofun]
    exact h.vertex x y z w
  | @polygon v0 v1 v2 v3 attributes sound =>
    rw [Event.sinceSwap_concat log ⟨e, .polygon v0 v1 v2 v3 attributes⟩ nofun]
    exact h.polygon sound
  | swapBuffers prepared =>
    rw [Event.sinceSwap_concat_swap log ⟨e, .swapBuffers⟩ rfl]
    refine ⟨?_, nofun⟩
    rw [promote, Frames.next_swap]
    rfl

end Records

end Engine

/-! ### Calls -/

namespace Engine

/-- What there is to be recorded of a command. -/
def events (e : Engine) (c : Command) : List Event :=
  match e.process c with
  | .ok _ => [⟨e, c⟩]
  | .error _ => []

variable {e : Engine}

/-- A command that raises a fault, or that is turned away, leaves no record, and no vertex is
    changed by it. -/
theorem Records.submit {log : List Event} (h : e.Records (Event.sinceSwap log)) (c : Command) :
    (e.submit c).2.Records
      (Event.sinceSwap (log ++ if e.isHalted then [] else e.events c)) := by
  rw [Engine.submit]
  split
  · rw [List.append_nil]
    exact h
  · cases he : e.process c with
    | ok e' =>
      rw [events, he]
      exact h.process he
    | error f =>
      rw [events, he, List.append_nil]
      exact h.congr (vertices_next_abandon e c)

end Engine

/-- An engine, and what it has carried out. -/
structure Diary where
  /-- The engine. -/
  engine : Engine
  /-- What was carried out, the oldest first. -/
  events : List Event := []

namespace Diary

instance : Sink Diary where
  submit d c :=
    let answer := d.engine.submit c
    (answer.1, ⟨answer.2, d.events ++ if d.engine.isHalted then [] else d.engine.events c⟩)
  notify d _ := d

/-- Nobody notices that a diary is kept. -/
theorem isView_engine : Sink.IsView engine where
  submit _ _ := rfl
  notify _ _ := rfl

theorem keeps_records (log : List Event) : FrontEnd.Keeps fun _ _ (d : Diary) =>
    d.engine.Records (Event.sinceSwap (log ++ d.events)) := by
  refine FrontEnd.keeps_of_submit (P := fun d : Diary =>
    d.engine.Records (Event.sinceSwap (log ++ d.events))) (fun d c h => ?_) (fun _ _ h => h)
  have := h.submit c
  rwa [List.append_assoc] at this

end Diary

/-! ### Sessions -/

namespace Session

/-- What is carried out with an action. -/
def eventsOf (s : Session) : Action → List Event
  | .call c => (s.frontEnd.call (⟨s.engine, []⟩ : Diary) c).sink.events
  | .submit c => if s.engine.isHalted then [] else s.engine.events c
  | .process c => s.engine.events c
  | _ => []

/-- What is carried out with all actions of a list, the oldest first. -/
def events (s : Session) : List Action → List Event
  | [] => []
  | a :: as => s.eventsOf a ++ (s.step a).events as

variable {s : Session} {log : List Event}

theorem records_step (h : s.engine.Records (Event.sinceSwap log)) {a : Action}
    (other : ∀ bs, a ≠ .load bs) :
    (s.step a).engine.Records (Event.sinceSwap (log ++ s.eventsOf a)) := by
  cases a with
  | call c =>
    have seen := FrontEnd.call_view Diary.isView_engine s.frontEnd ⟨s.engine, []⟩ c
    rw [step, seen]
    refine (Diary.keeps_records log).call s.frontEnd ⟨s.engine, []⟩ c ?_
    rwa [List.append_nil]
  | submit c => exact h.submit c
  | process c =>
    rw [step, eventsOf, Engine.events]
    cases he : s.engine.process c with
    | ok e => exact h.process he
    | error f =>
      rw [List.append_nil]
      exact h.congr (Engine.vertices_next_abandon s.engine c)
  | beginPass =>
    have quiet : log ++ s.eventsOf .beginPass = log := List.append_nil log
    rw [quiet]
    exact h.congr (congrArg Slot.vertices (Frames.next_mapCurrent Slot.restart _))
  | draw config c y canvas =>
    have quiet : log ++ s.eventsOf (.draw config c y canvas) = log := List.append_nil log
    rw [quiet]
    exact h.congr (congrArg Slot.vertices (Frames.next_mapCurrent _ _))
  | save =>
    have quiet : log ++ s.eventsOf .save = log := List.append_nil log
    rw [quiet]
    exact h
  | load bs => exact absurd rfl (other bs)

theorem records_run (h : s.engine.Records (Event.sinceSwap log)) {actions : List Action}
    (others : ∀ a ∈ actions, ∀ bs, a ≠ .load bs) :
    (s.run actions).engine.Records (Event.sinceSwap (log ++ s.events actions)) := by
  induction actions generalizing s log with
  | nil =>
    rw [events, List.append_nil]
    exact h
  | cons a as ih =>
    obtain ⟨first, others⟩ := List.forall_mem_cons.1 others
    have := ih (records_step h first) others
    rwa [List.append_assoc] at this

/-- In a session of a new engine, whatever the commands and the passes are, as long as no state
    is loaded: the vertices of the frame that is being built are those that have arrived since
    the last swap. A vertex is projected if and only if a polygon that was carried out, and not
    left out, refers to it; the first such polygon placed it, in the viewport of that moment.
    Until the next swap it keeps its number, what it is in clip space, and its place on the
    screen. -/
theorem run_projects {actions : List Action} (others : ∀ a ∈ actions, ∀ bs, a ≠ .load bs) :
    let s := ({} : Session).run actions
    let frame := Event.sinceSwap (({} : Session).events actions)
    let vertices := s.engine.frames.next.vertices
    vertices.size = (Event.arrivals frame).length ∧
      ∀ i v, vertices[i]? = some v →
        (∃ arrived, (Event.arrivals frame)[i]? = some arrived ∧ v.SameClip arrived) ∧
        (v.isProjected = true ↔ ∃ ev ∈ frame, ev.refersTo i = true) ∧
        (∀ ev, frame.find? (Event.refersTo i) = some ev → v.IsPlaced ev.engine.viewport) ∧
        ∀ more, (∀ a ∈ more, ∀ bs, a ≠ .load bs) →
          (∀ ev ∈ s.events more, ev.command ≠ .swapBuffers) →
          ∃ v', (s.run more).engine.frames.next.vertices[i]? = some v' ∧ v'.SameClip v ∧
            (v.isProjected = true → v' = v) := by
  intro s frame vertices
  have blank : ({} : Session).engine.Records (Event.sinceSwap []) := ⟨rfl, nofun⟩
  have records : s.engine.Records frame := records_run blank others
  refine ⟨records.size, fun i v hv => ?_⟩
  obtain ⟨arrived, harrived, hplaced⟩ := Option.map_eq_some_iff.1 (records.getElem? i ▸ hv)
  obtain ⟨ev, -, arrives⟩ := List.mem_filterMap.1 (List.mem_of_getElem? harrived)
  have fresh := Event.isProjected_of_arrival? arrives
  have projected : v.isProjected = true ↔ ∃ ev ∈ frame, ev.refersTo i = true :=
    hplaced ▸ Event.isProjected_placed frame i fresh
  refine ⟨⟨arrived, harrived, hplaced ▸ Event.sameClip_placed frame i arrived⟩, projected,
    fun ev found => ?_, fun more later unswapped => ?_⟩
  · rw [← hplaced, Event.placed, found]
    exact Vertex.isPlaced_project _ fresh
  · have after := records_run records later
    rw [Event.sinceSwap_append _ unswapped] at after
    have still : (Event.arrivals (frame ++ s.events more))[i]? = some arrived := by
      rw [Event.arrivals, List.filterMap_append]
      exact (List.getElem?_append_left (List.getElem?_eq_some_iff.1 harrived).1).trans harrived
    refine ⟨Event.placed (frame ++ s.events more) i arrived, ?_, ?_, fun known => ?_⟩
    · rw [after.getElem?, still, Option.map_some]
    · rw [← hplaced]
      exact (Event.sameClip_placed _ i arrived).trans (Event.sameClip_placed frame i arrived).symm
    · obtain ⟨ev, hev, refers⟩ := projected.1 known
      obtain ⟨first, found⟩ := Option.isSome_iff_exists.1
        (List.find?_isSome.2 ⟨ev, hev, refers⟩)
      rw [Event.placed_append_of_some found, hplaced]

/-- Two vertices arrive, the second of them beyond the right side; a quad that refers to both is
    left out, and one that refers to the first four times is not. A viewport, a vertex and
    another polygon come later, and the first vertex stays at the middle of the screen that it
    was projected to. -/
theorem run_projects_once :
    let view : Viewport := ⟨0, 0, 63, 47⟩
    let actions : List Action := [.submit (.vertex 0 0 0 1), .submit (.vertex 2 0 0 1),
      .submit (.polygon 0 1 0 0 quadBit), .submit (.viewport view),
      .submit (.polygon 0 0 0 0 quadBit)]
    let more : List Action := [.submit (.viewport {}), .submit (.vertex 0 0 0 1),
      .submit (.polygon 0 2 0 0 0)]
    let s := ({} : Session).run actions
    (∀ a ∈ actions, ∀ bs, a ≠ .load bs) ∧
      ∃ v v' : Vertex, s.engine.frames.next.vertices[0]? = some v ∧
        s.engine.frames.next.vertices[1]? = some v' ∧
        v.isProjected = true ∧ v.IsPlaced view ∧ v'.isProjected = false ∧
        (s.run more).engine.frames.next.vertices[0]? = some v := by
  intro view actions more s
  have others : ∀ a ∈ actions, ∀ bs, a ≠ .load bs := by simp [actions]
  have later : ∀ a ∈ more, ∀ bs, a ≠ .load bs := by simp [more]
  let frame := Event.sinceSwap (({} : Session).events actions)
  have moment : (frame.find? (Event.refersTo 0)).map (·.engine.viewport) = some view := by
    decide +kernel
  have avoided : frame.any (Event.refersTo 1) = false := by decide +kernel
  have unswapped : ∀ c ∈ (s.events more).map Event.command, c ≠ .swapBuffers := by
    decide +kernel
  have both : s.engine.frames.next.vertices.size = 2 := by decide +kernel
  obtain ⟨ev, found, hview⟩ := Option.map_eq_some_iff.1 moment
  obtain ⟨-, vertices⟩ := run_projects others
  obtain ⟨v, first⟩ : ∃ v, s.engine.frames.next.vertices[0]? = some v :=
    ⟨_, Array.getElem?_eq_getElem (by omega)⟩
  obtain ⟨v', second⟩ : ∃ v', s.engine.frames.next.vertices[1]? = some v' :=
    ⟨_, Array.getElem?_eq_getElem (by omega)⟩
  obtain ⟨-, projected, placed, rest⟩ := vertices 0 v first
  obtain ⟨-, projected', -, -⟩ := vertices 1 v' second
  have known := projected.2 ⟨ev, List.mem_of_find?_eq_some found, List.find?_some found⟩
  obtain ⟨u, hu, -, same⟩ := rest more later fun ev hev => unswapped _ (List.mem_map_of_mem hev)
  refine ⟨others, v, v', first, second, known, hview ▸ placed ev found, ?_, same known ▸ hu⟩
  rw [Bool.eq_false_iff, ne_eq, projected', ← List.any_eq_true, avoided]
  exact Bool.false_ne_true

end Session

end GeometryEngine
