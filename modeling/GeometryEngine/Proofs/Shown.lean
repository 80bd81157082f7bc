import GeometryEngine.Proofs.Fits
import Mathlib.Data.List.Forall2

/-!
# From commands to the frame that is shown

A frame is built by commands, a swap makes it ready and shows it, and passes over it move
its bounds. What this makes of a triangle is put together here from what each of the parts
does.

* `Slot.IsBuilt`: what commands make sure of in the frame that they build. All corners of its
  triangles have their places on the screen.
* `Slot.MadeReady`: what set-up makes of a triangle.
* `Session.lastBuilt`: the frame that is shown, as it was when it had been built.
* `Session.run_shows`: in a session without loads, the frame that is shown is the one that
  was built, made ready triangle by triangle, and no set-up fails.
-/

namespace GeometryEngine

/-! ### Vertices -/

namespace Vertex

/-- Projection keeps the planes that a vertex lies beyond. -/
@[simp] theorem isOutside_project (view : Viewport) (v : Vertex) :
    (v.project view).isOutside = v.isOutside := by
  rw [project]
  split
  · rfl
  · have apart : Flag.projected &&& Flag.anyPlane = 0 := by decide
    simp only [isOutside, bits_or_and, apart, UInt32.or_zero]

@[simp] theorem w_project (view : Viewport) (v : Vertex) : (v.project view).w = v.w := by
  rw [project]
  split <;> rfl

/-- A vertex that arrives inside the view volume can be projected. -/
theorem w_ne_zero_of_ofClip {x y z w : Fixed} (h : (ofClip x y z w).isOutside = false) :
    w ≠ 0 := by
  rintro rfl
  have all : planesBeyond x y 0 &&& Flag.anyPlane = Flag.anyPlane := by
    rw [planesBeyond, if_pos rfl, bits_or_and_self]
  simp only [ofClip, isOutside, all] at h
  cases h

end Vertex

/-! ### Frames that commands build -/

namespace Slot

variable (s : Slot)

/-- Vertex number `i` is inside the view volume, and its place on the screen is known. -/
structure IsInside (i : Int32) : Prop where
  resolved : s.resolves i = true
  projected : (s.vertex i).isProjected = true
  inside : (s.vertex i).isOutside = false

/-- What commands make sure of in the frame that they build. -/
structure IsBuilt : Prop where
  placed : s.Placed
  /-- A vertex that is not beyond a plane can be projected. -/
  divisible : ∀ v ∈ s.vertices, v.isOutside = false → v.w ≠ 0
  /-- All corners of triangles were projected. -/
  corners : ∀ t ∈ s.triangles, ∀ i ∈ [t.v0, t.v1, t.v2], s.IsInside i

variable {s} {s' : Slot} {i j : Int32}

theorem getElem?_of_resolves (h : s.resolves i = true) :
    s.vertices[i.toNatClampNeg]? = some (s.vertex i) := by
  have bounds := resolves_iff.1 h
  have inside : i.toNatClampNeg < s.vertices.size := by
    rw [Int32.toNatClampNeg]
    omega
  rw [vertex, Array.getD, dif_pos inside]
  exact Array.getElem?_eq_getElem inside

theorem IsInside.congr (h : s.IsInside i) (same : s'.vertices = s.vertices) : s'.IsInside i := by
  obtain ⟨vertices, triangles⟩ := s
  obtain ⟨vertices', triangles'⟩ := s'
  cases same
  exact ⟨h.resolved, h.projected, h.inside⟩

/-- Vertices that arrive later are not among those that are there. -/
theorem IsInside.pushVertex (h : s.IsInside i) (v : Vertex) : (s.pushVertex v).IsInside i := by
  have more : s.vertices.size ≤ (s.pushVertex v).vertices.size := by
    rw [Slot.pushVertex, Array.size_push]
    exact Nat.le_succ _
  have found := getElem?_of_resolves h.resolved
  have same : (s.pushVertex v).vertex i = s.vertex i := by
    have resolved := getElem?_of_resolves (resolves_of_le h.resolved more)
    have inside := (Array.getElem?_eq_some_iff.1 found).1
    rw [Slot.pushVertex, Array.getElem?_push_lt inside, ← Array.getElem?_eq_getElem inside,
      found] at resolved
    exact (Option.some.inj resolved).symm
  exact ⟨resolves_of_le h.resolved more, same ▸ h.projected, same ▸ h.inside⟩

/-! #### Projection -/

variable (view : Viewport)

theorem resolves_project (h : s.resolves j = true) (i : Int32) :
    (s.project view i).resolves j = true :=
  resolves_of_le h (Nat.le_of_eq (s.size_vertices_project view i).symm)

/-- A vertex is projected if it is the one that was meant. -/
theorem vertex_project (h : s.resolves j = true) :
    (s.project view i).vertex j =
      if i.toNatClampNeg = j.toNatClampNeg then (s.vertex j).project view else s.vertex j := by
  have found := getElem?_of_resolves (resolves_project view h i)
  rw [Slot.project, Array.getElem?_modify, getElem?_of_resolves h] at found
  split at found <;> rename_i same
  · rw [if_pos same]
    exact (Option.some.inj found).symm
  · rw [if_neg same]
    exact (Option.some.inj found).symm

/-- Projecting a vertex does not move others, and does not change which are outside. -/
theorem isOutside_vertex_project (h : s.resolves j = true) (i : Int32) :
    ((s.project view i).vertex j).isOutside = (s.vertex j).isOutside := by
  rw [vertex_project view h]
  split
  · exact Vertex.isOutside_project view _
  · rfl

theorem IsInside.project (h : s.IsInside j) (i : Int32) : (s.project view i).IsInside j where
  resolved := resolves_project view h.resolved i
  projected := by
    rw [vertex_project view h.resolved]
    split
    · exact Vertex.isProjected_project view _
    · exact h.projected
  inside := (isOutside_vertex_project view h.resolved i).trans h.inside

/-- Vertices that are projected one after another are inside, if they are not outside. -/
theorem isInside_foldl_project {cs : List Int32}
    (h : ∀ c ∈ cs, s.resolves c = true ∧ (s.vertex c).isOutside = false) :
    ∀ c ∈ cs, (cs.foldl (project view) s).IsInside c := by
  induction cs generalizing s with
  | nil => exact nofun
  | cons c cs ih =>
    obtain ⟨⟨resolved, inside⟩, others⟩ := List.forall_mem_cons.1 h
    refine List.forall_mem_cons.2 ⟨?_, ih fun d hd => ?_⟩
    · -- Once it is projected, it stays so.
      refine foldl_project_keep (P := fun s => s.IsInside c) _ view cs
        (fun _ i h => h.project view i) ?_
      refine ⟨resolves_project view resolved c, ?_, ?_⟩
      · rw [vertex_project view resolved, if_pos rfl]
        exact Vertex.isProjected_project view _
      · exact (isOutside_vertex_project view resolved c).trans inside
    · obtain ⟨resolved, inside⟩ := others d hd
      exact ⟨resolves_project view resolved c,
        (isOutside_vertex_project view resolved c).trans inside⟩

theorem mem_vertices_project {v : Vertex} (h : v ∈ (s.project view i).vertices) :
    ∃ u ∈ s.vertices, v = u ∨ v = u.project view := by
  obtain ⟨j, hj⟩ := Array.mem_iff_getElem?.1 h
  rw [Slot.project, Array.getElem?_modify] at hj
  split at hj
  · obtain ⟨u, hu, rfl⟩ := Option.map_eq_some_iff.1 hj
    exact ⟨u, Array.mem_of_getElem? hu, .inr rfl⟩
  · exact ⟨v, Array.mem_of_getElem? hj, .inl rfl⟩

/-! #### Commands -/

namespace IsBuilt

theorem empty : IsBuilt {} where
  placed := placed_empty
  divisible _ h := absurd h (Array.not_mem_empty _)
  corners _ h := absurd h (Array.not_mem_empty _)

theorem pushVertex (h : s.IsBuilt) (x y z w : Fixed) :
    (s.pushVertex (.ofClip x y z w)).IsBuilt where
  placed := h.placed.pushVertex isLine_zero
  divisible v hv inside := by
    rcases Array.mem_push.1 hv with hv | rfl
    · exact h.divisible v hv inside
    · exact Vertex.w_ne_zero_of_ofClip inside
  corners t ht i hi := (h.corners t ht i hi).pushVertex _

theorem project (h : s.IsBuilt) (i : Int32) : (s.project view i).IsBuilt where
  placed := h.placed.project view i
  divisible v hv inside := by
    obtain ⟨u, hu, rfl | rfl⟩ := mem_vertices_project view hv
    · exact h.divisible v hu inside
    · rw [Vertex.isOutside_project] at inside
      rw [Vertex.w_project]
      exact h.divisible u hu inside
  corners t ht j hj := (h.corners t ht j hj).project view i

/-- Triangles may be added whose corners were projected. -/
theorem append (h : s.IsBuilt) {ts : List Triangle}
    (inside : ∀ t ∈ ts, ∀ i ∈ [t.v0, t.v1, t.v2], s.IsInside i) :
    IsBuilt { s with triangles := s.triangles ++ ts.toArray } where
  placed := h.placed
  divisible := h.divisible
  corners t ht i hi := by
    refine IsInside.congr (s := s) ?_ rfl
    rcases Array.mem_append.1 ht with ht | ht
    · exact h.corners t ht i hi
    · exact inside t (List.mem_toArray.1 ht) i hi

/-- The corners of a polygon are projected before its triangles are added. -/
theorem addPolygon (h : s.IsBuilt) {frame : UInt32} {v0 v1 v2 v3 : Int32} {attributes : UInt32}
    (sound : Engine.polygonFault? frame s v0 v1 v2 v3 attributes = none) :
    (Engine.addPolygon view v0 v1 v2 v3 attributes s).IsBuilt := by
  have resolved := (polygonFault?_eq_none sound).1
  rw [Engine.addPolygon]
  split
  · exact h
  · rename_i inside
    rw [Bool.not_eq_true, Engine.anyOutside, List.any_eq_false] at inside
    have projected := isInside_foldl_project view fun c hc =>
      ⟨resolved c hc, Bool.eq_false_iff.2 (inside c hc)⟩
    rw [foldl_pushTriangle]
    refine append ?_ fun t ht i hi => projected i (Engine.mem_corners_of_mem_trianglesOf ht i hi)
    exact s.foldl_project_keep view _ (fun _ i h => h.project view i) h

end IsBuilt

end Slot

/-! ### Set-up -/

namespace Corner

theorem order_perm (p q : Corner) : [(order p q).1, (order p q).2].Perm [p, q] := by
  rw [order]
  split
  · exact .swap p q []
  · exact .refl _

/-- Three corners in order are the same corners. -/
theorem sort_perm (p q r : Corner) :
    [(sort p q r).1, (sort p q r).2.1, (sort p q r).2.2].Perm [p, q, r] := by
  let first := order p q
  let second := order first.1 r
  let third := order first.2 second.2
  calc
    [second.1, third.1, third.2].Perm [second.1, first.2, second.2] :=
      (order_perm first.2 second.2).cons second.1
    List.Perm _ [first.2, second.1, second.2] := .swap _ _ _
    List.Perm _ [first.2, first.1, r] := (order_perm first.1 r).cons first.2
    List.Perm _ [first.1, first.2, r] := .swap _ _ _
    List.Perm _ [p, q, r] := (order_perm p q).append_right [r]

end Corner

/-- Set-up takes the corners of a triangle in another order. -/
theorem Triangle.corners_ready (s : Slot) (t : Triangle) :
    let u := t.ready s.corner
    [u.v0, u.v1, u.v2].Perm [t.v0, t.v1, t.v2] := by
  have sorted := (Corner.sort_perm (s.corner t.v0) (s.corner t.v1) (s.corner t.v2)).map Corner.index
  rw [ready]
  generalize Corner.sort (s.corner t.v0) (s.corner t.v1) (s.corner t.v2) = pqr at sorted ⊢
  obtain ⟨p, q, r⟩ := pqr
  exact sorted

namespace Slot

/-- Triangle `u` of a frame is triangle `t`, as set-up makes it ready to be drawn. -/
structure MadeReady (s : Slot) (t u : Triangle) : Prop where
  corners : [u.v0, u.v1, u.v2].Perm [t.v0, t.v1, t.v2]
  attributes : u.attributes = t.attributes
  /-- Its corners are inside the view volume, and their places on the screen are known. -/
  inside : ∀ i ∈ [u.v0, u.v1, u.v2], s.IsInside i ∧ (s.vertex i).w ≠ 0
  /-- They are in order from top to bottom. -/
  sorted : (s.vertex u.v0).screenY ≤ (s.vertex u.v1).screenY ∧
    (s.vertex u.v1).screenY ≤ (s.vertex u.v2).screenY
  bend : u.bend = (s.vertex u.v1).screenY
  /-- One side follows the long edge, and the other one the two short edges. -/
  sides :
    let p := s.corner u.v0
    let q := s.corner u.v1
    let r := s.corner u.v2
    let long := Triangle.longSlope (r.x - p.x) (r.y - p.y)
    let above := Triangle.slope (q.x - p.x) (q.y - p.y)
    let below := Triangle.slope (r.x - q.x) (r.y - q.y)
    ∃ longLeft : Bool, (u.upper.side longLeft = long ∧ u.lower.side longLeft = long) ∧
      u.upper.side (!longLeft) = above ∧ u.lower.side (!longLeft) = below
  /-- The left side is the one that starts off further to the left. -/
  leftmost : u.upper.left ≤ u.upper.right
  /-- Both sides start at the top corner, or a step past it if the top is level. -/
  start :
    let apex := Fixed.ofInt (s.vertex u.v0).screenX
    u.start = if (s.vertex u.v0).screenY = (s.vertex u.v1).screenY then ⟨apex, apex⟩ + u.upper
      else ⟨apex, apex⟩

variable {s : Slot}

/-- What a triangle is when it is made ready does not depend on the bounds that drawing
    moves. -/
theorem MadeReady.of_still {s' : Slot} {t u u' : Triangle} (h : s.MadeReady t u)
    (vertices : s'.vertices = s.vertices) (still : u'.still = u.still) : s'.MadeReady t u' := by
  cases s
  cases s'
  cases vertices
  cases u
  cases u'
  simp only [Triangle.still, Triangle.mk.injEq] at still
  obtain ⟨rfl, rfl, rfl, rfl, rfl, rfl, rfl, rfl, rfl, -⟩ := still
  exact ⟨h.corners, h.attributes, fun i hi => ⟨(h.inside i hi).1.congr rfl, (h.inside i hi).2⟩,
    h.sorted, h.bend, h.sides, h.leftmost, h.start⟩

/-- In a frame that commands have built, set-up makes every triangle ready. -/
theorem IsBuilt.madeReady (h : s.IsBuilt) {t : Triangle} (ht : t ∈ s.triangles) :
    s.MadeReady t (t.ready s.corner) := by
  have ready := Triangle.setUp_eq_ready h.placed.isLine_corner t
  have corners := Triangle.corners_ready s t
  generalize t.ready s.corner = u at ready corners
  obtain ⟨made, sorted⟩ := eq_ofCorners_of_setUp ready
  have sides := Triangle.sides_ofCorners t (s.corner u.v0) (s.corner u.v1) (s.corner u.v2)
  have order := Triangle.left_le_right_ofCorners t (s.corner u.v0) (s.corner u.v1) (s.corner u.v2)
  have start := Triangle.start_ofCorners t (s.corner u.v0) (s.corner u.v1) (s.corner u.v2)
  rw [← made] at sides order start
  refine ⟨corners, ?_, fun i hi => ?_, sorted, ?_, ⟨_, sides⟩, order, start⟩
  · rw [made]
    rfl
  · have inside := h.corners t ht i (corners.mem_iff.1 hi)
    exact ⟨inside, h.divisible _ (Array.mem_of_getElem? (getElem?_of_resolves inside.resolved))
      inside.inside⟩
  · rw [made]
    rfl

/-- The frame that comes of set-up and of passes has the triangles of the frame that was
    built, made ready. -/
theorem IsBuilt.forall₂_madeReady {built shown : Slot} (h : built.IsBuilt)
    (same : shown.still = built.ready.still) :
    List.Forall₂ shown.MadeReady built.triangles.toList shown.triangles.toList := by
  have vertices : shown.still.vertices = built.ready.still.vertices := by rw [same]
  have triangles : shown.triangles.toList.map Triangle.still =
      (built.triangles.toList.map (Triangle.ready built.corner)).map Triangle.still := by
    simpa only [still, ready, Array.toList_map] using
      congrArg (fun s : Slot => s.triangles.toList) same
  have length : built.triangles.toList.length = shown.triangles.toList.length := by
    simpa using (congrArg List.length triangles).symm
  refine List.forall₂_iff_get.2 ⟨length, fun i ht hu => ?_⟩
  have still := congrArg (fun ts => ts[i]?) triangles
  simp only [List.getElem?_map, List.getElem?_eq_getElem ht, List.getElem?_eq_getElem hu,
    Option.map_some, Option.some.injEq] at still
  exact (h.madeReady (Array.mem_toList_iff.1 (List.getElem_mem ht))).of_still vertices still

end Slot

/-! ### Commands and swaps -/

namespace Engine

/-- The frame that `e'` shows, as it was built, if `e'` comes of `e` in one step, and if `e` shows
    the one that was `built`: it is another one if there was a swap. -/
def builtAfter (e : Engine) (built : Slot) (e' : Engine) : Slot :=
  if e'.frames.counter = e.frames.counter then built else e.frames.next

variable {e e' : Engine} {c : Command} {built : Slot}

theorem builtAfter_of_eq (same : e'.frames.counter = e.frames.counter) :
    e.builtAfter built e' = built := if_pos same

/-- The engine shows a frame that commands built, and builds another one. No set-up has
    failed. -/
structure Shows (built : Slot) (e : Engine) : Prop where
  next : e.frames.next.IsBuilt
  source : built.IsBuilt
  /-- Only bounds may have moved since the swap. -/
  current : e.frames.current.still = built.ready.still
  orderly : ∀ n y0 y1 y2, e.fault ≠ some (.vertexOrder n y0 y1 y2)

/-- No command finds corners that cannot be put in order. -/
theorem process_ne_vertexOrder (h : e.frames.next.Placed) (c : Command) (n : Nat)
    (y0 y1 y2 : Int32) : e.process c ≠ .error (.vertexOrder n y0 y1 y2) := by
  cases c with
  | viewport view => rintro ⟨⟩
  | vertex x y z w =>
    rw [process]
    split <;> rintro ⟨⟩
  | polygon v0 v1 v2 v3 attributes =>
    rw [process]
    split
    · rename_i f fault
      rintro ⟨⟩
      simp only [polygonFault?] at fault
      split at fault
      · cases fault
      · split at fault <;> cases fault
    · rintro ⟨⟩
  | swapBuffers =>
    rw [process_swapBuffers h]
    rintro ⟨⟩

namespace Shows

theorem fresh : Shows {} {} where
  next := .empty
  source := .empty
  current := by decide +kernel
  orderly := nofun

/-- What changes no frame keeps the one that is shown. -/
theorem congr (h : e.Shows built) (frames : e'.frames = e.frames)
    (orderly : ∀ n y0 y1 y2, e'.fault ≠ some (.vertexOrder n y0 y1 y2)) :
    e'.Shows (e.builtAfter built e') := by
  rw [builtAfter_of_eq (by rw [frames])]
  exact ⟨frames ▸ h.next, h.source, frames ▸ h.current, orderly⟩

/-- What changes only the next frame keeps the frame that is shown. -/
theorem mapNext (h : e.Shows built) {g : Slot → Slot} (hg : (g e.frames.next).IsBuilt) :
    let e' := { e with frames := e.frames.mapNext g }
    e'.Shows (e.builtAfter built e') := by
  intro e'
  rw [builtAfter_of_eq (Frames.counter_mapNext g e.frames)]
  refine ⟨?_, h.source, ?_, h.orderly⟩
  · rw [Frames.next_mapNext]
    exact hg
  · rw [Frames.current_mapNext]
    exact h.current

/-- What moves bounds in the frame that is shown keeps what it was built as. -/
theorem mapCurrent (h : e.Shows built) {g : Slot → Slot} (hg : ∀ s, (g s).still = s.still) :
    let e' := { e with frames := e.frames.mapCurrent g }
    e'.Shows (e.builtAfter built e') := by
  intro e'
  rw [builtAfter_of_eq (Frames.counter_mapCurrent g e.frames)]
  refine ⟨?_, h.source, ?_, h.orderly⟩
  · rw [Frames.next_mapCurrent]
    exact h.next
  · rw [Frames.current_mapCurrent, hg]
    exact h.current

/-- A command that is carried out builds the next frame, or shows it. -/
theorem process (h : e.Shows built) (he : e.process c = .ok e') :
    e'.Shows (e.builtAfter built e') := by
  cases effect_of_process he with
  | viewport view => exact h.congr rfl h.orderly
  | @vertex x y z w room => exact h.mapNext (h.next.pushVertex x y z w)
  | polygon sound => exact h.mapNext (h.next.addPolygon e.viewport sound)
  | swapBuffers prepared =>
    rw [prepare_eq h.next.placed] at prepared
    cases prepared
    have counted : (e.frames.mapNext fun _ => e.frames.next.ready).swap.counter ≠
        e.frames.counter := by
      rw [Frames.swap, Frames.counter_mapNext, Frames.counter_mapNext]
      simp
    rw [promote, builtAfter, if_neg counted]
    refine ⟨?_, h.next, ?_, h.orderly⟩
    · rw [Frames.next_swap]
      exact .empty
    · rw [Frames.current_swap, Frames.next_mapNext]

/-- A command that raises a fault, or that is turned away, changes no frame. -/
theorem submit (h : e.Shows built) (c : Command) :
    (e.submit c).2.Shows (e.builtAfter built (e.submit c).2) := by
  rw [Engine.submit]
  split
  · exact h.congr rfl h.orderly
  · split
    · rename_i e' he
      exact h.process he
    · rename_i f hf
      rw [abandon_of_placed h.next.placed hf]
      refine h.congr rfl fun n y0 y1 y2 same => ?_
      cases same
      exact process_ne_vertexOrder h.next.placed c n y0 y1 y2 hf

end Shows

end Engine

/-! ### Calls -/

/-- An engine, and the frame that it shows as it was when it had been built. -/
structure Album where
  /-- The engine. -/
  engine : Engine
  /-- The frame that was built. -/
  built : Slot

namespace Album

instance : Sink Album where
  submit a c :=
    let answer := a.engine.submit c
    (answer.1, ⟨answer.2, a.engine.builtAfter a.built answer.2⟩)
  notify a _ := a

/-- Nobody notices that the frame is kept. -/
theorem isView_engine : Sink.IsView engine where
  submit _ _ := rfl
  notify _ _ := rfl

theorem keeps_shows : FrontEnd.Keeps fun _ _ (a : Album) => a.engine.Shows a.built :=
  FrontEnd.keeps_of_submit (fun _ c h => h.submit c) (fun _ _ h => h)

end Album

/-! ### Sessions -/

namespace Session

/-- The frame that is shown after an action, as it was when it had been built, if `built` is the
    one that is shown before. -/
def builtBy (s : Session) (built : Slot) : Action → Slot
  | .call c => (s.frontEnd.call (⟨s.engine, built⟩ : Album) c).sink.built
  | a => s.engine.builtAfter built (s.step a).engine

/-- The frame that is shown after all actions of a list, as it was when it had been built. -/
def lastBuilt (s : Session) (built : Slot) : List Action → Slot
  | [] => built
  | a :: as => (s.step a).lastBuilt (s.builtBy built a) as

variable {s : Session} {built : Slot}

theorem shows_step (h : s.engine.Shows built) {a : Action} (other : ∀ bs, a ≠ .load bs) :
    (s.step a).engine.Shows (s.builtBy built a) := by
  cases a with
  | call c =>
    have seen := FrontEnd.call_view Album.isView_engine s.frontEnd ⟨s.engine, built⟩ c
    rw [step, seen]
    exact Album.keeps_shows.call s.frontEnd ⟨s.engine, built⟩ c h
  | submit c => exact h.submit c
  | process c =>
    change (s.step (.process c)).engine.Shows (s.engine.builtAfter built _)
    rw [step]
    split
    · rename_i e he
      exact h.process he
    · rename_i f hf
      rw [Engine.abandon_of_placed h.next.placed hf]
      exact h.congr rfl h.orderly
  | beginPass => exact h.mapCurrent Slot.still_restart
  | draw config c y canvas =>
    exact h.mapCurrent fun slot => slot.still_draw config s.buckets c y canvas
  | save => exact h.congr rfl h.orderly
  | load bs => exact absurd rfl (other bs)

theorem shows_run (h : s.engine.Shows built) {actions : List Action}
    (others : ∀ a ∈ actions, ∀ bs, a ≠ .load bs) :
    (s.run actions).engine.Shows (s.lastBuilt built actions) := by
  induction actions generalizing s built with
  | nil => exact h
  | cons a as ih =>
    obtain ⟨first, others⟩ := List.forall_mem_cons.1 others
    exact ih (shows_step h first) others

/-- In a session of a new engine, whatever the commands and the passes are, as long as no state
    is loaded: the frame that is shown is the one that was built before the last swap, with its
    triangles made ready one by one, and no command finds corners that cannot be put in
    order. -/
theorem run_shows {actions : List Action} (others : ∀ a ∈ actions, ∀ bs, a ≠ .load bs) :
    let built := ({} : Session).lastBuilt {} actions
    let e := (({} : Session).run actions).engine
    let shown := e.frames.current
    shown.vertices = built.vertices ∧
      List.Forall₂ shown.MadeReady built.triangles.toList shown.triangles.toList ∧
      ∀ n y0 y1 y2, e.fault ≠ some (.vertexOrder n y0 y1 y2) ∧
        ∀ c, e.process c ≠ .error (.vertexOrder n y0 y1 y2) := by
  intro built e shown
  have shows : e.Shows built := shows_run .fresh others
  have vertices : shown.still.vertices = built.ready.still.vertices := by rw [shows.current]
  refine ⟨vertices, shows.source.forall₂_madeReady shows.current, fun n y0 y1 y2 => ?_⟩
  exact ⟨shows.orderly n y0 y1 y2,
    fun c => Engine.process_ne_vertexOrder shows.next.placed c n y0 y1 y2⟩

/-- A quad is submitted from bottom to top and shown. Both halves of it are made ready, and
    begin with a corner of its top. -/
theorem run_shows_quad :
    let actions : List Action := [.submit (.vertex (-1) 1 0 1), .submit (.vertex 1 1 0 1),
      .submit (.vertex 1 (-1) 0 1), .submit (.vertex (-1) (-1) 0 1),
      .submit (.polygon 0 1 2 3 (quadBit ||| 5)), .submit .swapBuffers, .beginPass]
    let first : Triangle := { v0 := 0, v1 := 1, v2 := 2, v3 := 3, attributes := 5 }
    let shown := (({} : Session).run actions).engine.frames.current
    (∀ a ∈ actions, ∀ bs, a ≠ .load bs) ∧
      ∃ t u : Triangle, shown.triangles.toList = [t, u] ∧ t.v0 = 2 ∧ u.v0 = 3 ∧
        shown.MadeReady first t ∧ shown.MadeReady { first with v1 := 3 } u := by
  intro actions first shown
  have others : ∀ a ∈ actions, ∀ bs, a ≠ .load bs := by simp [actions]
  obtain ⟨-, ready, -⟩ := run_shows others
  have stored : (({} : Session).lastBuilt {} actions).triangles.toList =
      [first, { first with v1 := 3 }] := by decide +kernel
  have tops : shown.triangles.toList.map Triangle.v0 = [2, 3] := by decide +kernel
  rw [stored] at ready
  obtain ⟨t, us, ht, rest, list⟩ := List.forall₂_cons_left_iff.1 ready
  obtain ⟨u, none, hu, last, rfl⟩ := List.forall₂_cons_left_iff.1 rest
  cases List.forall₂_nil_left_iff.1 last
  simp only [shown, list, List.map_cons, List.cons.injEq] at tops
  exact ⟨others, t, u, list, tops.1, tops.2.1, ht, hu⟩

end Session

end GeometryEngine
