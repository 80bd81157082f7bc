import GeometryEngine.Proofs.Commands
import GeometryEngine.Proofs.Receivers
import GeometryEngine.Session

/-!
# Front-end and engine in step

The front-end counts what it sends for a frame, and the engine counts what the frame
holds. As long as nobody else sends commands to the engine, the two stay *in step*
(`Registers.InStep`): polygons only refer to vertices that are there, and there is
always room for them.

That there is room for the triangles is for a reason of its own: a list makes two
triangles less than it has vertices, or fewer still (`ListKind.triangleCount_le`). So
the limit of triangles is out of reach, and no polygon is dropped for it.

* `Registers.InStep.execute`: every instruction keeps front-end and engine in step;
* `Session.run_counts`: so they are in step in every session in which nobody else
  sends commands and no state is loaded.
-/

namespace GeometryEngine

/-! ### The triangles of a list -/

/-- The number of triangles that the first `n` vertices of a list make. -/
def ListKind.triangleCount (n : Nat) : ListKind → Nat
  | .triangles => n / 3
  | .quads => 2 * (n / 4)
  | .triangleStrip => n - 2
  | .quadStrip => 2 * (n / 2 - 1)

@[simp] theorem ListKind.triangleCount_zero (k : ListKind) : k.triangleCount 0 = 0 := by
  cases k <;> rfl

theorem ListKind.triangleCount_le (k : ListKind) (n : Nat) : k.triangleCount n ≤ n - 2 := by
  cases k <;> simp only [triangleCount] <;> omega

/-- The vertices that an outline refers to. -/
def Outline.vertices : Outline → List Nat
  | .triangle v0 v1 v2 => [v0, v1, v2]
  | .quad v0 v1 v2 v3 => [v0, v1, v2, v3]

theorem Outline.triangles_eq (o : Outline) : o.triangles = o.vertices.length - 2 := by
  cases o <;> rfl

/-- An outline is sent as a polygon with its vertices as corners. -/
theorem Outline.command_eq (o : Outline) (attributes : UInt32) :
    ∃ v0 v1 v2 v3 attributes', o.command attributes = .polygon v0 v1 v2 v3 attributes' ∧
      Engine.corners v0 v1 v2 v3 attributes' = o.vertices.map Int32.ofNat := by
  cases o with
  | triangle v0 v1 v2 => exact ⟨_, _, _, _, _, rfl, Engine.corners_of_triangle _ _ _ _ _⟩
  | quad v0 v1 v2 v3 => exact ⟨_, _, _, _, _, rfl, Engine.corners_of_quad _ _ _ _ _⟩

namespace VertexList

/-- The vertices that the list remembers of those it has are among the first `n` of
    the frame. -/
structure IsWithin (n : Nat) (l : VertexList) : Prop where
  last : 1 ≤ l.length → l.last < n
  secondLast : 2 ≤ l.length → l.secondLast < n
  thirdLast : 3 ≤ l.length → l.thirdLast < n
  fourthLast : 4 ≤ l.length → l.fourthLast < n

variable {l : VertexList} {n : Nat}

theorem isWithin_of_length (h : l.length = 0) : l.IsWithin n := by
  constructor <;> intro _ <;> omega

theorem IsWithin.push (h : l.IsWithin n) : (l.push n).IsWithin (n + 1) where
  last _ := Nat.lt_succ_self n
  secondLast many := Nat.lt_succ_of_lt (h.last (Nat.le_of_succ_le_succ many))
  thirdLast many := Nat.lt_succ_of_lt (h.secondLast (Nat.le_of_succ_le_succ many))
  fourthLast many := Nat.lt_succ_of_lt (h.thirdLast (Nat.le_of_succ_le_succ many))

/-- A polygon that is complete refers to vertices of its list. -/
theorem IsWithin.completed (h : l.IsWithin n) (some_vertex : 1 ≤ l.length) {o : Outline}
    (ho : l.completed? = some o) : ∀ v ∈ o.vertices, v < n := by
  have three : 3 ≤ l.length → ∀ v ∈ [l.thirdLast, l.secondLast, l.last], v < n := by
    intro many v hv
    simp only [List.mem_cons, List.not_mem_nil, or_false] at hv
    rcases hv with rfl | rfl | rfl
    · exact h.thirdLast many
    · exact h.secondLast (by omega)
    · exact h.last some_vertex
  have four : 4 ≤ l.length → ∀ v ∈ l.fourthLast :: [l.thirdLast, l.secondLast, l.last], v < n := by
    intro many v hv
    rcases List.mem_cons.1 hv with rfl | hv
    · exact h.fourthLast many
    · exact three (by omega) v hv
  unfold completed? at ho
  split at ho <;> split at ho <;> cases ho <;> rename_i complete
  · exact three (by omega)
  · exact four (by omega)
  · exact three complete
  · -- The corners of a quad strip zigzag.
    intro v hv
    refine four complete.1 v ?_
    simp only [Outline.vertices, List.mem_cons, List.not_mem_nil, or_false] at hv ⊢
    rcases hv with hv | hv | hv | hv
    · exact .inl hv
    · exact .inr (.inl hv)
    · exact .inr (.inr (.inr hv))
    · exact .inr (.inr (.inl hv))

/-- With a vertex a list gains the triangles of the polygon that the vertex
    completes. -/
theorem triangleCount_push (l : VertexList) (i : Nat) :
    l.kind.triangleCount (l.length + 1) =
      l.kind.triangleCount l.length + ((l.push i).completed?.map Outline.triangles).getD 0 := by
  -- It depends on the kind of the list when the number of triangles goes up.
  cases hk : l.kind <;> simp only [completed?, push, hk, ListKind.triangleCount] <;>
    split <;> simp only [Option.map_some, Option.map_none, Option.getD_some, Option.getD_none,
      Outline.triangles] <;> omega

end VertexList

/-! ### In step -/

namespace Registers

/-- The front-end agrees with a healthy engine about the frame that is being built. It
    has counted all triangles of earlier lists, and `made` triangles of the current
    one. -/
structure InStep (made : Nat) (r : Registers) (e : Engine) : Prop where
  healthy : e.fault = none
  /-- All vertices are counted. -/
  vertices : r.vertices = e.frames.next.vertices.size
  room : r.vertices ≤ frameLimit
  /-- All triangles are counted, also those that were left out. -/
  built : e.frames.next.triangles.size ≤ r.triangles
  /-- The vertices of earlier lists have made two triangles less, or fewer still. -/
  budget : r.triangles ≤ r.vertices - r.list.length - 2 + made
  listed : r.list.length ≤ r.vertices
  /-- What the list remembers are vertices of the frame. -/
  recent : r.list.IsWithin r.vertices
  /-- The frame can be set up. -/
  placed : e.frames.next.Placed

/-- The number of triangles that the current list has made. -/
def made (r : Registers) : Nat := r.list.kind.triangleCount r.list.length

/-- There are two triangles less than vertices, or fewer still, if that is so with the
    vertices of earlier lists. -/
theorem triangles_le_of_budget {r : Registers} (listed : r.list.length ≤ r.vertices)
    (budget : r.triangles ≤ r.vertices - r.list.length - 2 + r.made) :
    r.triangles ≤ r.vertices - 2 := by
  -- It is so with the vertices of the current list.
  have := r.list.kind.triangleCount_le r.list.length
  rw [made] at budget
  omega

variable {r : Registers} {e : Engine} {made : Nat}

theorem inStep_fresh : InStep ({} : Registers).made {} {} where
  healthy := rfl
  vertices := rfl
  room := Nat.zero_le _
  built := Nat.le_refl _
  budget := Nat.le_refl _
  listed := Nat.le_refl _
  recent := VertexList.isWithin_of_length rfl
  placed := Slot.placed_empty

namespace InStep

/-- There are two triangles less than vertices, or fewer still. -/
theorem triangles_le (h : InStep r.made r e) : r.triangles ≤ r.vertices - 2 :=
  triangles_le_of_budget h.listed h.budget

/-- Front-end and engine stay in step if neither the counts nor the frame that is
    being built change. -/
theorem congr {r' : Registers} {e' : Engine} (h : InStep made r e) (list : r'.list = r.list)
    (vertices : r'.vertices = r.vertices) (triangles : r'.triangles = r.triangles)
    (fault : e'.fault = e.fault) (next : e'.frames.next = e.frames.next) : InStep made r' e' where
  healthy := fault.trans h.healthy
  vertices := by rw [vertices, next, h.vertices]
  room := vertices ▸ h.room
  built := by rw [next, triangles]; exact h.built
  budget := by rw [triangles, vertices, list]; exact h.budget
  listed := by rw [list, vertices]; exact h.listed
  recent := by rw [list, vertices]; exact h.recent
  placed := next ▸ h.placed

/-- Triangles that were turned away may be counted as made. -/
theorem mono {made' : Nat} (h : InStep made r e) (le : made ≤ made') : InStep made' r e :=
  { h with budget := Nat.le_trans h.budget (Nat.add_le_add_left le _) }

/-- A list that was begun has made no triangles, and those of the list before it are
    counted with the earlier ones. -/
theorem beginList (h : InStep r.made r e) (kind : ListKind) :
    let r' := { r with list := r.list.restart kind r.attributes }
    InStep r'.made r' e :=
  { h with
    budget := by
      rw [Registers.made, VertexList.restart, ListKind.triangleCount_zero]
      exact h.triangles_le
    listed := Nat.zero_le _
    recent := VertexList.isWithin_of_length rfl }

/-! ### Commands -/

/-- A vertex is accepted as long as the front-end sends it. -/
theorem vertex (h : InStep r.made r e) (few : r.vertices < frameLimit) (x y z w : Fixed) :
    ∃ e', e.submit (.vertex x y z w) = (.accepted, e') ∧ InStep r.made r.countVertex e' := by
  have room : e.frames.next.vertices.size < Slot.capacity := h.vertices ▸ few
  refine ⟨_, Engine.submit_of_process h.healthy (Engine.process_vertex room x y z w), ?_⟩
  constructor <;> simp only [countVertex, Frames.next_mapNext]
  case healthy => exact h.healthy
  case vertices => rw [Slot.pushVertex, Array.size_push, h.vertices]
  case room => exact few
  case built => exact h.built
  case budget =>
    rw [VertexList.push, Nat.add_sub_add_right]
    exact h.budget
  case listed => exact Nat.succ_le_succ h.listed
  case recent => exact h.recent.push
  case placed => exact h.placed.pushVertex isLine_zero

/-- The polygon that it completes finds room. -/
theorem fits (counted : r.countVertex.InStep r.made e) {o : Outline}
    (ho : r.countVertex.list.completed? = some o) :
    r.countVertex.triangles + o.triangles ≤ frameLimit := by
  -- The list has made two triangles less than it has vertices, this polygon included.
  have gained : r.countVertex.made = r.made +
      (r.countVertex.list.completed?.map Outline.triangles).getD 0 :=
    r.list.triangleCount_push r.vertices
  have := counted.budget
  have := r.countVertex.list.kind.triangleCount_le r.countVertex.list.length
  have := counted.listed
  have := counted.room
  simp only [ho, Registers.made, Option.map_some, Option.getD_some] at *
  omega

/-- So is a polygon between vertices that were sent. -/
theorem polygon (h : InStep made r e) {o : Outline} (below : ∀ v ∈ o.vertices, v < r.vertices)
    (fits : r.triangles + o.triangles ≤ frameLimit) (attributes : UInt32) :
    ∃ e', e.submit (o.command attributes) = (.accepted, e') ∧
      InStep (made + o.triangles) { r with triangles := r.triangles + o.triangles } e' := by
  obtain ⟨v0, v1, v2, v3, attributes', command, corners⟩ := o.command_eq attributes
  have length : (Engine.corners v0 v1 v2 v3 attributes').length - 2 = o.triangles := by
    rw [corners, List.length_map, o.triangles_eq]
  have resolved :
      ∀ c ∈ Engine.corners v0 v1 v2 v3 attributes', e.frames.next.resolves c = true := by
    rw [corners, List.forall_mem_map]
    intro v hv
    -- There are so few vertices that their numbers fit a word.
    have word : v < 2 ^ 31 := Nat.lt_of_lt_of_le (below v hv) (Nat.le_trans h.room (by decide))
    exact Slot.resolves_ofNat (h.vertices ▸ below v hv) word
  have room : e.frames.next.triangles.size +
      ((Engine.corners v0 v1 v2 v3 attributes').length - 2) ≤ Slot.capacity := by
    rw [length]
    exact Nat.le_trans (Nat.add_le_add_right h.built _) fits
  rw [command]
  refine ⟨_, Engine.submit_of_process h.healthy (Engine.process_polygon resolved room), ?_⟩
  constructor <;> simp only [Frames.next_mapNext]
  case healthy => exact h.healthy
  case vertices => rw [Slot.size_vertices_addPolygon, h.vertices]
  case room => exact h.room
  case built =>
    refine Nat.le_trans (Slot.size_triangles_addPolygon_le _ _ _ _ _ _ _) ?_
    rw [length]
    exact Nat.add_le_add_right h.built _
  case budget =>
    rw [← Nat.add_assoc]
    exact Nat.add_le_add_right h.budget _
  case listed => exact h.listed
  case recent => exact h.recent
  case placed => exact h.placed.addPolygon _ _ _ _ _ _

/-- A swap is accepted, and begins a frame for both. -/
theorem swap (h : InStep made r e) :
    ∃ e', e.submit .swapBuffers = (.accepted, e') ∧ InStep r.beginFrame.made r.beginFrame e' := by
  refine ⟨_, Engine.submit_of_process h.healthy (Engine.process_swapBuffers h.placed), ?_⟩
  constructor <;> simp only [beginFrame, Frames.next_swap]
  case healthy => exact h.healthy
  case vertices => rfl
  case room | budget => exact Nat.zero_le _
  case built | listed => exact Nat.le_refl _
  case recent => exact VertexList.isWithin_of_length rfl
  case placed => exact Slot.placed_empty

end InStep

end Registers

/-! ### Instructions -/

/-- An engine that carries out its commands at once, and all that was reported to
    it. -/
structure Journal where
  /-- The engine. -/
  engine : Engine
  /-- The reports, the oldest first. -/
  notices : List Notice := []

namespace Journal

instance : Sink Journal where
  submit w c := ((w.engine.submit c).1, { w with engine := (w.engine.submit c).2 })
  notify w n := { w with notices := w.notices ++ [n] }

theorem submit_eq (w : Journal) (c : Command) :
    Sink.submit w c = ((w.engine.submit c).1, { w with engine := (w.engine.submit c).2 }) := rfl

theorem isView_engine : Sink.IsView engine where
  submit _ _ := rfl
  notify _ _ := rfl

end Journal

namespace Registers

/-- No fault has been raised, front-end and engine are in step, and no polygon was
    dropped for the limit of triangles. -/
structure Steady (fault : Option Fault) (r : Registers) (w : Journal) : Prop where
  fault : fault = none
  inStep : r.InStep r.made w.engine
  silent : Notice.polygonBeyondLimit ∉ w.notices

/-- The outcome of an instruction is steady. -/
def LeavesSteady (o : Outcome Registers Journal) : Prop := Steady o.fault o.state o.sink

namespace Steady

variable {r : Registers} {w : Journal}

/-- A report of something else changes nothing. -/
theorem notify (h : Steady none r w) {n : Notice} (other : n ≠ .polygonBeyondLimit) :
    Steady none r (Sink.notify w n) where
  fault := rfl
  inStep := h.inStep
  silent known := by
    rcases List.mem_append.1 known with known | known
    · exact h.silent known
    · exact other (List.mem_singleton.1 known).symm

/-- Nor do registers that count nothing. -/
theorem congr {r' : Registers} (h : Steady none r w) (list : r'.list = r.list)
    (vertices : r'.vertices = r.vertices) (triangles : r'.triangles = r.triangles) :
    Steady none r' w := by
  have made : r'.made = r.made := by rw [Registers.made, list, Registers.made]
  exact ⟨rfl, made ▸ h.inStep.congr list vertices triangles rfl rfl, h.silent⟩

/-- After a vertex, the polygon that it completes finds room. -/
theorem sendCompleted {v : Journal} (h : Steady none r w)
    (counted : r.countVertex.InStep r.made v.engine) (notices : v.notices = w.notices) :
    LeavesSteady (r.countVertex.sendCompleted v) := by
  have gained : r.countVertex.made = r.made +
      (r.countVertex.list.completed?.map Outline.triangles).getD 0 :=
    r.list.triangleCount_push r.vertices
  rw [Registers.sendCompleted]
  cases hc : r.countVertex.list.completed? with
  | none =>
    rw [hc] at gained
    exact ⟨rfl, gained ▸ counted, notices ▸ h.silent⟩
  | some o =>
    rw [hc] at gained
    have fits := counted.fits hc
    have below := counted.recent.completed (Nat.succ_pos _) hc
    obtain ⟨e', submitted, inStep⟩ := counted.polygon below fits r.countVertex.list.attributes
    simp only [sendPolygon, if_neg (Nat.not_lt.2 fits), Journal.submit_eq, submitted]
    exact ⟨rfl, gained ▸ inStep, notices ▸ h.silent⟩

theorem sendVertex (h : Steady none r w) : LeavesSteady (r.sendVertex w) := by
  rw [Registers.sendVertex]
  split
  · exact h.notify (by decide)
  · rename_i few
    -- The clip matrix is worked out first, which is not counted anywhere.
    have refreshed : Steady none (r.mapMatrices .refresh) w := h.congr rfl rfl rfl
    obtain ⟨e', submitted, counted⟩ : ∃ e',
        w.engine.submit (r.mapMatrices .refresh).vertexCommand = (.accepted, e') ∧ _ :=
      refreshed.inStep.vertex (Nat.lt_of_not_le few) _ _ _ _
    simp only [Journal.submit_eq, submitted]
    exact refreshed.sendCompleted (v := ⟨e', w.notices⟩) counted rfl

theorem sendSwap (h : Steady none r w) : LeavesSteady (r.sendSwap w) := by
  obtain ⟨e', submitted, inStep⟩ := h.inStep.swap
  simp only [Registers.sendSwap, Journal.submit_eq, submitted]
  exact ⟨rfl, inStep, h.silent⟩

theorem sendViewport (h : Steady none r w) (view : Viewport) :
    LeavesSteady (r.sendViewport view w) := by
  have submitted := Engine.submit_of_process (c := .viewport view) h.inStep.healthy rfl
  simp only [Registers.sendViewport, Journal.submit_eq, submitted]
  exact ⟨rfl, h.inStep.congr rfl rfl rfl rfl rfl, h.silent⟩

/-- Every instruction keeps front-end and engine in step. -/
theorem execute (h : Steady none r w) (i : Instruction) : LeavesSteady (r.execute w i) := by
  cases i with
  | place x y z => exact sendVertex (h.congr rfl rfl rfl)
  | offset dx dy dz => exact sendVertex (h.congr rfl rfl rfl)
  | beginList kind => exact ⟨rfl, h.inStep.beginList kind, h.silent⟩
  | swapBuffers => exact h.sendSwap
  | setViewport view => exact h.sendViewport view
  | unknown id => exact h.notify (by simp)
  | _ => exact h.congr rfl rfl rfl

end Steady

theorem keeps_steady : FrontEnd.Keeps Steady where
  execute _ _ i h := h.execute i
  refresh _ _ h := h.congr rfl rfl rfl
  acknowledge _ _ h := h.congr rfl rfl rfl

end Registers

/-! ### Sessions -/

namespace Session

/-- Whether an action leaves it to the front-end to send commands, and loads nothing. -/
def Action.isOwn : Action → Bool
  | .call _ | .beginPass | .draw .. | .save => true
  | .submit _ | .process _ | .load _ => false

/-- Front-end and engine are in step. -/
def InStep (s : Session) : Prop :=
  s.frontEnd.registers.InStep s.frontEnd.registers.made s.engine

variable {s : Session}

/-- What a call reports is learnt without any effect on what it does. -/
theorem call_journal (s : Session) (c : FrontEnd.Call) :
    s.frontEnd.call s.engine c =
      (s.frontEnd.call (⟨s.engine, []⟩ : Journal) c).mapSink Journal.engine :=
  FrontEnd.call_view Journal.isView_engine s.frontEnd ⟨s.engine, []⟩ c

theorem InStep.call (h : s.InStep) (c : FrontEnd.Call) :
    FrontEnd.Meets Registers.Steady (s.frontEnd.call (⟨s.engine, []⟩ : Journal) c) :=
  Registers.keeps_steady.call _ _ c ⟨rfl, h, List.not_mem_nil⟩

/-- Drawing touches nothing that is counted. -/
theorem InStep.mapCurrent (h : s.InStep) (f : Slot → Slot) : (s.mapCurrent f).InStep :=
  Registers.InStep.congr h rfl rfl rfl rfl (Frames.next_mapCurrent f _)

theorem InStep.step (h : s.InStep) {a : Action} (own : a.isOwn = true) : (s.step a).InStep := by
  cases a with
  | call c =>
    rw [Session.step, call_journal]
    exact (h.call c).inStep
  | beginPass => exact InStep.mapCurrent (s := { s with buckets := _ }) h _
  | draw config c y canvas => exact h.mapCurrent _
  | save => exact h
  | submit c => cases own
  | process c => cases own
  | load bs => cases own

theorem run_inStep (actions : List Action) (own : ∀ a ∈ actions, a.isOwn = true) :
    (({} : Session).run actions).InStep :=
  run_induction (fun _ a ha h => h.step (own a ha)) Registers.inStep_fresh

/-- Whatever is written to a new front-end, as long as nobody else sends commands to
    its new engine and no state is loaded: the engine never halts and no call ends in a
    fault. The front-end counts the vertices of the frame that is being built, and at
    least its triangles, of which there are two less than vertices or fewer still. So no
    polygon is dropped because there are too many triangles. -/
theorem run_counts (actions : List Action) (own : ∀ a ∈ actions, a.isOwn = true) :
    let s := ({} : Session).run actions
    let r := s.frontEnd.registers
    let next := s.engine.frames.next
    s.engine.fault = none ∧ r.vertices = next.vertices.size ∧
      r.triangles ≤ r.vertices - 2 ∧ r.vertices - 2 ≤ 4094 ∧
      next.triangles.size ≤ r.triangles ∧
      ∀ c, let o := s.frontEnd.call (⟨s.engine, []⟩ : Journal) c
        s.frontEnd.call s.engine c = o.mapSink Journal.engine ∧
          o.fault = none ∧ Notice.polygonBeyondLimit ∉ o.sink.notices := by
  intro s r next
  have h : s.InStep := run_inStep actions own
  refine ⟨h.healthy, h.vertices, h.triangles_le, Nat.sub_le_sub_right h.room 2, h.built,
    fun c => ⟨call_journal s c, ?_⟩⟩
  exact ⟨(h.call c).fault, (h.call c).silent⟩

/-- A list of three vertices that a packed word begins, with a pass before the last of
    them: all counts are those of one triangle. -/
theorem run_counts_triangle :
    let actions : List Action :=
      [.call (.writePacked 0x24242440), .call (.writePacked 0), .call (.writePacked 0),
        .call (.writePacked 0), .call .readClip, .beginPass, .call (.writePacked 0)]
    let s := ({} : Session).run actions
    (∀ a ∈ actions, a.isOwn = true) ∧ s.engine.fault = none ∧
      s.frontEnd.registers.vertices = s.engine.frames.next.vertices.size ∧
      s.frontEnd.registers.triangles = 1 ∧ s.engine.frames.next.triangles.size = 1 ∧
      ∀ c, (s.frontEnd.call (⟨s.engine, []⟩ : Journal) c).fault = none := by
  intro actions s
  have own : ∀ a ∈ actions, a.isOwn = true := by simp [actions, Action.isOwn]
  obtain ⟨healthy, vertices, -, -, -, calls⟩ := run_counts actions own
  exact ⟨own, healthy, vertices, by decide +kernel, by decide +kernel, fun c => (calls c).2.1⟩

end Session

end GeometryEngine
