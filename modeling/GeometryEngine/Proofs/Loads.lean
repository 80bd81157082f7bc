import GeometryEngine.Assembly
import GeometryEngine.Proofs.Fits
import GeometryEngine.Proofs.InStep
import GeometryEngine.Proofs.Instructions

/-!
# Loading behind the front-end's back

A load replaces the frame that is being built, but not what the front-end has counted for
it. If the two agree all the same (`Session.Agrees`), then nothing has happened, and
front-end and engine stay in step (`Session.InStep.load`). So no call raises a fault in a
session with such loads (`Session.run_loads`).

If a load leaves fewer vertices than are counted, then the next polygon refers to a vertex
that is not there, and raises a fault (`Registers.fault_of_fewer`).
-/

namespace GeometryEngine

/-! ### A frame with too few vertices -/

/-- A polygon refers to the vertex that has completed it. -/
theorem VertexList.last_mem_of_completed {l : VertexList} {o : Outline}
    (ho : l.completed? = some o) : l.last ∈ o.vertices := by
  unfold completed? at ho
  split at ho <;> split at ho <;> cases ho <;> simp [Outline.vertices]

/-- A polygon with a corner that is not there raises a fault. -/
theorem Engine.process_polygon_of_dangling {e : Engine} {v0 v1 v2 v3 : Int32} {attributes : UInt32}
    {c : Int32} (corner : c ∈ corners v0 v1 v2 v3 attributes)
    (missing : e.frames.next.resolves c = false) :
    ∃ f, e.process (.polygon v0 v1 v2 v3 attributes) = .error f := by
  cases processed : e.process (.polygon v0 v1 v2 v3 attributes) with
  | error f => exact ⟨f, rfl⟩
  | ok e' =>
    cases effect_of_process processed with
    | polygon sound =>
      have there := (Slot.polygonFault?_eq_none sound).1 c corner
      exact absurd (missing.symm.trans there) Bool.noConfusion

namespace Registers

variable {r : Registers} {e : Engine}

/-- With fewer vertices in the frame than are counted, the next vertex that completes a
    polygon raises a fault. -/
theorem fault_of_fewer (healthy : e.fault = none) (fewer : e.frames.next.vertices.size < r.vertices)
    (few : r.vertices < frameLimit) {o : Outline} (ho : r.countVertex.list.completed? = some o)
    (fits : r.triangles + o.triangles ≤ frameLimit) : (r.sendVertex e).fault ≠ none := by
  have room : e.frames.next.vertices.size < Slot.capacity := Nat.lt_trans fewer few
  -- The vertex finds room, but its number in the frame is not what the front-end takes it for.
  let v := (r.mapMatrices .refresh).matrices.clip.apply r.position
  let e' : Engine :=
    { e with frames := e.frames.mapNext (Slot.pushVertex (.ofClip v.x v.y v.z v.w)) }
  have submitted : e.submit (r.mapMatrices .refresh).vertexCommand = (.accepted, e') :=
    Engine.submit_of_process healthy (Engine.process_vertex room v.x v.y v.z v.w)
  have missing : e'.frames.next.resolves (.ofNat r.vertices) = false := by
    have word : r.vertices < 2 ^ 31 := Nat.lt_trans few (by decide)
    have size : e'.frames.next.vertices.size = e.frames.next.vertices.size + 1 := by
      rw [Frames.next_mapNext, Slot.pushVertex, Array.size_push]
    rw [← Bool.not_eq_true, Slot.resolves_iff, Int32.toInt_ofNat_of_lt word, size]
    omega
  obtain ⟨v0, v1, v2, v3, attributes, command, corners⟩ := o.command_eq r.list.attributes
  have corner : Int32.ofNat r.vertices ∈ Engine.corners v0 v1 v2 v3 attributes :=
    corners ▸ List.mem_map_of_mem (VertexList.last_mem_of_completed ho)
  obtain ⟨f, faulty⟩ := Engine.process_polygon_of_dangling corner missing
  have raised : e'.submit (o.command r.list.attributes) = (.raised f, e'.halt f) :=
    command ▸ Engine.submit_of_fault healthy faulty
  have completed : (r.mapMatrices .refresh).countVertex.list.completed? = some o := ho
  have sent : (r.mapMatrices .refresh).countVertex.triangles + o.triangles ≤ frameLimit := fits
  have list : (r.mapMatrices .refresh).countVertex.list.attributes = r.list.attributes := rfl
  simp only [sendVertex, Nat.not_le.2 few, ↓reduceIte, Engine.sink_submit, submitted, sendCompleted,
    completed, sendPolygon, Nat.not_lt.2 sent, list, raised]
  exact Option.some_ne_none f

end Registers

/-! ### Sessions -/

namespace Session

variable {s : Session}

/-- The front-end has counted the vertices of the frame that is being built, and at least
    its triangles. -/
structure Agrees (s : Session) : Prop where
  vertices : s.frontEnd.registers.vertices = s.engine.frames.next.vertices.size
  triangles : s.engine.frames.next.triangles.size ≤ s.frontEnd.registers.triangles

/-- Nobody but the front-end sends commands, and every state that is loaded was saved
    before, or is not accepted, and agrees with what the front-end has counted. -/
def LoadsAgree (s : Session) : List Action → Prop
  | [] => True
  | a :: as =>
    (a.isOwn = true ∨ ∃ bs, a = .load bs ∧ s.mayLoad bs ∧ (s.step a).Agrees) ∧
      (s.step a).LoadsAgree as

/-- Front-end and engine are in step, and whatever was saved was so, too. -/
structure IsLoadable (s : Session) : Prop where
  inStep : s.InStep
  fits : s.engine.frames.Fits
  /-- What was saved are frames that can be set up. -/
  saves : ∀ bs ∈ s.saves, ∃ e : Engine, bs = e.save ∧ e.frames.Fits ∧ e.frames.next.Placed

namespace IsLoadable

theorem fresh : ({} : Session).IsLoadable := ⟨Registers.inStep_fresh, Frames.fits_empty, nofun⟩

theorem own (h : s.IsLoadable) {a : Action} (own : a.isOwn = true) : (s.step a).IsLoadable := by
  refine ⟨h.inStep.step own, fits_step h.fits a, ?_⟩
  cases a with
  | save =>
    exact List.forall_mem_cons.2 ⟨⟨s.engine, rfl, h.fits, h.inStep.placed⟩, h.saves⟩
  | process c => cases own
  | _ => exact h.saves

/-- What may be loaded can be set up. -/
theorem placed (h : s.IsLoadable) {bs : List UInt8} (may : s.mayLoad bs) :
    (s.engine.load bs).1.frames.next.Placed := by
  rcases may with saved | rejected
  · obtain ⟨e, rfl, fits, placed⟩ := h.saves bs saved
    have restored := Engine.load_save_codec.1 e s.engine [] fits
    rw [List.append_nil] at restored
    rw [restored]
    exact placed
  · rw [Engine.load_save_codec.2.2.2 s.engine bs rejected]
    exact Registers.inStep_fresh.placed

/-- A load that agrees with what is counted keeps front-end and engine in step. -/
theorem load (h : s.IsLoadable) {bs : List UInt8} (may : s.mayLoad bs)
    (agrees : (s.step (.load bs)).Agrees) : (s.step (.load bs)).IsLoadable where
  inStep := { h.inStep with
    healthy := (Engine.fault_load _ bs).trans h.inStep.healthy
    vertices := agrees.vertices
    built := agrees.triangles
    placed := h.placed may }
  fits := Engine.fits_load s.engine bs
  saves := h.saves

theorem run (h : s.IsLoadable) {actions : List Action} (agree : s.LoadsAgree actions) :
    (s.run actions).IsLoadable := by
  induction actions generalizing s with
  | nil => exact h
  | cons a as ih =>
    obtain ⟨own | ⟨bs, rfl, may, agrees⟩, rest⟩ := agree
    · exact ih (h.own own) rest
    · exact ih (h.load may agrees) rest

end IsLoadable

/-- With fewer vertices in the frame than are counted, a word that is the last one of a
    vertex that completes a polygon raises a fault. -/
theorem InStep.fault_of_fewer (inStep : s.InStep) (bs : List UInt8) :
    let t := s.step (.load bs)
    let r := t.frontEnd.registers
    t.engine.frames.next.vertices.size < r.vertices → r.vertices < Registers.frameLimit →
      ∀ o, (r.list.push r.vertices).completed? = some o → ∀ id us w,
        t.frontEnd.pending = us.map (Entry.mk id) → us.length + 1 = FrontEnd.entries id →
          (Instruction.decode id (us ++ [w])).isVertex = true →
            (t.frontEnd.call t.engine (.write id w)).fault ≠ none := by
  intro t r fewer few o completes id us w before last vertex
  have healthy : t.engine.fault = none := (Engine.fault_load _ bs).trans inStep.healthy
  -- Before the load the vertex would have been accepted, and its polygon, too.
  obtain ⟨e, -, counted⟩ := Registers.InStep.vertex inStep few 0 0 0 0
  have fits := counted.fits completes
  have written := FrontEnd.write_of_eq before w last t.engine
  change (t.frontEnd.write t.engine id w).fault ≠ none
  rw [written]
  cases decoded : Instruction.decode id (us ++ [w]) with
  | place x y z =>
    exact Registers.fault_of_fewer (r := r.moveTo x y z) healthy fewer few completes fits
  | offset dx dy dz =>
    exact Registers.fault_of_fewer (r := r.moveBy dx dy dz) healthy fewer few completes fits
  | _ =>
    rw [decoded] at vertex
    cases vertex

/-- In a session of a new engine, front-end and engine are in step, and no call raises a
    fault, as long as nobody else sends commands, and every state that is loaded agrees
    with what the front-end has counted by then. A load that leaves fewer vertices than are
    counted does not: the next vertex that completes a polygon raises a fault. -/
theorem run_loads {actions : List Action} (agree : ({} : Session).LoadsAgree actions) :
    let s := ({} : Session).run actions
    s.engine.fault = none ∧ s.Agrees ∧ (∀ c, (s.frontEnd.call s.engine c).fault = none) ∧
      ∀ bs, let t := s.step (.load bs)
        let r := t.frontEnd.registers
        t.engine.frames.next.vertices.size < r.vertices → r.vertices < Registers.frameLimit →
          ∀ o, (r.list.push r.vertices).completed? = some o → ∀ id us w,
            t.frontEnd.pending = us.map (Entry.mk id) → us.length + 1 = FrontEnd.entries id →
              (Instruction.decode id (us ++ [w])).isVertex = true →
                (t.frontEnd.call t.engine (.write id w)).fault ≠ none := by
  intro s
  have loadable : s.IsLoadable := IsLoadable.fresh.run agree
  have inStep : s.InStep := loadable.inStep
  refine ⟨inStep.healthy, ⟨inStep.vertices, inStep.built⟩, fun c => ?_, inStep.fault_of_fewer⟩
  rw [call_journal]
  exact (inStep.call c).fault

/-- The first vertex of a triangle is saved and loaded again, and no call raises a fault.
    If the new engine is loaded behind the second vertex, then the third one does. -/
theorem run_loads_triangle :
    let begun : List Action := [.save, .call (.write 0x40 0), .call (.write 0x25 0), .save]
    let saved := (({} : Session).run begun).engine.save
    let actions := begun ++ [.load saved, .call (.write 0x25 0)]
    let s := ({} : Session).run actions
    let t := s.step (.load ({} : Engine).save)
    ({} : Session).LoadsAgree actions ∧ s.Agrees ∧
      (s.frontEnd.call s.engine (.write 0x25 0)).fault = none ∧
      (t.frontEnd.call t.engine (.write 0x25 0)).fault ≠ none := by
  intro begun saved actions s t
  have agrees : ((({} : Session).run begun).step (.load saved)).Agrees :=
    ⟨by decide +kernel, by decide +kernel⟩
  have agree : ({} : Session).LoadsAgree actions :=
    ⟨.inl rfl, .inl rfl, .inl rfl, .inl rfl,
      .inr ⟨saved, rfl, .inl List.mem_cons_self, agrees⟩, .inl rfl, trivial⟩
  obtain ⟨-, same, sound, stale⟩ := run_loads agree
  exact ⟨agree, same, sound _, stale ({} : Engine).save (by decide +kernel) (by decide +kernel)
    (.triangle 0 1 2) (by decide +kernel) 0x25 [] 0 (by decide +kernel) (by decide +kernel) rfl⟩

/-- Behind two vertices of a triangle, a state is loaded that was saved before them. The
    third vertex raises a fault, since the second one is missing. -/
theorem fault_of_earlier_load :
    let begun : List Action :=
      [.save, .call (.write 0x40 0), .call (.write 0x25 0), .call (.write 0x25 0)]
    let bs := ({} : Engine).save
    let s := ({} : Session).run begun
    let t := s.step (.load bs)
    (∀ a ∈ begun, a.isOwn = true) ∧ s.mayLoad bs ∧
      (t.frontEnd.call t.engine (.write 0x25 0)).fault = some (.polygonIndex 1 1 1) := by
  intro begun bs s t
  exact ⟨by simp [begun, Action.isOwn], .inl List.mem_cons_self, by decide +kernel⟩

end Session

end GeometryEngine
