import GeometryEngine.Assembly
import GeometryEngine.Session
import GeometryEngine.Proofs.Accepted
import GeometryEngine.Proofs.Alike
import GeometryEngine.Proofs.CarriedOut

/-!
# The clip matrix is worked out in time

The product of the two matrices is only worked out when it is asked for, and kept until an
instruction marks it as stale. Nobody can tell: it is as if it were worked out anew each time.

* `MatrixUnit.Marks`: an instruction marks the clip matrix if it changes a matrix. All of them
  do, in every mode.
* `Registers.Alike`: two registers that differ at most in whether the clip matrix has been worked
  out. They do the same (`Registers.respects_alike`).
* `Registers.vertices_execute`: the vertex that is sent is that of the two matrices.
* `FrontEnd.callAll_eager`: so is every vertex that is sent in any run, whether or not the clip
  matrix is read in between.
-/

namespace GeometryEngine

-- Nothing below depends on how a product of matrices is worked out.
attribute [local irreducible] Matrix.mul

/-! ### Matrices -/

namespace MatrixUnit

/-- The clip matrix is the product of the matrices unless it is marked as stale. -/
def IsCurrent (u : MatrixUnit) : Prop :=
  u.stale = false → u.clip = u.coordinate * u.projection

/-- The matrices with the clip matrix worked out anew. -/
def settled (u : MatrixUnit) : MatrixUnit :=
  { u with clip := u.coordinate * u.projection, stale := false }

/-- A change of the matrices that marks the clip matrix as stale if it changes the product, and
    that does not depend on whether it was stale before. -/
structure Marks (f : MatrixUnit → MatrixUnit) : Prop where
  current : ∀ u, u.IsCurrent → (f u).IsCurrent
  settled : ∀ u, (f u).settled = (f u.settled).settled

theorem isCurrent_settled (u : MatrixUnit) : u.settled.IsCurrent := fun _ => rfl

theorem IsCurrent.refresh_eq {u : MatrixUnit} (h : u.IsCurrent) : u.refresh = u.settled := by
  cases stale : u.stale with
  | true => rw [refresh, if_pos stale, settled]
  | false => rw [refresh, if_neg (by simp [stale]), settled, ← h stale, ← stale]

theorem marks_setMode (mode : MatrixMode) : Marks fun u => { u with mode } where
  current _ h := h
  settled _ := rfl

theorem marks_load (m : Matrix) : Marks (load m) where
  current u h := by
    unfold load
    split
    · exact nofun
    · exact nofun
    · exact h
  settled u := by cases h : u.mode <;> simp [load, settled, h]

theorem marks_multiply (m : Matrix) : Marks (multiply m) where
  current u h := by
    unfold multiply
    split
    · exact nofun
    · exact nofun
    · exact h
  settled u := by cases h : u.mode <;> simp [multiply, settled, h]

theorem marks_push : Marks push where
  current u h := by
    unfold push
    split
    · split <;> exact h
    · dsimp only
      split <;> split <;> exact h
    · exact h
  settled u := by
    cases h : u.mode with
    | projection => by_cases empty : u.projectionDepth = 0 <;> simp [push, settled, h, empty]
    | coordinate =>
      by_cases last : 30 ≤ u.pointer <;> by_cases room : u.pointer < 31 <;>
        simp [push, settled, h, last, room]
    | texture => simp [push, settled, h]

theorem marks_pop (n : Int) : Marks (pop n) where
  current u h := by
    unfold pop
    split
    · split
      · exact h
      · exact nofun
    · dsimp only
      split
      · exact nofun
      · split <;> exact h
    · exact h
  settled u := by
    cases h : u.mode with
    | projection => by_cases empty : u.projectionDepth = 0 <;> simp [pop, settled, h, empty]
    | coordinate =>
      by_cases far : u.pointer - n < 0 ∨ 30 ≤ u.pointer - n <;>
        by_cases there : 0 ≤ u.pointer - n ∧ u.pointer - n < 31 <;>
        simp only [pop, settled, h, far, there, slot, and_self, ↓reduceIte]
    | texture => simp [pop, settled, h]

theorem marks_store (i : Fin 32) : Marks (store i) where
  current u h := by
    unfold store
    split
    · exact h
    · dsimp only
      split <;> exact h
    · exact h
  settled u := by
    cases h : u.mode <;> by_cases last : i = 31 <;> simp [store, settled, h, last]

theorem marks_restore (i : Fin 32) : Marks (restore i) where
  current u h := by
    unfold restore
    split
    · exact nofun
    · exact nofun
    · exact h
  settled u := by
    cases h : u.mode <;> by_cases last : i = 31 <;> simp [restore, settled, h, last]

theorem marks_acknowledge : Marks acknowledge where
  current _ h := h
  settled _ := rfl

end MatrixUnit

/-! ### Registers -/

namespace Registers

/-- The registers with the clip matrix worked out anew. -/
def settled (r : Registers) : Registers := r.mapMatrices .settled

/-- The clip matrix is what it has to be unless it is stale, and the last vertex is a point of
    space. -/
structure IsCurrent (r : Registers) : Prop where
  matrices : r.matrices.IsCurrent
  point : r.position.w = 1

/-- A change of the registers that marks the clip matrix as stale if it changes the product, and
    that does not depend on whether it was stale before. -/
structure Marks (f : Registers → Registers) : Prop where
  current : ∀ r, r.IsCurrent → (f r).IsCurrent
  settled : ∀ r, (f r).settled = (f r.settled).settled

/-- Registers that differ at most in whether the clip matrix has been worked out. -/
structure Alike (r r' : Registers) : Prop where
  current : r.IsCurrent
  current' : r'.IsCurrent
  settled : r.settled = r'.settled

theorem marks_mapMatrices {f : MatrixUnit → MatrixUnit} (hf : MatrixUnit.Marks f) :
    Marks (mapMatrices f) where
  current r h := ⟨hf.current r.matrices h.matrices, h.point⟩
  settled r := congrArg (fun u => { r with matrices := u }) (hf.settled r.matrices)

theorem marks_moveTo (x y z : Option Fixed) : Marks (moveTo x y z) where
  current _ h := ⟨h.matrices, h.point⟩
  settled _ := rfl

theorem marks_moveBy (dx dy dz : Fixed) : Marks (moveBy dx dy dz) where
  current _ h := ⟨h.matrices, h.point⟩
  settled r := by
    have position : r.settled.position = r.position := rfl
    rw [moveBy, moveBy, position, ← (marks_moveTo _ _ _).settled r]

theorem marks_beginFrame : Marks beginFrame where
  current _ h := ⟨h.matrices, h.point⟩
  settled _ := rfl

theorem marks_countVertex : Marks countVertex where
  current _ h := ⟨h.matrices, h.point⟩
  settled _ := rfl

theorem IsCurrent.refresh_eq {r : Registers} (h : r.IsCurrent) :
    r.mapMatrices .refresh = r.settled := by
  rw [settled, mapMatrices, mapMatrices, h.matrices.refresh_eq]

namespace Alike

variable {r r' : Registers}

theorem refl (h : r.IsCurrent) : Alike r r := ⟨h, h, rfl⟩

theorem map {f : Registers → Registers} (hf : Marks f) (h : Alike r r') :
    Alike (f r) (f r') where
  current := hf.current r h.current
  current' := hf.current r' h.current'
  settled := by rw [hf.settled r, hf.settled r', h.settled]

theorem list (h : Alike r r') : r.list = r'.list := (congrArg Registers.list h.settled :)

theorem vertices (h : Alike r r') : r.vertices = r'.vertices :=
  (congrArg Registers.vertices h.settled :)

theorem triangles (h : Alike r r') : r.triangles = r'.triangles :=
  (congrArg Registers.triangles h.settled :)

/-- Once they are worked out, the clip matrices are the same. -/
theorem refresh_eq (h : Alike r r') : r.mapMatrices .refresh = r'.mapMatrices .refresh := by
  rw [h.current.refresh_eq, h.current'.refresh_eq, h.settled]

theorem refresh_left (h : Alike r r') : Alike (r.mapMatrices .refresh) r' where
  current := h.current.refresh_eq ▸ ⟨MatrixUnit.isCurrent_settled r.matrices, h.current.point⟩
  current' := h.current'
  settled := by
    rw [h.current.refresh_eq]
    exact h.settled

end Alike

/-! ### Instructions -/

section

variable {σ : Type} [Sink σ] {r r' : Registers}

theorem agree_sendPolygon (h : Alike r r') (o : Outline) (s : σ) :
    (r.sendPolygon o s).Agree Alike (r'.sendPolygon o s) := by
  have counts : Marks fun r => { r with triangles := r.triangles + o.triangles } :=
    ⟨fun _ h => ⟨h.matrices, h.point⟩, fun _ => rfl⟩
  rw [sendPolygon, sendPolygon]
  by_cases full : frameLimit < r.triangles + o.triangles
  · rw [if_pos full, if_pos (h.triangles ▸ full)]
    exact ⟨h, rfl, rfl⟩
  · have same : o.command r'.list.attributes = o.command r.list.attributes := by rw [h.list]
    rw [if_neg full, if_neg (h.triangles ▸ full), same]
    rcases Sink.submit s (o.command r.list.attributes) with ⟨_ | _ | _, s'⟩
    · exact ⟨h.map counts, rfl, rfl⟩
    · exact ⟨h, rfl, rfl⟩
    · exact ⟨h, rfl, rfl⟩

theorem agree_sendCompleted (h : Alike r r') (s : σ) :
    (r.sendCompleted s).Agree Alike (r'.sendCompleted s) := by
  rw [sendCompleted, sendCompleted, ← h.list]
  split
  · exact ⟨h, rfl, rfl⟩
  · exact agree_sendPolygon h _ s

theorem agree_sendVertex (h : Alike r r') (s : σ) :
    (r.sendVertex s).Agree Alike (r'.sendVertex s) := by
  rw [sendVertex, sendVertex, ← h.vertices, ← h.refresh_eq]
  split
  · exact ⟨h, rfl, rfl⟩
  · -- From here on both have the same registers.
    have same : Alike (r.mapMatrices .refresh) (r.mapMatrices .refresh) :=
      .refl h.refresh_left.current
    dsimp only
    rcases Sink.submit s (r.mapMatrices .refresh).vertexCommand with ⟨_ | _ | _, s'⟩
    · exact agree_sendCompleted (same.map marks_countVertex) s'
    · exact ⟨same, rfl, rfl⟩
    · exact ⟨same, rfl, rfl⟩

theorem agree_sendSwap (h : Alike r r') (s : σ) :
    (r.sendSwap s).Agree Alike (r'.sendSwap s) := by
  rw [sendSwap, sendSwap]
  rcases Sink.submit s .swapBuffers with ⟨_ | _ | _, s'⟩
  · exact ⟨h.map marks_beginFrame, rfl, rfl⟩
  · exact ⟨h.map marks_beginFrame, rfl, rfl⟩
  · exact ⟨h, rfl, rfl⟩

theorem agree_sendViewport (h : Alike r r') (view : Viewport) (s : σ) :
    (r.sendViewport view s).Agree Alike (r'.sendViewport view s) := by
  rw [sendViewport, sendViewport]
  rcases Sink.submit s (.viewport view) with ⟨_ | _ | _, s'⟩ <;> exact ⟨h, rfl, rfl⟩

/-- No instruction tells whether the clip matrix has been worked out. -/
theorem agree_execute (h : Alike r r') (s : σ) (i : Instruction) :
    (r.execute s i).Agree Alike (r'.execute s i) := by
  have changes {f : Registers → Registers} (hf : Marks f) :
      Outcome.Agree Alike ⟨f r, s, none⟩ ⟨f r', s, none⟩ := ⟨h.map hf, rfl, rfl⟩
  cases i with
  | nothing => exact ⟨h, rfl, rfl⟩
  | setMode mode => exact changes (marks_mapMatrices (MatrixUnit.marks_setMode mode))
  | push => exact changes (marks_mapMatrices MatrixUnit.marks_push)
  | pop n => exact changes (marks_mapMatrices (MatrixUnit.marks_pop n))
  | store slot => exact changes (marks_mapMatrices (MatrixUnit.marks_store slot))
  | restore slot => exact changes (marks_mapMatrices (MatrixUnit.marks_restore slot))
  | load m => exact changes (marks_mapMatrices (MatrixUnit.marks_load m))
  | multiply m => exact changes (marks_mapMatrices (MatrixUnit.marks_multiply m))
  | place x y z => exact agree_sendVertex (h.map (marks_moveTo x y z)) s
  | offset dx dy dz => exact agree_sendVertex (h.map (marks_moveBy dx dy dz)) s
  | setAttributes attributes =>
    exact changes (f := fun r => { r with attributes })
      ⟨fun _ h => ⟨h.matrices, h.point⟩, fun _ => rfl⟩
  | beginList kind =>
    exact changes (f := fun r => { r with list := r.list.restart kind r.attributes })
      ⟨fun _ h => ⟨h.matrices, h.point⟩, fun _ => rfl⟩
  | swapBuffers => exact agree_sendSwap h s
  | setViewport view => exact agree_sendViewport h view s
  | unknown id => exact ⟨h, rfl, rfl⟩

theorem respects_alike : FrontEnd.Respects σ Alike where
  execute _ _ s i h := agree_execute h s i
  refresh _ _ h := h.refresh_eq ▸ .refl h.refresh_left.current
  acknowledge _ _ h := h.map (marks_mapMatrices MatrixUnit.marks_acknowledge)

end

/-- The vertex at the current point: the product of the two matrices takes it to clip space. -/
def eagerVertex (r : Registers) : Command :=
  let p := (r.matrices.coordinate * r.matrices.projection).apply { r.position with w := 1 }
  .vertex p.x p.y p.z p.w

/-- The vertex that has to be sent at the current point, if the frame has room for it. -/
def eagerVertex? (r : Registers) : Option Command :=
  if r.vertices < frameLimit then some r.eagerVertex else none

end Registers

/-- The vertex that has to be sent with an instruction. -/
def Moment.vertex? (m : Moment) : Option Command :=
  match m.instruction with
  | .place x y z => (m.registers.moveTo x y z).eagerVertex?
  | .offset dx dy dz => (m.registers.moveBy dx dy dz).eagerVertex?
  | _ => none

/-! ### Vertices that are sent -/

section

variable {σ : Type} [Sink σ]

namespace Ledger

/-- The vertices that were submitted. -/
def vertices (l : Ledger σ) : List Command := l.commands.filter Command.isVertex

theorem vertices_of_submit {l m : Ledger σ} {c : Command} {v : Verdict}
    (h : Sink.submit l c = (v, m)) :
    m.vertices = l.vertices ++ [c].filter Command.isVertex := by
  rw [vertices, commands, entries_of_submit h, List.map_append, List.filter_append]
  rfl

end Ledger

namespace Registers

variable {r : Registers}

theorem vertices_sendPolygon (o : Outline) (r : Registers) (l : Ledger σ) :
    (r.sendPolygon o l).sink.vertices = l.vertices := by
  have polygon : [o.command r.list.attributes].filter Command.isVertex = [] := by cases o <;> rfl
  rw [sendPolygon]
  split
  · rfl
  · rcases hs : Sink.submit l (o.command r.list.attributes) with ⟨_ | _ | _, m⟩ <;>
      have sent := Ledger.vertices_of_submit hs <;>
      rw [polygon, List.append_nil] at sent <;>
      exact sent

theorem vertices_sendCompleted (r : Registers) (l : Ledger σ) :
    (r.sendCompleted l).sink.vertices = l.vertices := by
  rw [sendCompleted]
  split
  · rfl
  · exact vertices_sendPolygon _ r l

/-- Right before a vertex is sent, the clip matrix is worked out. -/
theorem IsCurrent.vertexCommand (h : r.IsCurrent) :
    (r.mapMatrices .refresh).vertexCommand = r.eagerVertex := by
  have point : ({ r.position with w := 1 } : Point) = r.position := by rw [← h.point]
  rw [h.refresh_eq, eagerVertex, point]
  rfl

theorem vertices_sendVertex (h : r.IsCurrent) (l : Ledger σ) :
    (r.sendVertex l).sink.vertices = l.vertices ++ r.eagerVertex?.toList := by
  rw [sendVertex, eagerVertex?]
  by_cases full : frameLimit ≤ r.vertices
  · rw [if_pos full, if_neg (Nat.not_lt.2 full)]
    exact (List.append_nil _).symm
  · rw [if_neg full, if_pos (Nat.not_le.1 full), ← h.vertexCommand]
    dsimp only
    rcases hs : Sink.submit l (r.mapMatrices .refresh).vertexCommand with ⟨_ | _ | _, m⟩ <;>
      have sent := Ledger.vertices_of_submit hs
    · exact (vertices_sendCompleted _ m).trans sent
    · exact sent
    · exact sent

/-- With every instruction the vertex is sent that has to be sent, and no other. -/
theorem vertices_execute (h : r.IsCurrent) (l : Ledger σ) (i : Instruction) :
    (r.execute l i).sink.vertices = l.vertices ++ (Moment.vertex? ⟨r, i⟩).toList := by
  cases i with
  | place x y z => exact vertices_sendVertex ((marks_moveTo x y z).current r h) l
  | offset dx dy dz => exact vertices_sendVertex ((marks_moveBy dx dy dz).current r h) l
  | swapBuffers =>
    rw [execute, sendSwap]
    rcases hs : Sink.submit l .swapBuffers with ⟨_ | _ | _, m⟩ <;>
      exact Ledger.vertices_of_submit hs
  | setViewport view =>
    rw [execute, sendViewport]
    rcases hs : Sink.submit l (.viewport view) with ⟨_ | _ | _, m⟩ <;>
      exact Ledger.vertices_of_submit hs
  | _ => exact (List.append_nil _).symm

theorem vertices_executeAll (h : r.IsCurrent) (l : Ledger σ) (is : List Instruction) :
    (r.executeAll l is).sink.vertices =
      l.vertices ++ (r.moments l is).filterMap Moment.vertex? := by
  induction is generalizing r l with
  | nil => exact (List.append_nil _).symm
  | cons i is ih =>
    have sent := vertices_execute h l i
    have next : (r.execute l i).state.IsCurrent := (agree_execute (.refl h) l i).state.current
    rw [executeAll, moments, Outcome.andThen]
    cases hf : (r.execute l i).fault with
    | some f =>
      -- There is no moment after the fault.
      simp only [Option.isNone_some, Bool.false_eq_true, ↓reduceIte]
      exact sent
    | none =>
      simp only [Option.isNone_none, ↓reduceIte]
      rw [ih next, sent, List.append_assoc, List.filterMap_cons]
      cases Moment.vertex? ⟨r, i⟩ <;> rfl

end Registers

namespace FrontEnd

theorem isCurrent_call {fe : FrontEnd} (h : fe.registers.IsCurrent) (s : σ) (c : Call) :
    (fe.call s c).state.registers.IsCurrent :=
  (Registers.respects_alike.call ⟨.refl h, rfl, rfl, rfl⟩ s c).state.registers.current

/-- All vertices that are sent are those that have to be. -/
theorem vertices_callAll {fe : FrontEnd} (h : fe.registers.IsCurrent) (l : Ledger σ)
    (cs : List Call) :
    (fe.callAll l cs).2.vertices = l.vertices ++ (fe.moments l cs).filterMap Moment.vertex? := by
  induction cs generalizing fe l with
  | nil => exact (List.append_nil _).symm
  | cons c cs ih =>
    obtain ⟨-, sink, -⟩ := carries_call fe l c
    have sent := Registers.vertices_executeAll h l (fe.carriedOut c)
    rw [callAll, moments, ih (isCurrent_call h l c), List.filterMap_append, ← List.append_assoc,
      ← sent, sink]

/-- The same is sent if the clip matrix is never read. -/
theorem Alike.callAll_filter {fe fe' : FrontEnd} (h : fe.Alike Registers.Alike fe') (s : σ)
    (cs : List Call) :
    (fe.callAll s cs).2 = (fe'.callAll s (cs.filter (· ≠ .readClip))).2 := by
  induction cs generalizing fe fe' s with
  | nil => rfl
  | cons c cs ih =>
    by_cases read : c = .readClip
    · -- The other front-end does not read, and the two stay alike.
      subst read
      rw [List.filter_cons_of_neg (by simp)]
      have known : fe.readClip.2.Alike Registers.Alike fe' :=
        ⟨h.registers.refresh_left, h.pending, h.packed, h.packedParameters⟩
      exact ih known s
    · have called := Registers.respects_alike.call h s c
      rw [List.filter_cons_of_pos (by simpa using read), callAll, callAll, called.sink]
      exact ih called.state _

/-- However a new front-end is written to, and whoever receives its commands: the clip matrix
    that is read is always the product of the two matrices. Every vertex that is sent is the last
    point, with `1` as its fourth coordinate, times the product of the matrices of that moment.
    Whether and when the clip matrix is read makes no difference to what is sent. -/
theorem callAll_eager (s : σ) (calls : List Call) :
    let fresh : Ledger σ := ⟨s, []⟩
    let o := ({} : FrontEnd).callAll fresh calls
    let u := o.1.registers.matrices
    o.1.readClip.1 = u.coordinate * u.projection ∧
      o.2.vertices = (({} : FrontEnd).moments fresh calls).filterMap Moment.vertex? ∧
      ∀ others : List Call, others.filter (· ≠ .readClip) = calls.filter (· ≠ .readClip) →
        (({} : FrontEnd).callAll fresh others).2 = o.2 := by
  intro fresh o u
  have current : ({} : Registers).IsCurrent := ⟨fun _ => by decide +kernel, rfl⟩
  have alike : ({} : FrontEnd).Alike Registers.Alike {} := ⟨.refl current, rfl, rfl, rfl⟩
  refine ⟨?_, vertices_callAll current fresh calls, fun others same => ?_⟩
  · have final : o.1.registers.IsCurrent :=
      callAll_induction (P := fun fe (_ : Ledger σ) => fe.registers.IsCurrent)
        (fun _ s c h => isCurrent_call h s c) current calls
    rw [readClip, final.refresh_eq]
    rfl
  · rw [alike.callAll_filter, same, ← alike.callAll_filter]

/-- A vertex is moved by the coordinate matrix and then made larger by the projection matrix, also
    if the clip matrix is read when only the first of them is there. -/
theorem callAll_eager_moved :
    let moved : List Call := [.write 0x10 2, .write 0x1C 0x1000, .write 0x1C 0, .write 0x1C 0]
    let larger : List Call := [.write 0x10 0, .write 0x1B 0x2000, .write 0x1B 0x2000,
      .write 0x1B 0x2000, .write 0x26 0x1000]
    let o := ({} : FrontEnd).callAll (⟨{}, []⟩ : Ledger Engine) (moved ++ .readClip :: larger)
    (moved ++ larger).filter (· ≠ .readClip) =
        (moved ++ .readClip :: larger).filter (· ≠ .readClip) ∧
      o.2.vertices = [.vertex 4 0 0 1] ∧
      (({} : FrontEnd).callAll (⟨{}, []⟩ : Ledger Engine) (moved ++ larger)).2 = o.2 := by
  intro moved larger o
  obtain ⟨-, vertices, unread⟩ := callAll_eager ({} : Engine) (moved ++ .readClip :: larger)
  have same : (moved ++ larger).filter (· ≠ .readClip) =
      (moved ++ .readClip :: larger).filter (· ≠ .readClip) := by decide
  have sent : (({} : FrontEnd).moments (⟨{}, []⟩ : Ledger Engine)
      (moved ++ .readClip :: larger)).filterMap Moment.vertex? = [.vertex 4 0 0 1] := by
    decide +kernel
  exact ⟨same, vertices.trans sent, unread (moved ++ larger) same⟩

end FrontEnd

end

end GeometryEngine
