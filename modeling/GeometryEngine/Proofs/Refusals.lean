import GeometryEngine.Ledger
import GeometryEngine.Proofs.Accepted
import GeometryEngine.Proofs.Crowd
import GeometryEngine.Proofs.InStep
import GeometryEngine.Script
import Mathlib.Data.List.Induction

/-!
# Commands that are turned away

A front-end writes to an engine whose thread is stopped and started in the meantime, so
that any of its commands may be turned away. A vertex that is turned away is not counted,
nor are the triangles of a polygon, so that the front-end goes on to count what the engine
holds. A swap is different: the front-end begins a new frame even if the swap is turned
away, while the engine goes on to build the old one. The vertices of that frame are
*abandoned* then (`Tally`).

* `Registers.Tracks`: how the front-end and the answers to its commands agree, whoever
  gives them;
* `Answers.size_next_engine`: the frame that is being built holds the vertices that are
  counted and those that are abandoned;
* `Crowd.Reachable.size_next_of_answers`: so it is while the thread is stopped and started,
  and as long as none are abandoned, front-end and engine are in step and no fault arises.
-/

namespace GeometryEngine

/-! ### Counting answers -/

/-- The vertices that were accepted since the last swap that was accepted. -/
structure Tally where
  /-- Those since the last swap of all. -/
  counted : Nat := 0
  /-- Those before it. -/
  abandoned : Nat := 0
  deriving DecidableEq, Inhabited

/-- The numbers after one more command that was answered. -/
def Tally.add (n : Tally) : Command × Verdict → Tally
  | (.vertex .., .accepted) => { n with counted := n.counted + 1 }
  | (.swapBuffers, .accepted) => {}
  | (.swapBuffers, .refused) => ⟨0, n.abandoned + n.counted⟩
  | _ => n

namespace Answers

/-- The numbers of vertices after commands that were answered. -/
def tally (as : Answers) : Tally := as.foldl Tally.add {}

theorem tally_append (as : Answers) (a : Command × Verdict) :
    tally (as ++ [a]) = as.tally.add a := by
  rw [tally, List.foldl_append]
  rfl

/-- If no swap was turned away, no vertices are abandoned. -/
theorem abandoned_eq_zero {as : Answers} (h : (.swapBuffers, .refused) ∉ as) :
    as.tally.abandoned = 0 := by
  induction as using List.reverseRecOn with
  | nil => rfl
  | append_singleton as a ih =>
    have before := ih fun ha => h (List.mem_append_left _ ha)
    have other : (.swapBuffers, .refused) ≠ a := fun same =>
      h (List.mem_append_right _ (List.mem_singleton.2 same))
    rw [tally_append]
    unfold Tally.add
    split
    · exact before
    · rfl
    · exact absurd rfl other
    · exact before

end Answers

/-- A command that is carried out does to the frame what its answer does to the numbers. -/
theorem Engine.size_next_of_process {e e' : Engine} {c : Command} (h : e.process c = .ok e')
    {n : Tally} (size : e.frames.next.vertices.size = n.counted + n.abandoned) :
    e'.frames.next.vertices.size =
      (n.add (c, .accepted)).counted + (n.add (c, .accepted)).abandoned := by
  cases effect_of_process h with
  | viewport view => exact size
  | vertex room =>
    rw [Frames.next_mapNext, Slot.pushVertex, Array.size_push, size]
    exact Nat.add_right_comm _ _ _
  | polygon sound =>
    rw [Frames.next_mapNext, Slot.size_vertices_addPolygon]
    exact size
  | swapBuffers prepared =>
    rw [promote, Frames.next_swap]
    rfl

namespace Answers

/-- The frame that is being built holds the vertices that are counted and those that are
    abandoned, as long as no command has raised a fault. -/
theorem size_next_engine {as : Answers} (healthy : as.engine.fault = none)
    (unfaulted : ∀ a ∈ as, ∀ f, a.2 ≠ .raised f) :
    as.engine.frames.next.vertices.size = as.tally.counted + as.tally.abandoned := by
  induction as using List.reverseRecOn with
  | nil => rfl
  | append_singleton as a ih =>
    obtain ⟨c, v⟩ := a
    have before (healthy : (engine as).fault = none) :
        (engine as).frames.next.vertices.size = (tally as).counted + (tally as).abandoned :=
      ih healthy fun a ha => unfaulted a (List.mem_append_left _ ha)
    rw [tally_append]
    cases v with
    | accepted =>
      rw [engine_append (v := .accepted) as c nofun] at healthy ⊢
      obtain ⟨earlier, processed⟩ := Engine.process_of_healthy healthy
      exact Engine.size_next_of_process processed (before earlier)
    | refused =>
      rw [engine_append_refused] at healthy ⊢
      rw [before healthy]
      cases c with
      | swapBuffers => exact (Nat.add_comm _ _).trans (Nat.zero_add _).symm
      | _ => rfl
    | raised f => exact absurd rfl (unfaulted _ (List.mem_append_right _ (.head _)) f)

end Answers

/-! ### What the front-end makes of answers -/

namespace Answers

/-- Answers as an engine gives them that may turn commands away without need: it raises
    only faults that are there. No vertices are abandoned at any time. -/
structure Fair (as : Answers) : Prop where
  raised : ∀ before c f, before ++ [(c, .raised f)] <+: as →
    ((engine before).submit c).1 = .raised f
  kept : ∀ before, before <+: as → (tally before).abandoned = 0

theorem Fair.of_prefix {as bs : Answers} (h : bs.Fair) (le : as <+: bs) : as.Fair where
  raised before c f hb := h.raised before c f (hb.trans le)
  kept before hb := h.kept before (hb.trans le)

end Answers

variable {σ : Type}

namespace Registers

variable {r r' : Registers} {l m : Ledger σ} {made made' : Nat} {c : Command}

/-- As long as nothing is counted, another frame may be begun. -/
theorem InStep.beginFrame {e : Engine} (h : InStep r.made r e) (empty : r.vertices = 0) :
    InStep r.beginFrame.made r.beginFrame e where
  healthy := h.healthy
  vertices := empty.symm.trans h.vertices
  room := Nat.zero_le _
  built := by
    have triangles := h.triangles_le
    rw [empty] at triangles
    exact Nat.le_trans h.built triangles
  budget := Nat.zero_le _
  listed := Nat.le_refl _
  recent := VertexList.isWithin_of_length rfl
  placed := h.placed

/-- The front-end has counted the vertices that were accepted. If the answers were fair,
    then it is in step with the engine that has received its commands, and nothing has
    raised a fault so far. -/
structure Tracks (made : Nat) (fault : Option Fault) (r : Registers) (l : Ledger σ) : Prop where
  counted : r.vertices = (Answers.tally l.entries).counted
  healthy : ∀ as, as <+: l.entries → Answers.Fair as → (Answers.engine as).fault = none
  inStep : Answers.Fair l.entries → fault = none ∧ r.InStep made (Answers.engine l.entries)

namespace Tracks

theorem fresh (s : σ) : Tracks ({} : Registers).made none {} (⟨s, []⟩ : Ledger σ) where
  counted := rfl
  healthy as nothing _ := by
    rw [List.prefix_nil.1 nothing]
    rfl
  inStep _ := ⟨rfl, inStep_fresh⟩

/-- Another call may begin. -/
theorem resume {fault : Option Fault} (h : Tracks made fault r l) : Tracks made none r l :=
  { h with inStep := fun fair => ⟨rfl, (h.inStep fair).2⟩ }

/-- Registers that count nothing change nothing. -/
theorem congr (h : Tracks r.made none r l) (list : r'.list = r.list)
    (vertices : r'.vertices = r.vertices) (triangles : r'.triangles = r.triangles) :
    Tracks r'.made none r' l := by
  have made : r'.made = r.made := by rw [Registers.made, list, Registers.made]
  rw [made]
  exact ⟨vertices.trans h.counted, h.healthy, fun fair =>
    ⟨rfl, (h.inStep fair).2.congr list vertices triangles rfl rfl⟩⟩

/-- Triangles that were turned away may be counted as made. -/
theorem mono (h : Tracks made none r l) (le : made ≤ made') : Tracks made' none r l :=
  { h with inStep := fun fair => ⟨rfl, (h.inStep fair).2.mono le⟩ }

variable [Sink σ]

/-- Nor does a report. -/
theorem notify (h : Tracks made none r l) (n : Notice) : Tracks made none r (Sink.notify l n) :=
  ⟨h.counted, h.healthy, h.inStep⟩

/-- One more command is answered. -/
theorem answer {v : Verdict} {fault : Option Fault} (h : Tracks made none r l)
    (hs : Sink.submit l c = (v, m))
    (counted : r'.vertices = ((Answers.tally l.entries).add (c, v)).counted)
    (inStep : Answers.Fair m.entries → r.InStep made (Answers.engine l.entries) →
      fault = none ∧ r'.InStep made' (Answers.engine m.entries)) :
    Tracks made' fault r' m := by
  have grown := Ledger.entries_of_submit hs
  have before (fair : Answers.Fair m.entries) : Answers.Fair l.entries :=
    fair.of_prefix (grown ▸ List.prefix_append _ _)
  have after (fair : Answers.Fair m.entries) := inStep fair (h.inStep (before fair)).2
  refine ⟨?_, fun as le fair => ?_, after⟩
  · rw [grown, Answers.tally_append]
    exact counted
  · rw [grown] at le
    obtain rfl | le := List.prefix_concat_iff.1 le
    · rw [← grown] at fair ⊢
      exact (after fair).2.healthy
    · exact h.healthy as le fair

/-- A command that finds front-end and engine in step is accepted. -/
theorem accepted (h : Tracks made none r l) (hs : Sink.submit l c = (.accepted, m))
    (counted : r'.vertices = ((Answers.tally l.entries).add (c, .accepted)).counted)
    (accepts : ∀ e, r.InStep made e → ∃ e', e.submit c = (.accepted, e') ∧ r'.InStep made' e') :
    Tracks made' none r' m := by
  refine h.answer hs counted fun _ inStep => ⟨rfl, ?_⟩
  obtain ⟨e', submitted, inStep'⟩ := accepts _ inStep
  rw [Ledger.entries_of_submit hs, Answers.engine_append (v := .accepted) _ c nofun,
    submitted]
  exact inStep'

/-- Or it is turned away without need. -/
theorem refused (h : Tracks made none r l) (hs : Sink.submit l c = (.refused, m))
    (counted : r'.vertices = ((Answers.tally l.entries).add (c, .refused)).counted)
    (keeps : ((Answers.tally l.entries).add (c, .refused)).abandoned = 0 →
      ∀ e, r.InStep made e → r'.InStep made' e) : Tracks made' none r' m := by
  have grown := Ledger.entries_of_submit hs
  refine h.answer hs counted fun fair inStep => ⟨rfl, ?_⟩
  have kept := fair.kept m.entries (List.prefix_refl _)
  rw [grown, Answers.tally_append] at kept
  rw [grown, Answers.engine_append_refused]
  exact keeps kept _ inStep

/-- It does not raise a fault. -/
theorem raised {f : Fault} (h : Tracks made none r l) (hs : Sink.submit l c = (.raised f, m))
    (counted : r'.vertices = ((Answers.tally l.entries).add (c, .raised f)).counted)
    (accepts : ∀ e, r.InStep made e → (e.submit c).1 = .accepted) : Tracks made' (some f) r' m := by
  refine h.answer hs counted fun fair inStep => ?_
  have raised := fair.raised l.entries c f (Ledger.entries_of_submit hs ▸ List.prefix_refl _)
  exact absurd ((accepts _ inStep).symm.trans raised) nofun

/-! ### Instructions -/

/-- The outcome of an instruction is tracked. -/
def Leaves (o : Outcome Registers (Ledger σ)) : Prop := Tracks o.state.made o.fault o.state o.sink

theorem sendPolygon {o : Outline} (h : Tracks made none r l)
    (below : ∀ e, r.InStep made e → ∀ v ∈ o.vertices, v < r.vertices)
    (gained : r.made = made + o.triangles) : Leaves (r.sendPolygon o l) := by
  have le : made ≤ r.made := gained ▸ Nat.le_add_right _ _
  have uncounted (v : Verdict) : r.vertices =
      ((Answers.tally l.entries).add (o.command r.list.attributes, v)).counted := by
    cases o <;> exact h.counted
  rw [Registers.sendPolygon]
  split
  · exact (h.mono le).notify _
  · rename_i fits
    have accepts (e : Engine) (inStep : r.InStep made e) :=
      inStep.polygon (below e inStep) (Nat.le_of_not_lt fits) r.list.attributes
    rcases hs : Sink.submit l (o.command r.list.attributes) with ⟨_ | _ | f, m⟩
    · rw [← gained] at accepts
      exact h.accepted hs (uncounted _) accepts
    · exact (h.refused hs (uncounted _) fun _ e inStep => inStep.mono le).notify _
    · refine h.raised hs (uncounted _) fun e inStep => ?_
      obtain ⟨e', submitted, -⟩ := accepts e inStep
      rw [submitted]

theorem sendCompleted (h : Tracks made none r l) (some_vertex : 1 ≤ r.list.length)
    (gained : r.made = made + (r.list.completed?.map Outline.triangles).getD 0) :
    Leaves (r.sendCompleted l) := by
  rw [Registers.sendCompleted]
  cases hc : r.list.completed? with
  | none =>
    rw [hc] at gained
    exact h.mono (Nat.le_of_eq gained.symm)
  | some o =>
    rw [hc] at gained
    exact h.sendPolygon (fun e inStep => inStep.recent.completed some_vertex hc) gained

theorem sendVertex (h : Tracks r.made none r l) : Leaves (r.sendVertex l) := by
  rw [Registers.sendVertex]
  split
  · exact h.notify _
  · rename_i few
    -- The clip matrix is worked out first, which is not counted anywhere.
    have refreshed : Leaves ⟨r.mapMatrices .refresh, l, none⟩ := h.congr rfl rfl rfl
    have accepts (e : Engine) (inStep : (r.mapMatrices .refresh).InStep r.made e) :
        ∃ e', e.submit (r.mapMatrices .refresh).vertexCommand = (.accepted, e') ∧
          (r.mapMatrices .refresh).countVertex.InStep r.made e' :=
      InStep.vertex (r := r.mapMatrices .refresh) inStep (Nat.lt_of_not_le few) _ _ _ _
    rcases hs : Sink.submit l (r.mapMatrices .refresh).vertexCommand with ⟨_ | _ | f, m⟩ <;>
      simp only [hs]
    · have counted := refreshed.accepted hs (congrArg Nat.succ h.counted) accepts
      exact counted.sendCompleted (Nat.succ_pos _) (r.list.triangleCount_push r.vertices)
    · exact (refreshed.refused hs refreshed.counted fun _ _ inStep => inStep).notify _
    · refine refreshed.raised hs refreshed.counted fun e inStep => ?_
      obtain ⟨e', submitted, -⟩ := accepts e inStep
      exact congrArg Prod.fst submitted

/-- A swap may only be turned away as long as no vertices are counted. -/
theorem sendSwap (h : Tracks r.made none r l) : Leaves (r.sendSwap l) := by
  rw [Registers.sendSwap]
  rcases hs : Sink.submit l .swapBuffers with ⟨_ | _ | f, m⟩
  · exact h.accepted hs rfl fun e inStep => inStep.swap
  · have kept (none : (Answers.tally l.entries).abandoned +
        (Answers.tally l.entries).counted = 0) (e : Engine) (inStep : r.InStep r.made e) :
        r.beginFrame.InStep r.beginFrame.made e :=
      inStep.beginFrame (h.counted.trans (Nat.eq_zero_of_add_eq_zero_left none))
    have begun : Tracks r.beginFrame.made none r.beginFrame m := h.refused hs rfl kept
    exact begun.notify _
  · refine h.raised hs h.counted fun e inStep => ?_
    obtain ⟨e', submitted, -⟩ := inStep.swap
    rw [submitted]

theorem sendViewport (h : Tracks r.made none r l) (view : Viewport) :
    Leaves (r.sendViewport view l) := by
  have accepts (e : Engine) (inStep : r.InStep r.made e) :=
    Engine.submit_of_process (c := .viewport view) inStep.healthy rfl
  rw [Registers.sendViewport]
  rcases hs : Sink.submit l (.viewport view) with ⟨_ | _ | f, m⟩
  · exact h.accepted hs h.counted fun e inStep =>
      ⟨_, accepts e inStep, inStep.congr rfl rfl rfl rfl rfl⟩
  · exact (h.refused hs h.counted fun _ _ inStep => inStep).notify _
  · exact h.raised hs h.counted fun e inStep => by rw [accepts e inStep]

/-- Every instruction is tracked. -/
theorem execute (h : Tracks r.made none r l) (i : Instruction) : Leaves (r.execute l i) := by
  cases i with
  | place x y z => exact sendVertex (h.congr rfl rfl rfl)
  | offset dx dy dz => exact sendVertex (h.congr rfl rfl rfl)
  | beginList kind =>
    exact ⟨h.counted, h.healthy, fun fair => ⟨rfl, (h.inStep fair).2.beginList kind⟩⟩
  | swapBuffers => exact h.sendSwap
  | setViewport view => exact h.sendViewport view
  | unknown id => exact h.notify _
  | _ => exact h.congr rfl rfl rfl

end Tracks

theorem keeps_tracks [Sink σ] :
    FrontEnd.Keeps fun fault r (l : Ledger σ) => Tracks r.made fault r l where
  execute _ _ i h := h.execute i
  refresh _ _ h := h.congr rfl rfl rfl
  acknowledge _ _ h := h.congr rfl rfl rfl

end Registers

/-- However its commands are answered, the front-end tracks the answers. -/
theorem FrontEnd.tracks_callAll [Sink σ] (s : σ) (calls : List Call) :
    let fe := ({} : FrontEnd).callAll (⟨s, []⟩ : Ledger σ) calls
    fe.1.registers.Tracks fe.1.registers.made none fe.2 :=
  callAll_induction (P := fun fe (l : Ledger σ) => fe.registers.Tracks fe.registers.made none l)
    (fun fe l c h => (Registers.keeps_tracks.call fe l c h).resume) (.fresh s) calls

/-! ### While the thread is stopped and started -/

namespace Crowd

variable {t u : Crowd}

/-- At most one command is answered in a step, and a fault that it raises is there. -/
theorem Step.answers (hs : Step t u) (h : t.InOrder) :
    u.answers = t.answers ∨ ∃ c v, u.answers = t.answers ++ [(c, v)] ∧
      ∀ f, v = .raised f → (t.answers.engine.submit c).1 = v := by
  cases hs with
  | @handOver i c s s' v p here hh =>
    cases hh with
    | @carryOut v p reports healthy unthreaded shown done =>
      refine .inr ⟨c, v, rfl, fun f raised => ?_⟩
      have same := h.still_engine_of_absent (bne_eq_false_iff_eq.1 unthreaded)
      rw [← Engine.verdict_of_still same]
      obtain ⟨e, processed, rfl, -⟩ | ⟨f, faulty, rfl, -⟩ :=
        Pipeline.submit?_cases unthreaded healthy done
      · cases raised
      · rw [Engine.submit_of_fault (Engine.isHalted_eq_false_iff.1 healthy) faulty]
    | skip halted | push room | uncount => exact .inr ⟨c, _, rfl, nofun⟩
    | look | count | refuse => exact .inl (List.append_nil _)
  | work hw | display hd | control hc => exact .inl rfl

namespace Reachable

variable {wanted submitters : Nat}

/-- Faults are only raised where they are there. -/
theorem raised (h : Reachable wanted submitters t) {before : Answers} {c : Command} {f : Fault}
    (le : before ++ [(c, .raised f)] <+: t.answers) : (before.engine.submit c).1 = .raised f := by
  induction h with
  | refl => exact absurd (List.prefix_nil.1 le) (List.append_ne_nil_of_right_ne_nil _ nofun)
  | tail reached hs ih =>
    have reached : Reachable wanted submitters _ := reached
    obtain same | ⟨c', v, one, raised⟩ := hs.answers reached.inOrder
    · exact ih (same ▸ le)
    · rw [one] at le
      obtain last | le := List.prefix_concat_iff.1 le
      · obtain ⟨rfl, same⟩ := List.append_inj' last rfl
        obtain ⟨rfl, rfl⟩ := Prod.mk.inj (List.singleton_inj.1 same)
        exact raised f rfl
      · exact ih le

/-- Once everything that was accepted is carried out, the engine is where the commands lead
    that were not turned away. -/
theorem still_engine_of_applied (h : Reachable wanted submitters t)
    (healthy : t.pipeline.engine.isHalted = false) (all : t.applied = t.accepted) :
    t.pipeline.engine.still = t.answers.engine.still := by
  have ordered := h.inOrder
  have nothing := ordered.handedOver healthy
  rw [all, List.self_eq_append_right, List.append_eq_nil_iff] at nothing
  obtain ⟨-, made⟩ := ordered.applied_of_rested healthy nothing.2 nothing.1
  rw [made, all, Answers.engine, Answers.taken_eq_accepted (ordered.unfaulted healthy)]
  rfl

/-- A front-end writes to a new engine, whose thread is stopped and started in the meantime,
    and whoever answers its commands, these are the answers. Unless the engine has halted:

    * Once everything that was accepted is carried out, the frame that is being built holds
      the vertices that the front-end counts, and those that it has abandoned since a swap
      was turned away.
    * As long as it has not abandoned any, the engine does not halt. -/
theorem size_next_of_answers {σ : Type} [Sink σ] (h : Reachable wanted 1 t) (s : σ)
    (calls : List FrontEnd.Call) :
    let fe := ({} : FrontEnd).callAll (⟨s, []⟩ : Ledger σ) calls
    t.answers <+: fe.2.entries →
      (t.answers = fe.2.entries → t.pipeline.engine.isHalted = false → t.applied = t.accepted →
        t.pipeline.engine.frames.next.vertices.size =
          fe.1.registers.vertices + t.answers.tally.abandoned) ∧
      ((∀ before : Answers, before <+: t.answers → before.tally.abandoned = 0) →
        t.pipeline.engine.isHalted = false) := by
  intro fe sent
  have ordered := h.inOrder
  have tracks : fe.1.registers.Tracks fe.1.registers.made none fe.2 :=
    FrontEnd.tracks_callAll s calls
  refine ⟨fun all healthy applied => ?_, fun kept => ?_⟩
  · have same := h.still_engine_of_applied healthy applied
    have fault := Engine.isHalted_eq_false_iff.1
      ((Engine.isHalted_eq_of_still same).symm.trans healthy)
    rw [Engine.size_next_of_still same,
      Answers.size_next_engine fault (ordered.unfaulted healthy), tracks.counted, all]
  · have fault := tracks.healthy t.answers sent ⟨fun _ _ _ le => h.raised le, kept⟩
    rw [← Bool.not_eq_true]
    intro halted
    have course := ordered.course
    rw [ordered.serves.sound.outlook_of_isHalted halted] at course
    have same := (Engine.isHalted_eq_of_still course).symm.trans halted
    exact Bool.eq_false_iff.1 (Engine.isHalted_eq_false_iff.2 fault) same

/-- Of three vertices, the second is turned away since the thread is asked to end, and the
    third is accepted by the next thread: two are counted, and the frame holds two. -/
theorem size_next_of_answers_restarted :
    let calls : List FrontEnd.Call := [.write 0x40 0, .write 0x25 0, .write 0x25 0, .write 0x25 0]
    let fe := ({} : FrontEnd).callAll
      (⟨⟨[.accepted, .refused, .accepted]⟩, []⟩ : Ledger Script) calls
    ∃ t, Reachable 0 1 t ∧ t.answers = fe.2.entries ∧ t.applied = t.accepted ∧
      fe.1.registers.vertices = 2 ∧ t.pipeline.engine.frames.next.vertices.size = 2 ∧
      t.pipeline.engine.isHalted = false := by
  intro calls fe
  have first : Reachable 0 1 _ := Steps.refl.tail (.control .start)
    |>.tail (.handOver 0 rfl (.look (c := .vertex 0 0 0 1) rfl rfl))
    |>.tail (.handOver 0 rfl .count) |>.tail (.handOver 0 rfl (.push rfl))
  have second := first.tail (.handOver 0 rfl (.look (c := .vertex 0 0 0 1) rfl rfl))
    |>.tail (.handOver 0 rfl .count) |>.tail (.control .requestStop)
    |>.tail (.handOver 0 rfl (.refuse rfl)) |>.tail (.handOver 0 rfl .uncount)
  have ended := second.tail (.work rfl) |>.tail (.work rfl) |>.tail (.work rfl)
    |>.tail (.work rfl) |>.tail (.control .join)
  have third : Reachable 0 1 _ := ended.tail (.control .start)
    |>.tail (.handOver 0 rfl (.look (c := .vertex 0 0 0 1) rfl rfl))
    |>.tail (.handOver 0 rfl .count) |>.tail (.handOver 0 rfl (.push rfl))
    |>.tail (.work rfl) |>.tail (.work rfl) |>.tail (.work rfl)
  let as : Answers := [(.vertex 0 0 0 1, .accepted), (.vertex 0 0 0 1, .refused),
    (.vertex 0 0 0 1, .accepted)]
  have sent : as = fe.2.entries := by decide +kernel
  have counted : fe.1.registers.vertices = 2 := by decide +kernel
  have kept (before : Answers) (le : before <+: as) : before.tally.abandoned = 0 :=
    Answers.abandoned_eq_zero fun swap => absurd (le.subset swap) (by decide)
  obtain ⟨size, healthy⟩ :=
    size_next_of_answers third (⟨[.accepted, .refused, .accepted]⟩ : Script) calls
      (show as <+: fe.2.entries from sent ▸ List.prefix_refl as)
  have healthy := healthy kept
  have size := (size sent healthy rfl).trans
    (congrArg₂ (· + ·) counted (kept as (List.prefix_refl as)))
  exact ⟨_, third, sent, rfl, counted, size, healthy⟩

/-- A vertex is abandoned: while the display holds the frame, the thread waits to show
    another one, and behind a vertex there is no room for a swap, which is turned away as the
    thread is asked to end. The front-end counts no vertex then, and the frame holds one. -/
theorem size_next_of_refused_swap :
    let calls : List FrontEnd.Call := [.write 0x50 0, .write 0x40 0, .write 0x25 0, .write 0x50 0]
    let fe := ({} : FrontEnd).callAll
      (⟨⟨[.accepted, .accepted, .refused]⟩, []⟩ : Ledger Script) calls
    ∃ t, Reachable 0 1 t ∧ t.answers = fe.2.entries ∧ t.pipeline.engine.isHalted = false ∧
      t.applied = t.accepted ∧ fe.1.registers.vertices = 0 ∧
      t.pipeline.engine.frames.next.vertices.size = 1 := by
  intro calls fe
  have showing : Reachable 0 1 _ := Steps.refl.tail (.control .start)
    |>.tail (.display (.hold rfl)) |>.tail (.handOver 0 rfl (.look (c := .swapBuffers) rfl rfl))
    |>.tail (.handOver 0 rfl .count) |>.tail (.handOver 0 rfl (.push rfl))
    |>.tail (.work rfl) |>.tail (.work rfl)
  have full := showing.tail (.handOver 0 rfl (.look (c := .vertex 0 0 0 1) rfl rfl))
    |>.tail (.handOver 0 rfl .count) |>.tail (.handOver 0 rfl (.push rfl))
  have refused := full.tail (.handOver 0 rfl (.look (c := .swapBuffers) rfl rfl))
    |>.tail (.handOver 0 rfl .count) |>.tail (.control .requestStop)
    |>.tail (.handOver 0 rfl (.refuse rfl)) |>.tail (.handOver 0 rfl .uncount)
  have ended := refused.tail (.display (.release rfl)) |>.tail (.work rfl) |>.tail (.work rfl)
    |>.tail (.work rfl) |>.tail (.work rfl) |>.tail (.work rfl) |>.tail (.work rfl)
    |>.tail (.control .join)
  have sent : fe.2.entries = [(.swapBuffers, .accepted), (.vertex 0 0 0 1, .accepted),
    (.swapBuffers, .refused)] := by decide +kernel
  exact ⟨_, ended, sent.symm, rfl, rfl, by decide +kernel, rfl⟩

end Reachable

end Crowd

end GeometryEngine
