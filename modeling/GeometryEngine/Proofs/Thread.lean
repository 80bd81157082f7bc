import GeometryEngine.Proofs.InPlace
import GeometryEngine.Proofs.Still
import GeometryEngine.HandOver

/-!
# The steps of the thread

What the thread can do in a step (`Pipeline.Move`), and what it does not change:

* what the thread is doing agrees with the engine and the queue (`Pipeline.Sound`);
* the numbers of commands add up (`Pipeline.Balanced`);
* the thread is on its way to the same state of the engine as ever
  (`Pipeline.outlook`), which others take in no time: the state after all commands that
  it has in its hand and before it.

The thread changes the engine as the commands do that are carried out in place, also if a
fault ends them half-way (`Pipeline.step?_of_holding`, `Pipeline.step?_of_holding_swap`),
and so does a submitter without a thread (`Pipeline.submit?_inPlace`).
-/

namespace GeometryEngine

namespace Worker

/-- The command that the thread has taken and not carried out to its end. -/
def inWork : Worker → List Command
  | .holding c => [c]
  | .showing .. => [.swapBuffers]
  | .absent | .idle | .counting | .stopping | .clearing | .ended => []

theorem inWork_of_inHand {w : Worker} (h : w.inHand = 0) : w.inWork = [] := by
  cases w with
  | holding c => cases h
  | showing vertices triangles => cases h
  | _ => rfl

end Worker

namespace Pipeline

/-! ### Steps -/

/-- A step of the thread. -/
inductive Move (p : Pipeline) : Pipeline → Prop
  /-- It takes a command. -/
  | take {c : Command} {items : List Command} (idle : p.worker = .idle)
      (first : p.queue.items = c :: items) :
      Move p { p with queue := { p.queue with items }, worker := .holding c }
  /-- It comes to its end, since there will be no more commands. -/
  | finish (idle : p.worker = .idle) (stopped : p.queue.running = false)
      (empty : p.queue.items = []) : Move p { p with worker := .ended }
  /-- It carries out a command that is no swap. -/
  | carryOut {c : Command} {e : Engine} (holding : p.worker = .holding c)
      (other : c ≠ .swapBuffers) (h : p.engine.process c = .ok e) :
      Move p { p with engine := e, worker := .counting }
  /-- It carries out the first part of a swap. -/
  | prepare {e : Engine} (holding : p.worker = .holding .swapBuffers)
      (h : p.engine.prepare = .ok e) :
      Move p { p with
        engine := e
        worker := .showing e.frames.next.vertices.size e.frames.next.triangles.size }
  /-- It carries out the second part, since the display does not hold the frame. -/
  | promote {vertices triangles : Nat} (showing : p.worker = .showing vertices triangles)
      (free : p.held = false) :
      Move p { p with engine := p.engine.promote, worker := .counting }
  /-- It meets a fault. -/
  | fail {c : Command} {f : Fault} (holding : p.worker = .holding c)
      (h : p.engine.process c = .error f) :
      Move p { p with engine := (p.engine.abandon c).halt f, worker := .stopping }
  /-- It counts a command that it has carried out. -/
  | count (counting : p.worker = .counting) :
      Move p { p with processed := p.processed + 1, worker := .idle }
  /-- It stops the queue. -/
  | stop (stopping : p.worker = .stopping) :
      Move p { p with queue := p.queue.stop, worker := .clearing }
  /-- It empties the queue. -/
  | clear (clearing : p.worker = .clearing) :
      Move p { p with queue := p.queue.clear, worker := .ended }

variable {p p' : Pipeline}

/-- The thread takes no other steps. -/
theorem move_of_step? {reports : List Report} (h : p.step? = some (p', reports)) : p.Move p' := by
  unfold step? at h
  split at h <;> rename_i doing
  · cases h
  · cases h
  · split at h <;> rename_i taken
    · cases h
    · cases h
      obtain ⟨stopped, empty⟩ := (p.queue.pop_eq_closed_iff).1 taken
      exact .finish doing stopped empty
    · cases h
      rename_i c queue
      obtain ⟨first, capacity, running⟩ := Queue.items_of_pop taken
      obtain ⟨_, items, _⟩ := queue
      cases capacity
      cases running
      exact .take doing first
  · split at h <;> rename_i prepared
    · cases h
      refine .fail doing ?_
      rw [Engine.process_swap, prepared]
      rfl
    · cases h
      exact .prepare doing prepared
  · split at h <;> rename_i processed
    · cases h
      exact .fail doing processed
    · cases h
      rename_i other _ _
      exact .carryOut doing other processed
  · split at h <;> rename_i held
    · cases h
    · cases h
      exact .promote doing (Bool.eq_false_iff.2 held)
  · cases h
    exact .count doing
  · cases h
    exact .stop doing
  · cases h
    exact .clear doing

/-- The thread does not come and go by its own steps. -/
theorem Move.threaded (hm : p.Move p') : p.worker ≠ .absent ∧ p'.worker ≠ .absent := by
  cases hm with
  | take doing _ | finish doing _ _ | carryOut doing _ _ | prepare doing _ | promote doing _
  | fail doing _ | count doing | stop doing | clear doing => simp [doing]

/-! ### What the thread is doing -/

/-- What the thread is doing tells whether the engine has halted. Once it does nothing
    more, it has left nothing undone, unless the engine has halted. -/
def Sound (p : Pipeline) : Prop :=
  match p.worker with
  | .idle | .holding _ | .showing .. | .counting => p.engine.isHalted = false
  | .stopping | .clearing => p.engine.isHalted = true
  | .ended => p.engine.isHalted = true ∨ p.queue.running = false ∧ p.queue.items = []
  | .absent => p.engine.isHalted = true ∨ p.queue.items = []

/-- A thread with a command in its hand has a healthy engine before it. -/
theorem Sound.healthy (h : p.Sound) {c : Command} (holding : p.worker = .holding c) :
    p.engine.fault = none := by
  rw [Sound, holding] at h
  exact Engine.isHalted_eq_false_iff.1 h

theorem Sound.move (h : p.Sound) (hm : p.Move p') : p'.Sound := by
  cases hm with
  | take idle first => simpa only [Sound, idle] using h
  | finish idle stopped empty => exact .inr ⟨stopped, empty⟩
  | carryOut holding other processed =>
    have same := Engine.fault_of_process processed
    exact Engine.isHalted_eq_false_iff.2 (same.trans (h.healthy holding))
  | prepare holding prepared =>
    have same := Engine.fault_of_prepare prepared
    exact Engine.isHalted_eq_false_iff.2 (same.trans (h.healthy holding))
  | promote showing free =>
    rw [Sound, showing] at h
    exact h
  | fail holding faulty => rfl
  | count counting => simpa only [Sound, counting] using h
  | stop stopping => simpa only [Sound, stopping] using h
  | clear clearing =>
    rw [Sound, clearing] at h
    exact .inl h

/-- The thread does not mend an engine that has halted. -/
theorem Move.healthy (hm : p.Move p') (sound : p.Sound) (healthy : p'.engine.isHalted = false) :
    p.engine.isHalted = false := by
  cases hm with
  | carryOut holding other processed =>
    exact Engine.isHalted_eq_false_iff.2 (sound.healthy holding)
  | prepare holding prepared => exact Engine.isHalted_eq_false_iff.2 (sound.healthy holding)
  | fail holding faulty => cases healthy
  | _ => exact healthy

/-- As long as the engine is healthy, the thread is there and leaves the queue open. -/
theorem Move.open (hm : p.Move p') (sound : p.Sound) (healthy : p'.engine.isHalted = false) :
    p'.isThreaded = true ∧ p'.queue.running = p.queue.running := by
  cases hm with
  | stop stopping =>
    rw [Sound, stopping] at sound
    exact absurd (sound.symm.trans healthy) Bool.noConfusion
  | _ => exact ⟨rfl, rfl⟩

/-- The numbers of commands add up as long as the engine has not halted: what was
    submitted is carried out, or it waits in the queue, or the thread has it in its hand,
    or a submitter, of which so many are `busy`. -/
def Balanced (busy : Nat) (p : Pipeline) : Prop :=
  p.engine.isHalted = false →
    p.submitted = p.processed + p.queue.items.length + p.worker.inHand + busy

theorem Balanced.move {busy : Nat} (h : p.Balanced busy) (sound : p.Sound) (hm : p.Move p') :
    p'.Balanced busy := by
  intro healthy
  -- A command goes from the queue into the hand of the thread, and from there to those that
  -- are carried out. Only a halt loses commands.
  have balanced := h (hm.healthy sound healthy)
  cases hm with
  | take idle first =>
    rw [idle, first] at balanced
    simp only [List.length_cons, Worker.inHand] at balanced ⊢
    omega
  | finish idle stopped empty => rwa [idle] at balanced
  | carryOut holding other processed => rwa [holding] at balanced
  | prepare holding prepared => rwa [holding] at balanced
  | promote showing free => rwa [showing] at balanced
  | fail holding faulty => cases healthy
  | count counting =>
    rw [counting] at balanced
    simp only [Worker.inHand] at balanced ⊢
    omega
  | stop stopping => rwa [stopping] at balanced
  | clear clearing =>
    rw [Sound, clearing] at sound
    exact absurd (sound.symm.trans healthy) Bool.noConfusion

/-! ### Where the engine is going -/

/-- The engine as it will be after the command that the thread has in its hand. -/
def afterCommand (p : Pipeline) : Engine :=
  match p.worker with
  | .holding c => (p.engine.submit c).2
  | .showing .. => p.engine.promote
  | _ => p.engine

/-- The engine as it will be after the command in the hand of the thread and those that
    wait for it. -/
def outlook (p : Pipeline) : Engine := p.afterCommand.submitAll p.queue.items

/-- After a halt the engine does not change any more. -/
theorem Sound.outlook_of_isHalted (h : p.Sound) (halted : p.engine.isHalted = true) :
    p.outlook = p.engine := by
  have same : p.afterCommand = p.engine := by
    rw [afterCommand]
    split <;> rename_i doing
    · rw [Engine.submit_of_isHalted halted]
    · rw [Sound, doing] at h
      exact absurd (halted.symm.trans h) Bool.noConfusion
    · rfl
  rw [outlook, same, Engine.submitAll_of_isHalted halted]

/-- The thread brings the engine to where it was going. -/
theorem Move.outlook (hm : p.Move p') (sound : p.Sound) : p'.outlook = p.outlook := by
  cases hm with
  | take idle first =>
    simp only [Pipeline.outlook, afterCommand, idle, first, Engine.submitAll_cons]
  | finish idle stopped empty => simp only [Pipeline.outlook, afterCommand, idle]
  | carryOut holding other processed =>
    have submitted := Engine.submit_of_process (sound.healthy holding) processed
    simp only [Pipeline.outlook, afterCommand, holding, submitted]
  | prepare holding prepared =>
    -- The second part of the swap is still to come, and cannot fail.
    have processed := p.engine.process_swap.trans (congrArg (Except.map Engine.promote) prepared)
    have submitted := Engine.submit_of_process (sound.healthy holding) processed
    simp only [Pipeline.outlook, afterCommand, holding, submitted]
  | promote showing free => simp only [Pipeline.outlook, afterCommand, showing]
  | fail holding faulty =>
    have submitted := Engine.submit_of_fault (sound.healthy holding) faulty
    simp only [Pipeline.outlook, afterCommand, holding, submitted]
  | count counting => simp only [Pipeline.outlook, afterCommand, counting]
  | stop stopping => simp only [Pipeline.outlook, afterCommand, stopping, Queue.stop]
  | clear clearing =>
    -- The commands that are thrown away would have been turned away.
    have halted : p.engine.isHalted = true := by rwa [Sound, clearing] at sound
    rw [sound.outlook_of_isHalted halted]
    rfl

/-- The thread has nothing to do, or will do nothing more. -/
def Rested (p : Pipeline) : Prop :=
  p.engine.isHalted = true ∨ p.queue.items = [] ∧ p.worker.inHand = 0

theorem afterCommand_of_inWork (none : p.worker.inWork = []) : p.afterCommand = p.engine := by
  rw [afterCommand]
  split <;> rename_i doing
  · rw [doing] at none
    cases none
  · rw [doing] at none
    cases none
  · rfl

theorem Sound.outlook_of_rested (h : p.Sound) (rested : p.Rested) : p.outlook = p.engine := by
  rcases rested with halted | ⟨empty, free⟩
  · exact h.outlook_of_isHalted halted
  · rw [outlook, afterCommand_of_inWork (Worker.inWork_of_inHand free), empty]
    rfl

/-- What rests goes on to rest. -/
theorem Rested.move (h : p.Rested) (sound : p.Sound) (hm : p.Move p') : p'.Rested := by
  rcases h with halted | ⟨empty, free⟩
  · left
    rw [← Bool.not_eq_false]
    intro healthy
    exact Bool.eq_false_iff.1 (hm.healthy sound healthy) halted
  · cases hm with
    | take idle first =>
      rw [first] at empty
      cases empty
    | finish idle stopped empty => exact .inr ⟨empty, rfl⟩
    | carryOut holding other processed | prepare holding prepared | fail holding faulty =>
      rw [holding] at free
      cases free
    | promote showing _ =>
      rw [showing] at free
      cases free
    | count counting =>
      rw [counting] at free
      cases free
    | stop stopping => exact .inr ⟨empty, rfl⟩
    | clear clearing => exact .inr ⟨rfl, rfl⟩

/-- A thread that has come to its end, or is not there, rests. -/
theorem Sound.rested (h : p.Sound) (gone : p.worker = .ended ∨ p.worker = .absent) :
    p.Rested := by
  rcases gone with ended | absent
  · rw [Sound, ended] at h
    exact h.imp_right fun ⟨_, empty⟩ => ⟨empty, by rw [ended]; rfl⟩
  · rw [Sound, absent] at h
    exact h.imp_right fun empty => ⟨empty, by rw [absent]; rfl⟩

/-- A thread of a healthy engine comes to its end only after the queue was stopped. -/
theorem Sound.stopped_of_ended (h : p.Sound) (healthy : p.engine.isHalted = false)
    (ended : p.worker = .ended) : p.queue.running = false := by
  rw [Sound, ended] at h
  exact (h.resolve_left (Bool.eq_false_iff.1 healthy)).1

/-- Without a thread nothing waits. -/
theorem Sound.items_of_absent (h : p.Sound) (healthy : p.engine.isHalted = false)
    (absent : p.worker = .absent) : p.queue.items = [] := by
  rw [Sound, absent] at h
  exact h.resolve_left (Bool.eq_false_iff.1 healthy)

/-! ### Without a thread -/

/-- A command that is carried out as a whole does what the engine does with it. -/
theorem perform_fst (e : Engine) (c : Command) : (perform e c).map Prod.fst = e.process c := by
  cases c with
  | swapBuffers =>
    rw [Engine.process_swap, perform]
    cases e.prepare <;> rfl
  | viewport | vertex | polygon =>
    simp only [perform]
    split <;> rename_i processed <;> exact processed.symm

/-- Without a thread, a command that is submitted is carried out, or it raises a fault that
    halts the engine and closes the queue. -/
theorem submit?_cases {c : Command} {v : Verdict} {reports : List Report}
    (unthreaded : p.isThreaded = false) (healthy : p.engine.isHalted = false)
    (h : p.submit? c = some (v, p', reports)) :
    (∃ e, p.engine.process c = .ok e ∧ v = .accepted ∧ p' = { p with engine := e }) ∨
      ∃ f, p.engine.process c = .error f ∧ v = .raised f ∧
        p' = { p with
          engine := (p.engine.abandon c).halt f, queue := p.queue.stop.clear } := by
  have performed := perform_fst p.engine c
  rw [submit?, healthy, unthreaded] at h
  simp only [Bool.false_eq_true, ↓reduceIte] at h
  split at h <;> rename_i done <;> rw [done] at performed <;> cases h
  · exact .inl ⟨_, performed.symm, rfl, rfl⟩
  · exact .inr ⟨_, performed.symm, rfl, rfl⟩

/-! ### In place -/

/-- The thread carries out a command that is no swap in place, and halts the engine as a fault
    has left it. -/
theorem step?_of_holding {c : Command} (holding : p.worker = .holding c)
    (other : c ≠ .swapBuffers) :
    p.step? =
      match (Engine.carryOut c).run p.engine with
      | .ok _ e => some ({ p with engine := e, worker := .counting }, [])
      | .error f e => some ({ p with engine := e.halt f, worker := .stopping }, haltReports f) := by
  rw [p.engine.carryOut_eq, Engine.outcome]
  cases c with
  | swapBuffers => exact absurd rfl other
  | _ =>
    simp only [step?, holding]
    split <;> rename_i processed <;> simp only [processed, fail]

/-- A swap it prepares in place first. -/
theorem step?_of_holding_swap (holding : p.worker = .holding .swapBuffers) :
    p.step? =
      match Engine.prepareInPlace.run p.engine with
      | .ok _ e =>
        some ({ p with
          engine := e
          worker := .showing e.frames.next.vertices.size e.frames.next.triangles.size },
          [sceneReport e])
      | .error f e => some ({ p with engine := e.halt f, worker := .stopping }, haltReports f) := by
  rw [p.engine.run_prepareInPlace]
  simp only [step?, holding]
  cases p.engine.prepare <;> rfl

/-- Without a thread, whoever submits a command carries it out in place. -/
theorem submit?_inPlace (healthy : p.engine.isHalted = false) (unthreaded : p.isThreaded = false)
    (c : Command) :
    ∃ reports, p.submit? c =
      match (Engine.carryOut c).run p.engine with
      | .ok _ e => some (.accepted, { p with engine := e }, reports)
      | .error f e =>
        some (.raised f, { p with engine := e.halt f, queue := p.queue.stop.clear },
          haltReports f) := by
  have performed := perform_fst p.engine c
  rw [p.engine.carryOut_eq, Engine.outcome, ← performed, submit?, healthy, unthreaded]
  simp only [Bool.false_eq_true, ↓reduceIte]
  cases perform p.engine c with
  | ok done => exact ⟨done.2, rfl⟩
  | error f => exact ⟨[], rfl⟩

end Pipeline

end GeometryEngine
