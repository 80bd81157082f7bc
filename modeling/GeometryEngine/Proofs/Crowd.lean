import GeometryEngine.Proofs.HandOver

/-!
# What a wait waits for

Many submit commands to one engine, each of them at its own pace, while the thread works,
the display draws, and the thread is asked to end and started again (`Crowd.Step`). It is
put on record what becomes of the commands: which verdicts they meet, and which of them are
carried out.

Whoever waits for all commands changes nothing, but finds out that there is no thread, or
that as many commands are counted as carried out as were submitted. That this is enough
rests on two facts about all moments at which the engine has not halted:

* a command that was submitted is carried out and counted as such, or it waits in the queue,
  or the thread has it in its hand, or its submitter does not know yet what becomes of it
  (`Pipeline.Balanced`);
* a command that was accepted is carried out, or the thread has it in its hand, or it waits
  in the queue, in this order (`Crowd.InOrder.handedOver`).

So all commands that were accepted before a wait are carried out after it, and nothing but
them has made the engine what it is (`Crowd.Reachable.applied_of_flushed`).
-/

namespace GeometryEngine

namespace Worker

/-- The command that the thread has carried out to its end by going on from the one to the
    other. -/
def carriedOut : Worker → Worker → List Command
  | .holding c, .counting => [c]
  | .showing .., .counting => [.swapBuffers]
  | _, _ => []

end Worker

/-- A command goes from the queue into the hand of the thread, and from there to those that
    are carried out. Only a halt loses commands. -/
theorem Pipeline.Move.inWork {p p' : Pipeline} (hm : p.Move p') (sound : p.Sound)
    (healthy : p'.engine.isHalted = false) :
    p.worker.inWork ++ p.queue.items =
      p.worker.carriedOut p'.worker ++ (p'.worker.inWork ++ p'.queue.items) := by
  cases hm with
  | take idle first =>
    rw [idle, first]
    rfl
  | finish idle stopped empty => rw [idle]; rfl
  | carryOut holding other processed => rw [holding]; rfl
  | prepare holding prepared => rw [holding]; rfl
  | promote showing free => rw [showing]; rfl
  | fail holding faulty => cases healthy
  | count counting => rw [counting]; rfl
  | stop stopping => rw [stopping]; rfl
  | clear clearing =>
    rw [Pipeline.Sound, clearing] at sound
    exact absurd (sound.symm.trans healthy) Bool.noConfusion

/-- The engine goes on to be what the commands that were carried out have made of it. -/
theorem Pipeline.Move.made {p p' : Pipeline} (hm : p.Move p') (sound : p.Sound)
    (healthy : p'.engine.isHalted = false) {e : Engine} {applied : List Command}
    (made : p.afterCommand.still = (e.submitAll (applied ++ p.worker.inWork)).still) :
    p'.afterCommand.still =
      (e.submitAll (applied ++ p.worker.carriedOut p'.worker ++ p'.worker.inWork)).still := by
  cases hm with
  | take idle first =>
    simp only [Pipeline.afterCommand, idle, Worker.inWork, Worker.carriedOut, List.append_nil]
      at made ⊢
    rw [Engine.submitAll_append]
    exact Engine.still_submit made _
  | finish idle stopped empty =>
    simpa only [Pipeline.afterCommand, idle, Worker.inWork, Worker.carriedOut, List.append_nil]
      using made
  | carryOut holding other processed =>
    simpa only [Pipeline.afterCommand, holding, Worker.inWork, Worker.carriedOut,
      Engine.submit_of_process (sound.healthy holding) processed, List.append_nil] using made
  | prepare holding prepared =>
    -- The second part of the swap is still to come, and cannot fail.
    have processed := p.engine.process_swap.trans (congrArg (Except.map Engine.promote) prepared)
    simpa only [Pipeline.afterCommand, holding, Worker.inWork, Worker.carriedOut,
      Engine.submit_of_process (sound.healthy holding) processed, List.append_nil] using made
  | promote showing free =>
    simpa only [Pipeline.afterCommand, showing, Worker.inWork, Worker.carriedOut, List.append_nil]
      using made
  | fail holding faulty => cases healthy
  | count counting =>
    simpa only [Pipeline.afterCommand, counting, Worker.inWork, Worker.carriedOut, List.append_nil]
      using made
  | stop stopping =>
    simpa only [Pipeline.afterCommand, stopping, Worker.inWork, Worker.carriedOut, List.append_nil]
      using made
  | clear clearing =>
    rw [Pipeline.Sound, clearing] at sound
    exact absurd (sound.symm.trans healthy) Bool.noConfusion

/-! ### Answers -/

/-- Commands that were submitted, each with its verdict, the oldest first. -/
abbrev Answers := List (Command × Verdict)

namespace Answers

/-- What a step tells about a command, if it tells its verdict. -/
def of (c : Command) : Option Verdict → Answers
  | none => []
  | some v => [(c, v)]

/-- The commands that were accepted. -/
def accepted (as : Answers) : List Command :=
  (as.filter fun a => a.2 = .accepted).map Prod.fst

/-- The commands that were not turned away. Each of them was accepted, or raised a fault at
    once. -/
def taken (as : Answers) : List Command :=
  (as.filter fun a => a.2 ≠ .refused).map Prod.fst

/-- A new engine after these commands, carried out in order. -/
def engine (as : Answers) : Engine := ({} : Engine).submitAll as.taken

variable (as : Answers) (c : Command)

theorem accepted_append (bs : Answers) : accepted (as ++ bs) = as.accepted ++ bs.accepted := by
  rw [accepted, List.filter_append, List.map_append, accepted, accepted]

theorem taken_append (bs : Answers) : taken (as ++ bs) = as.taken ++ bs.taken := by
  rw [taken, List.filter_append, List.map_append, taken, taken]

theorem engine_append_refused : engine (as ++ [(c, .refused)]) = as.engine := by
  rw [engine, taken_append, Engine.submitAll_append]
  rfl

theorem engine_append {v : Verdict} (h : v ≠ .refused) :
    engine (as ++ [(c, v)]) = (as.engine.submit c).2 := by
  have one : taken [(c, v)] = [c] := by simp [taken, h]
  rw [engine, taken_append, one, Engine.submitAll_append]
  rfl

/-- Where nothing has raised a fault, the accepted commands are those that were not turned
    away. -/
theorem taken_eq_accepted {as : Answers} (h : ∀ a ∈ as, ∀ f, a.2 ≠ .raised f) :
    as.taken = as.accepted := by
  rw [taken, accepted]
  refine congrArg _ (List.filter_congr fun a ha => decide_eq_decide.2 ?_)
  have unfaulted := h a ha
  cases verdict : a.2 with
  | raised f => exact absurd verdict (unfaulted f)
  | _ => simp

end Answers

/-- The command, if a step of a submitter has carried it out. -/
def Submitter.carriedOut (c : Command) : Submitter → Option Verdict → List Command
  | .free, some .accepted => [c]
  | _, _ => []

namespace Pipeline

variable {p p' : Pipeline} {ss : List Submitter} {c : Command} {s s' : Submitter}
  {v : Option Verdict}

/-- A command that is accepted waits in the queue. Without a thread it is carried out at
    once. -/
theorem HandOver.inWork (hh : p.HandOver c s v p' s') (h : p.Serves ss)
    (healthy : p'.engine.isHalted = false) :
    p.worker.inWork ++ p.queue.items ++ (Answers.of c v).accepted =
      s.carriedOut c v ++ (p'.worker.inWork ++ p'.queue.items) := by
  cases hh with
  | carryOut untouched unthreaded shown done =>
    have absent : p.worker = .absent := bne_eq_false_iff_eq.1 unthreaded
    have empty := h.sound.items_of_absent untouched absent
    obtain ⟨e, -, rfl, rfl⟩ | ⟨f, -, -, rfl⟩ := submit?_cases unthreaded untouched done
    · simp only [absent, empty]
      rfl
    · cases healthy
  | push room =>
    obtain ⟨items, -⟩ := Queue.items_of_push room
    simp only [items, List.append_assoc]
    rfl
  | _ => exact List.append_nil _

/-- The engine goes on to be what the commands that were carried out have made of it. -/
theorem HandOver.made (hh : p.HandOver c s v p' s') (healthy : p'.engine.isHalted = false)
    {e : Engine} {applied : List Command}
    (made : p.afterCommand.still = (e.submitAll (applied ++ p.worker.inWork)).still) :
    p'.afterCommand.still =
      (e.submitAll (applied ++ s.carriedOut c v ++ p'.worker.inWork)).still := by
  cases hh with
  | carryOut untouched unthreaded shown done =>
    have absent : p.worker = .absent := bne_eq_false_iff_eq.1 unthreaded
    have untouched' := Engine.isHalted_eq_false_iff.1 untouched
    simp only [afterCommand, absent, Worker.inWork, List.append_nil] at made
    obtain ⟨e', processed, rfl, rfl⟩ | ⟨f, -, -, rfl⟩ := submit?_cases unthreaded untouched done
    · have next := Engine.still_submit made c
      rw [Engine.submit_of_process untouched' processed] at next
      simp only [afterCommand, absent, Worker.inWork, List.append_nil, Engine.submitAll_append]
      exact next
    · cases healthy
  | _ =>
    simp only [Submitter.carriedOut, List.append_nil]
    exact made

/-- A fault that a submitter raises halts the engine. -/
theorem HandOver.unraised (hh : p.HandOver c s v p' s') (healthy : p'.engine.isHalted = false)
    (f : Fault) : v ≠ some (.raised f) := by
  cases hh with
  | carryOut untouched unthreaded shown done =>
    obtain ⟨e, -, rfl, -⟩ | ⟨f, -, -, rfl⟩ := submit?_cases unthreaded untouched done
    · nofun
    · cases healthy
  | _ => nofun

end Pipeline

/-! ### Steps -/

/-- An engine with its thread, those who submit commands to it, and a record. -/
structure Crowd where
  /-- The engine and its thread. -/
  pipeline : Pipeline
  /-- Those who submit commands. -/
  submitters : List Submitter
  /-- The commands of which a submitter knows what has become of them. -/
  answers : Answers := []
  /-- The commands that were carried out, the oldest first. -/
  applied : List Command := []

namespace Crowd

/-- A new engine without a thread, with as many submitters and as much room in its queue as
    wanted. -/
def fresh (wanted submitters : Nat) : Crowd where
  pipeline := { queue := .ofCapacity wanted }
  submitters := List.replicate submitters .free

/-- The number of those who have counted a command of which it is not settled what becomes
    of it. -/
def busy (t : Crowd) : Nat := t.submitters.countP Submitter.isBusy

/-- The commands that were accepted, the oldest first. -/
def accepted (t : Crowd) : List Command := t.answers.accepted

/-- A single step of one of those who share the engine. -/
inductive Step : Crowd → Crowd → Prop
  /-- The thread goes on. -/
  | work {t : Crowd} {p : Pipeline} {reports : List Report}
      (h : t.pipeline.step? = some (p, reports)) :
      Step t { t with
        pipeline := p, applied := t.applied ++ t.pipeline.worker.carriedOut p.worker }
  /-- The display goes on. -/
  | display {t : Crowd} {p : Pipeline} (h : t.pipeline.Display p) :
      Step t { t with pipeline := p }
  /-- A submitter goes on. -/
  | handOver {t : Crowd} (i : Nat) {c : Command} {s s' : Submitter} {v : Option Verdict}
      {p : Pipeline} (here : t.submitters[i]? = some s) (h : t.pipeline.HandOver c s v p s') :
      Step t {
        pipeline := p
        submitters := t.submitters.set i s'
        answers := t.answers ++ .of c v
        applied := t.applied ++ s.carriedOut c v }
  /-- The thread is started or stopped. -/
  | control {t : Crowd} {p : Pipeline} (h : t.pipeline.Control p) : Step t { t with pipeline := p }

/-- Any number of steps. -/
inductive Steps : Crowd → Crowd → Prop
  /-- No step. -/
  | refl {t : Crowd} : Steps t t
  /-- Some steps and one more. -/
  | tail {t u v : Crowd} : Steps t u → Step u v → Steps t v

/-- What can come of a new engine. -/
def Reachable (wanted submitters : Nat) (t : Crowd) : Prop := Steps (fresh wanted submitters) t

variable {t u : Crowd}

/-- What everybody is doing agrees with the engine, the queue and the record. -/
structure InOrder (t : Crowd) : Prop where
  /-- The thread serves the submitters. -/
  serves : t.pipeline.Serves t.submitters
  /-- No command is lost. -/
  handedOver : t.pipeline.engine.isHalted = false →
    t.accepted = t.applied ++ (t.pipeline.worker.inWork ++ t.pipeline.queue.items)
  /-- The commands that were carried out have made the engine what it is. -/
  made : t.pipeline.engine.isHalted = false → t.pipeline.afterCommand.still =
    (({} : Engine).submitAll (t.applied ++ t.pipeline.worker.inWork)).still
  /-- The engine is on its way to where the commands lead that were not turned away. -/
  course : t.pipeline.outlook.still = t.answers.engine.still
  /-- A fault halts the engine. -/
  unfaulted : t.pipeline.engine.isHalted = false → ∀ a ∈ t.answers, ∀ f, a.2 ≠ .raised f

namespace InOrder

theorem fresh (wanted submitters : Nat) : (fresh wanted submitters).InOrder where
  serves := .fresh {} wanted submitters
  handedOver _ := rfl
  made _ := rfl
  course := rfl
  unfaulted _ _ ha := absurd ha List.not_mem_nil

variable (h : t.InOrder)
include h

theorem work {p : Pipeline} (hm : t.pipeline.Move p) :
    InOrder { t with
      pipeline := p, applied := t.applied ++ t.pipeline.worker.carriedOut p.worker } where
  serves := h.serves.move hm
  handedOver healthy := by
    rw [List.append_assoc, ← hm.inWork h.serves.sound healthy]
    exact h.handedOver (hm.healthy h.serves.sound healthy)
  made healthy := hm.made h.serves.sound healthy (h.made (hm.healthy h.serves.sound healthy))
  course := (congrArg Engine.still (hm.outlook h.serves.sound)).trans h.course
  unfaulted healthy := h.unfaulted (hm.healthy h.serves.sound healthy)

theorem display {p : Pipeline} (hd : t.pipeline.Display p) :
    InOrder { t with pipeline := p } := by
  have serves := h.serves.display hd
  have after := hd.afterCommand
  have course := hd.outlook.trans h.course
  obtain ⟨e, held, rfl, same⟩ := hd.frame
  have halted : e.isHalted = t.pipeline.engine.isHalted := Engine.isHalted_eq_of_still same
  exact ⟨serves, fun healthy => h.handedOver (halted ▸ healthy),
    fun healthy => after.trans (h.made (halted ▸ healthy)), course,
    fun healthy => h.unfaulted (halted ▸ healthy)⟩

theorem handOver {i : Nat} {c : Command} {s s' : Submitter} {v : Option Verdict} {p : Pipeline}
    (here : t.submitters[i]? = some s) (hh : t.pipeline.HandOver c s v p s') :
    InOrder {
      pipeline := p
      submitters := t.submitters.set i s'
      answers := t.answers ++ .of c v
      applied := t.applied ++ s.carriedOut c v } where
  serves := h.serves.handOver here hh
  handedOver healthy := by
    have handedOver := h.handedOver (hh.healthy healthy)
    rw [accepted, Answers.accepted_append, List.append_assoc, ← hh.inWork h.serves healthy,
      ← List.append_assoc, ← handedOver]
    rfl
  made healthy := hh.made healthy (h.made (hh.healthy healthy))
  course := by
    obtain ⟨same, rfl | rfl⟩ | ⟨one, w, rfl, taken⟩ := h.serves.outlook here hh
    · rw [same, Answers.of, List.append_nil]
      exact h.course
    · rw [same, Answers.of, Answers.engine_append_refused]
      exact h.course
    · rw [one, Answers.of, Answers.engine_append _ _ taken]
      exact Engine.still_submit h.course c
  unfaulted healthy a ha f := by
    rcases List.mem_append.1 ha with ha | ha
    · exact h.unfaulted (hh.healthy healthy) a ha f
    · cases v with
      | none => cases ha
      | some w =>
        rw [List.mem_singleton.1 ha]
        exact fun raised => hh.unraised healthy f (congrArg some raised)

theorem control {p : Pipeline} (hc : t.pipeline.Control p) : InOrder { t with pipeline := p } := by
  have serves := h.serves.control hc
  have course := hc.outlook
  obtain ⟨engine, items, inWork, after⟩ := hc.frame
  refine ⟨serves, fun healthy => ?_, fun healthy => ?_, course ▸ h.course, fun healthy => ?_⟩
  · rw [inWork, items]
    exact h.handedOver (engine ▸ healthy)
  · rw [after, inWork]
    exact h.made (engine ▸ healthy)
  · exact h.unfaulted (engine ▸ healthy)

theorem step (hs : Step t u) : u.InOrder := by
  cases hs with
  | work hw => exact h.work (Pipeline.move_of_step? hw)
  | display hd => exact h.display hd
  | handOver i here hh => exact h.handOver here hh
  | control hc => exact h.control hc

/-- Where nothing is under way, the commands that were accepted are carried out, and have
    made the engine what it is. -/
theorem applied_of_rested (healthy : t.pipeline.engine.isHalted = false)
    (empty : t.pipeline.queue.items = []) (free : t.pipeline.worker.inWork = []) :
    t.accepted = t.applied ∧
      t.pipeline.engine.still = (({} : Engine).submitAll t.applied).still := by
  have handedOver := h.handedOver healthy
  have made := h.made healthy
  rw [free, empty, List.append_nil, List.append_nil] at handedOver
  rw [Pipeline.afterCommand_of_inWork free, free, List.append_nil] at made
  exact ⟨handedOver, made⟩

/-- Without a thread, the engine is where the commands lead that were not turned away. -/
theorem still_engine_of_absent (absent : t.pipeline.worker = .absent) :
    t.pipeline.engine.still = t.answers.engine.still := by
  rw [← h.serves.outlook_of_absent absent]
  exact h.course

end InOrder

/-- No step mends an engine that has halted. -/
theorem Step.healthy (hs : Step t u) (h : t.InOrder)
    (healthy : u.pipeline.engine.isHalted = false) : t.pipeline.engine.isHalted = false := by
  cases hs with
  | work hw => exact (Pipeline.move_of_step? hw).healthy h.serves.sound healthy
  | display hd => exact hd.isHalted ▸ healthy
  | handOver i here hh => exact hh.healthy healthy
  | control hc => exact hc.frame.1 ▸ healthy

theorem Steps.inOrder (hs : Steps t u) (h : t.InOrder) : u.InOrder := by
  induction hs with
  | refl => exact h
  | tail _ hs ih => exact ih.step hs

theorem Steps.healthy (hs : Steps t u) (h : t.InOrder)
    (healthy : u.pipeline.engine.isHalted = false) : t.pipeline.engine.isHalted = false := by
  induction hs with
  | refl => exact healthy
  | tail hs step ih => exact ih (step.healthy (hs.inOrder h) healthy)

namespace Reachable

variable {wanted submitters : Nat}

theorem inOrder (h : Reachable wanted submitters t) : t.InOrder :=
  Steps.inOrder h (.fresh wanted submitters)

end Reachable

end Crowd

end GeometryEngine
