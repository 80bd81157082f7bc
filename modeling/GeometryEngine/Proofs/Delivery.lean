import GeometryEngine.Proofs.HandOver

/-!
# Commands through the thread

Somebody submits a list of commands to an engine with a thread, and now and then waits
until all of them are carried out, or has the thread end. Meanwhile the thread works and
the display draws (`Delivery.Step`).

Whatever the order of their steps, and however small the queue: once such a wait has come
to its end, the engine is in the state that it has after the same commands without a
thread, apart from the bounds that drawing moves (`Delivery.still_engine`). This is since
the commands that are still in somebody's hands, carried out in order, lead there at all
times (`Delivery.OnCourse`). The commands after a fault do nothing, with or without a
thread.
-/

namespace GeometryEngine

/-- What somebody is doing who submits a list of commands. -/
inductive Courier
  /-- It submits these commands, and is doing that with the first of them. -/
  | submitting (s : Submitter) (rest : List Command)
  /-- It waits until all commands are carried out. -/
  | flushing (rest : List Command)
  /-- It has asked the thread to end, and waits for that. -/
  | stopping
  /-- It has waited for all others, and has these commands before it. -/
  | waited (rest : List Command)
  deriving DecidableEq, Inhabited

namespace Courier

/-- What it is doing as a submitter. -/
def doing : Courier → Submitter
  | .submitting s _ => s
  | .flushing _ | .stopping | .waited _ => .free

/-- The commands that it has not got rid of. -/
def rest : Courier → List Command
  | .submitting _ cs | .flushing cs | .waited cs => cs
  | .stopping => []

end Courier

/-- An engine with its thread, and somebody who submits a list of commands to it. -/
structure Delivery where
  /-- The engine and its thread. -/
  pipeline : Pipeline
  /-- Who submits the commands. -/
  courier : Courier

namespace Delivery

/-- The thread of an engine has begun, with as much room in its queue as wanted, and no
    command is submitted yet. -/
def start (e : Engine) (wanted : Nat) (cs : List Command) : Delivery where
  pipeline := ({ engine := e, queue := .ofCapacity wanted } : Pipeline).start.1
  courier := .submitting .free cs

/-- The commands that are left after a step with the first one, which is done with as soon as
    its verdict is known. -/
def left (c : Command) (cs : List Command) : Option Verdict → List Command
  | none => c :: cs
  | some _ => cs

/-- A single step of one of those who share the engine. -/
inductive Step : Delivery → Delivery → Prop
  /-- The thread goes on. -/
  | work {p p' : Pipeline} {courier : Courier} {reports : List Report}
      (h : p.step? = some (p', reports)) : Step ⟨p, courier⟩ ⟨p', courier⟩
  /-- The display goes on. -/
  | display {p p' : Pipeline} {courier : Courier} (h : p.Display p') :
      Step ⟨p, courier⟩ ⟨p', courier⟩
  /-- The first command is handed over, step by step. -/
  | handOver {p p' : Pipeline} {c : Command} {cs : List Command} {s s' : Submitter}
      {v : Option Verdict} (h : p.HandOver c s v p' s') :
      Step ⟨p, .submitting s (c :: cs)⟩ ⟨p', .submitting s' (left c cs v)⟩
  /-- A wait for all commands begins. -/
  | flush {p : Pipeline} {cs : List Command} : Step ⟨p, .submitting .free cs⟩ ⟨p, .flushing cs⟩
  /-- The wait comes to its end. -/
  | flushed {p : Pipeline} {cs : List Command}
      (done : p.isThreaded = false ∨ p.isFlushed = true) : Step ⟨p, .flushing cs⟩ ⟨p, .waited cs⟩
  /-- After the last command, the thread is asked to end. -/
  | stop {p : Pipeline} : Step ⟨p, .submitting .free []⟩ ⟨p.requestStop, .stopping⟩
  /-- The thread has come to its end, or there was none. -/
  | join {p : Pipeline} (done : p.worker = .ended ∨ p.worker = .absent) :
      Step ⟨p, .stopping⟩ ⟨p.join, .waited []⟩
  /-- After a wait, there are more commands to be submitted. -/
  | resume {p : Pipeline} {cs : List Command} : Step ⟨p, .waited cs⟩ ⟨p, .submitting .free cs⟩

/-- What can come of the submission of commands. -/
inductive Reachable (e : Engine) (wanted : Nat) (cs : List Command) : Delivery → Prop
  /-- Nothing has been done. -/
  | start : Reachable e wanted cs (start e wanted cs)
  /-- One more step is made. -/
  | step {d d' : Delivery} : Reachable e wanted cs d → Step d d' → Reachable e wanted cs d'

/-! ### The invariant -/

/-- The engine is on its way to the state that it has after the commands `cs` without a
    thread. -/
structure OnCourse (e : Engine) (cs : List Command) (d : Delivery) : Prop where
  /-- The thread serves whoever submits the commands. -/
  serves : d.pipeline.Serves [d.courier.doing]
  /-- The commands handed over lead to where they lead without a thread. -/
  course : ∃ done, cs = done ++ d.courier.rest ∧
    d.pipeline.outlook.still = (e.submitAll done).still
  /-- Nobody but a fault closes the queue before the last command. -/
  opened : d.courier.rest ≠ [] → d.pipeline.engine.isHalted = false →
    d.pipeline.isThreaded = true ∧ d.pipeline.queue.running = true
  /-- So it is a fault if a command is turned away. -/
  refused : ∀ c, d.courier.doing = .turnedAway c → d.pipeline.engine.isHalted = true
  /-- After a wait the thread has nothing to do. -/
  rested : ∀ rest, d.courier = .waited rest → d.pipeline.Rested

namespace OnCourse

variable {e : Engine} {cs : List Command} {p p' : Pipeline} {courier : Courier}

theorem start (e : Engine) (wanted : Nat) (cs : List Command) :
    OnCourse e cs (start e wanted cs) where
  serves := (Pipeline.Serves.fresh e wanted 1).control .start
  course := ⟨[], rfl, congrArg Engine.still (Pipeline.Control.start.outlook)⟩
  opened _ healthy := by
    have begun : ({ engine := e, queue := .ofCapacity wanted } : Pipeline).Control _ := .start
    have healthy : e.isHalted = false := (congrArg Engine.isHalted begun.frame.1).symm.trans healthy
    simp [Delivery.start, Pipeline.start, Pipeline.isThreaded, Queue.start, healthy]
  refused _ := nofun
  rested _ := nofun

theorem work (h : OnCourse e cs ⟨p, courier⟩) (hm : p.Move p') : OnCourse e cs ⟨p', courier⟩ where
  serves := h.serves.move hm
  course := hm.outlook h.serves.sound ▸ h.course
  opened more healthy := by
    obtain ⟨threaded, running⟩ := hm.open h.serves.sound healthy
    exact ⟨threaded, running.trans (h.opened more (hm.healthy h.serves.sound healthy)).2⟩
  refused c turnedAway := by
    rw [← Bool.not_eq_false]
    intro healthy
    exact Bool.eq_false_iff.1 (hm.healthy h.serves.sound healthy) (h.refused c turnedAway)
  rested rest waited := (h.rested rest waited).move h.serves.sound hm

theorem display (h : OnCourse e cs ⟨p, courier⟩) (hd : p.Display p') :
    OnCourse e cs ⟨p', courier⟩ where
  serves := h.serves.display hd
  course := hd.outlook ▸ h.course
  opened more healthy := by
    have opened := h.opened more (hd.isHalted ▸ healthy)
    obtain ⟨e', held, rfl, same⟩ := hd.frame
    exact opened
  refused c turnedAway := hd.isHalted.trans (h.refused c turnedAway)
  rested rest waited := (h.rested rest waited).display hd

section HandOver

variable {c : Command} {s s' : Submitter} {v : Option Verdict} {rest : List Command}
  (h : OnCourse e cs ⟨p, .submitting s (c :: rest)⟩) (hh : p.HandOver c s v p' s')
include h hh

/-- As long as there is a command to be submitted, a healthy engine has a thread and an open
    queue. -/
theorem opened_handOver (healthy : p'.engine.isHalted = false) :
    p'.isThreaded = true ∧ p'.queue.running = true := by
  obtain ⟨threaded, running⟩ := h.opened (List.cons_ne_nil c rest) (hh.healthy healthy)
  cases hh with
  | carryOut healthy unthreaded shown done =>
    exact absurd (unthreaded.symm.trans threaded) Bool.noConfusion
  | push room =>
    obtain ⟨-, -, same, -⟩ := Queue.items_of_push room
    exact ⟨threaded, same.trans running⟩
  | _ => exact ⟨threaded, running⟩

/-- Only a halted engine turns a command away. -/
theorem refused_handOver (refused : v = some .refused ∨ s' = .turnedAway c) :
    p'.engine.isHalted = true := by
  cases hh with
  | skip halted => exact halted
  | refuse stopped =>
    rw [← Bool.not_eq_false]
    intro healthy
    have closed := (p.queue.push_eq_refused_iff c).1 stopped
    exact absurd (closed.symm.trans (h.opened (List.cons_ne_nil c rest) healthy).2)
      Bool.noConfusion
  | uncount => exact h.refused c rfl
  | carryOut healthy unthreaded shown done =>
    obtain ⟨threaded, -⟩ := h.opened (List.cons_ne_nil c rest) healthy
    exact absurd (unthreaded.symm.trans threaded) Bool.noConfusion
  | look | count | push => exact refused.elim nofun nofun

/-- A command that is put into the queue is one more before the thread, and one that a halted
    engine has turned away can be left out. -/
theorem course_handOver :
    ∃ done, cs = done ++ left c rest v ∧ p'.outlook.still = (e.submitAll done).still := by
  obtain ⟨done, all, course⟩ := h.course
  have all : cs = done ++ c :: rest := all
  have gone : cs = (done ++ [c]) ++ rest := by rw [all, List.append_assoc]; rfl
  have next := Engine.still_submit course c
  obtain ⟨same, rfl | rfl⟩ | ⟨one, w, rfl, -⟩ := h.serves.outlook (i := 0) rfl hh
  · exact ⟨done, all, same ▸ course⟩
  · have halted := h.refused_handOver hh (.inl rfl)
    have sound := (h.serves.handOver (i := 0) rfl hh).sound
    have ignored : (p'.outlook.submit c).2 = p'.outlook := by
      rw [sound.outlook_of_isHalted halted, Engine.submit_of_isHalted halted]
    refine ⟨done ++ [c], gone, ?_⟩
    rw [← ignored, same, Engine.submitAll_append]
    exact next
  · refine ⟨done ++ [c], gone, ?_⟩
    rw [one, Engine.submitAll_append]
    exact next

theorem handOver : OnCourse e cs ⟨p', .submitting s' (left c rest v)⟩ where
  serves := h.serves.handOver (i := 0) rfl hh
  course := h.course_handOver hh
  opened _ := h.opened_handOver hh
  refused c' turnedAway := by
    have turnedAway : s' = .turnedAway c' := turnedAway
    cases hh with
    | refuse stopped => exact h.refused_handOver (.refuse stopped) (.inr rfl)
    | _ => cases turnedAway
  rested _ := nofun

end HandOver

/-- A wait comes to its end only if the thread has nothing to do. -/
theorem rested_of_flushed {rest : List Command} (h : OnCourse e cs ⟨p, .flushing rest⟩)
    (done : p.isThreaded = false ∨ p.isFlushed = true) : p.Rested := by
  rcases done with unthreaded | flushed
  · exact h.serves.sound.rested (.inr (bne_eq_false_iff_eq.1 unthreaded))
  · cases halted : p.engine.isHalted with
    | true => exact .inl halted
    | false => exact .inr (h.serves.rested_of_isFlushed halted flushed)

/-- Every step keeps the engine on its way. -/
theorem step {d d' : Delivery} (h : OnCourse e cs d) (hs : Step d d') : OnCourse e cs d' := by
  cases hs with
  | work hw => exact h.work (Pipeline.move_of_step? hw)
  | display hd => exact h.display hd
  | handOver hh => exact h.handOver hh
  | flush | resume => exact ⟨h.serves, h.course, h.opened, nofun, nofun⟩
  | flushed done =>
    exact ⟨h.serves, h.course, h.opened, nofun, fun _ _ => h.rested_of_flushed done⟩
  | stop =>
    refine ⟨h.serves.control .requestStop, ?_, nofun, nofun, nofun⟩
    rw [Pipeline.Control.requestStop.outlook]
    exact h.course
  | join done =>
    refine ⟨h.serves.control .join, ?_, nofun, nofun, fun _ _ => (h.serves.sound.rested done).join⟩
    rw [Pipeline.Control.join.outlook]
    exact h.course

end OnCourse

namespace Reachable

variable {e : Engine} {wanted : Nat} {cs : List Command} {d : Delivery}

theorem onCourse (h : Reachable e wanted cs d) : OnCourse e cs d := by
  induction h with
  | start => exact .start e wanted cs
  | step _ hs ih => exact ih.step hs

/-- After a wait all commands are carried out that were submitted before it. -/
theorem still_engine_of_waited {rest : List Command} (h : Reachable e wanted cs d)
    (waited : d.courier = .waited rest) :
    ∃ done, cs = done ++ rest ∧ d.pipeline.engine.still = (e.submitAll done).still := by
  obtain ⟨done, all, same⟩ := h.onCourse.course
  have rested := h.onCourse.rested rest waited
  rw [h.onCourse.serves.sound.outlook_of_rested rested] at same
  rw [waited] at all
  exact ⟨done, all, same⟩

/-- After a wait for the last of the commands, the engine is as the commands leave it
    without a thread, apart from the bounds that drawing moves. From the first fault on
    they change nothing. -/
theorem still_engine (h : Reachable e wanted cs d) (waited : d.courier = .waited []) :
    d.pipeline.engine.still = (e.submitAll cs).still ∧
      ∀ before after, cs = before ++ after → (e.submitAll before).isHalted = true →
        d.pipeline.engine.still = (e.submitAll before).still := by
  obtain ⟨done, all, same⟩ := h.still_engine_of_waited waited
  rw [List.append_nil] at all
  subst all
  refine ⟨same, fun before after split halted => same.trans ?_⟩
  rw [split, Engine.submitAll_append, Engine.submitAll_of_isHalted halted]

/-- A queue with room for one command, a swap that waits for the display, and a polygon
    without vertices that halts the engine before the last command is submitted. -/
theorem still_engine_halted :
    let cs : List Command :=
      [.viewport ⟨0, 0, 99, 99⟩, .swapBuffers, .polygon 0 0 0 0 0, .swapBuffers]
    ∃ d, Reachable {} 0 cs d ∧ d.courier = .waited [] ∧ d.pipeline.engine.isHalted = true ∧
      d.pipeline.engine.still = (({} : Engine).submitAll cs).still := by
  intro cs
  have viewport : Reachable {} 0 cs _ := Reachable.start.step (.handOver (.look rfl rfl))
    |>.step (.handOver .count) |>.step (.handOver (.push rfl)) |>.step (.work rfl)
  have swap := viewport.step (.display (.hold rfl)) |>.step (.handOver (.look rfl rfl))
    |>.step (.handOver .count) |>.step (.handOver (.push rfl))
  have showing := swap.step (.work rfl) |>.step (.work rfl) |>.step (.work rfl)
    |>.step (.display (.restart rfl)) |>.step (.work rfl)
  have polygon := showing.step (.handOver (.look rfl rfl)) |>.step (.handOver .count)
    |>.step (.handOver (.push rfl)) |>.step (.display (.release rfl))
  have halted := polygon.step (.work rfl) |>.step (.work rfl) |>.step (.work rfl)
    |>.step (.work rfl)
  have waited := halted.step (.handOver (.skip rfl)) |>.step .flush
    |>.step (.flushed (.inr rfl))
  exact ⟨_, waited, rfl, rfl, (waited.still_engine rfl).1⟩

end Reachable

end Delivery

end GeometryEngine
