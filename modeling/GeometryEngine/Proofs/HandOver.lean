import GeometryEngine.Proofs.Thread

/-!
# Those who share the thread

What submitters, the display, and someone who starts and stops the thread can do to it
(`Pipeline.HandOver`, `Pipeline.Display`, `Pipeline.Control`), and what all of them keep,
whoever they are and whatever is put on record of them (`Pipeline.Serves`):

* the thread is in order, and the numbers of commands add up;
* nobody is about to put a command into a queue that is open without a thread.

What they do to where the engine is going (`Pipeline.outlook`) is told by the verdicts: it
changes by a command just when that was not turned away (`Pipeline.Serves.outlook`). The
display only moves bounds in it.
-/

namespace GeometryEngine

/-- Where one of many goes on to do something else, it is counted as that. -/
theorem countP_set_add {α : Type} {as : List α} {i : Nat} {a : α} (h : as[i]? = some a) (b : α)
    (q : α → Bool) :
    (as.set i b).countP q + (if q a then 1 else 0) = as.countP q + (if q b then 1 else 0) := by
  obtain ⟨inside, rfl⟩ := List.getElem?_eq_some_iff.1 h
  have least : (if q as[i] then 1 else 0) ≤ as.countP q := List.boole_getElem_le_countP inside
  rw [List.countP_set inside]
  omega

namespace Pipeline

variable {p p' : Pipeline}

/-! ### The display -/

/-- The display changes nothing but bounds. -/
theorem Display.frame (h : p.Display p') :
    ∃ e held, p' = { p with engine := e, held } ∧ e.still = p.engine.still := by
  cases h with
  | hold free => exact ⟨_, _, rfl, rfl⟩
  | restart held =>
    exact ⟨_, _, rfl, congrArg (fun frames => { p.engine with frames })
      (p.engine.frames.still_mapCurrent Slot.still_restart)⟩
  | draw held config buckets c y canvas =>
    exact ⟨_, _, rfl, congrArg (fun frames => { p.engine with frames })
      (p.engine.frames.still_mapCurrent fun s => s.still_draw config buckets c y canvas)⟩
  | release held => exact ⟨_, _, rfl, rfl⟩

theorem Display.isHalted (h : p.Display p') : p'.engine.isHalted = p.engine.isHalted := by
  obtain ⟨e, held, rfl, same⟩ := h.frame
  exact Engine.isHalted_eq_of_still same

theorem Rested.display (h : p.Rested) (hd : p.Display p') : p'.Rested := by
  obtain ⟨e, held, rfl, same⟩ := hd.frame
  exact h.imp_left (Engine.isHalted_eq_of_still same).trans

/-- What becomes of the command in hand does not depend on what is drawn, but for bounds. -/
theorem Display.afterCommand (hd : p.Display p') :
    p'.afterCommand.still = p.afterCommand.still := by
  obtain ⟨e, held, rfl, same⟩ := hd.frame
  simp only [Pipeline.afterCommand]
  cases p.worker with
  | holding c => exact Engine.still_submit same c
  | showing vertices triangles => exact Engine.still_promote same
  | _ => exact same

/-- Neither does where the engine is going. -/
theorem Display.outlook (hd : p.Display p') : p'.outlook.still = p.outlook.still := by
  have same := hd.afterCommand
  obtain ⟨e, held, rfl, -⟩ := hd.frame
  exact Engine.still_submitAll same _

/-! ### Starts and stops -/

/-- A thread begins if there is none and the engine is healthy, its queue is stopped, or it is
    done away with at its end. Nothing else happens. -/
theorem Control.cases (h : p.Control p') :
    p' = p ∨
      (p.worker = .absent ∧ p.engine.isHalted = false ∧
        p' = { p with queue := p.queue.start, worker := .idle }) ∨
      p' = { p with queue := p.queue.stop } ∨
      (p.worker = .ended ∧ p' = { p with worker := .absent }) := by
  cases h with
  | start =>
    rw [Pipeline.start]
    split <;> rename_i already
    · exact .inl rfl
    · obtain ⟨unthreaded, healthy⟩ := Bool.or_eq_false_iff.1 (Bool.eq_false_iff.2 already)
      exact .inr (.inl ⟨bne_eq_false_iff_eq.1 unthreaded, healthy, rfl⟩)
  | requestStop =>
    rw [Pipeline.requestStop]
    split
    · exact .inr (.inr (.inl rfl))
    · exact .inl rfl
  | join =>
    rw [Pipeline.join]
    split <;> rename_i ended
    · exact .inr (.inr (.inr ⟨ended, rfl⟩))
    · exact .inl rfl

/-- Nothing that is under way is touched. -/
theorem Control.frame (h : p.Control p') :
    p'.engine = p.engine ∧ p'.queue.items = p.queue.items ∧
      p'.worker.inWork = p.worker.inWork ∧ p'.afterCommand = p.afterCommand := by
  obtain rfl | ⟨absent, -, rfl⟩ | rfl | ⟨ended, rfl⟩ := h.cases
  · exact ⟨rfl, rfl, rfl, rfl⟩
  · rw [Pipeline.afterCommand, Pipeline.afterCommand, absent]
    exact ⟨rfl, rfl, rfl, rfl⟩
  · exact ⟨rfl, rfl, rfl, rfl⟩
  · rw [Pipeline.afterCommand, Pipeline.afterCommand, ended]
    exact ⟨rfl, rfl, rfl, rfl⟩

theorem Control.outlook (h : p.Control p') : p'.outlook = p.outlook := by
  obtain ⟨-, items, -, after⟩ := h.frame
  rw [Pipeline.outlook, Pipeline.outlook, items, after]

theorem Rested.join (h : p.Rested) : p.join.Rested := by
  rw [Pipeline.join]
  split
  · exact h.imp_right fun ⟨empty, _⟩ => ⟨empty, rfl⟩
  · exact h

/-! ### Submitters -/

variable {c : Command} {s s' : Submitter} {v : Option Verdict}

/-- A submitter leaves the thread to itself. -/
theorem HandOver.worker (h : p.HandOver c s v p' s') : p'.worker = p.worker := by
  cases h with
  | carryOut healthy unthreaded shown done =>
    obtain ⟨e, -, -, rfl⟩ | ⟨f, -, -, rfl⟩ := submit?_cases unthreaded healthy done <;> rfl
  | _ => rfl

/-- It does not mend an engine that has halted. -/
theorem HandOver.healthy (h : p.HandOver c s v p' s') (healthy : p'.engine.isHalted = false) :
    p.engine.isHalted = false := by
  cases h with
  | carryOut untouched unthreaded shown done => exact untouched
  | _ => exact healthy

/-! ### What all of them keep -/

/-- While the queue is open, it does not matter what it holds. -/
theorem Sound.queue (h : p.Sound)
    (opened : p.engine.isHalted = false → p.isThreaded = true ∧ p.queue.running = true)
    (q : Queue Command) : ({ p with queue := q } : Pipeline).Sound := by
  have halted_of (gone : p.isThreaded = false ∨ p.queue.running = false) :
      p.engine.isHalted = true := by
    rw [← Bool.not_eq_false]
    intro healthy
    obtain ⟨threaded, running⟩ := opened healthy
    rcases gone with gone | gone
    · exact absurd (gone.symm.trans threaded) Bool.noConfusion
    · exact absurd (gone.symm.trans running) Bool.noConfusion
  rw [Sound] at h ⊢
  cases doing : p.worker with
  | absent => exact .inl (halted_of (.inl (by rw [isThreaded, doing]; rfl)))
  | ended =>
    rw [doing] at h
    exact .inl (h.elim id fun closed => halted_of (.inr closed.1))
  | _ =>
    rw [doing] at h
    exact h

/-- The engine may change as long as it does not halt. -/
theorem Sound.engine (h : p.Sound) {e : Engine} (same : e.isHalted = p.engine.isHalted)
    (held : Bool) : ({ p with engine := e, held } : Pipeline).Sound := by
  simpa only [Sound, same] using h

theorem Sound.control (h : p.Sound) (hc : p.Control p') : p'.Sound := by
  obtain rfl | ⟨absent, healthy, rfl⟩ | rfl | ⟨ended, rfl⟩ := hc.cases
  · exact h
  · exact healthy
  · rw [Sound] at h ⊢
    cases doing : p.worker with
    | ended =>
      rw [doing] at h
      exact h.imp_right fun closed => ⟨rfl, closed.2⟩
    | _ =>
      rw [doing] at h
      exact h
  · rw [Sound, ended] at h
    exact h.imp_right And.right

/-- A submitter that counts a command does not know yet what becomes of it. -/
theorem Balanced.count {busy : Nat} (h : p.Balanced busy) :
    ({ p with submitted := p.submitted + 1 } : Pipeline).Balanced (busy + 1) :=
  fun healthy => congrArg Nat.succ (h healthy)

/-- A command that is put into the queue waits there. -/
theorem Balanced.push {busy : Nat} {q : Queue Command} (h : p.Balanced (busy + 1))
    (room : p.queue.push c = .accepted q) : ({ p with queue := q } : Pipeline).Balanced busy := by
  intro healthy
  have balanced := h healthy
  obtain ⟨items, -⟩ := Queue.items_of_push room
  simp only [items, List.length_append, List.length_singleton]
  omega

/-- A count that is taken back is that of a command that waits nowhere. -/
theorem Balanced.uncount {busy : Nat} (h : p.Balanced (busy + 1)) :
    ({ p with submitted := p.submitted - 1 } : Pipeline).Balanced busy :=
  fun healthy => congrArg Nat.pred (h healthy)

theorem Balanced.control {busy : Nat} (h : p.Balanced busy) (hc : p.Control p') :
    p'.Balanced busy := by
  obtain rfl | ⟨absent, -, rfl⟩ | rfl | ⟨ended, rfl⟩ := hc.cases
  · exact h
  · rwa [Balanced, absent] at h
  · exact h
  · rwa [Balanced, ended] at h

/-- What submitters are doing agrees with the thread, the engine and the queue. -/
structure Serves (p : Pipeline) (ss : List Submitter) : Prop where
  /-- The thread is in order. -/
  sound : p.Sound
  /-- The numbers of commands add up. -/
  balanced : p.Balanced (ss.countP Submitter.isBusy)
  /-- As long as a queue is open without a thread, nobody has begun to use it. -/
  unused : p.engine.isHalted = false → p.worker = .absent → p.queue.running = true →
    ∀ s ∈ ss, s = .free

namespace Serves

variable {ss : List Submitter} {i : Nat}

/-- At first nobody does anything. -/
theorem fresh (e : Engine) (wanted submitters : Nat) :
    Serves { engine := e, queue := .ofCapacity wanted } (List.replicate submitters .free) where
  sound := .inr rfl
  balanced _ := by
    rw [List.countP_replicate]
    rfl
  unused _ _ _ _ hs := List.eq_of_mem_replicate hs

variable (h : p.Serves ss)
include h

theorem move (hm : p.Move p') : p'.Serves ss where
  sound := h.sound.move hm
  balanced := h.balanced.move h.sound hm
  unused _ absent := absurd absent hm.threaded.2

/-- The engine may change as long as it does not halt, and the display may take and let go
    of a frame. -/
theorem engine {e : Engine} (same : e.isHalted = p.engine.isHalted) (held : Bool) :
    Serves { p with engine := e, held } ss where
  sound := h.sound.engine same held
  balanced healthy := h.balanced (same.symm.trans healthy)
  unused healthy := h.unused (same.symm.trans healthy)

theorem display (hd : p.Display p') : p'.Serves ss := by
  obtain ⟨e, held, rfl, same⟩ := hd.frame
  exact h.engine (Engine.isHalted_eq_of_still same) held

theorem control (hc : p.Control p') : p'.Serves ss := by
  refine ⟨h.sound.control hc, h.balanced.control hc, ?_⟩
  obtain rfl | ⟨-, -, rfl⟩ | rfl | ⟨ended, rfl⟩ := hc.cases
  · exact h.unused
  · exact fun _ absent => Worker.noConfusion absent
  · exact fun _ _ running => Bool.noConfusion running
  · intro healthy _ running
    exact absurd running (Bool.eq_false_iff.1 (h.sound.stopped_of_ended healthy ended))

/-- Whoever has begun to submit a command knows that the queue is stopped or has a
    thread. -/
theorem used (here : ss[i]? = some s) (begun : s ≠ .free) (healthy : p.engine.isHalted = false)
    (absent : p.worker = .absent) : p.queue.running = false := by
  rw [← Bool.not_eq_true]
  exact fun running => begun (h.unused healthy absent running s (List.mem_of_getElem? here))

/-- If the queue takes a command, it is a thread that has opened it. -/
theorem threaded_of_push {q : Queue Command} (here : ss[i]? = some (.counted c))
    (room : p.queue.push c = .accepted q) (healthy : p.engine.isHalted = false) :
    p.isThreaded = true ∧ p.queue.running = true := by
  have opened : p.queue.running = true := by
    rw [← Bool.not_eq_false, ← p.queue.push_eq_refused_iff c, room]
    nofun
  refine ⟨bne_iff_ne.2 fun absent => ?_, opened⟩
  exact Bool.eq_false_iff.1 (h.used here nofun healthy absent) opened

theorem carryOut {w : Verdict} {reports : List Report} (healthy : p.engine.isHalted = false)
    (unthreaded : p.isThreaded = false) (done : p.submit? c = some (w, p', reports)) :
    p'.Serves ss := by
  obtain ⟨e, processed, -, rfl⟩ | ⟨f, -, -, rfl⟩ := submit?_cases unthreaded healthy done
  · exact h.engine (congrArg Option.isSome (Engine.fault_of_process processed)) p.held
  · have absent : p.worker = .absent := bne_eq_false_iff_eq.1 unthreaded
    refine ⟨?_, fun healthy => Bool.noConfusion healthy, fun healthy => Bool.noConfusion healthy⟩
    simp only [Sound, absent]
    exact .inl rfl

theorem handOver (here : ss[i]? = some s) (hh : p.HandOver c s v p' s') :
    p'.Serves (ss.set i s') := by
  have busy := countP_set_add here s' Submitter.isBusy
  have back_of_free (free : s = .free) : ss.set i .free = ss := by
    obtain ⟨inside, same⟩ := List.getElem?_eq_some_iff.1 here
    rw [← free, ← same, List.set_getElem_self]
  have unused_of_used (begun : s ≠ .free) (healthy : p.engine.isHalted = false)
      (absent : p.worker = .absent) (running : p.queue.running = true) :
      ∀ t ∈ ss.set i s', t = .free :=
    absurd running (Bool.eq_false_iff.1 (h.used here begun healthy absent))
  cases hh with
  | look healthy threaded =>
    have same : (ss.set i (.looked c)).countP Submitter.isBusy = ss.countP Submitter.isBusy := busy
    exact ⟨h.sound, same ▸ h.balanced, fun _ absent => absurd absent (bne_iff_ne.1 threaded)⟩
  | skip halted =>
    rw [back_of_free rfl]
    exact h
  | carryOut healthy unthreaded shown done =>
    rw [back_of_free rfl]
    exact h.carryOut healthy unthreaded done
  | count =>
    have more : (ss.set i (.counted c)).countP Submitter.isBusy =
      ss.countP Submitter.isBusy + 1 := busy
    exact ⟨h.sound, more ▸ h.balanced.count, unused_of_used Submitter.noConfusion⟩
  | push room =>
    have fewer : (ss.set i .free).countP Submitter.isBusy + 1 = ss.countP Submitter.isBusy := busy
    have threaded := h.threaded_of_push here room
    exact ⟨h.sound.queue threaded _, (fewer ▸ h.balanced).push room,
      fun healthy absent => absurd absent (bne_iff_ne.1 (threaded healthy).1)⟩
  | refuse stopped =>
    have same : (ss.set i (.turnedAway c)).countP Submitter.isBusy =
      ss.countP Submitter.isBusy := Nat.succ.inj busy
    exact ⟨h.sound, same ▸ h.balanced, unused_of_used Submitter.noConfusion⟩
  | uncount =>
    have fewer : (ss.set i .free).countP Submitter.isBusy + 1 = ss.countP Submitter.isBusy := busy
    exact ⟨h.sound, (fewer ▸ h.balanced).uncount, unused_of_used Submitter.noConfusion⟩

/-- Without a thread, a healthy engine is where it was going. -/
theorem outlook_of_absent (absent : p.worker = .absent) : p.outlook = p.engine :=
  h.sound.outlook_of_rested (h.sound.rested (.inr absent))

/-- A command that is not turned away is the last one on the way of the engine. Any other step
    of a submitter changes nothing there. -/
theorem outlook (here : ss[i]? = some s) (hh : p.HandOver c s v p' s') :
    p'.outlook = p.outlook ∧ (v = none ∨ v = some .refused) ∨
      p'.outlook = (p.outlook.submit c).2 ∧ ∃ w, v = some w ∧ w ≠ .refused := by
  cases hh with
  | carryOut healthy unthreaded shown done =>
    have absent : p.worker = .absent := bne_eq_false_iff_eq.1 unthreaded
    have healthy' := Engine.isHalted_eq_false_iff.1 healthy
    have served := h.carryOut healthy unthreaded done
    rw [h.outlook_of_absent absent]
    obtain ⟨e, processed, rfl, rfl⟩ | ⟨f, faulty, rfl, rfl⟩ :=
      submit?_cases unthreaded healthy done
    · rw [served.outlook_of_absent absent, Engine.submit_of_process healthy' processed]
      exact .inr ⟨rfl, _, rfl, nofun⟩
    · rw [served.outlook_of_absent absent, Engine.submit_of_fault healthy' faulty]
      exact .inr ⟨rfl, _, rfl, nofun⟩
  | push room =>
    obtain ⟨items, -⟩ := Queue.items_of_push room
    refine .inr ⟨?_, _, rfl, nofun⟩
    simp only [Pipeline.outlook, items, Engine.submitAll_append]
    rfl
  | skip | uncount => exact .inl ⟨rfl, .inr rfl⟩
  | look | count | refuse => exact .inl ⟨rfl, .inl rfl⟩

/-- As many commands are carried out as were submitted only if none is under way. -/
theorem rested_of_isFlushed (healthy : p.engine.isHalted = false) (flushed : p.isFlushed = true) :
    p.queue.items = [] ∧ p.worker.inHand = 0 := by
  have balanced := h.balanced healthy
  have all : p.submitted ≤ p.processed := by simpa [isFlushed, healthy] using flushed
  exact ⟨List.eq_nil_of_length_eq_zero (by omega), by omega⟩

end Serves

end Pipeline

end GeometryEngine
