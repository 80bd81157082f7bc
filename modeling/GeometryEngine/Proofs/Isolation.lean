import GeometryEngine.Proofs.HandOver
import GeometryEngine.Traffic

/-!
# The frame that is shown

The display holds the current frame while others go on: they submit commands, the thread
carries them out, frames are set up and wait to be shown. However their steps follow each
other, none of them reaches the frame that is shown (`Traffic.Steps.isolated`).

* What a step does to the frames is one of six things (`Traffic.Change`), and only two of
  them, a swap and the loading of a state, touch the frame that is shown. Both wait for the
  display.
* A frame that is set up is shown as it was set up, since nothing is built between the
  set-up and the swap (`Traffic.Change.of_unshown`).

The second holds because at most one frame waits to be shown, and because whoever waits for
all commands before a state is loaded waits for a swap as well. This rests on who takes
turns with whom, and on the numbers of commands (`Traffic.InOrder`).
-/

namespace GeometryEngine

namespace Traffic

variable {t u : Traffic}

/-! ### Who takes turns -/

/-- Without a thread, no frame waits to be shown but that of a submitter. -/
theorem unshown_of_absent (absent : t.pipeline.worker = .absent) :
    t.unshown = t.showing.toNat := by
  rw [unshown, absent]
  exact Nat.zero_add _

/-- Who waits to show a frame, and who has counted a command, agrees with the engine and
    the thread. -/
structure InOrder (t : Traffic) : Prop where
  /-- The thread serves the submitters. -/
  serves : t.pipeline.Serves t.submitters
  /-- They show frames themselves only if there is no thread. -/
  alone : t.showing = true → t.pipeline.worker = .absent

namespace InOrder

theorem fresh (wanted submitters : Nat) : (fresh wanted submitters).InOrder :=
  ⟨.fresh {} wanted submitters, fun _ => rfl⟩

variable (h : t.InOrder)
include h

/-- Where there is a thread, no submitter waits to show a frame. -/
theorem showing_of_threaded (threaded : t.pipeline.worker ≠ .absent) : t.showing = false :=
  Bool.eq_false_iff.2 fun waits => threaded (h.alone waits)

theorem work {p : Pipeline} (hm : t.pipeline.Move p) : InOrder { t with pipeline := p } :=
  ⟨h.serves.move hm, fun waits => absurd (h.alone waits) hm.threaded.1⟩

theorem step (hs : Step t u) : u.InOrder := by
  cases hs with
  | work hw => exact h.work (Pipeline.move_of_step? hw)
  | display hd =>
    refine ⟨h.serves.display hd, ?_⟩
    obtain ⟨e, held, rfl, -⟩ := hd.frame
    exact h.alone
  | handOver i here hh begins =>
    exact ⟨h.serves.handOver here hh, fun waits => hh.worker.trans (h.alone waits)⟩
  | prepare i free unthreaded healthy clear prepared =>
    have same := congrArg Option.isSome (Engine.fault_of_prepare prepared)
    exact ⟨h.serves.engine same t.pipeline.held, fun _ => bne_eq_false_iff_eq.1 unthreaded⟩
  | promote showing free =>
    exact ⟨h.serves.engine (e := t.pipeline.engine.promote) rfl t.pipeline.held, nofun⟩
  | load bs clear flushed free =>
    exact ⟨h.serves.engine (Engine.isHalted_load _ bs) t.pipeline.held, h.alone⟩
  | control clear hc =>
    exact ⟨h.serves.control hc, fun waits => absurd clear (Bool.not_eq_false _ ▸ waits)⟩

/-- A thread that is at work is the only one that may have set up a frame. -/
theorem unshown_of_threaded (threaded : t.pipeline.worker ≠ .absent) :
    t.unshown = t.pipeline.worker.unshown := by
  rw [unshown, h.showing_of_threaded threaded]
  rfl

/-- Whoever has waited for all commands does not find a frame that waits to be shown. -/
theorem unshown_of_flushed (clear : t.showing = false)
    (flushed : t.pipeline.isThreaded = false ∨ t.pipeline.isFlushed = true) : t.unshown = 0 := by
  rw [unshown, clear]
  cases doing : t.pipeline.worker with
  | showing vertices triangles =>
    have sound := h.serves.sound
    rw [Pipeline.Sound, doing] at sound
    -- The swap is counted as submitted, and is not counted as carried out.
    have flushed : t.pipeline.isFlushed = true := by
      simpa [Pipeline.isThreaded, doing] using flushed
    have rested := (h.serves.rested_of_isFlushed sound flushed).2
    rw [doing] at rested
    cases rested
  | _ => rfl

end InOrder

theorem Steps.inOrder {wanted submitters : Nat} (h : Steps (fresh wanted submitters) t) :
    t.InOrder :=
  h.keep (fun _ _ hs ordered => ordered.step hs) (.fresh wanted submitters)

/-! ### What a step does to the frames -/

/-- What a step does to the frames, and to the number of those that are set up and not
    shown yet. -/
inductive Change (t u : Traffic) : Prop
  /-- It does nothing to them. -/
  | none (frames : u.frames = t.frames) (same : u.unshown = t.unshown)
  /-- It builds the next frame. -/
  | build {g : Slot → Slot} (frames : u.frames = t.frames.mapNext g) (before : t.unshown = 0)
      (after : u.unshown = 0)
  /-- It sets the next frame up. -/
  | setUp {s : Slot} (set : t.frames.next.setUp = .ok s)
      (frames : u.frames = t.frames.mapNext fun _ => s) (before : t.unshown = 0)
      (after : u.unshown = 1)
  /-- It is the display that draws the frame it holds. -/
  | draw {g : Slot → Slot} (held : t.pipeline.held = true)
      (display : t.pipeline.Display u.pipeline) (frames : u.frames = t.frames.mapCurrent g)
      (still : ∀ s, (g s).still = s.still) (same : u.unshown = t.unshown)
  /-- It shows the next frame. -/
  | swap (free : t.pipeline.held = false) (frames : u.frames = t.frames.swap)
      (before : t.unshown = 1) (after : u.unshown = 0)
  /-- It loads a state. -/
  | load {bs : List UInt8} (free : t.pipeline.held = false)
      (engine : u.pipeline.engine = (t.pipeline.engine.load bs).1) (before : t.unshown = 0)
      (after : u.unshown = 0)

/-- The thread does to the frames what its commands tell. -/
theorem InOrder.change_of_move (h : t.InOrder) {p : Pipeline} (hm : t.pipeline.Move p) :
    Change t { t with pipeline := p } := by
  have before := h.unshown_of_threaded hm.threaded.1
  have after : unshown { t with pipeline := p } = p.worker.unshown :=
    (h.work hm).unshown_of_threaded hm.threaded.2
  cases hm with
  | take doing _ | finish doing _ _ | count doing | stop doing | clear doing =>
    rw [doing] at before
    exact .none rfl (after.trans before.symm)
  | @fail c f doing faulty =>
    rw [doing] at before
    obtain ⟨g, frames⟩ := t.pipeline.engine.frames_abandon c
    exact .build frames before after
  | carryOut doing other processed =>
    rw [doing] at before
    obtain ⟨g, frames⟩ := Engine.frames_of_process processed other
    exact .build frames before after
  | prepare doing prepared =>
    rw [doing] at before
    obtain ⟨s, set, rfl⟩ := Engine.effect_of_prepare prepared
    exact .setUp set rfl before after
  | promote doing free =>
    rw [doing] at before
    exact .swap free rfl before after

/-- All that a submitter that hands over a command can do to the frames. -/
theorem Change.handOver {i : Nat} {c : Command} {s s' : Submitter} {v : Option Verdict}
    {p : Pipeline} (hh : t.pipeline.HandOver c s v p s')
    (begins : s = .free → t.showing = false ∧ (c = .swapBuffers → v ≠ some .accepted)) :
    Change t { t with pipeline := p, submitters := t.submitters.set i s' } := by
  cases hh with
  | carryOut healthy unthreaded shown done =>
    obtain ⟨clear, whole⟩ := begins rfl
    have absent : t.pipeline.worker = .absent := bne_eq_false_iff_eq.1 unthreaded
    have before : t.unshown = 0 := by
      rw [unshown_of_absent absent, clear]
      rfl
    obtain ⟨e, processed, rfl, rfl⟩ | ⟨f, -, -, rfl⟩ :=
      Pipeline.submit?_cases unthreaded healthy done
    · obtain ⟨g, frames⟩ := Engine.frames_of_process processed fun swap => whole swap rfl
      exact .build frames before before
    · obtain ⟨g, frames⟩ := t.pipeline.engine.frames_abandon c
      exact .build frames before before
  | _ => exact .none rfl rfl

/-- All that a step can do to the frames. -/
theorem InOrder.change (h : t.InOrder) (hs : Step t u) : Change t u := by
  cases hs with
  | work hw => exact h.change_of_move (Pipeline.move_of_step? hw)
  | display hd =>
    cases hd with
    | hold free => exact .none rfl rfl
    | restart held => exact .draw held (.restart held) rfl Slot.still_restart rfl
    | draw held config buckets c y canvas =>
      exact .draw held (.draw held config buckets c y canvas) rfl
        (fun s => s.still_draw config buckets c y canvas) rfl
    | release held => exact .none rfl rfl
  | handOver i here hh begins => exact .handOver hh begins
  | prepare i free unthreaded healthy clear prepared =>
    have absent : t.pipeline.worker = .absent := bne_eq_false_iff_eq.1 unthreaded
    have before : t.unshown = 0 := by
      rw [unshown_of_absent absent, clear]
      rfl
    obtain ⟨s, set, rfl⟩ := Engine.effect_of_prepare prepared
    exact .setUp set rfl before (unshown_of_absent absent)
  | promote showing free =>
    have absent := h.alone showing
    refine .swap free rfl ?_ (unshown_of_absent absent)
    rw [unshown_of_absent absent, showing]
    rfl
  | load bs clear flushed free =>
    have before := h.unshown_of_flushed clear flushed
    exact .load free rfl before before
  | control clear hc =>
    obtain rfl | ⟨absent, -, rfl⟩ | rfl | ⟨ended, rfl⟩ := hc.cases
    · exact .none rfl rfl
    · exact .none rfl (by rw [unshown, unshown, absent]; rfl)
    · exact .none rfl rfl
    · exact .none rfl (by rw [unshown, unshown, ended]; rfl)

namespace Change

variable (h : Change t u)
include h

/-- While the display holds the frame that is shown, only drawing shows in it. -/
theorem of_held (held : t.pipeline.held = true) :
    u.frames.current.still = t.frames.current.still ∧ u.frames.counter = t.frames.counter := by
  cases h with
  | none frames same => exact ⟨by rw [frames], by rw [frames]⟩
  | build frames before after | setUp set frames before after =>
    exact ⟨by rw [frames, Frames.current_mapNext], by rw [frames, Frames.counter_mapNext]⟩
  | draw held display frames still same =>
    rw [frames, Frames.current_mapCurrent, Frames.counter_mapCurrent]
    exact ⟨still _, rfl⟩
  | swap free frames before after | load free engine before after =>
    exact absurd held (Bool.eq_false_iff.1 free)

/-- A frame that is set up waits as it is until it is shown. -/
theorem of_unshown (waits : t.unshown ≠ 0) :
    (u.unshown ≠ 0 ∧ u.frames.next = t.frames.next) ∨
      (u.unshown = 0 ∧ u.frames = t.frames.swap) := by
  cases h with
  | none frames same => exact .inl ⟨same ▸ waits, by rw [frames]⟩
  | draw held display frames still same =>
    exact .inl ⟨same ▸ waits, by rw [frames, Frames.next_mapCurrent]⟩
  | swap free frames before after => exact .inr ⟨after, frames⟩
  | build frames before after => exact absurd before waits
  | setUp set frames before after => exact absurd before waits
  | load free engine before after => exact absurd before waits

/-- Only a set-up makes a frame wait. -/
theorem setUp_of_unshown (before : t.unshown = 0) (after : u.unshown ≠ 0) :
    t.frames.next.setUp = .ok u.frames.next := by
  cases h with
  | none frames same => exact absurd (same.trans before) after
  | draw held display frames still same => exact absurd (same.trans before) after
  | build frames before none => exact absurd none after
  | swap free frames waits none => exact absurd none after
  | load free engine before none => exact absurd none after
  | setUp set frames before one => rw [frames, Frames.next_mapNext, set]

end Change

/-! ### Along many steps -/

section Runs

variable {wanted submitters : Nat}

/-- Whatever goes on while the display holds a frame, only drawing shows in it. -/
theorem Within.of_held (h : Within (fun v => v.pipeline.held = true) t u) (ordered : t.InOrder) :
    u.frames.current.still = t.frames.current.still ∧ u.frames.counter = t.frames.counter := by
  have reached : u.InOrder ∧ u.pipeline.held = true ∧
      u.frames.current.still = t.frames.current.still ∧ u.frames.counter = t.frames.counter := by
    induction h with
    | refl held => exact ⟨ordered, held, rfl, rfl⟩
    | tail _ hs held ih =>
      obtain ⟨ordered, before, current, counter⟩ := ih
      obtain ⟨current', counter'⟩ := (ordered.change hs).of_held before
      exact ⟨ordered.step hs, held, current'.trans current, counter'.trans counter⟩
  exact reached.2.2

/-- A frame that waits to be shown is as it was set up. -/
theorem SetUpSince.next {s : Slot} (h : SetUpSince (fresh wanted submitters) s t) :
    t.frames.next = s := by
  obtain ⟨r, u, reached, before, set, hs, waited⟩ := h
  have kept : t.InOrder ∧ t.unshown ≠ 0 ∧ t.frames.next = s := by
    induction waited with
    | refl waits =>
      have same := (reached.inOrder.change hs).setUp_of_unshown before waits
      exact ⟨reached.inOrder.step hs, waits, Except.ok.inj (same.symm.trans set)⟩
    | tail _ hs waits ih =>
      obtain ⟨ordered, waited, next⟩ := ih
      obtain ⟨-, same⟩ | ⟨shown, -⟩ := (ordered.change hs).of_unshown waited
      · exact ⟨ordered.step hs, waits, same.trans next⟩
      · exact absurd shown waits
  exact kept.2.2

/-- Every frame that waits to be shown was set up. -/
theorem Steps.setUpSince (h : Steps (fresh wanted submitters) t) (waits : t.unshown ≠ 0) :
    ∃ s, SetUpSince (fresh wanted submitters) s t := by
  induction h with
  | refl => exact absurd rfl waits
  | @tail t u reached hs ih =>
    by_cases before : t.unshown = 0
    · have set := (reached.inOrder.change hs).setUp_of_unshown before waits
      exact ⟨_, t, u, reached, before, set, hs, .refl waits⟩
    · obtain ⟨s, r, v, reached, none, set, first, waited⟩ := ih before
      exact ⟨s, r, v, reached, none, set, first, waited.tail hs waits⟩

/-- The display does not see a frame that is being built.

    * While it holds a frame, only drawing shows in it, which moves bounds.
    * No step but a swap and the loading of a state changes which frame is shown, or what
      is in it. Those two wait for the display.
    * What a swap shows is a frame that was set up, as it was set up.
    * With every swap, also when the counter wraps around, the next frame is shown and an
      empty one is begun. -/
theorem Steps.isolated (h : Steps (fresh wanted submitters) t) :
    (∀ u, Within (fun v => v.pipeline.held = true) t u →
      u.frames.current.still = t.frames.current.still ∧ u.frames.counter = t.frames.counter) ∧
    (∀ u, Step t u →
      (u.frames.current = t.frames.current ∧ u.frames.counter = t.frames.counter) ∨
      (t.pipeline.held = true ∧ t.pipeline.Display u.pipeline ∧
        u.frames.current.still = t.frames.current.still ∧
        u.frames.counter = t.frames.counter) ∨
      (t.pipeline.held = false ∧ u.frames = t.frames.swap ∧
        (∃ s, SetUpSince (fresh wanted submitters) s t) ∧
        ∀ s, SetUpSince (fresh wanted submitters) s t →
          u.frames.current = s ∧ u.frames.next = {}) ∨
      (t.pipeline.held = false ∧
        ∃ bs, u.pipeline.engine = (t.pipeline.engine.load bs).1)) ∧
    (∀ f : Frames, f.swap.current = f.next ∧ f.swap.next = {} ∧
      f.swap.buildsOdd = !f.buildsOdd ∧
      f.swap.counter.toNat = (f.counter.toNat + 1) % 2 ^ 32) := by
  refine ⟨fun u hw => hw.of_held h.inOrder, fun u hs => ?_, fun f => ?_⟩
  · cases h.inOrder.change hs with
    | none frames same => exact .inl ⟨by rw [frames], by rw [frames]⟩
    | build frames before after | setUp set frames before after =>
      exact .inl ⟨by rw [frames, Frames.current_mapNext], by rw [frames, Frames.counter_mapNext]⟩
    | draw held display frames still same =>
      exact .inr (.inl ⟨held, display, (h.inOrder.change hs).of_held held⟩)
    | swap free frames before after =>
      have waits : t.unshown ≠ 0 := by omega
      refine .inr (.inr (.inl ⟨free, frames, h.setUpSince waits, fun s since => ?_⟩))
      rw [frames, Frames.current_swap, Frames.next_swap]
      exact ⟨since.next, rfl⟩
    | load free engine before after => exact .inr (.inr (.inr ⟨free, _, engine⟩))
  · refine ⟨f.current_swap, f.next_swap, f.buildsOdd_swap, ?_⟩
    rw [Frames.swap, Frames.counter_mapNext, UInt32.toNat_add]
    rfl

/-- A frame with one vertex is set up and waits while the display draws another one, and is
    shown when the display has let go of that. -/
theorem Steps.isolated_waiting :
    ∃ t u v w, Steps (fresh 0 1) t ∧ Within (fun v => v.pipeline.held = true) t u ∧
      Step u v ∧ Step v w ∧ t.unshown = 0 ∧ u.unshown = 1 ∧
      u.frames.current.still = t.frames.current.still ∧
      w.frames.current = { vertices := #[.ofClip 1 2 3 4] } ∧ w.frames.next = {} := by
  have vertex : Steps (fresh 0 1) _ := Steps.refl.tail (.control rfl .start)
    |>.tail (.handOver 0 rfl (.look (c := .vertex 1 2 3 4) rfl rfl) (fun _ => ⟨rfl, nofun⟩))
    |>.tail (.handOver 0 rfl .count nofun) |>.tail (.handOver 0 rfl (.push rfl) nofun)
  have swap := vertex.tail (.work rfl) |>.tail (.work rfl) |>.tail (.work rfl)
    |>.tail (.handOver 0 rfl (.look (c := .swapBuffers) rfl rfl) (fun _ => ⟨rfl, nofun⟩))
    |>.tail (.handOver 0 rfl .count nofun) |>.tail (.handOver 0 rfl (.push rfl) nofun)
  have reached := swap.tail (.work rfl) |>.tail (.display (.hold rfl))
  have isolated := reached.isolated.1
  have holds {t : Traffic} (_ : Steps (fresh 0 1) t) (held : t.pipeline.held = true) :
      Within (fun v => v.pipeline.held = true) t t := .refl held
  have drawn := (holds reached rfl).tail (.work rfl) rfl |>.tail (.display (.restart rfl)) rfl
  exact ⟨_, _, _, _, reached, drawn, .display (.release rfl), .work rfl, rfl, rfl,
    (isolated _ drawn).1, rfl, rfl⟩

end Runs

end Traffic

end GeometryEngine
