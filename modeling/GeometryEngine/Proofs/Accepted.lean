import GeometryEngine.Ledger
import GeometryEngine.Transcript
import GeometryEngine.Proofs.Instructions

/-!
# Receivers that accept everything

What the front-end sends depends on its receiver only through the verdicts. So as long
as a receiver accepts all that is submitted to it, it might as well be a transcript,
which does nothing else (`Registers.follows_executeAll`). Whether everything was
accepted is told by the record of the receiver in the end, as a record only grows.
-/

namespace GeometryEngine

/-! ### Receivers and transcripts -/

section

variable {σ : Type}

/-- The outcome of an activity that started out from the record `l`, and the outcome
    with a transcript in place of the receiver: if everything was accepted in the end,
    the two are the same. -/
structure Follows (l : Ledger σ) (o : Outcome Registers (Ledger σ))
    (p : Outcome Registers Transcript) : Prop where
  grown : l.entries <+: o.sink.entries
  same : o.sink.IsAccepted →
    o.fault = none ∧ o.state = p.state ∧ o.sink.commands = p.sink.commands

namespace Follows

variable {l m : Ledger σ} {t : Transcript} {o : Outcome Registers (Ledger σ)}
  {p : Outcome Registers Transcript} {c : Command}

/-- Nothing was submitted. -/
theorem done (same : m.entries = l.entries) (h : l.commands = t.commands) (r : Registers) :
    Follows l ⟨r, m, none⟩ ⟨r, t, none⟩ where
  grown := same ▸ List.prefix_refl _
  same _ := ⟨rfl, rfl, by rw [Ledger.commands, same]; exact h⟩

/-- A command was accepted, and the rest starts out from the longer record. -/
theorem accepted (h : m.entries = l.entries ++ [(c, .accepted)]) (ho : Follows m o p) :
    Follows l o p where
  grown := List.IsPrefix.trans ⟨_, h.symm⟩ ho.grown
  same := ho.same

/-- A command was not accepted, so that nothing is to be shown. -/
theorem turnedAway {v : Verdict} (h : o.sink.entries = l.entries ++ [(c, v)])
    (other : v ≠ .accepted) : Follows l o p where
  grown := ⟨_, h.symm⟩
  same all := absurd (all (c, v) (by simp [h])) other

theorem andThen {next : Registers → Ledger σ → Outcome Registers (Ledger σ)}
    {next' : Registers → Transcript → Outcome Registers Transcript} (ho : Follows l o p)
    (silent : p.fault = none)
    (h : ∀ r (m : Ledger σ) (t : Transcript), m.commands = t.commands →
      Follows m (next r m) (next' r t)) :
    Follows l (o.andThen next) (p.andThen next') := by
  obtain ⟨r, m, fault⟩ := o
  obtain ⟨r', t, fault'⟩ := p
  cases silent
  cases fault with
  | some f => exact ⟨ho.grown, fun all => nomatch (ho.same all).1⟩
  | none =>
    refine ⟨ho.grown.trans (h r m ⟨m.commands⟩ rfl).grown, fun all => ?_⟩
    have later := (h r m ⟨m.commands⟩ rfl).grown
    obtain ⟨-, rfl, commands⟩ := ho.same fun entry he => all entry (later.subset he)
    exact (h r m t commands).same all

end Follows

end

/-! ### Instructions -/

variable {σ : Type} [Sink σ]

theorem Ledger.entries_of_submit {l m : Ledger σ} {c : Command} {v : Verdict}
    (h : Sink.submit l c = (v, m)) : m.entries = l.entries ++ [(c, v)] := by
  have := entries_submit l c
  rwa [h] at this

theorem Ledger.commands_of_submit {l m : Ledger σ} {t : Transcript} {c : Command} {v : Verdict}
    (h : Sink.submit l c = (v, m)) (same : l.commands = t.commands) :
    m.commands = t.commands ++ [c] := by
  rw [commands, entries_of_submit h, List.map_append, ← same]
  rfl

namespace Registers

variable {l : Ledger σ} {t : Transcript}

theorem follows_notify (h : l.commands = t.commands) (r : Registers) (n : Notice) :
    Follows l ⟨r, Sink.notify l n, none⟩ ⟨r, Sink.notify t n, none⟩ :=
  .done (l.entries_notify n) h r

theorem follows_sendPolygon (h : l.commands = t.commands) (o : Outline) (r : Registers) :
    Follows l (r.sendPolygon o l) (r.sendPolygon o t) := by
  unfold sendPolygon
  split
  · exact follows_notify h r _
  · rcases hs : Sink.submit l (o.command r.list.attributes) with ⟨_ | _ | _, m⟩ <;>
      have recorded := Ledger.entries_of_submit hs
    · exact .accepted recorded (.done rfl (Ledger.commands_of_submit hs h) _)
    · exact .turnedAway recorded (by nofun)
    · exact .turnedAway recorded (by nofun)

theorem follows_sendCompleted (h : l.commands = t.commands) (r : Registers) :
    Follows l (r.sendCompleted l) (r.sendCompleted t) := by
  unfold sendCompleted
  split
  · exact .done rfl h r
  · exact follows_sendPolygon h _ r

theorem follows_sendVertex (h : l.commands = t.commands) (r : Registers) :
    Follows l (r.sendVertex l) (r.sendVertex t) := by
  unfold sendVertex
  split
  · exact follows_notify h r _
  · rcases hs : Sink.submit l (r.mapMatrices .refresh).vertexCommand with ⟨_ | _ | _, m⟩ <;>
      have recorded := Ledger.entries_of_submit hs <;> simp only [hs]
    · exact .accepted recorded (follows_sendCompleted (Ledger.commands_of_submit hs h) _)
    · exact .turnedAway recorded (by nofun)
    · exact .turnedAway recorded (by nofun)

theorem follows_sendSwap (h : l.commands = t.commands) (r : Registers) :
    Follows l (r.sendSwap l) (r.sendSwap t) := by
  unfold sendSwap
  rcases hs : Sink.submit l .swapBuffers with ⟨_ | _ | _, m⟩ <;>
    have recorded := Ledger.entries_of_submit hs
  · exact .accepted recorded (.done rfl (Ledger.commands_of_submit hs h) _)
  · exact .turnedAway recorded (by nofun)
  · exact .turnedAway recorded (by nofun)

theorem follows_sendViewport (h : l.commands = t.commands) (view : Viewport) (r : Registers) :
    Follows l (r.sendViewport view l) (r.sendViewport view t) := by
  unfold sendViewport
  rcases hs : Sink.submit l (.viewport view) with ⟨_ | _ | _, m⟩ <;>
    have recorded := Ledger.entries_of_submit hs
  · exact .accepted recorded (.done rfl (Ledger.commands_of_submit hs h) _)
  · exact .turnedAway recorded (by nofun)
  · exact .turnedAway recorded (by nofun)

theorem follows_execute (h : l.commands = t.commands) (r : Registers) (i : Instruction) :
    Follows l (r.execute l i) (r.execute t i) := by
  cases i with
  | place x y z => exact follows_sendVertex h _
  | offset dx dy dz => exact follows_sendVertex h _
  | swapBuffers => exact follows_sendSwap h r
  | setViewport view => exact follows_sendViewport h view r
  | unknown id => exact follows_notify h r _
  | _ => exact .done rfl h _

/-- A transcript raises no fault. -/
@[simp] theorem fault_execute (r : Registers) (t : Transcript) (i : Instruction) :
    (r.execute t i).fault = none := by
  have polygon (o : Outline) (r : Registers) (t : Transcript) :
      (r.sendPolygon o t).fault = none := by
    unfold sendPolygon
    split <;> rfl
  have vertex (r : Registers) : (r.sendVertex t).fault = none := by
    unfold sendVertex
    split
    · rfl
    · change (sendCompleted _ _).fault = none
      unfold sendCompleted
      split
      · rfl
      · exact polygon ..
  cases i with
  | place x y z => exact vertex _
  | offset dx dy dz => exact vertex _
  | _ => rfl

theorem executeAll_cons (r : Registers) (t : Transcript) (i : Instruction)
    (is : List Instruction) :
    r.executeAll t (i :: is) =
      (r.execute t i).state.executeAll (r.execute t i).sink is := by
  rw [executeAll, Outcome.andThen, fault_execute]

@[simp] theorem fault_executeAll (r : Registers) (t : Transcript) (is : List Instruction) :
    (r.executeAll t is).fault = none := by
  induction is generalizing r t with
  | nil => rfl
  | cons i is ih => rw [executeAll_cons, ih]

/-- With a transcript nothing is cut short. -/
theorem executeAll_append_transcript (r : Registers) (t : Transcript)
    (is js : List Instruction) :
    r.executeAll t (is ++ js) =
      (r.executeAll t is).state.executeAll (r.executeAll t is).sink js := by
  rw [executeAll_append, Outcome.andThen, fault_executeAll]

/-- If everything is accepted in the end, the instructions have done the same as with a
    transcript. -/
theorem follows_executeAll (h : l.commands = t.commands) (r : Registers)
    (is : List Instruction) : Follows l (r.executeAll l is) (r.executeAll t is) := by
  induction is generalizing r l t with
  | nil => exact .done rfl h r
  | cons i is ih =>
    exact (follows_execute h r i).andThen (fault_execute r t i) fun r m t same => ih same r

/-- What was sent in the meantime was accepted, too. -/
theorem isAccepted_of_append {r : Registers} {is js : List Instruction}
    (accepted : (r.executeAll l (is ++ js)).sink.IsAccepted) :
    (r.executeAll l is).sink.IsAccepted := by
  rw [executeAll_append, Outcome.andThen] at accepted
  cases hf : (r.executeAll l is).fault with
  | some f => rwa [hf] at accepted
  | none =>
    rw [hf] at accepted
    let t : Transcript := ⟨(r.executeAll l is).sink.commands⟩
    have grown := (follows_executeAll (t := t) rfl (r.executeAll l is).state js).grown
    exact fun entry he => accepted entry (grown.subset he)

end Registers

end GeometryEngine
