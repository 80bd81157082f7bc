import GeometryEngine.Calls
import GeometryEngine.Proofs.Packets

/-!
# Streams of instructions that come to the same

Two streams of instructions may be spelled differently and still come to the same. What has to
be shown for it is that they do the same step by step (`Registers.SameRun`): each instruction of
the one does what its counterpart in the other does, wherever the two have led to.

* `FrontEnd.callAll_calls`: on the plain path a stream is carried out instruction by instruction;
  a fault ends the call that it arises in, and the calls after it are made all the same;
* `FrontEnd.interchangeable_of_sameRun`: streams that do the same step by step can be put in each
  other's place on both paths (`FrontEnd.Interchangeable`).
-/

namespace GeometryEngine

/-- The calls that write instructions on the plain path. -/
def Encoded.calls (es : List Encoded) : List FrontEnd.Call :=
  (es.flatMap Encoded.entries).map fun e => .write e.id e.parameter

theorem Encoded.calls_cons (e : Encoded) (es : List Encoded) :
    calls (e :: es) = calls [e] ++ calls es := by
  simp only [calls, List.flatMap_cons, List.flatMap_nil, List.append_nil, List.map_append]

section

variable {σ : Type} [Sink σ]

namespace Registers

/-- Carries out instructions one after another, also those after a fault. -/
def performAll (r : Registers) (s : σ) : List Instruction → Registers × σ
  | [] => (r, s)
  | i :: is => performAll (r.execute s i).state (r.execute s i).sink is

/-- Instructions that do the same step by step, whoever receives the commands, and whatever becomes
    of them. -/
inductive SameRun (σ : Type) [Sink σ] : Registers → List Instruction → List Instruction → Prop
  | nil {r : Registers} : SameRun σ r [] []
  | cons {r : Registers} {i j : Instruction} {is js : List Instruction}
      (first : ∀ s : σ, r.execute s i = r.execute s j)
      (rest : ∀ s : σ, SameRun σ (r.execute s i).state is js) : SameRun σ r (i :: is) (j :: js)

namespace SameRun

variable {r : Registers} {is js : List Instruction}

theorem refl (r : Registers) (is : List Instruction) : SameRun σ r is is := by
  induction is generalizing r with
  | nil => exact .nil
  | cons i is ih => exact .cons (fun _ => rfl) fun _ => ih _

theorem performAll (h : SameRun σ r is js) (s : σ) : r.performAll s is = r.performAll s js := by
  induction h generalizing s with
  | nil => rfl
  | cons first rest ih =>
    rw [Registers.performAll, Registers.performAll, ih, first]

theorem executeAll (h : SameRun σ r is js) (s : σ) : r.executeAll s is = r.executeAll s js := by
  induction h generalizing s with
  | nil => rfl
  | @cons r i j is js first rest ih =>
    rw [Registers.executeAll, Registers.executeAll, ← first]
    unfold Outcome.andThen
    split
    · rfl
    · exact ih s _

end SameRun

end Registers

namespace FrontEnd

variable {fe : FrontEnd} {id : UInt8} {us ws : List UInt32} {es ds : List Encoded}

/-- If the words that wait, and those that are written now, are all words of one instruction, then
    it is carried out by the last of the calls. -/
theorem callAll_words (before : fe.pending = us.map (Entry.mk id)) (some_word : ws ≠ [])
    (all : us.length + ws.length = entries id) (s : σ) :
    let done := fe.registers.execute s (.decode id (us ++ ws))
    fe.callAll s (ws.map (Call.write id)) =
      ({ fe with pending := [], registers := done.state }, done.sink) := by
  induction ws generalizing fe us with
  | nil => exact absurd rfl some_word
  | cons w ws ih =>
    rw [List.map_cons, callAll, call]
    cases ws with
    | nil =>
      rw [write_of_eq before w all]
      rfl
    | cons v ws =>
      simp only [List.length_cons] at all
      have few : us.length + 1 < Instruction.parameters id := by
        rw [entries] at all
        omega
      have rest : (us ++ [w]).length + (v :: ws).length = entries id := by
        simp only [List.length_append, List.length_cons, List.length_nil]
        omega
      rw [write_of_lt before w few, ih rfl (List.cons_ne_nil v ws) rest, List.append_assoc]
      rfl

/-- An instruction that is written whole is carried out, be it with a fault. -/
theorem callAll_encoded (pending : fe.pending = []) {e : Encoded} (complete : e.isComplete = true)
    (s : σ) :
    let done := fe.registers.execute s e.meaning
    fe.callAll s (Encoded.calls [e]) = ({ fe with registers := done.state }, done.sink) := by
  obtain ⟨ws, words, some_word, length, meaning⟩ := Encoded.exists_words complete
  have before : fe.pending = ([] : List UInt32).map (Entry.mk e.id) := pending
  have written := callAll_words before some_word ((Nat.zero_add _).trans length) s
  have same (r : Registers) :
      ({ fe with pending := [], registers := r } : FrontEnd) = { fe with registers := r } := by
    rw [← pending]
  have calls : Encoded.calls [e] = ws.map (Call.write e.id) := by
    rw [Encoded.calls, List.flatMap_singleton, words, List.map_map]
    rfl
  simp only [List.nil_append, meaning, same] at written
  rw [calls]
  exact written

/-- The calls of a stream carry out its instructions one after another. -/
theorem callAll_calls (pending : fe.pending = []) (complete : ∀ e ∈ es, e.isComplete = true)
    (s : σ) :
    let done := fe.registers.performAll s (es.map Encoded.meaning)
    fe.callAll s (Encoded.calls es) = ({ fe with registers := done.1 }, done.2) := by
  induction es generalizing fe s with
  | nil => rfl
  | cons e es ih =>
    obtain ⟨first, rest⟩ := List.forall_mem_cons.1 complete
    rw [Encoded.calls_cons, callAll_append, callAll_encoded pending first]
    exact ih (by exact pending) rest _

/-- Two streams can be put in each other's place, whoever receives the commands. On the plain path
    nothing tells them apart, not even after a fault. On the packed path, however they are grouped
    into packets, they do the same up to the same fault, and without a fault nothing at all tells
    them apart. -/
structure Interchangeable (fe : FrontEnd) (s : σ) (es ds : List Encoded) : Prop where
  plain : fe.callAll s (Encoded.calls es) = fe.callAll s (Encoded.calls ds)
  packed : ∀ ps qs : List Packet, ps.flatten = es → qs.flatten = ds →
    (∀ p ∈ ps, p.length ≤ 4) → (∀ q ∈ qs, q.length ≤ 4) →
    let o := fe.writePackets s ps
    let o' := fe.writePackets s qs
    o.state.registers = o'.state.registers ∧ o.sink = o'.sink ∧ o.fault = o'.fault ∧
      (o.fault = none → o.state = o'.state)

/-- Streams that do the same step by step can be put in each other's place. -/
theorem interchangeable_of_sameRun (idle : fe.IsIdle) (first : ∀ e ∈ es, e.isComplete = true)
    (second : ∀ d ∈ ds, d.isComplete = true)
    (same : Registers.SameRun σ fe.registers (es.map Encoded.meaning) (ds.map Encoded.meaning))
    (s : σ) : fe.Interchangeable s es ds where
  plain := by rw [callAll_calls idle.1 first, callAll_calls idle.1 second, same.performAll]
  packed := by
    rintro ps qs rfl rfl shorts shorts' o o'
    have inPackets {ps : List Packet} (all : ∀ e ∈ ps.flatten, e.isComplete = true) :
        ∀ p ∈ ps, ∀ e ∈ p, e.isComplete = true :=
      fun p hp e he => all e (List.mem_flatten.2 ⟨p, hp, he⟩)
    have done := writes_packets shorts (inPackets first) idle s
    have done' := writes_packets shorts' (inPackets second) idle s
    rw [← same.executeAll] at done'
    exact ⟨done.registers.trans done'.registers.symm, done.sink.trans done'.sink.symm,
      done.fault.trans done'.fault.symm,
      fun sound => congrArg Outcome.state (done.eq done' (done.fault ▸ sound))⟩

end FrontEnd

end

end GeometryEngine
