import GeometryEngine.Encoded
import GeometryEngine.Proofs.Receivers

/-!
# What is written is carried out

To write instructions that have all their parameters means to carry them out one
after another (`Registers.executeAll`), whatever is done with their words in between.
This is told here for the plain path.

* `FrontEnd.writeEntries_map`: the words of one instruction wait for the last of them,
  and with it the instruction is carried out;
* `FrontEnd.writes_plain`: so the plain path carries out what was written on it, and
  leaves nothing waiting unless a fault cuts it short.
-/

namespace GeometryEngine

theorem Outcome.andThen_done {α σ : Type} (o : Outcome α σ) :
    (o.andThen fun a s => ⟨a, s, none⟩) = o := by
  obtain ⟨a, s, fault⟩ := o
  cases fault <;> rfl

/-- Activities that no fault has cut short were carried out one after the other. -/
theorem Outcome.eq_of_andThen {α σ : Type} {o : Outcome α σ} {next : α → σ → Outcome α σ}
    (sound : (o.andThen next).fault = none) :
    o.fault = none ∧ o.andThen next = next o.state o.sink := by
  obtain ⟨a, s, fault⟩ := o
  cases fault with
  | some f => cases sound
  | none => exact ⟨rfl, rfl⟩

/-! ### Parameters -/

namespace Instruction

/-- An instruction without parameters means the same whatever word it is written
    with. -/
theorem decode_of_parameters {id : UInt8} (h : parameters id = 0) (ws vs : List UInt32) :
    decode id ws = decode id vs := by
  have number : id = UInt8.ofNat id.toNat := UInt8.ofNat_toNat.symm
  rw [number] at h
  unfold decode
  -- An instruction that looks at its words has parameters.
  split <;> rename_i he <;> first | (rw [he] at h; exact absurd h (by decide)) | rfl

theorem parameters_le (id : UInt8) : parameters id ≤ 32 := by
  unfold parameters
  split <;> decide

end Instruction

/-- An instruction is written with as many words as are kept for it, and they mean what it
    means. -/
theorem Encoded.exists_words {e : Encoded} (complete : e.isComplete = true) :
    ∃ ws : List UInt32, e.entries = ws.map (Entry.mk e.id) ∧ ws ≠ [] ∧
      ws.length = FrontEnd.entries e.id ∧ Instruction.decode e.id ws = e.meaning := by
  have length := length_entries complete
  obtain ⟨id, ws⟩ := e
  rw [isComplete, beq_iff_eq] at complete
  cases ws with
  | nil =>
    have bare : Instruction.parameters id = 0 := complete.symm
    exact ⟨[0], rfl, List.cons_ne_nil _ _, length, Instruction.decode_of_parameters bare [0] []⟩
  | cons w ws =>
    rw [entries, List.length_map] at length
    exact ⟨w :: ws, rfl, List.cons_ne_nil w ws, length, rfl⟩

section

variable {σ : Type} [Sink σ]

/-! ### One instruction after another -/

namespace Registers

/-- Carries out instructions one after another, up to a fault. -/
def executeAll (r : Registers) (s : σ) : List Instruction → Outcome Registers σ
  | [] => ⟨r, s, none⟩
  | i :: is => (r.execute s i).andThen fun r s => r.executeAll s is

theorem executeAll_append (r : Registers) (s : σ) (is js : List Instruction) :
    r.executeAll s (is ++ js) =
      (r.executeAll s is).andThen fun r s => r.executeAll s js := by
  induction is generalizing r s with
  | nil => rfl
  | cons i is ih => simp only [List.cons_append, executeAll, Outcome.andThen_assoc, ih]

theorem executeAll_nothing {is : List Instruction} (h : ∀ i ∈ is, i = .nothing)
    (r : Registers) (s : σ) : r.executeAll s is = ⟨r, s, none⟩ := by
  induction is with
  | nil => rfl
  | cons i is ih =>
    obtain ⟨rfl, rest⟩ := List.forall_mem_cons.1 h
    exact ih rest

end Registers

namespace FrontEnd

/-! ### Words that wait -/

theorem drain_of_lt {id : UInt8} {ws : List UInt32} (some_word : ws ≠ [])
    (few : ws.length < Instruction.parameters id) (r : Registers) (s : σ) :
    drain (ws.map (Entry.mk id)) r s =
      ⟨{ pending := ws.map (Entry.mk id), registers := r }, s, none⟩ := by
  obtain ⟨w, ws, rfl⟩ := List.exists_cons_of_ne_nil some_word
  rw [List.map_cons, drain, if_pos]
  simpa using few

/-- Words that make up one instruction are taken off together. -/
theorem drain_of_length_eq {e : Entry} {rest : List Entry}
    (all : (e :: rest).length = entries e.id) (r : Registers) (s : σ) :
    drain (e :: rest) r s =
      (r.execute s (.decode e.id ((e :: rest).map Entry.parameter))).map fun r =>
        { registers := r } := by
  have enough : ¬(e :: rest).length < Instruction.parameters e.id := by
    rw [all, entries]
    omega
  have none_left : rest.drop (entries e.id - 1) = [] :=
    List.drop_eq_nil_of_le (by rw [← all, List.length_cons]; omega)
  rw [drain, if_neg enough, none_left, List.take_of_length_le (Nat.le_of_eq all)]
  cases hfault : (r.execute s (.decode e.id ((e :: rest).map Entry.parameter))).fault with
  | some f => simp only [Outcome.map, hfault]
  | none => simp only [drain, Outcome.map, hfault]

theorem drain_of_eq {id : UInt8} {ws : List UInt32} (all : ws.length = entries id)
    (r : Registers) (s : σ) :
    drain (ws.map (Entry.mk id)) r s =
      (r.execute s (.decode id ws)).map fun r => { registers := r } := by
  have first : 0 < ws.length := by
    rw [all, entries]
    omega
  obtain ⟨w, ws, rfl⟩ := List.exists_cons_of_length_pos first
  have words : (ws.map (Entry.mk id)).map Entry.parameter = ws := by
    rw [List.map_map]
    exact List.map_id _
  rw [List.map_cons, drain_of_length_eq (by simpa using all), List.map_cons, words]

variable {fe : FrontEnd} {id : UInt8} {us ws : List UInt32}

/-- A word that leaves parameters missing waits with those before it. -/
theorem write_of_lt (before : fe.pending = us.map (Entry.mk id)) (w : UInt32)
    (few : us.length + 1 < Instruction.parameters id) (s : σ) :
    fe.write s id w = ⟨{ fe with pending := (us ++ [w]).map (Entry.mk id) }, s, none⟩ := by
  have pending : fe.pending ++ [⟨id, w⟩] = (us ++ [w]).map (Entry.mk id) := by
    rw [before, List.map_append]
    rfl
  rw [write, pending, drain_of_lt (by simp) (by simpa using few)]
  rfl

/-- With its last word an instruction is carried out. -/
theorem write_of_eq (before : fe.pending = us.map (Entry.mk id)) (w : UInt32)
    (last : us.length + 1 = entries id) (s : σ) :
    fe.write s id w = (fe.registers.execute s (.decode id (us ++ [w]))).map fun r =>
      { fe with pending := [], registers := r } := by
  have pending : fe.pending ++ [⟨id, w⟩] = (us ++ [w]).map (Entry.mk id) := by
    rw [before, List.map_append]
    rfl
  rw [write, pending, drain_of_eq (by simpa using last)]
  rfl

/-- If the words that wait, and those that are written now, are all words of one
    instruction, then it is carried out. -/
theorem writeEntries_map (before : fe.pending = us.map (Entry.mk id)) (some_word : ws ≠ [])
    (all : us.length + ws.length = entries id) (s : σ) :
    fe.writeEntries s (ws.map (Entry.mk id)) =
      (fe.registers.execute s (.decode id (us ++ ws))).map fun r =>
        { fe with pending := [], registers := r } := by
  induction ws generalizing fe us with
  | nil => exact absurd rfl some_word
  | cons w ws ih =>
    rw [List.map_cons, writeEntries]
    cases ws with
    | nil =>
      rw [write_of_eq before w all]
      exact Outcome.andThen_done _
    | cons v ws =>
      simp only [List.length_cons] at all
      have few : us.length + 1 < Instruction.parameters id := by
        rw [entries] at all
        omega
      have rest : (us ++ [w]).length + (v :: ws).length = entries id := by
        simp only [List.length_append, List.length_cons, List.length_nil]
        omega
      rw [write_of_lt before w few, Outcome.andThen, ih rfl (List.cons_ne_nil v ws) rest,
        List.append_assoc]
      rfl

/-! ### Outcomes of writing -/

/-- Nothing waits, on neither path. -/
def IsIdle (fe : FrontEnd) : Prop :=
  fe.pending = [] ∧ fe.packed = 0 ∧ fe.packedParameters = 0

/-- What was written has carried out instructions with this outcome, and unless it was
    cut short nothing waits. -/
structure Writes (o : Outcome FrontEnd σ) (q : Outcome Registers σ) : Prop where
  registers : o.state.registers = q.state
  sink : o.sink = q.sink
  fault : o.fault = q.fault
  idle : o.fault = none → o.state.IsIdle

namespace Writes

omit [Sink σ]

variable {o p : Outcome FrontEnd σ} {q : Outcome Registers σ}
  {next : FrontEnd → σ → Outcome FrontEnd σ} {next' : Registers → σ → Outcome Registers σ}

/-- It makes no difference how instructions are written, unless a fault cuts them
    short. -/
theorem eq (ho : Writes o q) (hp : Writes p q) (sound : q.fault = none) : o = p := by
  obtain ⟨⟨pending, packed, count, r⟩, s, fault⟩ := o
  obtain ⟨⟨pending', packed', count', r'⟩, s', fault'⟩ := p
  obtain ⟨rfl, rfl, rfl, idle⟩ := ho
  obtain ⟨rfl, rfl, rfl, idle'⟩ := hp
  obtain ⟨rfl, rfl, rfl⟩ := idle sound
  obtain ⟨rfl, rfl, rfl⟩ := idle' sound
  rfl

theorem done {fe : FrontEnd} (idle : fe.IsIdle) (s : σ) :
    Writes ⟨fe, s, none⟩ ⟨fe.registers, s, none⟩ :=
  ⟨rfl, rfl, rfl, fun _ => idle⟩

theorem andThen (ho : Writes o q)
    (h : ∀ fe s, fe.IsIdle → Writes (next fe s) (next' fe.registers s)) :
    Writes (o.andThen next) (q.andThen next') := by
  obtain ⟨fe, s, fault⟩ := o
  obtain ⟨r, s', fault'⟩ := q
  obtain ⟨rfl, rfl, rfl, idle⟩ := ho
  cases fault with
  | some f => exact ⟨rfl, rfl, rfl, nofun⟩
  | none => exact h fe s (idle rfl)

/-- An instruction is carried out, and others after it. -/
theorem map_andThen {g : Registers → FrontEnd} (same : ∀ r, (g r).registers = r)
    (h : ∀ r s, Writes (next (g r) s) (next' r s)) :
    Writes ((q.map g).andThen next) (q.andThen next') := by
  obtain ⟨r, s, fault⟩ := q
  cases fault with
  | some f => exact ⟨same r, rfl, rfl, nofun⟩
  | none => exact h r s

end Writes

/-! ### The plain path -/

/-- An instruction that is written whole is carried out. -/
theorem writeEntries_entries (idle : fe.IsIdle) {e : Encoded} (complete : e.isComplete = true)
    (s : σ) :
    fe.writeEntries s e.entries =
      (fe.registers.execute s e.meaning).map fun r => { fe with registers := r } := by
  obtain ⟨ws, words, some_word, length, meaning⟩ := Encoded.exists_words complete
  have before : fe.pending = ([] : List UInt32).map (Entry.mk e.id) := idle.1
  have written := writeEntries_map before some_word ((Nat.zero_add _).trans length) s
  have same (r : Registers) :
      ({ fe with pending := [], registers := r } : FrontEnd) = { fe with registers := r } := by
    rw [← idle.1]
  simp only [List.nil_append, meaning, same] at written
  rw [words, written]

/-- The plain path carries out what was written on it. -/
theorem writes_plain (idle : fe.IsIdle) {es : List Encoded}
    (complete : ∀ e ∈ es, e.isComplete = true) (s : σ) :
    Writes (fe.writePlain s es) (fe.registers.executeAll s (es.map Encoded.meaning)) := by
  induction es generalizing fe s with
  | nil => exact .done idle s
  | cons e es ih =>
    obtain ⟨first, rest⟩ := List.forall_mem_cons.1 complete
    rw [writePlain, List.flatMap_cons, writeEntries_append, writeEntries_entries idle first]
    exact Writes.map_andThen (fun _ => rfl) fun r s =>
      ih (by exact idle) rest s

end FrontEnd

end

end GeometryEngine
