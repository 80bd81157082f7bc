import GeometryEngine.Proofs.Packets
import GeometryEngine.Proofs.Stacks

/-!
# What holds between calls

Whatever is written to a front-end, and whatever faults arise: after each call the words that
wait do not make up an instruction, and the pointers of the stacks are within their bounds
(`FrontEnd.IsOrderly`).

* `FrontEnd.write_cases`: so a word that is written completes one instruction, which takes all
  words, or none.
* `FrontEnd.IsOrderly.call`: every call finds the words and the slots that it takes, and keeps to
  this order.
* `FrontEnd.IsOrderly.toNat_status`: no field of the status word is cut off.
* `FrontEnd.isCounted_call_iff`: parameters are counted rightly unless a fault arises while packed
  instructions without parameters are skipped; after such a fault they never are.
* `FrontEnd.callAll_orderly`: all this for every sequence of calls.
-/

namespace GeometryEngine

/-- Bits above a word add to it. -/
theorem toNat_or_above {x y : UInt32} {k m n : Nat} (low : x.toNat = m) (below : m < 2 ^ k)
    (above : y.toNat = 2 ^ k * n) : (x ||| y).toNat = m + 2 ^ k * n := by
  rw [UInt32.toNat_or, low, above, Nat.or_comm, ← Nat.two_pow_add_eq_or_of_lt below, Nat.add_comm]

section

variable {σ : Type} [Sink σ]

namespace FrontEnd

/-! ### Words that wait -/

theorem take?_length (es : List Entry) :
    take? es.length es = some (es.map Entry.parameter, []) := by
  induction es with
  | nil => rfl
  | cons e es ih =>
    rw [List.length_cons, take?, ih]
    rfl

/-- Words that do not make up an instruction go on waiting. -/
theorem drain_of_not_isReady {es : List Entry} (h : isReady es = false) (r : Registers) (s : σ) :
    drain es r s = ⟨{ pending := es, registers := r }, s, none⟩ := by
  cases es with
  | nil => rw [drain]
  | cons e rest =>
    have few : (e :: rest).length < Instruction.parameters e.id := by simpa [isReady] using h
    rw [drain, if_pos few]

/-- With one more word, those that wait make up one instruction or none. -/
theorem length_eq_entries {es : List Entry} (waits : isReady es = false) {e last : Entry}
    {rest : List Entry} (split : es ++ [last] = e :: rest) (ready : isReady (e :: rest) = true) :
    (e :: rest).length = entries e.id := by
  have enough : Instruction.parameters e.id ≤ (e :: rest).length := by simpa [isReady] using ready
  rw [entries]
  cases es with
  | nil =>
    cases split
    exact (Nat.max_eq_right enough).symm
  | cons first others =>
    have few : (first :: others).length < Instruction.parameters first.id := by
      simpa [isReady] using waits
    rw [List.cons_append, List.cons.injEq] at split
    obtain ⟨rfl, rfl⟩ := split
    simp only [List.length_append, List.length_cons, List.length_nil] at few enough ⊢
    omega

/-! ### One call -/

variable {fe : FrontEnd} {s : σ}

/-- A word that is written goes on waiting with the others, or it completes the first
    instruction, which takes all of them. -/
theorem write_cases (waits : isReady fe.pending = false) (s : σ) (id : UInt8) (w : UInt32) :
    let es := fe.pending ++ [⟨id, w⟩]
    (isReady es = false ∧ fe.write s id w = ⟨{ fe with pending := es }, s, none⟩) ∨
      ∃ e rest, es = e :: rest ∧ isReady es = true ∧ es.length = entries e.id ∧
        fe.write s id w = (fe.registers.execute s (.decode e.id (es.map Entry.parameter))).map
          fun r => { fe with pending := [], registers := r } := by
  intro es
  cases ready : isReady es with
  | false => exact .inl ⟨rfl, by rw [write, drain_of_not_isReady ready]; rfl⟩
  | true =>
    obtain ⟨e, rest, split⟩ : ∃ e rest, es = e :: rest :=
      List.exists_cons_of_ne_nil (List.append_ne_nil_of_right_ne_nil _ (List.cons_ne_nil _ _))
    have all := length_eq_entries waits split (split ▸ ready)
    refine .inr ⟨e, rest, split, rfl, split ▸ all, ?_⟩
    rw [write, show fe.pending ++ [⟨id, w⟩] = e :: rest from split, split, drain_of_length_eq all]
    rfl

/-- What the front-end keeps to between calls. -/
structure IsOrderly (fe : FrontEnd) : Prop where
  /-- The first instruction does not have all its parameters. -/
  waits : isReady fe.pending = false
  /-- The pointers of the stacks are within their bounds. -/
  bounded : fe.registers.matrices.IsBounded

namespace IsOrderly

theorem write (h : fe.IsOrderly) (s : σ) (id : UInt8) (w : UInt32) :
    (fe.write s id w).state.IsOrderly := by
  obtain ⟨waits, written⟩ | ⟨e, rest, -, -, -, written⟩ := write_cases h.waits s id w
  · rw [written]
    exact ⟨waits, h.bounded⟩
  · rw [written]
    exact ⟨rfl, Registers.isBounded_execute h.bounded s _⟩

theorem write?_eq (h : fe.IsOrderly) (s : σ) (id : UInt8) (w : UInt32) :
    fe.write? s id w = some (fe.write s id w) := by
  obtain ⟨waits, written⟩ | ⟨e, rest, split, ready, all, written⟩ := write_cases h.waits s id w
  · rw [written, write?, if_neg (Bool.eq_false_iff.1 waits)]
  · rw [written, write?, if_pos ready]
    have taken := take?_length (fe.pending ++ [⟨id, w⟩])
    rw [all] at taken
    rw [split] at taken ⊢
    rw [runFirst?, taken]
    simp only [Option.bind_eq_bind, Option.bind_some, Registers.execute?_eq h.bounded, Outcome.map,
      isReady, Bool.and_false, Bool.false_eq_true, ↓reduceIte]

theorem dropPacked (h : fe.IsOrderly) : fe.dropPacked.IsOrderly := ⟨h.waits, h.bounded⟩

/-- As many packed instructions can be skipped as there are bytes. -/
theorem skipPacked (h : fe.IsOrderly) {bytes : Nat} (small : fe.packed.toNat < 256 ^ bytes)
    (s : σ) :
    (skipPacked bytes fe s).state.IsOrderly ∧
      skipPacked? bytes fe s = some (FrontEnd.skipPacked bytes fe s) := by
  induction bytes generalizing fe s with
  | zero =>
    have empty : fe.packed = 0 := UInt32.toNat_inj.1 (Nat.lt_one_iff.1 small)
    rw [skipPacked?, if_neg fun more => more.1 empty]
    exact ⟨h, rfl⟩
  | succ bytes ih =>
    rw [skipPacked?, FrontEnd.skipPacked]
    split
    · have written := (h.write s fe.nextPacked 0).dropPacked
      obtain ⟨later, looked⟩ :=
        ih written (toNat_dropPacked small) (fe.write s fe.nextPacked 0).sink
      rw [h.write?_eq, Option.bind_eq_bind, Option.bind_some, Outcome.andThen?, Outcome.andThen]
      cases (fe.write s fe.nextPacked 0).fault with
      | some f => exact ⟨h.write s fe.nextPacked 0, rfl⟩
      | none => exact ⟨later, looked⟩
    · exact ⟨h, rfl⟩

theorem writeParameter (h : fe.IsOrderly) (s : σ) (w : UInt32) :
    (fe.writeParameter s w).state.IsOrderly ∧
      fe.writeParameter? s w = some (fe.writeParameter s w) := by
  rw [writeParameter?, FrontEnd.writeParameter, h.write?_eq]
  refine ⟨?_, rfl⟩
  have written := h.write s fe.nextPacked w
  rw [Outcome.andThen]
  split
  · exact written
  · split <;> exact ⟨written.waits, written.bounded⟩

theorem writePacked (h : fe.IsOrderly) (s : σ) (w : UInt32) :
    (fe.writePacked s w).state.IsOrderly ∧
      fe.writePacked? s w = some (fe.writePacked s w) := by
  rw [writePacked?, FrontEnd.writePacked]
  split
  · have begun : IsOrderly { fe with packed := w } := ⟨h.waits, h.bounded⟩
    have small : w.toNat < 256 ^ 4 := w.toNat_lt
    exact begun.skipPacked small s
  · obtain ⟨taken, looked⟩ := h.writeParameter s w
    rw [looked, Option.bind_eq_bind, Option.bind_some, Outcome.andThen?, Outcome.andThen]
    cases (fe.writeParameter s w).fault with
    | some f => exact ⟨taken, rfl⟩
    | none =>
      have small : (fe.writeParameter s w).state.packed.toNat < 256 ^ 4 := UInt32.toNat_lt _
      exact taken.skipPacked small _

/-- Every call finds what it takes, and leaves the front-end in order. -/
theorem call (h : fe.IsOrderly) (s : σ) (c : Call) :
    (fe.call s c).state.IsOrderly ∧ fe.call? s c = some (fe.call s c) := by
  cases c with
  | write id w => exact ⟨h.write s id w, h.write?_eq s id w⟩
  | writePacked w => exact h.writePacked s w
  | writeStatus w =>
    refine ⟨?_, rfl⟩
    rw [FrontEnd.call, writeStatus]
    split
    · exact h
    · exact ⟨h.waits, h.bounded.acknowledge⟩
  | readClip => exact ⟨⟨h.waits, h.bounded.refresh⟩, rfl⟩

theorem callAll (h : fe.IsOrderly) (s : σ) (cs : List Call) : (fe.callAll s cs).1.IsOrderly :=
  callAll_induction (P := fun fe _ => fe.IsOrderly) (fun _ s c h => (h.call s c).1) h cs

end IsOrderly

theorem isOrderly_empty : ({} : FrontEnd).IsOrderly := ⟨rfl, Nat.zero_le 31, Nat.zero_le 1⟩

/-! ### The status word -/

omit [Sink σ] in
theorem IsOrderly.length_pending (h : fe.IsOrderly) : fe.pending.length ≤ 31 := by
  have waits := h.waits
  cases pending : fe.pending with
  | nil => exact Nat.zero_le 31
  | cons e rest =>
    have few : (e :: rest).length < Instruction.parameters e.id := by
      simpa [pending, isReady] using waits
    exact Nat.le_of_lt_succ (Nat.lt_of_lt_of_le few (Instruction.parameters_le e.id))

/-- No field of the status word is cut off. -/
theorem IsOrderly.toNat_status (h : fe.IsOrderly) :
    let u := fe.registers.matrices
    fe.status.toNat = 2 ^ 8 * u.pointer + 2 ^ 13 * u.projectionDepth +
      2 ^ 15 * u.stackError.toNat + 2 ^ 16 * fe.pending.length +
      if fe.pending = [] then 2 ^ 26 else 2 ^ 27 := by
  intro u
  have pointer : ∀ p < 32, ((UInt32.ofNat p &&& 0x1F) <<< 8).toNat = 2 ^ 8 * p := by decide
  have depth : ∀ d < 2, ((UInt32.ofNat d &&& 1) <<< 13).toNat = 2 ^ 13 * d := by decide
  have error : ∀ e : Bool, (if e then 0x8000 else 0 : UInt32).toNat = 2 ^ 15 * e.toNat := by decide
  have count : ∀ k < 32, ((UInt32.ofNat k &&& 0x1FF) <<< 16).toNat = 2 ^ 16 * k := by decide
  have state : (if fe.pending.length = 0 then 0x4000000 else 0x8000000 : UInt32).toNat =
      2 ^ 26 * if fe.pending = [] then 1 else 2 := by
    cases fe.pending <;> rfl
  have few := h.length_pending
  have flag := u.stackError.toNat_le
  have inside : u.pointer ≤ 31 ∧ u.projectionDepth ≤ 1 := ⟨h.bounded.pointer, h.bounded.depth⟩
  -- The fields are added one after another, from the lowest bits on.
  have two := toNat_or_above (k := 13) (pointer u.pointer (by omega)) (by omega)
    (depth u.projectionDepth (by omega))
  have three := toNat_or_above (k := 15) two (by omega) (error u.stackError)
  have four := toNat_or_above (k := 16) three (by omega) (count fe.pending.length (by omega))
  have five := toNat_or_above (k := 26) four (by omega) state
  have whole : fe.status.toNat = _ := five
  rw [whole]
  split <;> rfl

/-! ### Counted parameters -/

/-- The fault that cuts a call short while packed instructions without parameters are skipped. -/
def skippingFault (fe : FrontEnd) (s : σ) : Call → Option Fault
  | .writePacked w =>
    if fe.packed = 0 then (skipPacked 4 { fe with packed := w } s).fault
    else
      let o := fe.writeParameter s w
      if o.fault = none then (skipPacked 4 o.state o.sink).fault else none
  | _ => none

/-- No call is cut short in this way. -/
def SkipsSoundly (fe : FrontEnd) (s : σ) : List Call → Prop
  | [] => True
  | c :: cs =>
    fe.skippingFault s c = none ∧ (fe.call s c).state.SkipsSoundly (fe.call s c).sink cs

/-- An instruction that was cut short is still the next one, and it has no parameters. -/
theorem not_isCounted_skipPacked {n : Nat} {f : Fault} (cut : (skipPacked n fe s).fault = some f) :
    ¬(skipPacked n fe s).state.IsCounted := by
  induction n generalizing fe s with
  | zero => cases cut
  | succ n ih =>
    rw [skipPacked] at cut ⊢
    split at cut <;> rename_i more
    · rw [if_pos more]
      rw [Outcome.andThen] at cut ⊢
      cases written : (fe.write s fe.nextPacked 0).fault with
      | none =>
        rw [written] at cut
        exact ih cut
      | some f =>
        rintro (empty | few)
        · exact more.1 empty.1
        · rw [nextPacked_write, more.2] at few
          exact Nat.not_lt_zero _ few
    · cases cut

theorem isCounted_skipPacked_iff (uncounted : fe.packedParameters = 0) (s : σ) :
    (skipPacked 4 fe s).state.IsCounted ↔ (skipPacked 4 fe s).fault = none := by
  refine ⟨fun counted => ?_, isCounted_skipPacked uncounted fe.packed.toNat_lt⟩
  exact Option.eq_none_iff_forall_ne_some.2 fun f cut => not_isCounted_skipPacked cut counted

/-- A parameter whose instruction raises a fault is not counted. -/
theorem isCounted_writeParameter_of_fault
    (few : fe.packedParameters.toNat < Instruction.parameters fe.nextPacked) {w : UInt32}
    {f : Fault} (cut : (fe.writeParameter s w).fault = some f) :
    (fe.writeParameter s w).state.IsCounted := by
  rw [writeParameter, Outcome.andThen] at cut ⊢
  cases written : (fe.write s fe.nextPacked w).fault with
  | some f => exact .inr few
  | none =>
    simp only [written] at cut
    split at cut <;> cases cut

/-- Parameters that were counted rightly before a call are so after it, unless it is cut short
    while instructions are skipped. -/
theorem isCounted_call_iff (h : fe.IsCounted) (s : σ) (c : Call) :
    (fe.call s c).state.IsCounted ↔ fe.skippingFault s c = none := by
  cases c with
  | writePacked w =>
    by_cases packed : fe.packed = 0
    · have begun : fe.writePacked s w = skipPacked 4 { fe with packed := w } s := by
        rw [writePacked, if_pos packed]
        rfl
      simp only [call, begun, skippingFault, if_pos packed]
      exact isCounted_skipPacked_iff (by exact h.packedParameters_eq_zero packed) s
    · have few := h.resolve_left fun none => packed none.1
      simp only [call, writePacked, skippingFault, if_neg packed]
      cases taken : (fe.writeParameter s w).fault with
      | some f =>
        simp only [Outcome.andThen, taken, reduceCtorEq, if_false,
          isCounted_writeParameter_of_fault few taken]
      | none =>
        simp only [Outcome.andThen, taken, if_true]
        rcases counted_writeParameter few taken with none | more
        · exact isCounted_skipPacked_iff none _
        · rw [skipPacked_of_parameters _ (.inr (Nat.ne_of_gt (Nat.zero_lt_of_lt more)))]
          exact iff_of_true (.inr more) rfl
  | writeStatus w => exact iff_of_true (h.call (c := .writeStatus w) rfl) rfl
  | _ => exact iff_of_true h rfl

theorem SkipsSoundly.isCounted (h : fe.IsCounted) {cs : List Call} (sound : fe.SkipsSoundly s cs) :
    (fe.callAll s cs).1.IsCounted := by
  induction cs generalizing fe s with
  | nil => exact h
  | cons c cs ih => exact ih ((isCounted_call_iff h s c).2 sound.1) sound.2

/-- In whatever order a new front-end is written to, and whatever faults arise, after each call:
    no word waits, or fewer than the first instruction has parameters; the pointers of the stacks
    are within their bounds; every further call finds all the words and slots that it takes, writes
    no word that makes up more than one instruction, and skips no more packed instructions than
    there are bytes; and the status word tells all this exactly. Parameters of packed instructions
    are counted rightly as long as no fault arises while such instructions are skipped; a call that
    ends in such a fault leaves them miscounted. -/
theorem callAll_orderly (s : σ) (cs : List Call) :
    let fe := (({} : FrontEnd).callAll s cs).1
    let t := (({} : FrontEnd).callAll s cs).2
    let u := fe.registers.matrices
    (fe.pending = [] ∨
        ∃ e rest, fe.pending = e :: rest ∧ fe.pending.length < Instruction.parameters e.id) ∧
      fe.pending.length ≤ 31 ∧
      (u.pointer ≤ 31 ∧ u.projectionDepth ≤ 1 ∧ ∃ n ≤ 3, u.mode = .ofWord n) ∧
      (∀ c, fe.call? t c = some (fe.call t c)) ∧
      fe.status.toNat = 2 ^ 8 * u.pointer + 2 ^ 13 * u.projectionDepth +
        2 ^ 15 * u.stackError.toNat + 2 ^ 16 * fe.pending.length +
        (if fe.pending = [] then 2 ^ 26 else 2 ^ 27) ∧
      (({} : FrontEnd).SkipsSoundly s cs →
        fe.IsCounted ∧ ∀ c, (fe.call t c).state.IsCounted ↔ fe.skippingFault t c = none) := by
  intro fe t u
  have order : fe.IsOrderly := isOrderly_empty.callAll s cs
  refine ⟨?_, order.length_pending, ⟨order.bounded.pointer, order.bounded.depth, ?_⟩,
    fun c => (order.call t c).2, order.toNat_status, fun sound => ?_⟩
  · have waits := order.waits
    cases pending : fe.pending with
    | nil => exact .inl rfl
    | cons e rest =>
      rw [pending] at waits
      exact .inr ⟨e, rest, rfl, by simpa [isReady] using waits⟩
  · cases u.mode with
    | projection => exact ⟨0, by decide, rfl⟩
    | coordinate => exact ⟨1, by decide, rfl⟩
    | texture => exact ⟨3, by decide, rfl⟩
  · have counted : fe.IsCounted := SkipsSoundly.isCounted (.inl ⟨rfl, rfl⟩) sound
    exact ⟨counted, isCounted_call_iff counted t⟩

end FrontEnd

end

namespace FrontEnd

/-- A packet selects the coordinate matrix and pushes it, and the first word of a vertex follows.
    Then a plain instruction, a pop, takes the place of the second word. -/
theorem callAll_orderly_mixed :
    let cs : List Call := [.writePacked 0x231110, .writePacked 1, .writePacked 7, .write 0x12 1]
    let o := ({} : FrontEnd).callAll ({} : Engine) cs
    ({} : FrontEnd).SkipsSoundly ({} : Engine) cs ∧ o.1.IsCounted ∧ o.1.packed = 0x23 ∧
      o.1.packedParameters = 1 ∧ o.1.pending = [] ∧
      o.1.status.toNat = 2 ^ 8 * 1 + 2 ^ 26 ∧
      ∀ c, o.1.call? o.2 c = some (o.1.call o.2 c) := by
  intro cs o
  have sound : ({} : FrontEnd).SkipsSoundly ({} : Engine) cs :=
    ⟨by decide +kernel, by decide +kernel, by decide +kernel, by decide +kernel, trivial⟩
  obtain ⟨-, -, -, looked, status, counted⟩ := callAll_orderly ({} : Engine) cs
  have waiting : o.1.pending = [] := by decide +kernel
  have pointers : o.1.registers.matrices.pointer = 1 ∧
      o.1.registers.matrices.projectionDepth = 0 ∧
      o.1.registers.matrices.stackError = false := by decide +kernel
  refine ⟨sound, (counted sound).1, by decide +kernel, by decide +kernel, waiting, ?_, looked⟩
  rw [status, waiting, pointers.1, pointers.2.1, pointers.2.2]
  rfl

/-- The engine has no room for a vertex, and the second word of the vertex comes from a packed push
    that is being skipped. The fault leaves the push the next packed instruction, though it waits
    for no word. So the next word is swallowed as its parameter, and counted when no packed
    instruction is left; meanwhile the push is carried out twice. -/
theorem miscounted_of_fault :
    let full : Engine := { frames := { even := { vertices := Array.replicate 4096 {} } } }
    let cut := ({} : FrontEnd).callAll full [.write 0x23 0, .writePacked 0x11]
    let later := cut.1.call cut.2 (.writePacked 0x10)
    (cut.1.packed = 0x11 ∧ Instruction.parameters cut.1.nextPacked = 0 ∧ ¬cut.1.IsCounted) ∧
      (later.state.packed = 0 ∧ later.state.packedParameters = 1 ∧ ¬later.state.IsCounted) ∧
      later.state.registers.matrices.projectionDepth = 1 ∧
      later.state.registers.matrices.stackError = true := by
  intro full cut later
  refine ⟨⟨by decide +kernel, by decide +kernel, ?_⟩,
    ⟨by decide +kernel, by decide +kernel, ?_⟩, by decide +kernel, by decide +kernel⟩
  · rw [IsCounted]
    decide +kernel
  · rw [IsCounted]
    decide +kernel

end FrontEnd

end GeometryEngine
