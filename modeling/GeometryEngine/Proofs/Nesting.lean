import GeometryEngine.Transcript
import GeometryEngine.Proofs.CarriedOut

/-!
# Pushes and pops that match

A stretch of instructions in which every push of the coordinate matrix is taken back by a pop
(`Instruction.IsNested`), and in which matrices are loaded and multiplied as one likes, leaves
the stack as it was, as long as there is room for all pushes.

* `MatrixUnit.SameStack`: the pointer is where it was, and so are the matrices below it.
* `MatrixUnit.matched`: a pop that takes back a push brings back the matrix.
* `Registers.Returns`: instructions leave the stack as it was, and have flagged an error if they
  pushed to the last slot. Nested instructions do so if all their pushes have room
  (`Registers.returns_nested`).
* `Registers.hasRoom_nested`: they have room if the pointer and the depth together do not pass
  the end of the stack.
* `FrontEnd.writePlain_nested`: this holds for instructions that are written to a front-end.

The last slot can be pushed to, and popped from, but both are flagged as errors; since a pop only
comes from there after a push to it, it is enough to watch the pushes.
-/

namespace GeometryEngine

-- Nothing below depends on how a product of matrices is worked out.
attribute [local irreducible] Matrix.mul

/-- Instructions between which pushes and pops match, with at most so many pushes one in
    another. -/
inductive Instruction.IsNested : Nat → List Instruction → Prop
  | nil {d : Nat} : IsNested d []
  | load {d : Nat} (m : Matrix) : IsNested d [.load m]
  | multiply {d : Nat} (m : Matrix) : IsNested d [.multiply m]
  | append {d : Nat} {is js : List Instruction} (first : IsNested d is) (second : IsNested d js) :
    IsNested d (is ++ js)
  | block {d : Nat} {inner : List Instruction} (inside : IsNested d inner) :
    IsNested (d + 1) (.push :: (inner ++ [.pop 1]))

/-- Whether an instruction does something to the selected matrix or its stack, and to nothing
    else. -/
def Instruction.isMatrix : Instruction → Bool
  | .push | .pop _ | .load _ | .multiply _ => true
  | _ => false

theorem Instruction.IsNested.isMatrix {d : Nat} {is : List Instruction} (h : IsNested d is) :
    ∀ i ∈ is, i.isMatrix = true := by
  induction h with
  | nil => exact List.forall_mem_nil _
  | load m => exact List.forall_mem_singleton.2 rfl
  | multiply m => exact List.forall_mem_singleton.2 rfl
  | append first second ihFirst ihSecond => exact List.forall_mem_append.2 ⟨ihFirst, ihSecond⟩
  | block inside ih =>
    exact List.forall_mem_cons.2
      ⟨rfl, List.forall_mem_append.2 ⟨ih, List.forall_mem_singleton.2 rfl⟩⟩

/-! ### The coordinate stack -/

namespace MatrixUnit

variable {u v w : MatrixUnit}

/-- The coordinate stack of `v` is that of `u`, up to what lies above the pointer. -/
structure SameStack (u v : MatrixUnit) : Prop where
  mode : v.mode = u.mode
  pointer : v.pointer = u.pointer
  slots : ∀ i < u.pointer, v.slot i = u.slot i

theorem SameStack.refl (u : MatrixUnit) : u.SameStack u := ⟨rfl, rfl, fun _ _ => rfl⟩

theorem SameStack.trans (h : u.SameStack v) (h' : v.SameStack w) : u.SameStack w where
  mode := h'.mode.trans h.mode
  pointer := h'.pointer.trans h.pointer
  slots i hi := (h'.slots i (h.pointer ▸ hi)).trans (h.slots i hi)

theorem sameStack_load (m : Matrix) (u : MatrixUnit) : u.SameStack (u.load m) := by
  unfold load
  split <;> exact ⟨rfl, rfl, fun _ _ => rfl⟩

theorem sameStack_multiply (m : Matrix) (u : MatrixUnit) : u.SameStack (u.multiply m) := by
  unfold multiply
  split <;> exact ⟨rfl, rfl, fun _ _ => rfl⟩

theorem mode_push (u : MatrixUnit) : u.push.mode = u.mode := by
  unfold push
  split
  · split <;> rfl
  · dsimp only
    split <;> split <;> rfl
  · rfl

theorem mode_pop (n : Int) (u : MatrixUnit) : (u.pop n).mode = u.mode := by
  unfold pop
  split
  · split <;> rfl
  · dsimp only
    split <;> split <;> rfl
  · rfl

theorem stackError_load (m : Matrix) (u : MatrixUnit) : (u.load m).stackError = u.stackError := by
  unfold load
  split <;> rfl

theorem stackError_multiply (m : Matrix) (u : MatrixUnit) :
    (u.multiply m).stackError = u.stackError := by
  unfold multiply
  split <;> rfl

/-- As long as there is a slot, a matrix is pushed to it. -/
theorem push_eq (mode : u.mode = .coordinate) (room : u.pointer ≤ 30) :
    u.push =
      { u with
        slots := u.slots.setIfInBounds u.pointer u.coordinate
        pointer := u.pointer + 1
        stackError := u.stackError || decide (u.pointer = 30) } := by
  have below : u.pointer < 31 := Nat.lt_succ_of_le room
  by_cases last : u.pointer = 30
  · simp [push, mode, last]
  · have : ¬30 ≤ u.pointer := by omega
    simp [push, mode, this, below, last]

/-- As long as so many matrices are on the stack, the one that was pushed `n` pushes ago is taken
    back. -/
theorem pop_eq (mode : u.mode = .coordinate) {n : Nat} (some_push : 1 ≤ n) (few : n ≤ u.pointer)
    (full : u.pointer ≤ 31) :
    u.pop n =
      { u with
        coordinate := u.slot (u.pointer - n)
        pointer := u.pointer - n
        stackError := u.stackError || decide (u.pointer - n = 30)
        stale := true } := by
  have address : ((u.pointer : Int) - n).toNat = u.pointer - n := by omega
  have inside : 0 ≤ (u.pointer : Int) - n ∧ (u.pointer : Int) - n < 31 := by omega
  by_cases last : u.pointer - n = 30
  · have far : (u.pointer : Int) - n < 0 ∨ 30 ≤ (u.pointer : Int) - n := by omega
    simp only [pop, mode, far, inside, address, last, slot, and_self, decide_true, Bool.or_true,
      ↓reduceIte]
  · have near : ¬((u.pointer : Int) - n < 0 ∨ 30 ≤ (u.pointer : Int) - n) := by omega
    simp only [pop, mode, near, inside, address, last, slot, and_self, decide_false,
      Bool.or_false, ↓reduceIte]

theorem pop_one_eq (mode : u.mode = .coordinate) (some_push : 1 ≤ u.pointer)
    (full : u.pointer ≤ 31) :
    u.pop 1 =
      { u with
        coordinate := u.slot (u.pointer - 1)
        pointer := u.pointer - 1
        stackError := u.stackError || decide (u.pointer - 1 = 30)
        stale := true } :=
  pop_eq (n := 1) mode (Nat.le_refl 1) some_push full

/-- A pop brings back the matrix that was pushed, if in between the stack was left as it was
    after the push. -/
theorem matched (mode : u.mode = .coordinate) (room : u.pointer ≤ 30) (h : u.push.SameStack w) :
    (w.pop 1).coordinate = u.coordinate ∧ u.SameStack (w.pop 1) ∧
      (w.pop 1).stackError = (w.stackError || decide (u.pointer = 30)) := by
  rw [push_eq mode room] at h
  have pointer : w.pointer = u.pointer + 1 := h.pointer
  have back : w.pointer - 1 = u.pointer := by omega
  have below (i : Nat) (hi : i < u.pointer + 1) :
      w.slot i = (u.slots.setIfInBounds u.pointer u.coordinate)[i]?.getD .identity := h.slots i hi
  rw [pop_one_eq (h.mode.trans mode) (by omega) (by omega), back]
  refine ⟨?_, ⟨h.mode, rfl, fun i hi => ?_⟩, rfl⟩
  · have there : u.pointer < 32 := by omega
    have pushed := below u.pointer (Nat.lt_succ_self _)
    simpa [there] using pushed
  · have other : u.pointer ≠ i := Nat.ne_of_gt hi
    have kept := below i (Nat.lt_succ_of_lt hi)
    simpa [other, slot] using kept

end MatrixUnit

/-! ### Instructions one after another -/

section

variable {σ : Type} [Sink σ] {r : Registers} {s : σ} {is js : List Instruction} {u v w : MatrixUnit}

namespace Moment

/-- The instruction is no push, or there is a slot for it. -/
def HasRoom (m : Moment) : Prop :=
  m.instruction = .push → m.registers.matrices.pointer ≤ 30

/-- The instruction is a push to the last slot. -/
def Fills (m : Moment) : Prop :=
  m.instruction = .push ∧ m.registers.matrices.pointer = 30

end Moment

namespace Registers

/-- Matrix instructions change the matrices alone, and not the mode. -/
theorem executeAll_matrix (h : ∀ i ∈ is, i.isMatrix = true) (r : Registers) (s : σ) :
    ∃ u, r.executeAll s is = ⟨r.mapMatrices fun _ => u, s, none⟩ ∧ u.mode = r.matrices.mode := by
  induction is generalizing r with
  | nil => exact ⟨r.matrices, rfl, rfl⟩
  | cons i is ih =>
    obtain ⟨first, rest⟩ := List.forall_mem_cons.1 h
    obtain ⟨f, effect, mode⟩ : ∃ f : MatrixUnit → MatrixUnit,
        r.execute s i = ⟨r.mapMatrices f, s, none⟩ ∧ (f r.matrices).mode = r.matrices.mode := by
      cases i with
      | push => exact ⟨_, rfl, MatrixUnit.mode_push r.matrices⟩
      | pop n => exact ⟨_, rfl, MatrixUnit.mode_pop n r.matrices⟩
      | load m => exact ⟨_, rfl, (MatrixUnit.sameStack_load m r.matrices).mode⟩
      | multiply m => exact ⟨_, rfl, (MatrixUnit.sameStack_multiply m r.matrices).mode⟩
      | _ => cases first
    obtain ⟨u, outcome, mode'⟩ := ih rest (r.mapMatrices f)
    refine ⟨u, ?_, mode'.trans mode⟩
    rw [executeAll, effect]
    exact outcome

theorem moments_block (sound : ((r.mapMatrices .push).executeAll s is).fault = none) :
    r.moments s (.push :: (is ++ [.pop 1])) =
      ⟨r, .push⟩ :: ((r.mapMatrices .push).moments s is ++
        [⟨((r.mapMatrices .push).executeAll s is).state, .pop 1⟩]) := by
  rw [← moments_singleton _ ((r.mapMatrices .push).executeAll s is).sink, ← moments_append sound]
  rfl

/-- Instructions end with the matrices `u`, whose stack is the one before them. An error is flagged
    if one was before, or if the last slot was pushed to. -/
structure Returns (r : Registers) (s : σ) (is : List Instruction) (u : MatrixUnit) : Prop where
  outcome : r.executeAll s is = ⟨r.mapMatrices fun _ => u, s, none⟩
  stack : r.matrices.SameStack u
  error : u.stackError = true ↔
    r.matrices.stackError = true ∨ ∃ m ∈ r.moments s is, m.Fills

namespace Returns

theorem nil (r : Registers) (s : σ) : r.Returns s [] r.matrices where
  outcome := rfl
  stack := .refl r.matrices
  error := by simp [moments]

/-- A change of the matrices that is no push, and that leaves the stack as it is. -/
theorem change {i : Instruction} {f : MatrixUnit → MatrixUnit}
    (effect : r.execute s i = ⟨r.mapMatrices f, s, none⟩) (other : i ≠ .push)
    (stack : r.matrices.SameStack (f r.matrices))
    (error : (f r.matrices).stackError = r.matrices.stackError) :
    r.Returns s [i] (f r.matrices) where
  outcome := by
    rw [executeAll, effect]
    rfl
  stack := stack
  error := by simp [moments_singleton, error, Moment.Fills, other]

theorem append (first : r.Returns s is u)
    (second : (r.mapMatrices fun _ => u).Returns s js v) : r.Returns s (is ++ js) v where
  outcome := by
    rw [executeAll_append, first.outcome]
    exact second.outcome
  stack := first.stack.trans second.stack
  error := by
    have before : (r.mapMatrices fun _ => u).matrices.stackError = true ↔ _ := first.error
    rw [moments_append (by rw [first.outcome]), first.outcome, second.error, before, or_assoc]
    simp only [List.mem_append, or_and_right, exists_or]

/-- Between a push that has room and the pop that takes it back, the stack is left as it was
    after the push: then both together leave it as it was before. -/
theorem block (mode : r.matrices.mode = .coordinate) (room : r.matrices.pointer ≤ 30)
    (inside : (r.mapMatrices .push).Returns s is w) :
    r.Returns s (.push :: (is ++ [.pop 1])) (w.pop 1) := by
  obtain ⟨-, stack, error⟩ := MatrixUnit.matched mode room inside.stack
  constructor
  · have rest := executeAll_append (r.mapMatrices .push) s is [.pop 1]
    rw [inside.outcome] at rest
    exact rest
  · exact stack
  · have pushed : (r.mapMatrices .push).matrices.stackError =
        (r.matrices.stackError || decide (r.matrices.pointer = 30)) := by
      rw [mapMatrices, MatrixUnit.push_eq mode room]
    have before : Moment.Fills ⟨r, .push⟩ ↔ r.matrices.pointer = 30 :=
      ⟨And.right, fun last => ⟨rfl, last⟩⟩
    have after (r' : Registers) : ¬Moment.Fills ⟨r', .pop 1⟩ := by simp [Moment.Fills]
    have inner := inside.error
    rw [pushed] at inner
    rw [error, moments_block (by rw [inside.outcome]), inside.outcome]
    simp only [Bool.or_eq_true, decide_eq_true_eq, List.mem_cons, List.mem_append, List.not_mem_nil,
      or_and_right, exists_or, exists_eq_left, or_false, inner, before, after]
    grind

end Returns

/-! ### Nested instructions -/

/-- A push and a pop with instructions in between that leave the stack as it was. -/
theorem returns_block (matrix : ∀ i ∈ is, i.isMatrix = true)
    (mode : r.matrices.mode = .coordinate)
    (room : ∀ m ∈ r.moments s (.push :: (is ++ [.pop 1])), m.HasRoom)
    (inside : (∀ m ∈ (r.mapMatrices .push).moments s is, m.HasRoom) →
      ∃ w, (r.mapMatrices .push).Returns s is w) :
    ∃ v, r.Returns s (.push :: (is ++ [.pop 1])) v ∧ v.coordinate = r.matrices.coordinate := by
  obtain ⟨_, outcome, -⟩ := executeAll_matrix matrix (r.mapMatrices .push) s
  rw [moments_block (by rw [outcome])] at room
  obtain ⟨roomPush, rest⟩ := List.forall_mem_cons.1 room
  obtain ⟨w, hw⟩ := inside (List.forall_mem_append.1 rest).1
  exact ⟨w.pop 1, .block mode (roomPush rfl) hw,
    (MatrixUnit.matched mode (roomPush rfl) hw.stack).1⟩

/-- Nested instructions whose pushes have room leave the stack as it was. -/
theorem returns_nested {d : Nat} (nested : Instruction.IsNested d is)
    (mode : r.matrices.mode = .coordinate) (room : ∀ m ∈ r.moments s is, m.HasRoom) :
    ∃ u, r.Returns s is u := by
  induction nested generalizing r with
  | nil => exact ⟨_, .nil r s⟩
  | load m =>
    exact ⟨_, .change rfl nofun (MatrixUnit.sameStack_load m r.matrices)
      (MatrixUnit.stackError_load m r.matrices)⟩
  | multiply m =>
    exact ⟨_, .change rfl nofun (MatrixUnit.sameStack_multiply m r.matrices)
      (MatrixUnit.stackError_multiply m r.matrices)⟩
  | append first second ihFirst ihSecond =>
    obtain ⟨_, outcome, -⟩ := executeAll_matrix first.isMatrix r s
    rw [moments_append (by rw [outcome])] at room
    obtain ⟨roomFirst, roomSecond⟩ := List.forall_mem_append.1 room
    obtain ⟨u, hu⟩ := ihFirst mode roomFirst
    rw [hu.outcome] at roomSecond
    obtain ⟨v, hv⟩ := ihSecond (hu.stack.mode.trans mode) roomSecond
    exact ⟨v, hu.append hv⟩
  | block inside ih =>
    obtain ⟨v, hv, -⟩ := returns_block inside.isMatrix mode room
      (ih ((MatrixUnit.mode_push r.matrices).trans mode))
    exact ⟨v, hv⟩

/-- If the pointer and the depth together do not pass the end of the stack, all pushes have
    room. -/
theorem hasRoom_nested {d : Nat} (nested : Instruction.IsNested d is)
    (mode : r.matrices.mode = .coordinate) (room : r.matrices.pointer + d ≤ 31) :
    ∀ m ∈ r.moments s is, m.HasRoom := by
  induction nested generalizing r with
  | nil => exact List.forall_mem_nil _
  | load m => simp [moments_singleton, Moment.HasRoom]
  | multiply m => simp [moments_singleton, Moment.HasRoom]
  | append first second ihFirst ihSecond =>
    -- The first part leaves the pointer where it was, so there is as much room for the second.
    have roomFirst := ihFirst mode room
    obtain ⟨u, hu⟩ := returns_nested first mode roomFirst
    rw [moments_append (by rw [hu.outcome]), hu.outcome]
    refine List.forall_mem_append.2 ⟨roomFirst, ?_⟩
    have pointer : u.pointer = r.matrices.pointer := hu.stack.pointer
    exact ihSecond (hu.stack.mode.trans mode) (pointer ▸ room)
  | @block d inner inside ih =>
    obtain ⟨_, outcome, -⟩ := executeAll_matrix inside.isMatrix (r.mapMatrices .push) s
    rw [moments_block (by rw [outcome])]
    have pushed : (r.mapMatrices .push).matrices.pointer = r.matrices.pointer + 1 := by
      rw [mapMatrices, MatrixUnit.push_eq mode (by omega)]
    have fewer : (r.mapMatrices .push).matrices.pointer + d ≤ 31 := by omega
    have roomInside := ih ((MatrixUnit.mode_push r.matrices).trans mode) fewer
    refine List.forall_mem_cons.2 ⟨fun _ => ?_, List.forall_mem_append.2 ⟨roomInside, ?_⟩⟩
    · change r.matrices.pointer ≤ 30
      omega
    · simp [Moment.HasRoom]

/-- Wherever a push and the pop that takes it back stand among nested instructions: after the pop
    the matrix and the stack are those before the push. -/
theorem block_of_nested {d n : Nat} {before inner rest : List Instruction}
    (nested : Instruction.IsNested d (before ++ .push :: (inner ++ .pop 1 :: rest)))
    (inside : Instruction.IsNested n inner) (mode : r.matrices.mode = .coordinate)
    (room : r.matrices.pointer + d ≤ 31) (s : σ) :
    let u := (r.executeAll s before).state.matrices
    let v := (r.executeAll s (before ++ .push :: (inner ++ [.pop 1]))).state.matrices
    v.coordinate = u.coordinate ∧ u.SameStack v := by
  have whole : before ++ .push :: (inner ++ .pop 1 :: rest) =
      before ++ (.push :: (inner ++ [.pop 1]) ++ rest) := by simp
  rw [whole] at nested
  -- The push is among those of all instructions, and has room. So do those after it.
  have fits := hasRoom_nested (s := s) nested mode room
  obtain ⟨matrixBefore, others⟩ := List.forall_mem_append.1 nested.isMatrix
  obtain ⟨matrixBlock, -⟩ := List.forall_mem_append.1 others
  obtain ⟨u, reached, mode'⟩ := executeAll_matrix matrixBefore r s
  obtain ⟨_, outcome, -⟩ := executeAll_matrix matrixBlock (r.mapMatrices fun _ => u) s
  rw [moments_append (by rw [reached]), reached] at fits
  have later := (List.forall_mem_append.1 fits).2
  rw [moments_append (by rw [outcome])] at later
  have mode'' : (r.mapMatrices fun _ => u).matrices.mode = .coordinate := mode'.trans mode
  obtain ⟨v, hv, coordinate⟩ := returns_block inside.isMatrix mode''
    (List.forall_mem_append.1 later).1
    (returns_nested inside ((MatrixUnit.mode_push u).trans mode''))
  rw [executeAll_append, reached, Outcome.andThen, hv.outcome]
  exact ⟨coordinate, hv.stack⟩

theorem executeAll_pops (mode : r.matrices.mode = .coordinate) (full : r.matrices.pointer ≤ 31)
    {n : Nat} (few : n + 1 ≤ r.matrices.pointer) (s : σ) :
    let u := (r.executeAll s (List.replicate (n + 1) (.pop 1))).state.matrices
    u.coordinate = r.matrices.slot (r.matrices.pointer - (n + 1)) ∧
      u.pointer = r.matrices.pointer - (n + 1) ∧ u.slots = r.matrices.slots := by
  induction n generalizing r with
  | zero =>
    intro u
    have last : u = r.matrices.pop 1 := rfl
    rw [last, MatrixUnit.pop_one_eq mode few full]
    exact ⟨rfl, rfl, rfl⟩
  | succ n ih =>
    have taken : (r.mapMatrices (.pop 1)).matrices = _ :=
      MatrixUnit.pop_one_eq mode (by omega) full
    have mode' : (r.mapMatrices (.pop 1)).matrices.mode = .coordinate := by rw [taken]; exact mode
    have pointer : (r.mapMatrices (.pop 1)).matrices.pointer = r.matrices.pointer - 1 := by
      rw [taken]
    have slots : (r.mapMatrices (.pop 1)).matrices.slots = r.matrices.slots := by rw [taken]
    have rest := ih mode' (by omega) (by omega)
    have address : r.matrices.pointer - 1 - (n + 1) = r.matrices.pointer - (n + 1 + 1) := by omega
    rw [slots, pointer, MatrixUnit.slot, slots, address] at rest
    exact rest

/-- To take back one matrix after another ends like taking back the one of so many pushes ago,
    apart from the errors that are flagged on the way. -/
theorem executeAll_pop (mode : r.matrices.mode = .coordinate) {n : Nat} (some_push : 1 ≤ n)
    (few : n ≤ r.matrices.pointer) (full : r.matrices.pointer ≤ 31) (s : σ) :
    let once := (r.executeAll s [.pop n]).state.matrices
    let each := (r.executeAll s (List.replicate n (.pop 1))).state.matrices
    once.coordinate = each.coordinate ∧ once.pointer = each.pointer ∧ once.slots = each.slots := by
  intro once each
  have taken : once = _ := MatrixUnit.pop_eq mode some_push few full
  obtain ⟨k, rfl⟩ := Nat.exists_eq_add_of_le' some_push
  obtain ⟨coordinate, pointer, slots⟩ := executeAll_pops mode full few s
  rw [taken]
  exact ⟨coordinate.symm, pointer.symm, slots.symm⟩

end Registers

/-! ### Nested instructions that are written -/

namespace FrontEnd

variable {fe : FrontEnd} {es : List Encoded}

/-- Nested instructions are written to a front-end on which nothing waits, in a mode that selects
    the coordinate matrix. If their depth and the pointer together do not pass the end of the
    stack, they leave the stack as it was. Every pop brings back the matrix of the push that it
    matches, and leaves the stack as it was before that push. An error is flagged at the end if
    and only if one was flagged before, or a push met the pointer at the last slot. Besides, to
    take back the matrix of `n` pushes ago does the same to the matrix and the stack as to take
    back one matrix after another. -/
theorem writePlain_nested (idle : fe.IsIdle) (mode : fe.registers.matrices.mode = .coordinate)
    (complete : ∀ e ∈ es, e.isComplete = true) {d : Nat}
    (nested : Instruction.IsNested d (es.map Encoded.meaning))
    (room : fe.registers.matrices.pointer + d ≤ 31) (s : σ) :
    let start := fe.registers.matrices
    let after (done : List Encoded) := (fe.writePlain s done).state.registers.matrices
    start.SameStack (after es) ∧
      (∀ before push inner pop rest n, es = before ++ push :: (inner ++ pop :: rest) →
        push.meaning = .push → pop.meaning = .pop 1 →
        Instruction.IsNested n (inner.map Encoded.meaning) →
        let block := after (before ++ push :: (inner ++ [pop]))
        block.coordinate = (after before).coordinate ∧ (after before).SameStack block) ∧
      ((after es).stackError = true ↔ start.stackError = true ∨
        ∃ m ∈ fe.registers.moments s (es.map Encoded.meaning), m.Fills) ∧
      ∀ (n : Nat) (w : UInt32), 1 ≤ n → n ≤ start.pointer → Instruction.signed6 w = n →
        let once := after [⟨0x12, [w]⟩]
        let each := after (List.replicate n ⟨0x12, [1]⟩)
        once.coordinate = each.coordinate ∧ once.pointer = each.pointer ∧
          once.slots = each.slots := by
  intro start after
  have written {done : List Encoded} (complete : ∀ e ∈ done, e.isComplete = true) :
      after done = (fe.registers.executeAll s (done.map Encoded.meaning)).state.matrices :=
    congrArg Registers.matrices (writes_plain idle complete s).registers
  have fits := Registers.hasRoom_nested (s := s) nested mode room
  obtain ⟨u, hu⟩ := Registers.returns_nested nested mode fits
  have final : after es = u := by rw [written complete, hu.outcome]; rfl
  refine ⟨final ▸ hu.stack, ?_, final ▸ hu.error, ?_⟩
  · rintro before push inner pop rest n rfl hpush hpop inside
    have first : ∀ e ∈ before, e.isComplete = true :=
      fun e he => complete e (List.mem_append_left _ he)
    have both : ∀ e ∈ before ++ push :: (inner ++ [pop]), e.isComplete = true := by
      simp only [List.mem_append, List.mem_cons] at complete ⊢
      grind
    rw [written first, written both]
    simp only [List.map_append, List.map_cons, List.map_nil, hpush, hpop] at nested ⊢
    exact Registers.block_of_nested nested inside mode room s
  · intro n w some_push few hw
    have one (w : UInt32) : (⟨0x12, [w]⟩ : Encoded).meaning = .pop (Instruction.signed6 w) := rfl
    have unit : Instruction.signed6 1 = 1 := by decide
    have single : after [⟨0x12, [w]⟩] = _ := written (List.forall_mem_singleton.2 rfl)
    have many : after (List.replicate n ⟨0x12, [1]⟩) = _ :=
      written fun e he => (List.eq_of_mem_replicate he) ▸ rfl
    rw [List.map_singleton, one, hw] at single
    rw [List.map_replicate, one, unit] at many
    rw [single, many]
    exact Registers.executeAll_pop mode some_push few (Nat.le_of_add_right_le room) s

/-- Two pushes one in another up to the last slot, with a displacement and an identity in between.
    At the end the matrix is that before the first push, and an error is flagged. -/
theorem writePlain_nested_full :
    let fe : FrontEnd := { registers := { matrices := { mode := .coordinate, pointer := 29 } } }
    let es : List Encoded := [⟨0x11, []⟩, ⟨0x1C, [4096, 0, 0]⟩, ⟨0x11, []⟩, ⟨0x15, []⟩,
      ⟨0x12, [1]⟩, ⟨0x12, [1]⟩]
    let final := (fe.writePlain ({} : Transcript) es).state.registers.matrices
    fe.IsIdle ∧ fe.registers.matrices.mode = .coordinate ∧ (∀ e ∈ es, e.isComplete = true) ∧
      Instruction.IsNested 2 (es.map Encoded.meaning) ∧ fe.registers.matrices.pointer + 2 ≤ 31 ∧
      fe.registers.matrices.SameStack final ∧ final.coordinate = .identity ∧
      final.stackError = true := by
  intro fe es final
  have idle : fe.IsIdle := ⟨rfl, rfl, rfl⟩
  have complete : ∀ e ∈ es, e.isComplete = true := by decide
  have nested : Instruction.IsNested 2 (es.map Encoded.meaning) :=
    .block (.append (.multiply (.displacement [4096, 0, 0])) (.block (.load .identity)))
  have room : fe.registers.matrices.pointer + 2 ≤ 31 := Nat.le_refl 31
  obtain ⟨stack, blocks, error, -⟩ :=
    writePlain_nested idle rfl complete nested room ({} : Transcript)
  have outer := blocks [] ⟨0x11, []⟩ [⟨0x1C, [4096, 0, 0]⟩, ⟨0x11, []⟩, ⟨0x15, []⟩, ⟨0x12, [1]⟩]
    ⟨0x12, [1]⟩ [] 1 rfl rfl rfl
    (.append (.multiply (.displacement [4096, 0, 0])) (.block (.load .identity)))
  have flagged := error.2 (.inr ⟨_, List.mem_of_getElem? (i := 2) rfl, rfl, rfl⟩)
  exact ⟨idle, rfl, complete, nested, room, stack, outer.1, flagged⟩

end FrontEnd

end

end GeometryEngine
