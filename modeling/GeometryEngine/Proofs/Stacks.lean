import GeometryEngine.CheckedCalls

/-!
# Within the stacks

Where a matrix of the coordinate stack goes to, or comes from, is worked out in machine words:
the pointer is a signed word, the distance of a pop is one without a sign, and the difference is
taken to be signed again. This is the place that is meant (`MatrixUnit.toInt_address`), and as
long as the pointer is within its bounds there is always a slot for it.

* `MatrixUnit.push?_eq`, `MatrixUnit.pop?_eq`, `MatrixUnit.store?_eq`, `MatrixUnit.restore?_eq`:
  what looks at the slot first does the same as what does not.
* `Registers.execute?_eq`: so does every instruction.
* `Registers.isBounded_execute`: every instruction keeps the pointers within their bounds.
-/

namespace GeometryEngine

/-! ### The coordinate stack -/

namespace MatrixUnit

/-- The distance of a pop is the same whether it is worked out in words or exactly. -/
theorem toInt_distanceWord (w : UInt32) :
    (distanceWord w).toInt32.toInt = Instruction.signed6 w := by
  have low (k : Fin 64) : (distanceWord (.ofNat k)).toInt32.toInt =
      Instruction.signed6 (.ofNat k) := by
    revert k
    decide
  have bits : w &&& 0x3F = .ofNat (w.toNat % 64) := by
    apply UInt32.toNat_inj.1
    have mask : (0x3F : UInt32).toNat = 2 ^ 6 - 1 := rfl
    rw [UInt32.toNat_and, UInt32.toNat_ofNat', mask, Nat.and_two_pow_sub_one_eq_mod]
    omega
  -- Only the lowest six bits of the word count.
  have same : distanceWord w = distanceWord (w &&& 0x3F) := by
    have sign : w &&& 0x3F &&& 0x20 = w &&& 0x20 := UInt32.and_assoc ..
    have rest : w &&& 0x3F &&& 0x3F = w &&& 0x3F := UInt32.and_assoc ..
    rw [distanceWord, distanceWord, sign, rest]
  have low := low ⟨w.toNat % 64, Nat.mod_lt _ (by decide)⟩
  rw [same, bits, low]
  simp only [Instruction.signed6, UInt32.toNat_ofNat', Int.bmod]
  omega

/-- So is the slot that a matrix is popped from, which may be none. -/
theorem toInt_address {pointer : Nat} (inside : pointer ≤ 31) (w : UInt32) :
    (UInt32.ofNat pointer - distanceWord w).toInt32.toInt = pointer - Instruction.signed6 w := by
  have distance : -32 ≤ Instruction.signed6 w ∧ Instruction.signed6 w < 32 := by
    rw [Instruction.signed6, Int.bmod]
    omega
  rw [UInt32.toInt32_sub, Int32.toInt_sub, toInt_distanceWord, UInt32.toInt32_ofNat',
    Int32.toInt_ofNat_of_lt (by omega), Int.bmod_eq_of_le (by omega) (by omega)]

theorem toInt_slotWord (w : UInt32) :
    (w &&& 0x1F).toInt32.toInt = (Instruction.slotOf w : Nat) := by
  have mask : (0x1F : UInt32).toNat = 2 ^ 5 - 1 := rfl
  have bits : w &&& 0x1F = .ofNat (w.toNat % 32) := by
    apply UInt32.toNat_inj.1
    rw [UInt32.toNat_and, UInt32.toNat_ofNat', mask, Nat.and_two_pow_sub_one_eq_mod]
    omega
  rw [bits, UInt32.toInt32_ofNat', Int32.toInt_ofNat_of_lt (by omega), Instruction.slotOf]

variable {u : MatrixUnit} {i : Int32} {n : Nat}

theorem slot?_eq (place : i.toInt = n) (inside : n < 32) : u.slot? i = some (u.slot n) := by
  have first : 0 ≤ i := by
    rw [Int32.le_iff_toInt_le, Int32.toInt_zero]
    omega
  have same : i.toNatClampNeg = n := by
    rw [Int32.toNatClampNeg]
    omega
  rw [slot?, if_pos first, same, slot, Vector.getElem?_eq_getElem inside]
  rfl

theorem fillSlot?_eq (place : i.toInt = n) (inside : n < 32) :
    u.fillSlot? i = some { u with slots := u.slots.setIfInBounds n u.coordinate } := by
  have bounds : 0 ≤ i ∧ i < 32 := by
    have : (32 : Int32).toInt = 32 := rfl
    rw [Int32.le_iff_toInt_le, Int32.lt_iff_toInt_lt, Int32.toInt_zero]
    omega
  have same : i.toNatClampNeg = n := by
    rw [Int32.toNatClampNeg]
    omega
  rw [fillSlot?, if_pos bounds, same]

theorem set_eq (slots : Vector Matrix 32) (inside : n < 32) (m : Matrix) :
    slots.setIfInBounds n m = slots.set n m inside := by
  ext j
  simp only [Vector.getElem_setIfInBounds, Vector.getElem_set]

theorem eq_last_iff {slot : Fin 32} (place : i.toInt = (slot : Nat)) : i = 31 ↔ slot = 31 := by
  have last : (31 : Int32).toInt = 31 := rfl
  rw [← Int32.toInt_inj, place, last, ← Fin.val_inj]
  exact Int.ofNat_inj

theorem push?_eq (inside : u.pointer ≤ 31) : u.push? = some u.push := by
  cases mode : u.mode with
  | coordinate =>
    have place : (Int32.ofNat u.pointer).toInt = u.pointer := Int32.toInt_ofNat_of_lt (by omega)
    have ends : (1 : Int32).toInt = 1 ∧ (30 : Int32).toInt = 30 ∧ (31 : Int32).toInt = 31 :=
      ⟨rfl, rfl, rfl⟩
    have last : 30 ≤ Int32.ofNat u.pointer ↔ 30 ≤ u.pointer := by
      rw [Int32.le_iff_toInt_le]
      omega
    have room : Int32.ofNat u.pointer < 31 ↔ u.pointer < 31 := by
      rw [Int32.lt_iff_toInt_lt]
      omega
    have next : (Int32.ofNat u.pointer + 1).toNatClampNeg = u.pointer + 1 := by
      rw [Int32.toNatClampNeg, Int32.toInt_add, place, ends.1,
        Int.bmod_eq_of_le (by omega) (by omega)]
      omega
    by_cases full : 30 ≤ u.pointer <;> by_cases below : u.pointer < 31
    all_goals simp [push?, push, mode, flagIf, last, room, full, below, next,
      fillSlot?_eq place (Nat.lt_succ_of_le inside)]
  | projection => simp only [push?, mode]
  | texture => simp only [push?, mode]

theorem pop?_eq (inside : u.pointer ≤ 31) (w : UInt32) :
    u.pop? w = some (u.pop (Instruction.signed6 w)) := by
  obtain ⟨address, words⟩ : ∃ i, i = (UInt32.ofNat u.pointer - distanceWord w).toInt32 := ⟨_, rfl⟩
  have exact : address.toInt = u.pointer - Instruction.signed6 w := words ▸ toInt_address inside w
  obtain ⟨_ | _ | _, projection, saved, depth, coordinate, slots, pointer, error, clip, stale⟩ := u
  case coordinate =>
    have ends : (0 : Int32).toInt = 0 ∧ (30 : Int32).toInt = 30 ∧ (31 : Int32).toInt = 31 :=
      ⟨rfl, rfl, rfl⟩
    simp only [pop?, pop, ← words, ← exact, Int32.le_iff_toInt_le, Int32.lt_iff_toInt_lt, ends]
    by_cases taken : 0 ≤ address.toInt ∧ address.toInt < 31
    · obtain ⟨n, place⟩ := Int.eq_ofNat_of_zero_le taken.1
      have same : address.toNatClampNeg = n := by
        rw [Int32.toNatClampNeg, place]
        rfl
      rw [if_pos taken, if_pos taken, slot?_eq place (by omega), same, place]
      simp [flagIf, slot]
    · rw [if_neg taken, if_neg taken]
      simp only [flagIf, decide_eq_true_eq]
  all_goals rfl

theorem store?_eq (w : UInt32) : u.store? w = some (u.store (Instruction.slotOf w)) := by
  obtain ⟨address, words⟩ : ∃ i, i = (w &&& 0x1F).toInt32 := ⟨_, rfl⟩
  have place : address.toInt = (Instruction.slotOf w : Nat) := words ▸ toInt_slotWord w
  obtain ⟨_ | _ | _, projection, saved, depth, coordinate, slots, pointer, error, clip, stale⟩ := u
  case coordinate =>
    have last := eq_last_iff place
    by_cases beyond : Instruction.slotOf w = 31 <;>
      simp [store?, store, ← words, flagIf, last, beyond,
        fillSlot?_eq place (Instruction.slotOf w).isLt, set_eq]
  all_goals rfl

theorem restore?_eq (w : UInt32) : u.restore? w = some (u.restore (Instruction.slotOf w)) := by
  obtain ⟨address, words⟩ : ∃ i, i = (w &&& 0x1F).toInt32 := ⟨_, rfl⟩
  have place : address.toInt = (Instruction.slotOf w : Nat) := words ▸ toInt_slotWord w
  obtain ⟨_ | _ | _, projection, saved, depth, coordinate, slots, pointer, error, clip, stale⟩ := u
  case coordinate =>
    have last := eq_last_iff place
    by_cases beyond : Instruction.slotOf w = 31 <;>
      simp [restore?, restore, ← words, flagIf, last, beyond,
        slot?_eq place (Instruction.slotOf w).isLt, slot]
  all_goals rfl

/-! ### The pointers of both stacks -/

/-- The pointers of the stacks are within their bounds. -/
structure IsBounded (u : MatrixUnit) : Prop where
  pointer : u.pointer ≤ 31
  depth : u.projectionDepth ≤ 1

namespace IsBounded

variable (h : u.IsBounded)
include h

theorem load (m : Matrix) : (u.load m).IsBounded := by
  unfold MatrixUnit.load
  split <;> exact ⟨h.pointer, h.depth⟩

theorem multiply (m : Matrix) : (u.multiply m).IsBounded := by
  unfold MatrixUnit.multiply
  split <;> exact ⟨h.pointer, h.depth⟩

theorem push : u.push.IsBounded := by
  unfold MatrixUnit.push
  split
  · split
    · exact ⟨h.pointer, Nat.le_refl 1⟩
    · exact ⟨h.pointer, h.depth⟩
  · dsimp only
    split <;> split
    all_goals first
      | exact ⟨‹_ < 31›, h.depth⟩
      | exact ⟨h.pointer, h.depth⟩
  · exact h

theorem pop (distance : Int) : (u.pop distance).IsBounded := by
  unfold MatrixUnit.pop
  split
  · split
    · exact ⟨h.pointer, h.depth⟩
    · exact ⟨h.pointer, Nat.zero_le 1⟩
  · dsimp only
    split <;> split
    all_goals first
      | exact ⟨Int.toNat_le.2 (by omega), h.depth⟩
      | exact ⟨h.pointer, h.depth⟩
  · exact h

theorem store (i : Fin 32) : (u.store i).IsBounded := by
  unfold MatrixUnit.store
  split
  · exact ⟨h.pointer, h.depth⟩
  · dsimp only
    split <;> exact ⟨h.pointer, h.depth⟩
  · exact h

theorem restore (i : Fin 32) : (u.restore i).IsBounded := by
  unfold MatrixUnit.restore
  split
  · exact ⟨h.pointer, h.depth⟩
  · dsimp only
    split <;> exact ⟨h.pointer, h.depth⟩
  · exact h

theorem refresh : u.refresh.IsBounded := by
  unfold MatrixUnit.refresh
  split <;> exact ⟨h.pointer, h.depth⟩

theorem acknowledge : u.acknowledge.IsBounded := ⟨h.pointer, Nat.zero_le 1⟩

end IsBounded

end MatrixUnit

section

variable {σ : Type} [Sink σ]

namespace Registers

theorem matrices_sendPolygon (o : Outline) (r : Registers) (s : σ) :
    (r.sendPolygon o s).state.matrices = r.matrices := by
  unfold sendPolygon
  split
  · rfl
  · split <;> rfl

theorem matrices_sendVertex (r : Registers) (s : σ) :
    (r.sendVertex s).state.matrices = r.matrices ∨
      (r.sendVertex s).state.matrices = r.matrices.refresh := by
  unfold sendVertex
  split
  · exact .inl rfl
  · dsimp only
    split
    · unfold sendCompleted
      split
      · exact .inr rfl
      · exact .inr (matrices_sendPolygon _ _ _)
    · exact .inr rfl
    · exact .inr rfl

variable {r : Registers}

theorem isBounded_sendVertex (h : r.matrices.IsBounded) (s : σ) :
    (r.sendVertex s).state.matrices.IsBounded := by
  rcases r.matrices_sendVertex s with same | same <;> rw [same]
  · exact h
  · exact h.refresh

theorem isBounded_execute (h : r.matrices.IsBounded) (s : σ) (i : Instruction) :
    (r.execute s i).state.matrices.IsBounded := by
  cases i with
  | setMode mode => exact ⟨h.pointer, h.depth⟩
  | push => exact h.push
  | pop distance => exact h.pop distance
  | store slot => exact h.store slot
  | restore slot => exact h.restore slot
  | load m => exact h.load m
  | multiply m => exact h.multiply m
  | place x y z => exact isBounded_sendVertex (r := r.moveTo x y z) h s
  | offset dx dy dz => exact isBounded_sendVertex (r := r.moveBy dx dy dz) h s
  | swapBuffers =>
    rw [execute, sendSwap]
    split <;> exact h
  | setViewport view =>
    rw [execute, sendViewport]
    split <;> exact h
  | _ => exact h

theorem execute?_eq (h : r.matrices.IsBounded) (s : σ) (id : UInt8) (ws : List UInt32) :
    r.execute? s id ws = some (r.execute s (.decode id ws)) := by
  simp only [execute?]
  split <;> rename_i number
  · simp only [Instruction.decode, number, mapMatrices?, MatrixUnit.push?_eq h.pointer]
    rfl
  · simp only [Instruction.decode, number, mapMatrices?, MatrixUnit.pop?_eq h.pointer]
    rfl
  · simp only [Instruction.decode, number, mapMatrices?, MatrixUnit.store?_eq]
    rfl
  · simp only [Instruction.decode, number, mapMatrices?, MatrixUnit.restore?_eq]
    rfl
  · rfl

end Registers

end

end GeometryEngine
