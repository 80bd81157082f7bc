import GeometryEngine.Ledger
import GeometryEngine.ShortForms
import GeometryEngine.Proofs.Streams
import Mathlib.Data.Fintype.Basic
import Mathlib.Tactic.FinCases

/-!
# Short forms of matrices

A matrix that is given by fewer than sixteen words means what it means with all of its entries
written out (`Encoded.meaning_fullMatrix`): every layout puts its words where they belong in a
matrix of rows. So the short forms of a stream can be spelled out, in whatever mode they are met.

What a short form leaves out, it leaves alone: a row of the left factor that is a row of the
identity leaves that row of the other factor as it is, to the last bit
(`Matrix.entry_mul_of_row`). With it a product with a short form is told row by row
(`Matrix.entry_scaling_mul`, `Matrix.entry_displacement_mul`).
-/

namespace GeometryEngine

namespace Matrix

/-! ### Layouts -/

/-- The words of a matrix are its entries, row by row. -/
theorem ofWords_eq_ofFn {ws : List UInt32} {f : Fin 4 → Fin 4 → Fixed}
    (h : ∀ i j : Fin 4, ⟨(ws.getD (4 * i + j) 0).toInt32⟩ = f i j) : ofWords ws = ofFn f :=
  congrArg ofFn (funext fun i => funext fun j => h i j)

theorem ofWords_identity :
    ofWords
      [4096, 0, 0, 0,
       0, 4096, 0, 0,
       0, 0, 4096, 0,
       0, 0, 0, 4096] = identity :=
  ofWords_eq_ofFn fun i j => by fin_cases i <;> fin_cases j <;> rfl

variable (ws : List UInt32)

theorem ofWords_rows43 : let w (i : Nat) := ws.getD i 0
    ofWords
      [w 0, w 1, w 2, 0,
       w 3, w 4, w 5, 0,
       w 6, w 7, w 8, 0,
       w 9, w 10, w 11, 4096] = ofWords43 ws :=
  ofWords_eq_ofFn fun i j => by fin_cases i <;> fin_cases j <;> rfl

theorem ofWords_rows33 : let w (i : Nat) := ws.getD i 0
    ofWords
      [w 0, w 1, w 2, 0,
       w 3, w 4, w 5, 0,
       w 6, w 7, w 8, 0,
       0, 0, 0, 4096] = ofWords33 ws :=
  ofWords_eq_ofFn fun i j => by fin_cases i <;> fin_cases j <;> rfl

theorem ofWords_scaling : let w (i : Nat) := ws.getD i 0
    ofWords
      [w 0, 0, 0, 0,
       0, w 1, 0, 0,
       0, 0, w 2, 0,
       0, 0, 0, 4096] = scaling ws :=
  ofWords_eq_ofFn fun i j => by fin_cases i <;> fin_cases j <;> rfl

theorem ofWords_displacement : let w (i : Nat) := ws.getD i 0
    ofWords
      [4096, 0, 0, 0,
       0, 4096, 0, 0,
       0, 0, 4096, 0,
       w 0, w 1, w 2, 4096] = displacement ws :=
  ofWords_eq_ofFn fun i j => by fin_cases i <;> fin_cases j <;> rfl

/-! ### Products with short forms -/

/-- The number in units of `1 / 4096` that word `i` of a short form gives. -/
def given (ws : List UInt32) (i : Nat) : Int := (ws.getD i 0).toInt32.toInt

variable {ws}

theorem entry_identity (i j : Fin 4) : identity.entry i j = if i = j then 1 else 0 :=
  entry_ofFn _ i j

theorem toInt_zero : (0 : Fixed).raw.toInt = 0 := rfl

theorem toInt_one : (1 : Fixed).raw.toInt = 4096 := rfl

/-- Rounding down takes back an exact multiplication by `1`. -/
theorem ofProducts_one_mul (a : Fixed) : Fixed.ofProducts (4096 * a.raw.toInt) = a := by
  rw [Fixed.ofProducts, Int.mul_ediv_cancel_left _ (by decide), Int32.ofInt_toInt]

/-- Where a row of the left factor is a row of the identity, the other factor stays as it is. -/
theorem entry_mul_of_row {a : Matrix} {i : Fin 4} (h : ∀ k, a.entry i k = identity.entry i k)
    (b : Matrix) (j : Fin 4) : (a * b).entry i j = b.entry i j := by
  rw [entry_mul, sum4]
  simp only [h, entry_identity]
  fin_cases i <;> simp [toInt_zero, toInt_one, ofProducts_one_mul]

theorem entry_ofWords33_mul_last (m : Matrix) (j : Fin 4) :
    (ofWords33 ws * m).entry 3 j = m.entry 3 j :=
  entry_mul_of_row (fun k => by rw [ofWords33, entry_ofFn, if_pos (.inl rfl)]) m j

/-- A scaling multiplies each of the first three rows by its own factor. -/
theorem entry_scaling_mul (m : Matrix) (i j : Fin 4) :
    (scaling ws * m).entry i j =
      if i = 3 then m.entry i j else .ofProducts (given ws i * (m.entry i j).raw.toInt) := by
  split
  · rename_i last
    exact entry_mul_of_row (fun k => by rw [scaling, entry_ofFn, if_neg fun h => h.2 last]) m j
  · rename_i first
    have row (k : Fin 4) : ((scaling ws).entry i k).raw.toInt = if i = k then given ws i else 0 := by
      rw [scaling, entry_ofFn, entry_identity]
      split
      · rename_i h
        rw [if_pos h.1, given]
      · rename_i h
        rw [if_neg fun diagonal => h ⟨diagonal, first⟩, if_neg fun diagonal => h ⟨diagonal, first⟩]
        rfl
    rw [entry_mul, sum4, row, row, row, row]
    fin_cases i <;> simp at first ⊢

/-- A displacement adds to the last row what it makes of the first three, and leaves these. -/
theorem entry_displacement_mul (m : Matrix) (i j : Fin 4) :
    (displacement ws * m).entry i j =
      if i = 3 then
        .ofProducts (given ws 0 * (m.entry 0 j).raw.toInt + given ws 1 * (m.entry 1 j).raw.toInt +
          given ws 2 * (m.entry 2 j).raw.toInt + 4096 * (m.entry 3 j).raw.toInt)
      else m.entry i j := by
  split
  · subst i
    have row (k : Fin 4) :
        ((displacement ws).entry 3 k).raw.toInt = if k = 3 then 4096 else given ws k := by
      rw [displacement, entry_ofFn, entry_identity]
      split
      · rename_i h
        rw [if_neg h.2, given]
      · rename_i h
        have last : k = 3 := by_contra fun first => h ⟨rfl, first⟩
        rw [if_pos last, if_pos last.symm, toInt_one]
    rw [entry_mul, sum4, row, row, row, row]
    rfl
  · rename_i first
    exact entry_mul_of_row (fun k => by rw [displacement, entry_ofFn, if_neg fun h => first h.1]) m j

end Matrix

namespace MatrixUnit

/-- The matrix that instructions go to, unless it is not kept. -/
def selected? (u : MatrixUnit) : Option Matrix :=
  match u.mode with
  | .projection => some u.projection
  | .coordinate => some u.coordinate
  | .texture => none

theorem selected?_multiply (m : Matrix) (u : MatrixUnit) :
    (u.multiply m).selected? = u.selected?.map (m * ·) := by
  cases mode : u.mode <;> simp [multiply, selected?, mode]

end MatrixUnit

/-! ### Streams -/

namespace Encoded

/-- An instruction means the same with its matrix spelled out. -/
theorem meaning_fullMatrix (e : Encoded) : e.fullMatrix.meaning = e.meaning := by
  obtain ⟨id, ws⟩ := e
  unfold fullMatrix
  split <;> rename_i h
  · obtain rfl : id = 0x15 := UInt8.toNat_inj.1 h
    exact congrArg Instruction.load Matrix.ofWords_identity
  · obtain rfl : id = 0x17 := UInt8.toNat_inj.1 h
    exact congrArg Instruction.load (Matrix.ofWords_rows43 ws)
  · obtain rfl : id = 0x19 := UInt8.toNat_inj.1 h
    exact congrArg Instruction.multiply (Matrix.ofWords_rows43 ws)
  · obtain rfl : id = 0x1A := UInt8.toNat_inj.1 h
    exact congrArg Instruction.multiply (Matrix.ofWords_rows33 ws)
  · obtain rfl : id = 0x1B := UInt8.toNat_inj.1 h
    exact congrArg Instruction.multiply (Matrix.ofWords_scaling ws)
  · obtain rfl : id = 0x1C := UInt8.toNat_inj.1 h
    exact congrArg Instruction.multiply (Matrix.ofWords_displacement ws)
  · rfl

theorem isComplete_fullMatrix {e : Encoded} (complete : e.isComplete = true) :
    e.fullMatrix.isComplete = true := by
  unfold fullMatrix
  split
  all_goals first | exact complete | rfl

end Encoded

section

variable {σ : Type} [Sink σ]

/-- A multiplication acts on the selected matrix, from the left. -/
theorem Registers.selected?_execute_multiply (r : Registers) (s : σ) (a : Matrix) :
    (r.execute s (.multiply a)).state.matrices.selected? = r.matrices.selected?.map (a * ·) :=
  MatrixUnit.selected?_multiply a r.matrices

namespace FrontEnd

variable {fe : FrontEnd} {es : List Encoded}

/-- Short forms of matrices can be spelled out in a stream, in every mode: the front-end ends up in
    the same state, and the same commands are sent and meet the same answers.

    For every selected matrix, a short form that multiplies leaves the rows alone that it does not
    give. A scaling takes each entry of the other rows times its factor, and a displacement adds to
    the last row what it makes of the first three, both rounded down once and wrapped around. -/
theorem interchangeable_fullMatrix (idle : fe.IsIdle) (complete : ∀ e ∈ es, e.isComplete = true)
    (s : σ) :
    fe.Interchangeable (⟨s, []⟩ : Ledger σ) (es.map Encoded.fullMatrix) es ∧
      ∀ (r : Registers) (ws : List UInt32) (m : Matrix), r.matrices.selected? = some m →
        let after (id : UInt8) := (r.execute s (Encoded.meaning ⟨id, ws⟩)).state.matrices.selected?
        (∃ m', after 0x1A = some m' ∧ ∀ j, m'.entry 3 j = m.entry 3 j) ∧
        (∃ m', after 0x1B = some m' ∧ ∀ j, m'.entry 3 j = m.entry 3 j ∧ ∀ i : Fin 4, i ≠ 3 →
          let scaled := Matrix.given ws i * (m.entry i j).raw.toInt / 4096
          (m'.entry i j).raw = Int32.ofInt scaled ∧
            (-2147483648 ≤ scaled → scaled < 2147483648 → (m'.entry i j).raw.toInt = scaled)) ∧
        ∃ m', after 0x1C = some m' ∧ ∀ j, (∀ i, i ≠ 3 → m'.entry i j = m.entry i j) ∧
          let moved := Matrix.given ws 0 * (m.entry 0 j).raw.toInt +
            Matrix.given ws 1 * (m.entry 1 j).raw.toInt +
            Matrix.given ws 2 * (m.entry 2 j).raw.toInt
          (m'.entry 3 j).raw = Int32.ofInt (moved / 4096 + (m.entry 3 j).raw.toInt) := by
  refine ⟨?_, fun r ws m selected => ?_⟩
  · have complete' : ∀ e ∈ es.map Encoded.fullMatrix, e.isComplete = true :=
      List.forall_mem_map.2 fun e he => Encoded.isComplete_fullMatrix (complete e he)
    have meanings : (es.map Encoded.fullMatrix).map Encoded.meaning = es.map Encoded.meaning := by
      rw [List.map_map]
      exact List.map_congr_left fun e _ => e.meaning_fullMatrix
    refine interchangeable_of_sameRun idle complete' complete ?_ _
    rw [meanings]
    exact .refl _ _
  · have product (a : Matrix) :
        (r.execute s (.multiply a)).state.matrices.selected? = some (a * m) := by
      rw [r.selected?_execute_multiply, selected, Option.map_some]
    refine ⟨⟨_, product _, fun j => Matrix.entry_ofWords33_mul_last m j⟩,
      ⟨_, product _, fun j => ⟨?_, fun i first => ?_⟩⟩,
      ⟨_, product _, fun j => ⟨fun i first => ?_, ?_⟩⟩⟩
    · rw [Matrix.entry_scaling_mul, if_pos rfl]
    · rw [Matrix.entry_scaling_mul, if_neg first]
      exact ⟨rfl, Int32.toInt_ofInt_of_le⟩
    · rw [Matrix.entry_displacement_mul, if_neg first]
    · rw [Matrix.entry_displacement_mul, if_pos rfl, Fixed.ofProducts,
        Int.add_mul_ediv_left _ _ (by decide)]

/-- A list with a vertex after every short form, in all modes. -/
theorem interchangeable_fullMatrix_all :
    let fe : FrontEnd := {}
    let es : List Encoded := [⟨0x40, [0]⟩,
      ⟨0x17, [4096, 0, 7, 0, 4096, 0, 9, 0, 0xFFFFF000, 5, 6, 4096]⟩, ⟨0x24, [0x123456]⟩,
      ⟨0x10, [1]⟩, ⟨0x1A, [4096, 0, 0, 0, 0xFFFFF000, 0, 0, 77, 4096]⟩, ⟨0x24, [0x234567]⟩,
      ⟨0x1B, [0x800, 0x1234, 0xFFFFFFFF]⟩, ⟨0x24, [0x345678]⟩,
      ⟨0x10, [2]⟩, ⟨0x1C, [1, 0x80000000, 3]⟩, ⟨0x24, [0x456789]⟩,
      ⟨0x10, [3]⟩, ⟨0x15, []⟩, ⟨0x19, [1, 2, 3, 4, 5, 6, 7, 8, 9, 10, 11, 12]⟩, ⟨0x24, [0x56789A]⟩]
    let spelled := fe.callAll (⟨{}, []⟩ : Ledger Engine) (Encoded.calls (es.map Encoded.fullMatrix))
    let short := fe.callAll (⟨{}, []⟩ : Ledger Engine) (Encoded.calls es)
    let scaled := (fe.registers.execute ({} : Engine)
      (Encoded.meaning ⟨0x1B, [2048, 4096, 4096]⟩)).state.matrices.selected?
    fe.IsIdle ∧ (∀ e ∈ es, e.isComplete = true) ∧ spelled = short ∧ short.2.entries.length = 6 ∧
      fe.registers.matrices.selected? = some .identity ∧
      ∃ m, scaled = some m ∧ (m.entry 0 0).raw.toInt = 2048 := by
  intro fe es spelled short scaled
  have idle : fe.IsIdle := ⟨rfl, rfl, rfl⟩
  have complete : ∀ e ∈ es, e.isComplete = true := by decide
  obtain ⟨same, rows⟩ := interchangeable_fullMatrix idle complete ({} : Engine)
  have selected : fe.registers.matrices.selected? = some .identity := rfl
  obtain ⟨-, ⟨m, after, entries⟩, -⟩ := rows fe.registers [2048, 4096, 4096] .identity selected
  have first := (entries 0).2 0 (by decide)
  exact ⟨idle, complete, same.plain, by decide +kernel, selected, m, after,
    first.2 (by decide) (by decide)⟩

end FrontEnd

end

end GeometryEngine
