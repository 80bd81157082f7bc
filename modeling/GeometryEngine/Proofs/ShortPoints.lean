import GeometryEngine.Assembly
import GeometryEngine.Ledger
import GeometryEngine.Script
import GeometryEngine.ShortForms
import GeometryEngine.Proofs.Streams

/-!
# Short forms of points

A vertex can be placed by fewer bits than its coordinates have: by ten bits each, by two of
three coordinates, or by its distance from the vertex before it. What a short form stands for
depends on where that vertex was placed, so the current point is told beside the stream
(`Registers.IsAt`).

* `Registers.IsAt.execute_target`: a vertex instruction moves the current point to its target, and
  sends a vertex there;
* `Encoded.meaning_placeAt`: so does the instruction with all coordinates spelled out, if there is
  room for them;
* `Registers.IsAt.target` and `Registers.IsAt.stays` follow the current point through every
  instruction. It moves also if the vertex is dropped, or turned away;
* `Registers.IsAt.sameRun_fullPoints`: so a stream with all coordinates spelled out does the same
  step by step.
-/

namespace GeometryEngine

/-! ### Coordinates in a word -/

namespace Encoded

/-- The highest bit of a field counts negative. -/
theorem signedField_eq_bmod (w : UInt32) (shift bits : Nat) :
    signedField w shift (bits + 1) = ((w.toNat >>> shift : Nat) : Int).bmod (2 ^ (bits + 1)) := by
  unfold signedField Int.bmod
  simp only [Nat.one_shiftLeft, Nat.add_sub_cancel]
  have double : 2 ^ (bits + 1) = 2 * 2 ^ bits := Nat.pow_succ'
  generalize 2 ^ (bits + 1) = full at double ⊢
  split <;> split <;> omega

theorem signedField_sixteen (w : UInt32) (shift : Nat) :
    signedField w shift 16 = Instruction.signed16 w shift :=
  signedField_eq_bmod w shift 15

theorem signedField_ten (w : UInt32) (shift : Nat) :
    signedField w shift 10 = Instruction.signed10 w shift :=
  signedField_eq_bmod w shift 9

theorem toNat_pair (x y : Int) :
    ((pair x y).toNat : Int) = x % 65536 + 65536 * (y % 65536) := by
  rw [pair, UInt32.toNat_ofNat']
  omega

theorem signed16_pair_low {x : Int} (room : hasRoom x = true) (y : Int) :
    Instruction.signed16 (pair x y) 0 = x := by
  have number := toNat_pair x y
  simp only [hasRoom, Bool.and_eq_true, decide_eq_true_eq] at room
  unfold Instruction.signed16 Int.bmod
  generalize (pair x y).toNat = n at number ⊢
  rw [Nat.shiftRight_zero]
  dsimp only
  split <;> omega

theorem signed16_pair_high (x : Int) {y : Int} (room : hasRoom y = true) :
    Instruction.signed16 (pair x y) 16 = y := by
  have number := toNat_pair x y
  simp only [hasRoom, Bool.and_eq_true, decide_eq_true_eq] at room
  unfold Instruction.signed16 Int.bmod
  generalize (pair x y).toNat = n at number ⊢
  rw [Nat.shiftRight_eq_div_pow]
  dsimp only
  split <;> omega

/-- The instruction with all coordinates spelled out places a vertex at them. -/
theorem meaning_placeAt {x y z : Int} (hx : hasRoom x = true) (hy : hasRoom y = true)
    (hz : hasRoom z = true) :
    (placeAt x y z).meaning = .place (some (Instruction.fixed x)) (some (Instruction.fixed y))
      (some (Instruction.fixed z)) := by
  have words : (placeAt x y z).meaning = .place (Instruction.coordinate (pair x y) 0)
    (Instruction.coordinate (pair x y) 16) (Instruction.coordinate (pair z 0) 0) := rfl
  rw [words, Instruction.coordinate, Instruction.coordinate, Instruction.coordinate,
    signed16_pair_low hx, signed16_pair_high x hy, signed16_pair_low hz]

/-- What has no target places no vertex. -/
theorem isVertex_meaning_of_target? {x y z : Int} {e : Encoded} (h : e.target? x y z = none) :
    e.meaning.isVertex = false := by
  unfold target? at h
  unfold meaning Instruction.decode
  split <;> first | rfl | simp_all

end Encoded

/-! ### The current point -/

theorem Instruction.fixed_add (x dx : Int) : fixed x + fixed dx = fixed (x + dx) :=
  Fixed.ext_raw (Int32.ofInt_add x dx).symm

namespace Registers

/-- The last vertex was placed at these raw coordinates. -/
structure IsAt (r : Registers) (x y z : Int) : Prop where
  first : r.position.x = Instruction.fixed x
  second : r.position.y = Instruction.fixed y
  third : r.position.z = Instruction.fixed z

theorem isAt_position (r : Registers) :
    r.IsAt r.position.x.raw.toInt r.position.y.raw.toInt r.position.z.raw.toInt where
  first := Fixed.ext_raw (Int32.ofInt_toInt _).symm
  second := Fixed.ext_raw (Int32.ofInt_toInt _).symm
  third := Fixed.ext_raw (Int32.ofInt_toInt _).symm

/-- The registers with the current point moved to raw coordinates. -/
def movedTo (r : Registers) (x y z : Int) : Registers :=
  r.moveTo (some (Instruction.fixed x)) (some (Instruction.fixed y)) (some (Instruction.fixed z))

variable {σ : Type} [Sink σ] {r : Registers} {x y z x' y' z' : Int} {e : Encoded}

/-- A vertex instruction moves the current point to its target, and sends a vertex there. -/
theorem IsAt.execute_target (h : r.IsAt x y z) (target : e.target? x y z = some (x', y', z'))
    (s : σ) : r.execute s e.meaning = (r.movedTo x' y' z').sendVertex s := by
  obtain ⟨hx, hy, hz⟩ := h
  obtain ⟨id, ws⟩ := e
  unfold Encoded.target? at target
  split at target <;> rename_i hid <;> cases target <;>
    simp only [Encoded.signedField_sixteen, Encoded.signedField_ten]
  · obtain rfl : id = 0x23 := UInt8.toNat_inj.1 hid
    rfl
  · obtain rfl : id = 0x24 := UInt8.toNat_inj.1 hid
    rw [movedTo, Int.mul_comm, Int.mul_comm 64, Int.mul_comm 64]
    rfl
  · obtain rfl : id = 0x25 := UInt8.toNat_inj.1 hid
    rw [movedTo, ← hz]
    rfl
  · obtain rfl : id = 0x26 := UInt8.toNat_inj.1 hid
    rw [movedTo, ← hy]
    rfl
  · obtain rfl : id = 0x27 := UInt8.toNat_inj.1 hid
    rw [movedTo, ← hx]
    rfl
  · obtain rfl : id = 0x28 := UInt8.toNat_inj.1 hid
    rw [movedTo, ← Instruction.fixed_add, ← Instruction.fixed_add, ← Instruction.fixed_add, ← hx,
      ← hy, ← hz]
    rfl

theorem position_sendPolygon (o : Outline) (r : Registers) (s : σ) :
    (r.sendPolygon o s).state.position = r.position := by
  unfold sendPolygon
  split
  · rfl
  · split <;> rfl

/-- Sending a vertex does not move the current point, whatever becomes of the vertex. -/
theorem position_sendVertex (r : Registers) (s : σ) :
    (r.sendVertex s).state.position = r.position := by
  unfold sendVertex
  split
  · rfl
  · dsimp only
    split
    · unfold sendCompleted
      split
      · rfl
      · exact position_sendPolygon _ _ _
    · rfl
    · rfl

theorem position_execute_of_other {i : Instruction} (other : i.isVertex = false) (s : σ) :
    (r.execute s i).state.position = r.position := by
  cases i with
  | place x y z => cases other
  | offset dx dy dz => cases other
  | swapBuffers =>
    rw [execute, sendSwap]
    split <;> rfl
  | setViewport view =>
    rw [execute, sendViewport]
    split <;> rfl
  | _ => rfl

/-- A vertex instruction leaves the current point at its target. -/
theorem IsAt.target (h : r.IsAt x y z) (target : e.target? x y z = some (x', y', z')) (s : σ) :
    (r.execute s e.meaning).state.IsAt x' y' z' := by
  have position : (r.execute s e.meaning).state.position = (r.movedTo x' y' z').position := by
    rw [h.execute_target target, position_sendVertex]
  exact ⟨congrArg Point.x position, congrArg Point.y position, congrArg Point.z position⟩

/-- Any other instruction leaves it where it is. -/
theorem IsAt.stays (h : r.IsAt x y z) (target : e.target? x y z = none) (s : σ) :
    (r.execute s e.meaning).state.IsAt x y z := by
  have position := position_execute_of_other (r := r) (Encoded.isVertex_meaning_of_target? target) s
  exact ⟨position ▸ h.first, position ▸ h.second, position ▸ h.third⟩

/-- A vertex that is spelled out is placed where its short form places it. -/
theorem IsAt.execute_placeAt (h : r.IsAt x y z) (target : e.target? x y z = some (x', y', z'))
    (hx : Encoded.hasRoom x' = true) (hy : Encoded.hasRoom y' = true)
    (hz : Encoded.hasRoom z' = true) (s : σ) :
    r.execute s (Encoded.placeAt x' y' z').meaning = r.execute s e.meaning := by
  rw [Encoded.meaning_placeAt hx hy hz, h.execute_target target]
  rfl

/-- With all coordinates spelled out, a stream does the same step by step. -/
theorem IsAt.sameRun_fullPoints {r : Registers} {x y z : Int} (h : r.IsAt x y z)
    {es : List Encoded} (room : Encoded.pointsHaveRoom x y z es = true) :
    SameRun σ r ((Encoded.fullPoints x y z es).map Encoded.meaning) (es.map Encoded.meaning) := by
  induction es generalizing r x y z with
  | nil => exact .nil
  | cons e es ih =>
    rw [Encoded.pointsHaveRoom] at room
    rw [Encoded.fullPoints, List.map_cons, List.map_cons, Encoded.fullPoint]
    cases target : e.target? x y z with
    | none =>
      rw [target] at room
      simp only [Option.getD_none, ite_self]
      exact .cons (fun _ => rfl) fun s => ih (h.stays target s) room
    | some goal =>
      obtain ⟨x', y', z'⟩ := goal
      rw [target] at room
      simp only [Bool.and_eq_true] at room
      obtain ⟨⟨⟨hx, hy⟩, hz⟩, room⟩ := room
      have same (s : σ) : r.execute s
          (if e.id = 0x23 then e else Encoded.placeAt x' y' z').meaning = r.execute s e.meaning := by
        split
        · rfl
        · exact h.execute_placeAt target hx hy hz s
      exact .cons same fun s => same s ▸ ih (h.target target s) room

end Registers

/-! ### Streams -/

namespace Encoded

theorem isComplete_fullPoints {es : List Encoded} (complete : ∀ e ∈ es, e.isComplete = true)
    (x y z : Int) : ∀ e ∈ fullPoints x y z es, e.isComplete = true := by
  induction es generalizing x y z with
  | nil => exact complete
  | cons e es ih =>
    obtain ⟨first, rest⟩ := List.forall_mem_cons.1 complete
    have full : (e.fullPoint x y z).isComplete = true := by
      unfold fullPoint
      split
      · exact first
      · split
        · rfl
        · exact first
    exact List.forall_mem_cons.2 ⟨full, ih rest _ _ _⟩

end Encoded

namespace FrontEnd

variable {σ : Type} [Sink σ] {fe : FrontEnd} {es : List Encoded}

/-- Short forms of points can be spelled out in a stream, as long as there is room for the
    coordinates that they stand for: the front-end ends up in the same state, and the same commands
    are sent and meet the same answers, also where vertices are dropped or turned away. -/
theorem interchangeable_fullPoints (idle : fe.IsIdle) (complete : ∀ e ∈ es, e.isComplete = true)
    (room : let p := fe.registers.position
      Encoded.pointsHaveRoom p.x.raw.toInt p.y.raw.toInt p.z.raw.toInt es = true) (s : σ) :
    let p := fe.registers.position
    fe.Interchangeable (⟨s, []⟩ : Ledger σ)
      (Encoded.fullPoints p.x.raw.toInt p.y.raw.toInt p.z.raw.toInt es) es :=
  interchangeable_of_sameRun idle (Encoded.isComplete_fullPoints complete _ _ _) complete
    (fe.registers.isAt_position.sameRun_fullPoints room) _

/-- Six vertices in all forms, for two of which there is room in the frame. The second one is turned
    away, and still moves the point that the third one is told from. -/
theorem interchangeable_fullPoints_dropped :
    let fe : FrontEnd := { registers := { vertices := 4094 } }
    let es : List Encoded := [⟨0x23, [0x80007FFF, 0x12340005]⟩, ⟨0x24, [0x200801FF]⟩,
      ⟨0x28, [0x00100401]⟩, ⟨0x25, [0x0002FFFF]⟩, ⟨0x26, [0x00040003]⟩, ⟨0x27, [0x00060005]⟩]
    let full : List Encoded := [⟨0x23, [0x80007FFF, 0x12340005]⟩, ⟨0x23, [0x80007FC0, 0x8000]⟩,
      ⟨0x23, [0x80017FC1, 0x8001]⟩, ⟨0x23, [0x0002FFFF, 0x8001]⟩, ⟨0x23, [0x00020003, 4]⟩,
      ⟨0x23, [0x00050003, 6]⟩]
    let s : Ledger Script := ⟨⟨[.accepted, .refused]⟩, []⟩
    let done := fe.callAll s (Encoded.calls es)
    fe.IsIdle ∧ (∀ e ∈ es, e.isComplete = true) ∧ Encoded.pointsHaveRoom 0 0 0 es = true ∧
      fe.callAll s (Encoded.calls full) = done ∧ done.1.registers.vertices = 4096 ∧
      done.2.entries.map Prod.snd = [.accepted, .refused, .accepted] := by
  intro fe es full s done
  have idle : fe.IsIdle := ⟨rfl, rfl, rfl⟩
  have complete : ∀ e ∈ es, e.isComplete = true := by decide
  have room : Encoded.pointsHaveRoom 0 0 0 es = true := by decide
  have spelled : Encoded.fullPoints 0 0 0 es = full := by decide
  have same := (interchangeable_fullPoints idle complete room s.receiver).plain
  exact ⟨idle, complete, room, spelled ▸ same, by decide +kernel, by decide +kernel⟩

end FrontEnd

end GeometryEngine
