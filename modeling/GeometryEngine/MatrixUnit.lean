import GeometryEngine.Matrix

/-!
# The matrix unit

The front-end keeps two matrices: points are multiplied by the *coordinate*
matrix and then by the *projection* matrix. Each has a stack. That of the
projection matrix has room for one matrix, that of the coordinate matrix for 31,
of which the last is flagged as an overflow. Instructions go to the matrix that
the mode selects; the texture matrix is not kept, and instructions to it have no
effect.

The product of both, the *clip* matrix, is worked out when it is asked for and
kept until one of them changes (`MatrixUnit.refresh`).
-/

namespace GeometryEngine

/-- The matrix that instructions go to. -/
inductive MatrixMode
  | projection
  | coordinate
  | texture
  deriving DecidableEq, Inhabited

/-- The mode with a given number, of which the lowest two bits count. -/
def MatrixMode.ofWord (w : UInt32) : MatrixMode :=
  match w.toNat % 4 with
  | 0 => .projection
  | 1 | 2 => .coordinate
  | _ => .texture

/-- The two matrices, their stacks and their product. -/
structure MatrixUnit where
  /-- The matrix that instructions go to. -/
  mode : MatrixMode := .projection
  /-- The projection matrix. -/
  projection : Matrix := .identity
  /-- The matrix on the projection stack. -/
  savedProjection : Matrix := .identity
  /-- The number of matrices pushed onto the projection stack. -/
  projectionDepth : Nat := 0
  /-- The coordinate matrix. -/
  coordinate : Matrix := .identity
  /-- The matrices on the coordinate stack. -/
  slots : Vector Matrix 32 := Vector.replicate 32 .identity
  /-- The slot that the next matrix is pushed to. -/
  pointer : Nat := 0
  /-- Whether a stack was used beyond its bounds. -/
  stackError : Bool := false
  /-- The clip matrix when it was last worked out. -/
  clip : Matrix := .identity
  /-- Whether a matrix has changed since then. -/
  stale : Bool := false
  deriving DecidableEq

namespace MatrixUnit

instance : Inhabited MatrixUnit := ⟨{}⟩

/-- The matrix in a slot of the coordinate stack. -/
def slot (u : MatrixUnit) (i : Nat) : Matrix := u.slots[i]?.getD .identity

/-- Replaces the selected matrix. -/
def load (m : Matrix) (u : MatrixUnit) : MatrixUnit :=
  match u.mode with
  | .projection => { u with projection := m, stale := true }
  | .coordinate => { u with coordinate := m, stale := true }
  | .texture => u

/-- Puts a matrix before the selected one, so that it is applied first. -/
def multiply (m : Matrix) (u : MatrixUnit) : MatrixUnit :=
  match u.mode with
  | .projection => { u with projection := m * u.projection, stale := true }
  | .coordinate => { u with coordinate := m * u.coordinate, stale := true }
  | .texture => u

/-- Pushes the selected matrix onto its stack. Onto the full stack nothing is
    pushed; pushing to the last slot of the coordinate stack is an error too, but
    is done. -/
def push (u : MatrixUnit) : MatrixUnit :=
  match u.mode with
  | .projection =>
    if u.projectionDepth = 0 then
      { u with savedProjection := u.projection, projectionDepth := 1 }
    else { u with stackError := true }
  | .coordinate =>
    let u := if 30 ≤ u.pointer then { u with stackError := true } else u
    if u.pointer < 31 then
      { u with slots := u.slots.setIfInBounds u.pointer u.coordinate, pointer := u.pointer + 1 }
    else u
  | .texture => u

/-- Takes back the selected matrix from its stack: of the coordinate stack the one
    that was pushed `distance` pushes ago. Beyond the stack nothing is taken, and
    the last slot is an error too. -/
def pop (distance : Int) (u : MatrixUnit) : MatrixUnit :=
  match u.mode with
  | .projection =>
    if u.projectionDepth = 0 then { u with stackError := true }
    else { u with projectionDepth := 0, projection := u.savedProjection, stale := true }
  | .coordinate =>
    let address : Int := u.pointer - distance
    let u := if address < 0 ∨ 30 ≤ address then { u with stackError := true } else u
    if 0 ≤ address ∧ address < 31 then
      { u with coordinate := u.slot address.toNat, pointer := address.toNat, stale := true }
    else u
  | .texture => u

/-- Copies the selected matrix to a slot of its stack. The slot beyond the
    coordinate stack is an error, but is used. -/
def store (i : Fin 32) (u : MatrixUnit) : MatrixUnit :=
  match u.mode with
  | .projection => { u with savedProjection := u.projection }
  | .coordinate =>
    let u := if i = 31 then { u with stackError := true } else u
    { u with slots := u.slots.set i u.coordinate }
  | .texture => u

/-- Copies the selected matrix back from a slot of its stack. The slot beyond the
    coordinate stack is an error, but is used. -/
def restore (i : Fin 32) (u : MatrixUnit) : MatrixUnit :=
  match u.mode with
  | .projection => { u with projection := u.savedProjection, stale := true }
  | .coordinate =>
    let u := if i = 31 then { u with stackError := true } else u
    { u with coordinate := u.slots[i], stale := true }
  | .texture => u

/-- Forgets a stack error, together with what is on the projection stack. -/
def acknowledge (u : MatrixUnit) : MatrixUnit :=
  { u with stackError := false, projectionDepth := 0 }

/-- Works out the clip matrix, if a matrix has changed. -/
def refresh (u : MatrixUnit) : MatrixUnit :=
  if u.stale then { u with clip := u.coordinate * u.projection, stale := false } else u

end MatrixUnit

end GeometryEngine
