import GeometryEngine.Encoded

/-!
# Short forms

A matrix or a point can be spelled out in full or in a short form. What a short
form stands for is given here as an instruction of full length:
`Encoded.fullMatrix` for matrices, and `Encoded.fullPoint` for vertices, which
depends on where the vertex before was placed. A point has room for it only if none
of its coordinates needs more than 16 bits (`Encoded.pointsHaveRoom`).
-/

namespace GeometryEngine

namespace Encoded

/-! ### Matrices -/

/-- The instruction with all entries of the matrix that it loads or multiplies by
    written out, row by row: those that it is given, and for the others the `0` and
    `1` of the identity, of which the latter has the raw word 4096. -/
def fullMatrix (e : Encoded) : Encoded :=
  let w (i : Nat) := e.parameters.getD i 0
  match e.id.toNat with
  | 0x15 =>
    ⟨0x16,
      [4096, 0, 0, 0,
       0, 4096, 0, 0,
       0, 0, 4096, 0,
       0, 0, 0, 4096]⟩
  | 0x17 =>
    ⟨0x16,
      [w 0, w 1, w 2, 0,
       w 3, w 4, w 5, 0,
       w 6, w 7, w 8, 0,
       w 9, w 10, w 11, 4096]⟩
  | 0x19 =>
    ⟨0x18,
      [w 0, w 1, w 2, 0,
       w 3, w 4, w 5, 0,
       w 6, w 7, w 8, 0,
       w 9, w 10, w 11, 4096]⟩
  | 0x1A =>
    ⟨0x18,
      [w 0, w 1, w 2, 0,
       w 3, w 4, w 5, 0,
       w 6, w 7, w 8, 0,
       0, 0, 0, 4096]⟩
  | 0x1B =>
    ⟨0x18,
      [w 0, 0, 0, 0,
       0, w 1, 0, 0,
       0, 0, w 2, 0,
       0, 0, 0, 4096]⟩
  | 0x1C =>
    ⟨0x18,
      [4096, 0, 0, 0,
       0, 4096, 0, 0,
       0, 0, 4096, 0,
       w 0, w 1, w 2, 4096]⟩
  | _ => e

/-! ### Vertices -/

/-- The number in the `bits` bits of a word from bit `shift` on, the highest of
    which is its sign. -/
def signedField (w : UInt32) (shift bits : Nat) : Int :=
  let n : Nat := (w.toNat >>> shift) % (1 <<< bits)
  if n < 1 <<< (bits - 1) then n else (n : Int) - (1 <<< bits : Nat)

/-- The raw coordinates at which a vertex instruction places its vertex, if the
    vertex before it was placed at `x`, `y` and `z`. -/
def target? (x y z : Int) (e : Encoded) : Option (Int × Int × Int) :=
  let w := e.parameters.headD 0
  match e.id.toNat with
  | 0x23 =>
    some (signedField w 0 16, signedField w 16 16, signedField (e.parameters.getD 1 0) 0 16)
  | 0x24 =>
    some (64 * signedField w 0 10, 64 * signedField w 10 10, 64 * signedField w 20 10)
  | 0x25 => some (signedField w 0 16, signedField w 16 16, z)
  | 0x26 => some (signedField w 0 16, y, signedField w 16 16)
  | 0x27 => some (x, signedField w 0 16, signedField w 16 16)
  | 0x28 => some (x + signedField w 0 10, y + signedField w 10 10, z + signedField w 20 10)
  | _ => none

/-- The word with two coordinates, each in 16 bits. -/
def pair (low high : Int) : UInt32 :=
  UInt32.ofNat ((low % 65536).toNat + 65536 * (high % 65536).toNat)

/-- The instruction that places a vertex at the given coordinates, all of them
    spelled out. -/
def placeAt (x y z : Int) : Encoded := ⟨0x23, [pair x y, pair z 0]⟩

/-- Whether a raw coordinate can be spelled out, for which it has 16 bits. -/
def hasRoom (x : Int) : Bool := -32768 ≤ x && x < 32768

/-- The instruction with all coordinates of the vertex that it places spelled
    out, if the vertex before it was placed at `x`, `y` and `z`. -/
def fullPoint (x y z : Int) (e : Encoded) : Encoded :=
  if e.id = 0x23 then e
  else
    match e.target? x y z with
    | some (x, y, z) => placeAt x y z
    | none => e

/-- Instructions with all coordinates of their vertices spelled out, if the vertex
    before them was placed at `x`, `y` and `z`. -/
def fullPoints (x y z : Int) : List Encoded → List Encoded
  | [] => []
  | e :: es =>
    let (x', y', z') := (e.target? x y z).getD (x, y, z)
    e.fullPoint x y z :: fullPoints x' y' z' es

/-- Whether the coordinates of all vertices can be spelled out, if the vertex before
    them was placed at `x`, `y` and `z`. -/
def pointsHaveRoom (x y z : Int) : List Encoded → Bool
  | [] => true
  | e :: es =>
    match e.target? x y z with
    | some (x, y, z) => hasRoom x && hasRoom y && hasRoom z && pointsHaveRoom x y z es
    | none => pointsHaveRoom x y z es

end Encoded

end GeometryEngine
