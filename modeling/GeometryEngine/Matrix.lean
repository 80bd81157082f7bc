import GeometryEngine.Fixed

/-!
# Matrices

Matrices of four rows and four columns of fixed-point numbers. Points are rows
of four numbers and are multiplied from the left, so the last row of a matrix
moves a point. An entry of a product is the exact sum of four products, rounded
down once (`Fixed.ofProducts`).
-/

namespace GeometryEngine

/-- A point in four coordinates. -/
structure Point where
  /-- The first coordinate. -/
  x : Fixed := 0
  /-- The second coordinate. -/
  y : Fixed := 0
  /-- The third coordinate. -/
  z : Fixed := 0
  /-- The fourth coordinate, which is `1` for a point of space. -/
  w : Fixed := 1
  deriving DecidableEq, Inhabited

/-- A matrix of four rows and four columns. -/
structure Matrix where
  /-- The entries, row by row. -/
  entries : Vector Fixed 16
  deriving DecidableEq

namespace Matrix

/-- The matrix with the entry `f i j` in row `i` and column `j`. -/
def ofFn (f : Fin 4 → Fin 4 → Fixed) : Matrix :=
  ⟨Vector.ofFn fun k => f ⟨k / 4, by omega⟩ ⟨k % 4, by omega⟩⟩

/-- The entry in row `i` and column `j`. -/
def entry (m : Matrix) (i j : Fin 4) : Fixed :=
  have _inside : 4 * i.val + j.val < 16 := by omega
  m.entries[4 * i.val + j.val]

@[simp] theorem entry_ofFn (f : Fin 4 → Fin 4 → Fixed) (i j : Fin 4) :
    (ofFn f).entry i j = f i j := by
  have hi : (4 * (i : Nat) + j) / 4 = i := by omega
  have hj : (4 * (i : Nat) + j) % 4 = j := by omega
  simp [ofFn, entry, hi, hj]

/-- The matrix that changes no point. -/
def identity : Matrix := ofFn fun i j => if i = j then 1 else 0

instance : Inhabited Matrix := ⟨identity⟩

/-- The exact sum of four products, rounded down once. -/
def sum4 (a₀ b₀ a₁ b₁ a₂ b₂ a₃ b₃ : Fixed) : Fixed :=
  Fixed.ofProducts (a₀.raw.toInt * b₀.raw.toInt + a₁.raw.toInt * b₁.raw.toInt +
    a₂.raw.toInt * b₂.raw.toInt + a₃.raw.toInt * b₃.raw.toInt)

/-- The product of two matrices: first `a`, then `b`. -/
def mul (a b : Matrix) : Matrix :=
  ofFn fun i j =>
    sum4 (a.entry i 0) (b.entry 0 j) (a.entry i 1) (b.entry 1 j) (a.entry i 2) (b.entry 2 j)
      (a.entry i 3) (b.entry 3 j)

instance : Mul Matrix := ⟨mul⟩

@[simp] theorem entry_mul (a b : Matrix) (i j : Fin 4) :
    (a * b).entry i j =
      sum4 (a.entry i 0) (b.entry 0 j) (a.entry i 1) (b.entry 1 j) (a.entry i 2) (b.entry 2 j)
        (a.entry i 3) (b.entry 3 j) := by
  change (mul a b).entry i j = _
  rw [mul, entry_ofFn]

/-- The product of a point and column `j` of a matrix. -/
def applyColumn (m : Matrix) (p : Point) (j : Fin 4) : Fixed :=
  sum4 p.x (m.entry 0 j) p.y (m.entry 1 j) p.z (m.entry 2 j) p.w (m.entry 3 j)

/-- Where a matrix takes a point. -/
def apply (m : Matrix) (p : Point) : Point :=
  { x := m.applyColumn p 0, y := m.applyColumn p 1, z := m.applyColumn p 2
    w := m.applyColumn p 3 }

/-! ### Matrices from fewer numbers

The numbers that are not given are those of the identity. -/

/-- The matrix whose entries are the raw words `ws`, row by row. -/
def ofWords (ws : List UInt32) : Matrix :=
  ofFn fun i j => ⟨(ws.getD (4 * i + j) 0).toInt32⟩

/-- The matrix whose first three columns are the raw words `ws`, row by row. -/
def ofWords43 (ws : List UInt32) : Matrix :=
  ofFn fun i j => if j = 3 then identity.entry i j else ⟨(ws.getD (3 * i + j) 0).toInt32⟩

/-- The matrix whose first three rows and columns are the raw words `ws`, row by
    row. -/
def ofWords33 (ws : List UInt32) : Matrix :=
  ofFn fun i j =>
    if i = 3 ∨ j = 3 then identity.entry i j else ⟨(ws.getD (3 * i + j) 0).toInt32⟩

/-- The matrix that multiplies the first three coordinates by the raw words
    `ws`. -/
def scaling (ws : List UInt32) : Matrix :=
  ofFn fun i j => if i = j ∧ i ≠ 3 then ⟨(ws.getD i 0).toInt32⟩ else identity.entry i j

/-- The matrix that adds the raw words `ws` to the first three coordinates. -/
def displacement (ws : List UInt32) : Matrix :=
  ofFn fun i j => if i = 3 ∧ j ≠ 3 then ⟨(ws.getD j 0).toInt32⟩ else identity.entry i j

end Matrix

end GeometryEngine
