/-!
# Fixed-point numbers

The engine computes in signed 32-bit numbers with 12 fractional bits: the raw
word `n` stands for `n / 4096`. A result that does not fit is wrapped around to
32 bits, as in a register. Products and sums of products are taken exactly and
rounded down to a multiple of `1 / 4096`; quotients are rounded toward zero.
-/

namespace GeometryEngine

/-- A signed number with 12 fractional bits. -/
structure Fixed where
  /-- The number in units of `1 / 4096`. -/
  raw : Int32
  deriving DecidableEq, Inhabited

namespace Fixed

/-- The whole number `n`, wrapped around. -/
def ofInt (n : Int32) : Fixed := ⟨n * 4096⟩

instance (n : Nat) : OfNat Fixed n := ⟨ofInt (Int32.ofNat n)⟩

/-- The largest whole number that is at most `a`. -/
def floor (a : Fixed) : Int32 := Int32.ofInt (a.raw.toInt / 4096)

/-- The number whose raw word is an exact sum of products of raw words, rounded
    down to the 12 fractional bits and wrapped around. -/
def ofProducts (sum : Int) : Fixed := ⟨Int32.ofInt (sum / 4096)⟩

/-- The quotient of two numbers, rounded toward zero; the divisor is not `0`. -/
def div (a b : Fixed) : Fixed := ⟨Int32.ofInt ((a.raw.toInt * 4096).tdiv b.raw.toInt)⟩

/-- The sum with a whole number. -/
def addInt (a : Fixed) (n : Int32) : Fixed := ⟨a.raw + (ofInt n).raw⟩

/-- The quotient by a whole number, rounded toward zero; the divisor is not `0`. -/
def divInt (a : Fixed) (n : Int32) : Fixed := ⟨a.raw / n⟩

instance : Add Fixed := ⟨fun a b => ⟨a.raw + b.raw⟩⟩
instance : Sub Fixed := ⟨fun a b => ⟨a.raw - b.raw⟩⟩
instance : Neg Fixed := ⟨fun a => ⟨-a.raw⟩⟩
instance : Mul Fixed := ⟨fun a b => ofProducts (a.raw.toInt * b.raw.toInt)⟩
instance : Div Fixed := ⟨div⟩
instance : LT Fixed := ⟨fun a b => a.raw < b.raw⟩
instance : LE Fixed := ⟨fun a b => a.raw ≤ b.raw⟩

instance (a b : Fixed) : Decidable (a < b) := inferInstanceAs (Decidable (a.raw < b.raw))
instance (a b : Fixed) : Decidable (a ≤ b) := inferInstanceAs (Decidable (a.raw ≤ b.raw))

theorem ext_raw {a b : Fixed} (h : a.raw = b.raw) : a = b := by
  cases a; cases b; cases h; rfl

@[simp] theorem raw_add (a b : Fixed) : (a + b).raw = a.raw + b.raw := rfl

@[simp] theorem raw_sub (a b : Fixed) : (a - b).raw = a.raw - b.raw := rfl

@[simp] theorem raw_neg (a : Fixed) : (-a).raw = -a.raw := rfl

/-- Rounding down to a whole number does not wrap around. -/
theorem toInt_floor (a : Fixed) : a.floor.toInt = a.raw.toInt / 4096 := by
  have := a.raw.le_toInt
  have := a.raw.toInt_lt
  rw [floor, Int32.toInt_ofInt_of_le] <;> omega

theorem lt_iff (a b : Fixed) : a < b ↔ a.raw.toInt < b.raw.toInt := Int32.lt_iff_toInt_lt

theorem le_iff (a b : Fixed) : a ≤ b ↔ a.raw.toInt ≤ b.raw.toInt := Int32.le_iff_toInt_le

end Fixed

end GeometryEngine
