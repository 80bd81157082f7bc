import GeometryEngine.Fixed

/-!
# Decimal text of a fraction

A fraction is written with a fixed number of decimal places. The last place is
rounded to the nearest, and a tie goes to the even digit. A negative fraction
keeps its sign even if all written digits are `0`.

A fixed-point number has at most 12 decimal places, so 12 places show it exactly
(`Fixed.decimal_twelve`).
-/

namespace GeometryEngine

namespace Decimal

/-- The whole number nearest to `n / d`, a tie going to the even neighbour. -/
def roundDiv (n d : Nat) : Nat :=
  if 2 * (n % d) < d ∨ (2 * (n % d) = d ∧ n / d % 2 = 0) then n / d else n / d + 1

/-- The digits of `n`, filled up with zeros on the left to `width` digits. -/
def padded (width n : Nat) : String :=
  let digits := toString n
  String.ofList (List.replicate (width - digits.length) '0') ++ digits

/-- The fraction `n / d` with the given number of decimal places. -/
def ofFraction (places : Nat) (n : Int) (d : Nat) : String :=
  let unit := Nat.pow 10 places
  let scaled := roundDiv (n.natAbs * unit) d
  (if n < 0 then "-" else "") ++ toString (scaled / unit) ++ "." ++ padded places (scaled % unit)

/-- Rounding keeps a quotient that is a whole number. -/
theorem roundDiv_of_dvd {n d : Nat} (hd : 0 < d) (h : d ∣ n) : roundDiv n d = n / d := by
  have hr : n % d = 0 := Nat.mod_eq_zero_of_dvd h
  simp [roundDiv, hr, hd]

end Decimal

/-- A fixed-point number with the given number of decimal places. -/
def Fixed.decimal (places : Nat) (a : Fixed) : String :=
  Decimal.ofFraction places a.raw.toInt 4096

/-- With 12 decimal places nothing is rounded away. -/
theorem Fixed.decimal_twelve (a : Fixed) :
    Decimal.roundDiv (a.raw.toInt.natAbs * Nat.pow 10 12) 4096 =
      a.raw.toInt.natAbs * 244140625 := by
  have unit : Nat.pow 10 12 = 1000000000000 := rfl
  rw [unit, Decimal.roundDiv_of_dvd (by decide) (by omega)]
  omega

end GeometryEngine
