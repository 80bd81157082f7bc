/-!
# Numbers in a settings file

A number is written in decimal, in hexadecimal after `0x`, or in octal after `0`.
It can also be written in binary after `0b`, if the library that reads it knows
that prefix: newer ones do, and `0b101` is five to them and zero to the others.
Which kind the library is of is the parameter `binary`.

What follows the last digit does not count, and a text that does not begin with a
decimal digit is no number at all. A prefix without a digit of its base behind it
is the number `0`, before a letter that does not count.
-/

namespace GeometryEngine.Numeral

/-- The value of a digit, of which there are 16. -/
def digit? (c : Char) : Option Nat :=
  if '0' ≤ c ∧ c ≤ '9' then some (c.toNat - '0'.toNat)
  else if 'a' ≤ c ∧ c ≤ 'f' then some (c.toNat - 'a'.toNat + 10)
  else if 'A' ≤ c ∧ c ≤ 'F' then some (c.toNat - 'A'.toNat + 10)
  else none

/-- Whether a character is a digit in the given base. -/
def isDigit (base : Nat) (c : Char) : Bool :=
  match digit? c with
  | some d => d < base
  | none => false

theorem digit?_of_isDigit {c : Char} (h : c.isDigit = true) :
    digit? c = some (c.toNat - '0'.toNat) := by
  rw [digit?, if_pos (by simpa [Char.isDigit, Char.le_def] using h)]

theorem digit_lt_ten {c : Char} (h : c.isDigit = true) : c.toNat - '0'.toNat < 10 := by
  obtain ⟨lower, upper⟩ := Char.isDigit_iff_toNat.1 h
  exact Nat.sub_lt_left_of_lt_add lower (Nat.lt_succ_of_le upper)

theorem isDigit_ten (c : Char) : isDigit 10 c = c.isDigit := by
  cases h : c.isDigit with
  | true =>
    rw [isDigit, digit?_of_isDigit h]
    exact decide_eq_true (digit_lt_ten h)
  | false =>
    rw [isDigit, digit?, if_neg fun digit => by simp [Char.isDigit_iff_toNat.2 digit] at h]
    split
    · rename_i d found
      -- The other digits are letters, which count from 10 on.
      have letter : 10 ≤ d := by
        split at found
        · cases found
          exact Nat.le_add_left ..
        · split at found
          · cases found
            exact Nat.le_add_left ..
          · exact nomatch found
      exact decide_eq_false (Nat.not_lt.2 letter)
    · rfl

/-- The number whose digits a text begins with, behind those with the value
    `value`. -/
def leading (base value : Nat) : List Char → Nat
  | [] => value
  | c :: cs =>
    match digit? c with
    | some d => if d < base then leading base (value * base + d) cs else value
    | none => value

/-- The number that a text begins with, if it begins with one. -/
def read? (binary : Bool) (cs : List Char) : Option Nat :=
  match cs with
  | [] => none
  | c :: rest =>
    if !isDigit 10 c then none
    else if c = '0' then
      match rest with
      | x :: h :: rest =>
        if (x = 'x' ∨ x = 'X') ∧ isDigit 16 h then some (leading 16 0 (h :: rest))
        else if binary ∧ (x = 'b' ∨ x = 'B') ∧ isDigit 2 h then some (leading 2 0 (h :: rest))
        else some (leading 8 0 cs)
      | _ => some (leading 8 0 cs)
    else some (leading 10 0 cs)

/-- A text is no number unless it begins with a digit. -/
theorem read?_eq_none_iff (binary : Bool) (cs : List Char) :
    read? binary cs = none ↔ cs.head?.any Char.isDigit = false := by
  unfold read?
  cases cs with
  | nil => simp
  | cons c rest =>
    simp only [isDigit_ten, List.head?_cons, Option.any_some]
    cases c.isDigit with
    | false => simp
    | true =>
      simp only [Bool.not_true, Bool.false_eq_true, if_false, Bool.true_eq_false, iff_false]
      split
      · split
        · split
          · nofun
          · split <;> nofun
        · nofun
      · nofun

end GeometryEngine.Numeral
