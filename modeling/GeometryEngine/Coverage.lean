import GeometryEngine.Renderer

/-!
# What a triangle covers

Which columns of a line a triangle covers, told for each line by itself: the bounds
of a triangle on a line are worked out from the line on which it begins
(`Triangle.boundsOn`). Nothing is drawn here and no bounds move, so what was drawn
before plays no part.

The bounds on two lines, one below the other, differ by the change that drawing
makes between them (`boundsOn_succ`), so they are also those that come of one change
after another (`boundsAfter_eq_boundsOn`).
-/

namespace GeometryEngine

/-! ### Bounds on a line -/

/-- The sum of `n` equal changes. -/
def Bounds.times (n : Nat) (b : Bounds) : Bounds :=
  ⟨⟨Int32.ofNat n * b.left.raw⟩, ⟨Int32.ofNat n * b.right.raw⟩⟩

theorem Bounds.ext_raw {a b : Bounds} (left : a.left.raw = b.left.raw)
    (right : a.right.raw = b.right.raw) : a = b := by
  cases a; cases b
  congr 1
  · exact Fixed.ext_raw left
  · exact Fixed.ext_raw right

theorem Bounds.add_assoc (a b c : Bounds) : a + b + c = a + (b + c) :=
  ext_raw (by simp only [left_add, Fixed.raw_add]; ac_rfl)
    (by simp only [right_add, Fixed.raw_add]; ac_rfl)

theorem Bounds.add_right_comm (a b c : Bounds) : a + b + c = a + c + b :=
  ext_raw (by simp only [left_add, Fixed.raw_add]; ac_rfl)
    (by simp only [right_add, Fixed.raw_add]; ac_rfl)

theorem Bounds.times_succ (n : Nat) (b : Bounds) : times (n + 1) b = times n b + b :=
  ext_raw (by simp [times, Int32.ofNat_add, Int32.add_mul])
    (by simp [times, Int32.ofNat_add, Int32.add_mul])

namespace Triangle

/-- The number of the lines from `first` on and above `y` that are above the
    bend. -/
def linesAbove (t : Triangle) (first y : Int) : Nat := (min y t.bend.toInt - first).toNat

/-- The bounds on line `y`, if the triangle is drawn from line `first` on. -/
def boundsOn (t : Triangle) (first y : Int) : Bounds :=
  t.start + Bounds.times (t.linesAbove first y) t.upper +
    Bounds.times ((y - first).toNat - t.linesAbove first y) t.lower

variable (t : Triangle) {first y : Int}

/-- On its first line a triangle has the bounds of its top corner. -/
theorem boundsOn_self : t.boundsOn first first = t.start := by
  have h : t.linesAbove first first = 0 := by simp only [linesAbove]; omega
  exact Bounds.ext_raw (by simp [boundsOn, h, Bounds.times])
    (by simp [boundsOn, h, Bounds.times])

/-- From a line to the next the bounds change as they do while the triangle is
    drawn. -/
theorem boundsOn_succ (h : first ≤ y) :
    t.boundsOn first (y + 1) =
      t.boundsOn first y + if y < t.bend.toInt then t.upper else t.lower := by
  simp only [boundsOn]
  split <;> rename_i hy
  · have above : t.linesAbove first (y + 1) = t.linesAbove first y + 1 := by
      simp only [linesAbove]; omega
    have below : (y + 1 - first).toNat - t.linesAbove first (y + 1) =
        (y - first).toNat - t.linesAbove first y := by
      simp only [linesAbove]; omega
    rw [below, above, Bounds.times_succ, Bounds.add_right_comm _ _ t.upper, ← Bounds.add_assoc]
  · have above : t.linesAbove first (y + 1) = t.linesAbove first y := by
      simp only [linesAbove]; omega
    have below : (y + 1 - first).toNat - t.linesAbove first y =
        (y - first).toNat - t.linesAbove first y + 1 := by
      simp only [linesAbove]; omega
    rw [above, below, Bounds.times_succ, ← Bounds.add_assoc]

/-- The bounds after `n` lines of drawing that begins on line `first`, told line by
    line. -/
def boundsAfter (t : Triangle) (first : Int) : Nat → Bounds
  | 0 => t.start
  | n + 1 => t.boundsAfter first n + if first + n < t.bend.toInt then t.upper else t.lower

/-- Told line by line, the bounds are those of the line that is reached. -/
theorem boundsAfter_eq_boundsOn (first : Int) (n : Nat) :
    t.boundsAfter first n = t.boundsOn first (first + n) := by
  induction n with
  | zero => rw [boundsAfter, Int.natCast_zero, Int.add_zero, boundsOn_self]
  | succ n ih =>
    rw [boundsAfter, ih, Int.natCast_succ, ← Int.add_assoc, boundsOn_succ t (by omega)]

end Triangle

/-- The first line of the screen that a triangle reaches. -/
def Slot.firstLine (s : Slot) (t : Triangle) : Int := max 0 (s.vertex t.v0).screenY.toInt

end GeometryEngine
