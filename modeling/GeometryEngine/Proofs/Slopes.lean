import GeometryEngine.Proofs.Picture
import GeometryEngine.Proofs.SetUp
import Mathlib.Algebra.Order.Field.Rat
import Mathlib.Algebra.Order.Ring.Abs
import Mathlib.Tactic.Linarith
import Mathlib.Tactic.Ring

/-!
# Slopes

The bounds of a triangle follow its edges with slopes that are rounded toward zero, and
with every line the error of the slope is added once more. Here this is told in exact
integers, for corners that are near enough to one another for no word to wrap around
(`Corner.Near`).

* `Corner.steps`: an edge that is followed with its rounded slope. It stays between its
  ends (`steps_between`), and after `n` lines it is off by `n` units at most
  (`abs_steps_sub_edge_le`).
* `Corner.bentSteps`: two edges that are followed one after the other. On the side on which
  they start off, they stay within the columns of the corners (`bentSteps_within`).
* `Triangle.boundsAfter_upright`, `Triangle.boundsAfter_level`: these are the bounds of a
  triangle that was set up, without and with a level top.
-/

namespace GeometryEngine

/-! ### Rounding toward zero -/

/-- Steps that are rounded toward zero do not lead beyond the end. -/
theorem mul_tdiv_between {d h n : Int} (first : 0 ≤ n) (last : n ≤ h) :
    min 0 d ≤ n * d.tdiv h ∧ n * d.tdiv h ≤ max 0 d := by
  -- It is enough to go to the right: to the left all signs change.
  have right {d : Int} (hd : 0 ≤ d) : 0 ≤ n * d.tdiv h ∧ n * d.tdiv h ≤ d := by
    have step : 0 ≤ d.tdiv h := Int.tdiv_nonneg hd (by omega)
    have all : h * d.tdiv h ≤ d := by
      have rest := Int.tmod_nonneg h hd
      have whole := Int.mul_tdiv_add_tmod d h
      omega
    exact ⟨Int.mul_nonneg first step, (Int.mul_le_mul_of_nonneg_right last step).trans all⟩
  rcases Int.le_total 0 d with hd | hd
  · have := right hd
    omega
  · have back := right (Int.neg_nonneg_of_nonpos hd)
    rw [Int.neg_tdiv, Int.mul_neg] at back
    omega

/-- All steps together miss the end by less than their number. -/
theorem mul_tdiv_near {d h : Int} (pos : 0 < h) : d - h < h * d.tdiv h ∧ h * d.tdiv h < d + h := by
  have whole := Int.mul_tdiv_add_tmod d h
  have := Int.tmod_lt_of_pos d pos
  have := Int.lt_tmod_of_pos d pos
  omega

/-- A quotient that is rounded differs from the exact one by a unit at most. -/
theorem abs_tdiv_sub_le {d h : Int} (pos : 0 < h) : |(d.tdiv h : ℚ) - d / h| ≤ 1 := by
  obtain ⟨low, high⟩ := mul_tdiv_near (d := d) pos
  have low : (d - h : ℚ) ≤ h * (d.tdiv h : ℚ) := by exact_mod_cast low.le
  have high : h * (d.tdiv h : ℚ) ≤ (d + h : ℚ) := by exact_mod_cast high.le
  have pos : (0 : ℚ) < h := by exact_mod_cast pos
  rw [abs_sub_le_iff]
  constructor
  · rw [sub_le_iff_le_add, ← sub_le_iff_le_add', le_div_iff₀ pos]
    linarith
  · rw [sub_le_iff_le_add, div_le_iff₀ pos]
    linarith

/-- A whole number is as many units as it has columns, unless it wraps around. -/
theorem Fixed.toInt_ofInt {n : Int32} (small : |n.toInt| < 2 ^ 19) :
    (ofInt n).raw.toInt = 4096 * n.toInt := by
  have := abs_lt.1 small
  have unit : (4096 : Int32).toInt = 4096 := rfl
  rw [ofInt, Int32.toInt_mul, unit, Int.bmod_eq_of_le (by omega) (by omega), Int.mul_comm]

/-! ### Edges -/

namespace Corner

/-- The change per line of the edge from a corner down to another, in units of
    `1 / 4096` column, rounded toward zero. -/
def change (p q : Corner) : Int :=
  (4096 * (q.x.toInt - p.x.toInt)).tdiv (q.y.toInt - p.y.toInt)

/-- Where one gets in `n` lines from a corner on the way to another, in units of
    `1 / 4096` column. -/
def steps (p q : Corner) (n : Int) : Int := 4096 * p.x.toInt + n * change p q

/-- Where one gets in `n` lines from a corner on the way to a third one, turning at the
    second. -/
def bentSteps (p q r : Corner) (n : Int) : Int :=
  if p.y.toInt + n ≤ q.y.toInt then steps p q n
  else steps p q (q.y.toInt - p.y.toInt) + (p.y.toInt + n - q.y.toInt) * change q r

/-- Where the edge from a corner down to another crosses a line, in units of `1 / 4096`
    column. -/
def edge (p q : Corner) (y : Int) : ℚ :=
  4096 * (p.x.toInt +
    (q.x.toInt - p.x.toInt) * (y - p.y.toInt) / (q.y.toInt - p.y.toInt))

/-- Where the two edges from a corner over a second one down to a third cross a line. -/
def chain (p q r : Corner) (y : Int) : ℚ := if y ≤ q.y.toInt then edge p q y else edge q r y

variable {p q r : Corner}

theorem steps_between {n : Int} (first : 0 ≤ n) (last : p.y.toInt + n ≤ q.y.toInt) :
    4096 * min p.x.toInt q.x.toInt ≤ steps p q n ∧
      steps p q n ≤ 4096 * max p.x.toInt q.x.toInt := by
  have between := mul_tdiv_between (d := 4096 * (q.x.toInt - p.x.toInt)) first
    (show n ≤ q.y.toInt - p.y.toInt by omega)
  rw [steps, change]
  omega

/-- An edge ends at its lower corner. -/
theorem edge_end (below : p.y.toInt < q.y.toInt) : edge p q q.y.toInt = 4096 * q.x.toInt := by
  have height : (q.y.toInt - p.y.toInt : ℚ) ≠ 0 := by
    exact_mod_cast (show q.y.toInt - p.y.toInt ≠ 0 by omega)
  rw [edge, mul_div_cancel_right₀ _ height, add_sub_cancel]

/-- After `n` lines an edge is missed by `n` units at most. -/
theorem abs_steps_sub_edge_le (below : p.y.toInt < q.y.toInt) {n : Int} (first : 0 ≤ n) :
    |(steps p q n : ℚ) - edge p q (p.y.toInt + n)| ≤ n := by
  have error := abs_tdiv_sub_le (d := 4096 * (q.x.toInt - p.x.toInt))
    (show 0 < q.y.toInt - p.y.toInt by omega)
  have apart : (steps p q n : ℚ) - edge p q (p.y.toInt + n) =
      n * ((change p q : ℚ) - (4096 * (q.x.toInt - p.x.toInt) : Int) /
        (q.y.toInt - p.y.toInt : Int)) := by
    rw [steps, edge]
    push_cast
    ring
  have count : (0 : ℚ) ≤ n := by exact_mod_cast first
  rw [apart, abs_mul, abs_of_nonneg count]
  exact mul_le_of_le_one_right count error

/-- Two corners, the first not below the second, near enough for the edge between them to
    fit words. -/
structure Near (p q : Corner) : Prop where
  left : |p.x.toInt| < 2 ^ 18
  right : |q.x.toInt| < 2 ^ 18
  above : p.y.toInt ≤ q.y.toInt
  height : q.y.toInt - p.y.toInt ≤ 4096

/-- Three corners, from top to bottom, two of which are always near. -/
theorem near_of_columns (columns : ∀ c ∈ [p, q, r], |c.x.toInt| < 2 ^ 18)
    (upper : p.y.toInt ≤ q.y.toInt) (lower : q.y.toInt ≤ r.y.toInt)
    (height : r.y.toInt - p.y.toInt ≤ 4096) : Near p q ∧ Near q r ∧ Near p r := by
  have hp := columns p (by simp)
  have hq := columns q (by simp)
  have hr := columns r (by simp)
  exact ⟨⟨hp, hq, upper, by omega⟩, ⟨hq, hr, lower, by omega⟩, ⟨hp, hr, by omega, height⟩⟩

namespace Near

theorem toInt_columns (h : Near p q) : (q.x - p.x).toInt = q.x.toInt - p.x.toInt := by
  have := abs_lt.1 h.left
  have := abs_lt.1 h.right
  rw [Int32.toInt_sub, Int.bmod_eq_of_le (by omega) (by omega)]

theorem toInt_lines (h : Near p q) : (q.y - p.y).toInt = q.y.toInt - p.y.toInt := by
  have := h.above
  have := h.height
  rw [Int32.toInt_sub, Int.bmod_eq_of_le (by omega) (by omega)]

theorem lines_pos_iff (h : Near p q) : 0 < q.y - p.y ↔ p.y.toInt < q.y.toInt := by
  rw [Int32.lt_iff_toInt_lt, h.toInt_lines, Int32.toInt_zero]
  omega

/-- The columns between two corners fit a fixed-point number. -/
theorem toInt_ofInt (h : Near p q) :
    (Fixed.ofInt (q.x - p.x)).raw.toInt = 4096 * (q.x.toInt - p.x.toInt) := by
  have := abs_lt.1 h.left
  have := abs_lt.1 h.right
  have small : |(q.x - p.x).toInt| < 2 ^ 19 := by
    rw [h.toInt_columns, abs_lt]
    omega
  rw [Fixed.toInt_ofInt small, h.toInt_columns]

theorem toInt_divInt (h : Near p q) :
    ((Fixed.ofInt (q.x - p.x)).divInt (q.y - p.y)).raw.toInt = change p q := by
  have := abs_lt.1 h.left
  have := abs_lt.1 h.right
  have small := Int.natAbs_tdiv_le_natAbs (4096 * (q.x.toInt - p.x.toInt))
    (q.y.toInt - p.y.toInt)
  rw [Fixed.divInt, Int32.toInt_div, h.toInt_ofInt, h.toInt_lines, change,
    Int.bmod_eq_of_le (by omega) (by omega)]

/-- The slope of an edge that leads down is its change per line. -/
theorem toInt_slope (h : Near p q) (below : p.y.toInt < q.y.toInt) :
    (Triangle.slope (q.x - p.x) (q.y - p.y)).raw.toInt = change p q := by
  rw [Triangle.slope, if_pos (h.lines_pos_iff.2 below), h.toInt_divInt]

/-- The slope of an edge that is level is all its columns at once. -/
theorem toInt_slope_of_level (h : Near p q) (level : p.y.toInt = q.y.toInt) :
    (Triangle.slope (q.x - p.x) (q.y - p.y)).raw.toInt = 4096 * (q.x.toInt - p.x.toInt) := by
  rw [Triangle.slope, if_neg (mt h.lines_pos_iff.1 level.not_lt), h.toInt_ofInt]

theorem toInt_longSlope (h : Near p q) (below : p.y.toInt < q.y.toInt) :
    (Triangle.longSlope (q.x - p.x) (q.y - p.y)).raw.toInt = change p q := by
  rw [Triangle.longSlope, if_pos (h.lines_pos_iff.2 below), h.toInt_divInt]

/-- An edge that leads to one side changes by a unit per line at least. -/
theorem sign_change (h : Near p q) (below : p.y.toInt < q.y.toInt) :
    (0 < change p q ↔ p.x.toInt < q.x.toInt) ∧ (change p q < 0 ↔ q.x.toInt < p.x.toInt) := by
  have pos : 0 < q.y.toInt - p.y.toInt := by omega
  have height := h.height
  have between := mul_tdiv_between (d := 4096 * (q.x.toInt - p.x.toInt)) pos.le (Int.le_refl _)
  have near := mul_tdiv_near (d := 4096 * (q.x.toInt - p.x.toInt)) pos
  rw [← change] at between near
  have right : 0 < (q.y.toInt - p.y.toInt) * change p q ↔ 0 < change p q :=
    mul_pos_iff_of_pos_left pos
  have left : (q.y.toInt - p.y.toInt) * change p q < 0 ↔ change p q < 0 := by
    rw [← not_le, ← not_le, mul_nonneg_iff_of_pos_left pos]
  omega

end Near

/-! ### Two edges, one after the other -/

section Bent

variable {n : Int}

theorem bentSteps_of_le (above : p.y.toInt + n ≤ q.y.toInt) :
    bentSteps p q r n = steps p q n := if_pos above

/-- Below the second corner, the error that was made on the way to it stays. -/
theorem bentSteps_of_lt (below : q.y.toInt < p.y.toInt + n) :
    bentSteps p q r n = steps q r (p.y.toInt + n - q.y.toInt) +
      (steps p q (q.y.toInt - p.y.toInt) - 4096 * q.x.toInt) := by
  have lower : steps q r (p.y.toInt + n - q.y.toInt) =
      4096 * q.x.toInt + (p.y.toInt + n - q.y.toInt) * change q r := rfl
  rw [bentSteps, if_neg (by omega), lower]
  omega

/-- It stays near to the columns that the lower edge is between. -/
theorem bentSteps_between (upright : p.y.toInt < q.y.toInt) (below : q.y.toInt < p.y.toInt + n)
    (last : p.y.toInt + n ≤ r.y.toInt) :
    4096 * min q.x.toInt r.x.toInt - (q.y.toInt - p.y.toInt) ≤ bentSteps p q r n ∧
      bentSteps p q r n ≤ 4096 * max q.x.toInt r.x.toInt + (q.y.toInt - p.y.toInt) := by
  have lower := steps_between (p := q) (q := r) (n := p.y.toInt + n - q.y.toInt) (by omega)
    (by omega)
  have error := mul_tdiv_near (d := 4096 * (q.x.toInt - p.x.toInt))
    (show 0 < q.y.toInt - p.y.toInt by omega)
  have upper : steps p q (q.y.toInt - p.y.toInt) =
      4096 * p.x.toInt + (q.y.toInt - p.y.toInt) * change p q := rfl
  rw [← change] at error
  rw [bentSteps_of_lt below, upper]
  omega

/-- If the short edges start off to the left of the long edge, they are nowhere followed to the
    left of all corners, and if they start off to the right of it, nowhere to the right of all
    corners. -/
theorem bentSteps_within (pq : Near p q) (pr : Near p r) (upright : p.y.toInt < q.y.toInt)
    (first : 0 ≤ n) (last : p.y.toInt + n ≤ r.y.toInt) :
    (change p q ≤ change p r →
      4096 * min p.x.toInt (min q.x.toInt r.x.toInt) ≤ bentSteps p q r n) ∧
    (change p r < change p q →
      bentSteps p q r n ≤ 4096 * max p.x.toInt (max q.x.toInt r.x.toInt)) := by
  rcases le_or_gt (p.y.toInt + n) q.y.toInt with above | below
  · have upper := steps_between first above
    rw [bentSteps_of_le above]
    omega
  · have height := pq.height
    have near := bentSteps_between upright below last
    have turned := bentSteps_of_lt (r := r) below
    have upper := steps_between (p := p) (q := q) (n := q.y.toInt - p.y.toInt) (by omega)
      (by omega)
    have lower := steps_between (p := q) (q := r) (n := p.y.toInt + n - q.y.toInt) (by omega)
      (by omega)
    have short := pq.sign_change upright
    have long := pr.sign_change (by omega)
    -- If the upper edge leads away from the side in question, so does the long edge, and there
    -- is a column to spare. Otherwise the error of the upper edge leads away from it.
    constructor
    · intro left
      rcases lt_or_ge p.x.toInt q.x.toInt with away | towards <;> omega
    · intro right
      rcases lt_or_ge q.x.toInt p.x.toInt with away | towards <;> omega

/-- After `n` lines two edges are missed by `n` units at most. -/
theorem abs_bentSteps_sub_chain_le (upright : p.y.toInt < q.y.toInt) (first : 0 ≤ n)
    (last : p.y.toInt + n ≤ r.y.toInt) :
    |(bentSteps p q r n : ℚ) - chain p q r (p.y.toInt + n)| ≤ n := by
  rcases le_or_gt (p.y.toInt + n) q.y.toInt with above | below
  · rw [bentSteps_of_le above, chain, if_pos above]
    exact abs_steps_sub_edge_le upright first
  · -- The errors on both edges add up.
    have upper := abs_steps_sub_edge_le upright (n := q.y.toInt - p.y.toInt) (by omega)
    have lower := abs_steps_sub_edge_le (p := q) (q := r) (by omega)
      (n := p.y.toInt + n - q.y.toInt) (by omega)
    rw [add_sub_cancel, edge_end upright, abs_le] at upper
    rw [add_sub_cancel, abs_le] at lower
    rw [bentSteps_of_lt below, chain, if_neg (by omega), abs_le]
    push_cast at upper lower ⊢
    constructor <;> linarith

end Bent

end Corner

/-! ### Bounds -/

namespace Triangle

variable (t : Triangle) (first : Int) (n : Nat)

/-- The number of the first `n` lines that are above the bend. -/
theorem linesAbove_add : t.linesAbove first (first + n) = min n (t.bend.toInt - first).toNat := by
  rw [linesAbove]
  omega

theorem toInt_side_boundsAfter (left : Bool) :
    ((t.boundsAfter first n).side left).raw.toInt =
      bound (t.start.side left) (t.upper.side left) (t.lower.side left)
        (min n (t.bend.toInt - first).toNat) (n - min n (t.bend.toInt - first).toNat) := by
  have all : (first + n - first).toNat = n := by omega
  rw [boundsAfter_eq_boundsOn, ← linesAbove_add, ← toInt_sum, boundsOn, all]
  cases left <;> rfl

variable {t first n} {p q r : Corner} {start upper lower : Fixed}

/-- With one slope all along, a bound follows one edge. -/
theorem bound_eq_steps (pq : Corner.Near p q) (top : start.raw.toInt = 4096 * p.x.toInt)
    (slope : upper.raw.toInt = Corner.change p q) {above below : Nat}
    (last : p.y.toInt + (above + below : Nat) ≤ q.y.toInt) :
    bound start upper upper above below = Corner.steps p q (above + below : Nat) := by
  have between := Corner.steps_between (by omega) last
  have sum : start.raw.toInt + above * upper.raw.toInt + below * upper.raw.toInt =
      Corner.steps p q (above + below : Nat) := by
    rw [top, slope, Corner.steps, Int.natCast_add, Int.add_mul, Int.add_assoc]
  have := abs_lt.1 pq.left
  have := abs_lt.1 pq.right
  rw [bound, sum, Int.bmod_eq_of_le (by omega) (by omega)]

/-- With another slope from the bend on, a bound follows two edges. -/
theorem bound_eq_bentSteps (pq : Corner.Near p q) (qr : Corner.Near q r)
    (upright : p.y.toInt < q.y.toInt) (top : start.raw.toInt = 4096 * p.x.toInt)
    (above : upper.raw.toInt = Corner.change p q)
    (below : q.y.toInt < r.y.toInt → lower.raw.toInt = Corner.change q r)
    (last : p.y.toInt + n ≤ r.y.toInt) :
    bound start upper lower (min n (q.y.toInt - p.y.toInt).toNat)
        (n - min n (q.y.toInt - p.y.toInt).toNat) = Corner.bentSteps p q r n := by
  have := abs_lt.1 pq.left
  have := abs_lt.1 pq.right
  have := abs_lt.1 qr.right
  have height := pq.height
  rcases le_or_gt (p.y.toInt + n) q.y.toInt with early | late
  · have lines : min n (q.y.toInt - p.y.toInt).toNat = n := by omega
    have between := Corner.steps_between (by omega) early
    rw [Corner.bentSteps_of_le early, lines, Nat.sub_self, bound, top, above, Int.natCast_zero,
      Int.zero_mul, Int.add_zero, ← Corner.steps, Int.bmod_eq_of_le (by omega) (by omega)]
  · have between := Corner.bentSteps_between upright late last
    have lines : ((min n (q.y.toInt - p.y.toInt).toNat : Nat) : Int) =
        q.y.toInt - p.y.toInt := by omega
    have rest : ((n - min n (q.y.toInt - p.y.toInt).toNat : Nat) : Int) =
        p.y.toInt + n - q.y.toInt := by omega
    have turned : Corner.bentSteps p q r n = 4096 * p.x.toInt +
        (q.y.toInt - p.y.toInt) * Corner.change p q +
          (p.y.toInt + n - q.y.toInt) * Corner.change q r := by
      rw [Corner.bentSteps, if_neg (by omega), Corner.steps]
    rw [bound, lines, rest, top, above, below (by omega), ← turned,
      Int.bmod_eq_of_le (by omega) (by omega)]

/-- Without a level top, one bound follows the long edge and the other one the two short
    edges, each on the same side from top to bottom. -/
theorem boundsAfter_upright (pq : Corner.Near p q) (qr : Corner.Near q r)
    (pr : Corner.Near p r) (upright : p.y.toInt < q.y.toInt) (t : Triangle) {n : Nat}
    (last : p.y.toInt + n ≤ r.y.toInt) :
    let b := (t.ofCorners p q r).boundsAfter p.y.toInt n
    let longLeft := decide (Corner.change p r < Corner.change p q)
    (b.side longLeft).raw.toInt = Corner.steps p r n ∧
      (b.side (!longLeft)).raw.toInt = Corner.bentSteps p q r n := by
  intro b longLeft
  have below := qr.above
  have apex : (Fixed.ofInt p.x).raw.toInt = 4096 * p.x.toInt :=
    Fixed.toInt_ofInt (pq.left.trans (by norm_num))
  have start : (t.ofCorners p q r).start = ⟨.ofInt p.x, .ofInt p.x⟩ := by
    rw [start_ofCorners, if_neg]
    intro level
    rw [level] at upright
    exact lt_irrefl _ upright
  have bend : (t.ofCorners p q r).bend = q.y := rfl
  have long := pr.toInt_longSlope (upright.trans_le below)
  have above := pq.toInt_slope upright
  have lines : min n (q.y.toInt - p.y.toInt).toNat +
      (n - min n (q.y.toInt - p.y.toInt).toNat) = n := by omega
  have sides := t.sides_ofCorners p q r
  simp only [Fixed.lt_iff, long, above] at sides
  obtain ⟨⟨longUpper, longLower⟩, shortUpper, shortLower⟩ := sides
  constructor
  · rw [toInt_side_boundsAfter, start, Bounds.side_same, longUpper, longLower, bend,
      bound_eq_steps pr apex long (by rwa [lines]), lines]
  · rw [toInt_side_boundsAfter, start, Bounds.side_same, shortUpper, shortLower, bend,
      bound_eq_bentSteps pq qr upright apex above qr.toInt_slope last]

/-- With a level top, one bound follows the long edge, a step ahead of the lines, and the
    other one the edge from the second corner to the third. Only behind the last line can the
    step wrap around. -/
theorem boundsAfter_level (pq : Corner.Near p q) (qr : Corner.Near q r)
    (pr : Corner.Near p r) (level : p.y = q.y) (below : q.y.toInt < r.y.toInt) (t : Triangle) :
    ∃ longLeft : Bool, ∀ n : Nat, p.y.toInt + n ≤ r.y.toInt →
      let b := (t.ofCorners p q r).boundsAfter p.y.toInt n
      (b.side longLeft).raw.toInt = (Corner.steps p r (n + 1)).bmod (2 ^ 32) ∧
        (b.side (!longLeft)).raw.toInt = Corner.steps q r n := by
  have apex : (Fixed.ofInt p.x).raw.toInt = 4096 * p.x.toInt :=
    Fixed.toInt_ofInt (pq.left.trans (by norm_num))
  have start := t.start_ofCorners p q r
  rw [if_pos level] at start
  have bend : (t.ofCorners p q r).bend = q.y := rfl
  have none (n : Nat) : min n (q.y.toInt - p.y.toInt).toNat = 0 := by
    rw [level]
    omega
  have long := pr.toInt_longSlope (by rw [level]; exact below)
  have above := pq.toInt_slope_of_level (congrArg Int32.toInt level)
  have lower := qr.toInt_slope below
  have := abs_lt.1 pq.left
  have := abs_lt.1 pq.right
  have := abs_lt.1 pr.right
  -- Both bounds start a step past the first corner.
  have ahead : (Fixed.ofInt p.x + Triangle.longSlope (r.x - p.x) (r.y - p.y)).raw.toInt =
      Corner.steps p r 1 := by
    have between := Corner.steps_between (p := p) (q := r) (n := 1) (by omega)
      (by rw [level]; omega)
    have sum : 4096 * p.x.toInt + Corner.change p r = Corner.steps p r 1 := by
      rw [Corner.steps, Int.one_mul]
    rw [Fixed.raw_add, Int32.toInt_add, apex, long, sum, Int.bmod_eq_of_le (by omega) (by omega)]
  have second : (Fixed.ofInt p.x + Triangle.slope (q.x - p.x) (q.y - p.y)).raw.toInt =
      4096 * q.x.toInt := by
    rw [Fixed.raw_add, Int32.toInt_add, apex, above, Int.bmod_eq_of_le (by omega) (by omega)]
    omega
  obtain ⟨⟨longUpper, longLower⟩, shortUpper, shortLower⟩ := t.sides_ofCorners p q r
  refine ⟨decide (longSlope (r.x - p.x) (r.y - p.y) < slope (q.x - p.x) (q.y - p.y)),
    fun n last => ⟨?_, ?_⟩⟩
  · rw [toInt_side_boundsAfter, start, bend, none, Nat.sub_zero, Bounds.side_add,
      Bounds.side_same, longUpper, longLower, bound, ahead, long, Corner.steps, Corner.steps]
    ring_nf
  · have between := Corner.steps_between (p := q) (q := r) (n := n) (by omega) (by rwa [← level])
    rw [toInt_side_boundsAfter, start, bend, none, Nat.sub_zero, Bounds.side_add,
      Bounds.side_same, shortUpper, shortLower, bound, second, lower, Int.natCast_zero,
      Int.zero_mul, Int.add_zero, ← Corner.steps, Int.bmod_eq_of_le (by omega) (by omega)]

end Triangle

end GeometryEngine
