import GeometryEngine.Proofs.Commands
import GeometryEngine.Proofs.Slopes
import Mathlib.Algebra.Order.Floor.Ring
import Mathlib.Data.Rat.Floor

/-!
# Where vertices land

A coordinate is spread over a side of the viewport in fixed-point numbers, with a rounding at
every step (`Vertex.spread`). Here this is compared with its exact place
(`Vertex.exactPlace`), for a viewport on the screen and a vertex inside the view volume whose
last coordinate is neither tiny nor huge (`Vertex.Moderate`).

* `Moderate.inWords`: no step wraps around.
* `Moderate.toInt_spread`: so all roundings together are two roundings down, that of the
  stride from one unit of the coordinate to the next, and that of the place.
* `Vertex.lands_of_inside`: a vertex lands in the viewport or a pixel past it, in the pixel
  of its exact place or in the one before.

The stride is rounded by less than a unit, and the coordinate has at most `2 ^ 24` units: that
is why the exact place is missed by less than a pixel.
-/

namespace GeometryEngine

namespace Vertex

/-! ### Vertices inside the view volume -/

/-- A point that no plane is flagged for is beyond none. -/
theorem not_beyond_of_inside {x y w : Fixed} (h : planesBeyond x y w &&& Flag.anyPlane = 0) :
    ¬x < -w ∧ ¬w < x ∧ ¬y < -w ∧ ¬w < y := by
  have flags (a b c d e : Bool) :
      ((if a then Flag.left else 0) ||| (if b then Flag.right else 0) |||
        (if c then Flag.top else 0) ||| (if d then Flag.bottom else 0) |||
        (if e then Flag.anyPlane else 0)) &&& Flag.anyPlane = 0 →
      a = false ∧ b = false ∧ c = false ∧ d = false := by
    revert a b c d e
    decide
  have := flags (x < -w) (w < x) (y < -w) (w < y) (w = 0)
  simpa [planesBeyond] using this (by simpa [planesBeyond] using h)

/-- No plane is flagged by the flag of a vertex that is projected. -/
theorem planesBeyond_and_projected (x y w : Fixed) :
    planesBeyond x y w &&& Flag.projected = 0 := by
  have flags (a b c d e : Bool) :
      ((if a then Flag.left else 0) ||| (if b then Flag.right else 0) |||
        (if c then Flag.top else 0) ||| (if d then Flag.bottom else 0) |||
        (if e then Flag.anyPlane else 0)) &&& Flag.projected = 0 := by
    revert a b c d e
    decide
  simpa [planesBeyond] using flags (x < -w) (w < x) (y < -w) (w < y) (w = 0)

/-! ### Places -/

/-- Where `a / w`, from `-1` to `1`, lies on a side from pixel `first` to pixel `last`, counted
    from its beginning. -/
def exactPlace (a w : Fixed) (first last : Int32) : ℚ :=
  (a.raw.toInt + w.raw.toInt) * (last.toInt - first.toInt + 1) / (2 * w.raw.toInt)

/-- The pixels from one unit of a coordinate to the next, on a side of `size` pixels. -/
def stride (w : Fixed) (size : Int32) : Fixed := (Fixed.ofInt size).divInt 2 / w

/-- No step wraps around when `a / w` is spread over a side of `size` pixels from `origin` on. -/
structure InWords (a w : Fixed) (size origin : Int32) : Prop where
  side : (Fixed.ofInt size).raw.toInt = 4096 * size.toInt
  half : ((Fixed.ofInt size).divInt 2).raw.toInt = (Fixed.ofInt size).raw.toInt.tdiv 2
  quotient : (stride w size).raw.toInt =
    (((Fixed.ofInt size).divInt 2).raw.toInt * 4096).tdiv w.raw.toInt
  sum : (a + w).raw.toInt = a.raw.toInt + w.raw.toInt
  product : ((a + w) * stride w size).raw.toInt =
    (a + w).raw.toInt * (stride w size).raw.toInt / 4096
  start : (Fixed.ofInt origin).raw.toInt = 4096 * origin.toInt
  total : (((a + w) * stride w size).addInt origin).raw.toInt =
    ((a + w) * stride w size).raw.toInt + (Fixed.ofInt origin).raw.toInt

/-- A coordinate is spread without any step that wraps around, and lands on its side or in the
    pixel past it, in the pixel of its exact place or in the one before. If `w` is a power of
    two, it lands in the pixel of its exact place. -/
structure LandsOn (a w : Fixed) (first last pixel : Int32) : Prop where
  size : (last - first + 1).toInt = last.toInt - first.toInt + 1
  inWords : InWords a w (last - first + 1) first
  between : first.toInt ≤ pixel.toInt ∧ pixel.toInt ≤ last.toInt + 1
  near : pixel.toInt - first.toInt = ⌊exactPlace a w first last⌋ ∨
    pixel.toInt - first.toInt = ⌊exactPlace a w first last⌋ - 1
  exact : ∀ k : Nat, w.raw.toInt = 2 ^ k →
    pixel.toInt - first.toInt = ⌊exactPlace a w first last⌋

/-- The side from pixel `first` to pixel `last` is on the screen, and `a / w` is from `-1` to
    `1`, where `w` is neither tiny nor huge. -/
structure Moderate (a w : Fixed) (first last : Int32) : Prop where
  few : 2 ≤ w.raw.toInt
  many : w.raw.toInt ≤ 2 ^ 23
  lower : -w.raw.toInt ≤ a.raw.toInt
  upper : a.raw.toInt ≤ w.raw.toInt
  begins : 0 ≤ first.toInt
  order : first.toInt ≤ last.toInt
  ends : last.toInt ≤ 255

/-! ### Exact numbers -/

section Exact

variable {c n w : Int}

/-- The stride on a side of `n` pixels is a word, and `w` strides are half a side at most. -/
theorem stride_between (side : 0 ≤ n) (few : n ≤ 256) (divisor : 2 ≤ w) :
    0 ≤ n * 2 ^ 23 / w ∧ n * 2 ^ 23 / w ≤ 2 ^ 30 ∧ w * (n * 2 ^ 23 / w) ≤ n * 2 ^ 23 := by
  have low : 0 ≤ n * 2 ^ 23 / w := Int.ediv_nonneg (by omega) (by omega)
  have whole : w * (n * 2 ^ 23 / w) ≤ n * 2 ^ 23 := Int.mul_ediv_self_le (by omega)
  have twice : 2 * (n * 2 ^ 23 / w) ≤ w * (n * 2 ^ 23 / w) :=
    Int.mul_le_mul_of_nonneg_right divisor low
  exact ⟨low, by omega, whole⟩

/-- As many units as a coordinate has make a side at most. -/
theorem mul_stride_between (side : 0 ≤ n) (few : n ≤ 256) (divisor : 2 ≤ w) (first : 0 ≤ c)
    (last : c ≤ 2 * w) : 0 ≤ c * (n * 2 ^ 23 / w) ∧ c * (n * 2 ^ 23 / w) ≤ n * 2 ^ 24 := by
  obtain ⟨low, -, whole⟩ := stride_between side few divisor
  have most : c * (n * 2 ^ 23 / w) ≤ 2 * w * (n * 2 ^ 23 / w) :=
    Int.mul_le_mul_of_nonneg_right last low
  rw [Int.mul_assoc] at most
  exact ⟨Int.mul_nonneg first low, by omega⟩

/-- With a rounded stride the exact place is not passed, and missed by less than a pixel. -/
theorem rounded_place_near (divisor : 0 < w) (many : w ≤ 2 ^ 23) (first : 0 ≤ c)
    (last : c ≤ 2 * w) {k : Int} (rounded : k = n * 2 ^ 23 / w) :
    (c * n / (2 * w) : ℚ) - 1 < (c * k : Int) / (2 ^ 24 : Nat) ∧
      ((c * k : Int) : ℚ) / (2 ^ 24 : Nat) ≤ c * n / (2 * w) := by
  have whole := Int.mul_ediv_add_emod (n * 2 ^ 23) w
  have low := Int.emod_nonneg (n * 2 ^ 23) divisor.ne'
  have high := Int.emod_lt_of_pos (n * 2 ^ 23) divisor
  -- What the rounding leaves over is taken as often as the coordinate has units.
  generalize n * 2 ^ 23 % w = rest at whole low high
  rw [← rounded] at whole
  have surplus : c * n * 2 ^ 24 = c * k * (2 * w) + 2 * (c * rest) := by
    calc c * n * 2 ^ 24 = 2 * c * (n * 2 ^ 23) := by ring
      _ = 2 * c * (w * k + rest) := by rw [whole]
      _ = c * k * (2 * w) + 2 * (c * rest) := by ring
  have some_over : 0 ≤ c * rest := Int.mul_nonneg first low
  have few_over : c * rest < 2 * w * 2 ^ 23 :=
    calc c * rest ≤ 2 * w * rest := Int.mul_le_mul_of_nonneg_right last low
      _ < 2 * w * 2 ^ 23 := Int.mul_lt_mul_of_pos_left (by omega) (by omega)
  have units : (0 : ℚ) < (2 ^ 24 : Nat) := by norm_num
  have double : (0 : ℚ) < 2 * w := by exact_mod_cast (show 0 < 2 * w by omega)
  constructor
  · rw [sub_lt_iff_lt_add, div_add_one units.ne', div_lt_div_iff₀ double units]
    have : c * n * 2 ^ 24 < (c * k + 2 ^ 24) * (2 * w) := by
      rw [surplus, Int.add_mul]
      omega
    exact_mod_cast this
  · rw [div_le_div_iff₀ units double]
    have : c * k * (2 * w) ≤ c * n * 2 ^ 24 := by omega
    exact_mod_cast this

/-- So the pixel is that of the exact place or the one before. If nothing is left over of the
    stride, it is that of the exact place. -/
theorem rounded_place (divisor : 0 < w) (many : w ≤ 2 ^ 23) (first : 0 ≤ c) (last : c ≤ 2 * w) :
    let place := c * (n * 2 ^ 23 / w) / 2 ^ 24
    let exact : ℚ := c * n / (2 * w)
    (place = ⌊exact⌋ ∨ place = ⌊exact⌋ - 1) ∧ (w ∣ 2 ^ 23 → place = ⌊exact⌋) := by
  intro place exact
  obtain ⟨near, below⟩ := rounded_place_near (n := n) divisor many first last rfl
  have floor : place = ⌊((c * (n * 2 ^ 23 / w) : Int) : ℚ) / (2 ^ 24 : Nat)⌋ :=
    (Rat.floor_intCast_div_natCast _ _).symm
  constructor
  · have low : ⌊exact⌋ - 1 ≤ place := by
      rw [floor, ← Int.floor_sub_one]
      exact Int.floor_le_floor near.le
    have high : place ≤ ⌊exact⌋ := floor ▸ Int.floor_le_floor below
    omega
  · rintro ⟨m, units⟩
    have stride : n * 2 ^ 23 / w = n * m := by
      rw [units, Int.mul_left_comm, Int.mul_ediv_cancel_left _ divisor.ne']
    rw [floor, stride]
    congr 1
    have units : (2 ^ 23 : ℚ) = w * m := by exact_mod_cast units
    have units : ((2 ^ 24 : Nat) : ℚ) = 2 * w * m := by
      rw [mul_assoc, ← units]
      norm_num
    have some_stride : (m : ℚ) ≠ 0 := by
      rintro none
      rw [none, mul_zero] at units
      norm_num at units
    rw [units]
    push_cast
    rw [← mul_assoc, mul_div_mul_right _ _ some_stride]

end Exact

namespace Moderate

variable {a w : Fixed} {first last : Int32}

theorem toInt_size (h : Moderate a w first last) :
    (last - first + 1).toInt = last.toInt - first.toInt + 1 := by
  have := h.begins
  have := h.order
  have := h.ends
  have one : (1 : Int32).toInt = 1 := rfl
  have span : (last - first).toInt = last.toInt - first.toInt := by
    rw [Int32.toInt_sub, Int.bmod_eq_of_le (by omega) (by omega)]
  rw [Int32.toInt_add, span, one, Int.bmod_eq_of_le (by omega) (by omega)]

theorem toInt_half {size : Int32} (side : 0 ≤ size.toInt) (few : size.toInt ≤ 256) :
    ((Fixed.ofInt size).divInt 2).raw.toInt = 2048 * size.toInt := by
  have whole : (Fixed.ofInt size).raw.toInt = 4096 * size.toInt :=
    Fixed.toInt_ofInt (abs_lt.2 (by omega))
  have two : (2 : Int32).toInt = 2 := rfl
  rw [Fixed.divInt, Int32.toInt_div, whole, two, Int.tdiv_eq_ediv_of_nonneg (by omega),
    Int.bmod_eq_of_le (by omega) (by omega)]
  omega

theorem toInt_stride {size : Int32} (side : 0 ≤ size.toInt) (few : size.toInt ≤ 256)
    (divisor : 2 ≤ w.raw.toInt) :
    (stride w size).raw.toInt = size.toInt * 2 ^ 23 / w.raw.toInt := by
  obtain ⟨low, high, -⟩ := stride_between side few divisor
  have words : 2048 * size.toInt * 4096 = size.toInt * 2 ^ 23 := by omega
  change (Int32.ofInt _).toInt = _
  rw [toInt_half side few, words, Int.tdiv_eq_ediv_of_nonneg (by omega),
    Int32.toInt_ofInt_of_le (by omega) (by omega)]

/-- No step wraps around. -/
theorem inWords (h : Moderate a w first last) : InWords a w (last - first + 1) first := by
  have size := h.toInt_size
  obtain ⟨few, many, lower, upper, begins, order, ends⟩ := h
  have side : 0 ≤ (last - first + 1).toInt := by omega
  have narrow : (last - first + 1).toInt ≤ 256 := by omega
  have whole : (Fixed.ofInt (last - first + 1)).raw.toInt = 4096 * (last - first + 1).toInt :=
    Fixed.toInt_ofInt (abs_lt.2 (by omega))
  have half := toInt_half side narrow
  have stride := toInt_stride side narrow few
  have sum : (a + w).raw.toInt = a.raw.toInt + w.raw.toInt := by
    rw [Fixed.raw_add, Int32.toInt_add, Int.bmod_eq_of_le (by omega) (by omega)]
  obtain ⟨least, most⟩ := mul_stride_between side narrow few (c := a.raw.toInt + w.raw.toInt)
    (by omega) (by omega)
  have product : ((a + w) * Vertex.stride w (last - first + 1)).raw.toInt =
      (a + w).raw.toInt * (Vertex.stride w (last - first + 1)).raw.toInt / 4096 := by
    change (Int32.ofInt _).toInt = _
    rw [sum, stride, Int32.toInt_ofInt_of_le (by omega) (by omega)]
  have start : (Fixed.ofInt first).raw.toInt = 4096 * first.toInt :=
    Fixed.toInt_ofInt (abs_lt.2 (by omega))
  refine ⟨whole, ?_, ?_, sum, product, start, ?_⟩
  · rw [half, whole, Int.tdiv_eq_ediv_of_nonneg (by omega)]
    omega
  · rw [stride, half, Int.tdiv_eq_ediv_of_nonneg (by omega)]
    congr 1
    omega
  · rw [Fixed.addInt, Int32.toInt_add, product, start, sum, stride,
      Int.bmod_eq_of_le (by omega) (by omega)]

/-- All roundings together are two roundings down. -/
theorem toInt_spread (h : Moderate a w first last) :
    (spread a w (last - first + 1) first).toInt = first.toInt +
      (a.raw.toInt + w.raw.toInt) *
        ((last.toInt - first.toInt + 1) * 2 ^ 23 / w.raw.toInt) / 2 ^ 24 := by
  have := h.begins
  have := h.order
  have := h.ends
  have size := h.toInt_size
  have exact := h.inWords
  have place : (spread a w (last - first + 1) first).toInt =
      (((a + w) * Vertex.stride w (last - first + 1)).addInt first).raw.toInt / 4096 :=
    Fixed.toInt_floor _
  rw [place, exact.total, exact.start, exact.product, exact.sum,
    toInt_stride (by omega) (by omega) h.few, size]
  omega

/-- So a coordinate lands near to its exact place. -/
theorem landsOn (h : Moderate a w first last) :
    LandsOn a w first last (spread a w (last - first + 1) first) := by
  have := h.few
  have := h.lower
  have := h.upper
  have := h.begins
  have := h.order
  have := h.ends
  have spread := h.toInt_spread
  have first_unit : 0 ≤ a.raw.toInt + w.raw.toInt := by omega
  have last_unit : a.raw.toInt + w.raw.toInt ≤ 2 * w.raw.toInt := by omega
  obtain ⟨least, most⟩ := mul_stride_between (n := last.toInt - first.toInt + 1) (by omega)
    (by omega) h.few first_unit last_unit
  obtain ⟨near, exact⟩ := rounded_place (n := last.toInt - first.toInt + 1) (by omega) h.many
    first_unit last_unit
  have same : ⌊((a.raw.toInt + w.raw.toInt : Int) * (last.toInt - first.toInt + 1 : Int) /
      (2 * w.raw.toInt) : ℚ)⌋ = ⌊exactPlace a w first last⌋ := by
    push_cast
    rfl
  rw [same] at near exact
  refine ⟨h.toInt_size, h.inWords, by omega, by omega, fun k power => ?_⟩
  have units : w.raw.toInt ∣ 2 ^ 23 := by
    have many := h.many
    rw [power] at many ⊢
    exact pow_dvd_pow 2 ((pow_le_pow_iff_right₀ (by norm_num)).1 many)
  rw [spread, ← exact units, add_sub_cancel_left]

end Moderate

/-! ### Vertices -/

/-- A vertex that arrives inside the view volume is moderate in both directions. -/
theorem moderate_of_inside {v : Vertex} (arrived : v.flags = planesBeyond v.x v.y v.w)
    (inside : v.isOutside = false) (few : 2 ≤ v.w.raw.toInt) (many : v.w.raw.toInt ≤ 2 ^ 23) :
    (-v.w.raw.toInt ≤ v.x.raw.toInt ∧ v.x.raw.toInt ≤ v.w.raw.toInt) ∧
      -v.w.raw.toInt ≤ v.y.raw.toInt ∧ v.y.raw.toInt ≤ v.w.raw.toInt := by
  have none : planesBeyond v.x v.y v.w &&& Flag.anyPlane = 0 := by
    rw [isOutside, arrived] at inside
    simpa using inside
  have negated : (-v.w).raw.toInt = -v.w.raw.toInt := by
    rw [Fixed.raw_neg, Int32.toInt_neg, Int.bmod_eq_of_le (by omega) (by omega)]
  have beyond := not_beyond_of_inside none
  simp only [Fixed.lt_iff, negated, not_lt] at beyond
  exact ⟨⟨beyond.1, beyond.2.1⟩, beyond.2.2⟩

/-- A vertex arrives inside the view volume, and its last coordinate is at least two units and
    at most `2 ^ 23`. In a viewport on the screen it lands near to its exact place, in both
    directions. -/
theorem lands_of_inside {v : Vertex} (arrived : v.flags = planesBeyond v.x v.y v.w)
    (inside : v.isOutside = false) (few : 2 ≤ v.w.raw.toInt) (many : v.w.raw.toInt ≤ 2 ^ 23)
    (view : Viewport)
    (columns : 0 ≤ view.left.toInt ∧ view.left.toInt ≤ view.right.toInt ∧
      view.right.toInt ≤ 255)
    (lines : 0 ≤ view.top.toInt ∧ view.top.toInt ≤ view.bottom.toInt ∧
      view.bottom.toInt ≤ 255) :
    LandsOn v.x v.w view.left view.right (v.project view).screenX ∧
      LandsOn v.y v.w view.top view.bottom (v.project view).screenY := by
  have fresh : v.isProjected = false := by
    rw [isProjected, arrived, planesBeyond_and_projected]
    rfl
  obtain ⟨x, y⟩ := moderate_of_inside arrived inside few many
  rw [project, fresh]
  exact ⟨Moderate.landsOn ⟨few, many, x.1, x.2, columns.1, columns.2.1, columns.2.2⟩,
    Moderate.landsOn ⟨few, many, y.1, y.2, lines.1, lines.2.1, lines.2.2⟩⟩

/-- A vertex is in the middle of the view volume, and its last coordinate is three units. It
    lands a column before its exact place, and on its line. -/
theorem lands_of_inside_middle :
    let v : Vertex := .ofClip 0 0 0 ⟨3⟩
    let view : Viewport := {}
    LandsOn v.x v.w view.left view.right 127 ∧ LandsOn v.y v.w view.top view.bottom 96 ∧
      exactPlace v.x v.w view.left view.right = 128 ∧
      exactPlace v.y v.w view.top view.bottom = 96 := by
  intro v view
  obtain ⟨column, line⟩ := lands_of_inside (v := v) rfl (by decide) (by decide) (by decide) view
    (by decide) (by decide)
  have screenX : (v.project view).screenX = 127 := by decide +kernel
  have screenY : (v.project view).screenY = 96 := by decide +kernel
  have words : (⟨3⟩ : Fixed).raw.toInt = 3 ∧ (0 : Fixed).raw.toInt = 0 ∧ (0 : Int32).toInt = 0 ∧
      (255 : Int32).toInt = 255 ∧ (191 : Int32).toInt = 191 := by decide
  refine ⟨screenX ▸ column, screenY ▸ line, ?_, ?_⟩
  · norm_num [exactPlace, v, view, ofClip, words]
  · norm_num [exactPlace, v, view, ofClip, words]

end Vertex

end GeometryEngine
