import GeometryEngine.Proofs.Pass
import Mathlib.Algebra.Group.Nat.Defs

/-!
# The picture of a frame

What a frame looks like when it is drawn as a whole, told in exact integers and
without drawing (`Slot.Fills`): each bound of a triangle is its first value and as
many changes of either kind as there are lines above and below the bend, wrapped
around once.

* `boundsOn_eq_bound`: the bounds that drawing works out step by step, wrapping
  around at each step, are these.
* `Slot.painted_render`: a frame that is drawn as a whole paints the pixels that
  its triangles fill, and no others, so the order of the triangles plays no part.
-/

namespace GeometryEngine

/-! ### Exact bounds -/

namespace Triangle

/-- A bound in units of `1 / 4096`, wrapped around: it was `start`, and changed by
    `upper` and by `lower` as many times as given. -/
def bound (start upper lower : Fixed) (above below : Nat) : Int :=
  (start.raw.toInt + above * upper.raw.toInt + below * lower.raw.toInt).bmod (2 ^ 32)

/-- Adding up words wraps around as often as not; the sum is the same. -/
theorem toInt_sum (start upper lower : Fixed) (above below : Nat) :
    (start.raw + Int32.ofNat above * upper.raw + Int32.ofNat below * lower.raw).toInt =
      bound start upper lower above below := by
  -- Words are the integers, wrapped around; this respects sums and products.
  have sum : Int32.ofInt
      (start.raw.toInt + above * upper.raw.toInt + below * lower.raw.toInt) =
        start.raw + Int32.ofNat above * upper.raw + Int32.ofNat below * lower.raw := by
    simp only [Int32.ofInt_add, Int32.ofInt_mul, Int32.ofInt_toInt, Int32.ofInt_eq_ofNat]
  rw [← sum, Int32.toInt_ofInt]
  rfl

/-- The lines above the bend are counted one by one. -/
theorem linesAbove_eq_countP (t : Triangle) (first y : Int) :
    t.linesAbove first y =
      (List.range (y - first).toNat).countP fun i : Nat => first + i < t.bend.toInt := by
  rw [linesAbove]
  obtain ⟨n, hn⟩ : ∃ n, (y - first).toNat = n := ⟨_, rfl⟩
  induction n generalizing y with
  | zero =>
    rw [hn, List.range_zero, List.countP_nil]
    omega
  | succ n ih =>
    -- The line before `y` is counted apart from those before it.
    have before := ih (y - 1) (by omega)
    rw [show (y - 1 - first).toNat = n by omega] at before
    rw [hn, List.range_succ, List.countP_append, ← before, List.countP_singleton]
    simp only [decide_eq_true_eq]
    split <;> omega

end Triangle

/-! ### The picture -/

namespace Slot

/-- Whether column `x` of line `y` of the screen is filled by a triangle: by one that
    reaches the line, and whose bounds there, rounded down to whole columns, have
    the column between them. -/
def Fills (s : Slot) (x y : Int) : Prop :=
  ∃ t ∈ s.triangles,
    let first := max 0 (s.vertex t.v0).screenY.toInt
    let above := (List.range (y - first).toNat).countP fun i : Nat => first + i < t.bend.toInt
    let below := (y - first).toNat - above
    first ≤ y ∧ y ≤ min 191 (s.vertex t.v2).screenY.toInt ∧
      Triangle.bound t.start.left t.upper.left t.lower.left above below / 4096 ≤ x ∧
      x ≤ Triangle.bound t.start.right t.upper.right t.lower.right above below / 4096

/-- A pixel is filled if and only if it lies between the bounds with which some
    triangle comes to its line, in a pass over the whole screen. -/
theorem fills_iff_covered (s : Slot) (x y : Int) : s.Fills x y ↔ s.Covered 0 x y := by
  refine exists_congr fun t => and_congr_right fun _ => and_congr_right fun _ => ?_
  have first : max 0 (s.firstLine t) = max 0 (s.vertex t.v0).screenY.toInt := by
    simp only [firstLine]
    omega
  refine and_congr_right fun _ => ?_
  rw [Bounds.Holds, first, Fixed.toInt_floor, Fixed.toInt_floor,
    ← Triangle.linesAbove_eq_countP, ← Triangle.toInt_sum, ← Triangle.toInt_sum]
  rfl

/-- A frame that is drawn as a whole paints just the pixels that its triangles fill,
    as far as there are columns and lines for them: pixel `x` of line `y` lies
    `y` lines of `width` pixels and `x` pixels from the beginning. The triangles may
    come in any order. -/
theorem painted_render (s : Slot) (config : RenderConfig) (width height : Int)
    (canvas : Canvas) :
    canvas.Painted config.pixel
      (fun k => config.enabled = true ∧ ∃ x y : Nat, (k : Int) = y * width + x ∧
        (x : Int) < min width screenWidth ∧ (y : Int) < height ∧ s.Fills x y)
      (s.render config { width, height } canvas).2.2.1 ∧
    ∀ ts : Array Triangle, ts.toList.Perm s.triangles.toList →
      ({ s with triangles := ts }.render config { width, height } canvas).2.2.1 =
        (s.render config { width, height } canvas).2.2.1 := by
  have painted (s : Slot) : canvas.Painted config.pixel
      (fun k => config.enabled = true ∧ ∃ x y : Nat, (k : Int) = y * width + x ∧
        (x : Int) < min width screenWidth ∧ (y : Int) < height ∧ s.Fills x y)
      (s.render config { width, height } canvas).2.2.1 := by
    have drawn : canvas.Painted config.pixel _ (s.render config { width, height } canvas).2.2.1 :=
      Drawing.painted_drawLines (d := ⟨canvas, s.restart.triangles⟩) { width, height }
        (Int.le_max_left 0 0) (triangles_restart 0)
    refine drawn.congr fun k => and_congr_right fun _ => ?_
    simp only [Line.Shows]
    constructor
    · rintro ⟨n, -, more, ⟨left, right⟩, covered⟩
      have column : (((k : Int) - n * width).toNat : Int) = k - n * width := by omega
      have line : 0 + ((n : Int) - (0 : Nat)) = n := by omega
      refine ⟨((k : Int) - n * width).toNat, n, by omega, ?_, more, ?_⟩
      · rw [column]
        exact right
      · rw [column, fills_iff_covered]
        rwa [line] at covered
    · rintro ⟨x, y, hk, right, more, fills⟩
      have column : (k : Int) - y * width = x := by omega
      have line : 0 + ((y : Int) - (0 : Nat)) = y := by omega
      refine ⟨y, Nat.zero_le y, more, ?_, ?_⟩
      · rw [column]
        exact ⟨Int.natCast_nonneg x, right⟩
      · rw [column, line]
        exact (fills_iff_covered _ _ _).1 fills
  refine ⟨painted s, fun ts perm => ?_⟩
  -- The same pixels are filled, since the same triangles are there.
  refine (painted { s with triangles := ts }).unique ((painted s).congr fun k => ?_)
  have same (t : Triangle) : t ∈ s.triangles ↔ t ∈ ts := by
    rw [← Array.mem_toList_iff, ← Array.mem_toList_iff, perm.mem_iff]
  refine and_congr_right fun _ => exists_congr fun x => exists_congr fun y => ?_
  refine and_congr_right fun _ => and_congr_right fun _ => and_congr_right fun _ => ?_
  exact exists_congr fun t => and_congr_left fun _ => same t

/-- Two triangles on one another, drawn in a picture of 8 columns and 4 lines: the
    second pixel of the second line is painted, whichever triangle comes first. -/
theorem painted_render_two :
    let t : Triangle := { v0 := 0, v1 := 1, v2 := 2, bend := 2, upper := ⟨0, 1⟩ }
    let u : Triangle := { v0 := 0, v1 := 1, v2 := 2, bend := 2, upper := ⟨0, 2⟩ }
    let s : Slot := { vertices := #[{}, { screenY := 2 }, { screenY := 2 }], triangles := #[t, u] }
    let picture (s : Slot) := (s.render {} { width := 8, height := 4 } (.replicate 32 0)).2.2.1
    (picture s)[9]? = some 0x403FFFF ∧ [u, t].Perm [t, u] ∧
      picture { s with triangles := #[u, t] } = picture s := by
  intro t u s picture
  have filled : s.Fills 1 1 := ⟨t, by simp [s], by decide⟩
  have painted := painted_render s {} 8 4 (.replicate 32 0)
  exact ⟨painted.1.on 9 (by decide) ⟨rfl, 1, 1, rfl, by decide, by decide, filled⟩,
    .swap t u [], painted.2 #[u, t] (.swap t u [])⟩

end Slot

end GeometryEngine
