import GeometryEngine.Proofs.Pass
import GeometryEngine.Session

/-!
# Where a pass begins

A pass may begin on any line. The triangles that reach over that line do not catch up with
the lines that were left out: their bounds begin there as they are at the top corner.

* `Slot.painted_draw`: a pass paints the columns that the bounds of each triangle hold after
  stepping line by line, from the first line of the pass that the triangle reaches. If this
  is the line of its top corner, where the pass began does not show.
* `Slot.unpainted_below_top`: otherwise it does.
-/

namespace GeometryEngine

namespace Slot

variable (s : Slot)

/-- The line of the top corner of a triangle, on the screen or not. -/
def top (t : Triangle) : Int := (s.vertex t.v0).screenY.toInt

/-- The line of its bottom corner. -/
def bottom (t : Triangle) : Int := (s.vertex t.v2).screenY.toInt

/-- Whether column `x` of line `y` is filled by a triangle that reaches over the line, if the
    bounds of triangles have stepped to it line by line, each from a first line of its own. -/
def FillsFrom (first : Triangle → Int) (x y : Int) : Prop :=
  ∃ t ∈ s.triangles, s.top t ≤ y ∧ y ≤ s.bottom t ∧
    (t.boundsAfter (first t) (y - first t).toNat).Holds x

/-- Only what lies on the screen is covered, with the bounds that have stepped there from the
    first line that is drawn. -/
theorem covered_iff_fillsFrom {start x y : Int} (begun : start ≤ y) :
    s.Covered start x y ↔ (0 ≤ y ∧ y < screenHeight) ∧
      s.FillsFrom (fun t => max (max 0 start) (s.top t)) x y := by
  have lines (t : Triangle) : s.firstLine t ≤ y ∧ y ≤ s.lastLine t ↔
      (0 ≤ y ∧ y < screenHeight) ∧ s.top t ≤ y ∧ y ≤ s.bottom t := by
    simp only [firstLine, lastLine, top, bottom]
    omega
  have bounds {t : Triangle} (onScreen : 0 ≤ y) (reached : s.top t ≤ y) :
      t.boundsOn (max start (s.firstLine t)) y =
        t.boundsAfter (max (max 0 start) (s.top t))
          (y - max (max 0 start) (s.top t)).toNat := by
    have first : max start (s.firstLine t) = max (max 0 start) (s.top t) := by
      simp only [firstLine, top]
      omega
    have last : max (max 0 start) (s.top t) +
        ((y - max (max 0 start) (s.top t)).toNat : Int) = y := by omega
    rw [first, Triangle.boundsAfter_eq_boundsOn, last]
  constructor
  · rintro ⟨t, ht, above, below, holds⟩
    obtain ⟨onScreen, above, below⟩ := (lines t).1 ⟨above, below⟩
    exact ⟨onScreen, t, ht, above, below, bounds onScreen.1 above ▸ holds⟩
  · rintro ⟨onScreen, t, ht, above, below, holds⟩
    obtain ⟨above', below'⟩ := (lines t).2 ⟨onScreen, above, below⟩
    exact ⟨t, ht, above', below', (bounds onScreen.1 above).symm ▸ holds⟩

/-- A pass from line `start` on paints just the pixels that triangles fill whose bounds have
    stepped from there, or from the top corner if the triangle begins later: pixel `x` of the
    `n`-th line of the picture shows column `x` of the line `n` lines below `start`. -/
theorem painted_draw_of_start (config : RenderConfig) (start width height : Int)
    (canvas : Canvas) :
    canvas.Painted config.pixel
      (fun k => config.enabled = true ∧ ∃ n x : Nat, (k : Int) = n * width + x ∧
        (x : Int) < min width screenWidth ∧ (n : Int) < height ∧
        (0 ≤ start + n ∧ start + n < screenHeight) ∧
        s.FillsFrom (fun t => max (max 0 start) (s.top t)) x (start + n))
      (s.restart.draw config s.buckets { width, height } start canvas).2.1 := by
  have drawn : canvas.Painted config.pixel _
      (s.restart.draw config s.buckets { width, height } start canvas).2.1 :=
    Drawing.painted_drawLines (s := s) (d := ⟨canvas, s.restart.triangles⟩) { width, height }
      (Int.le_max_right 0 start) (s.triangles_restart start)
  refine drawn.congr fun k => and_congr_right fun _ => ?_
  simp only [Line.Shows]
  constructor
  · rintro ⟨n, -, more, ⟨left, right⟩, covered⟩
    have column : (((k : Int) - n * width).toNat : Int) = k - n * width := by omega
    have line : start + ((n : Int) - (0 : Nat)) = start + n := by omega
    rw [line, covered_iff_fillsFrom s (by omega)] at covered
    refine ⟨n, ((k : Int) - n * width).toNat, by omega, ?_, more, covered.1, ?_⟩
    · rw [column]
      exact right
    · rw [column]
      exact covered.2
  · rintro ⟨n, x, hk, right, more, onScreen, fills⟩
    have column : (k : Int) - n * width = x := by omega
    have line : start + ((n : Int) - (0 : Nat)) = start + n := by omega
    refine ⟨n, Nat.zero_le n, more, ?_, ?_⟩
    · rw [column]
      exact ⟨Int.natCast_nonneg x, right⟩
    · rw [column, line]
      exact (covered_iff_fillsFrom s (by omega)).2 ⟨onScreen, fills⟩

/-- A pass from line `start` on paints just the pixels that triangles fill with bounds that
    have stepped from the first line of the pass that the triangle reaches.

    On a line on which all triangles begin on the screen and not above `start`, these are the
    pixels that they fill with bounds that have stepped from the top corner. -/
theorem painted_draw (config : RenderConfig) (start width height : Int) (canvas : Canvas) :
    canvas.Painted config.pixel
      (fun k => config.enabled = true ∧ ∃ n x : Nat, (k : Int) = n * width + x ∧
        (x : Int) < min width screenWidth ∧ (n : Int) < height ∧
        (0 ≤ start + n ∧ start + n < screenHeight) ∧
        s.FillsFrom (fun t => max (max 0 start) (s.top t)) x (start + n))
      (s.restart.draw config s.buckets { width, height } start canvas).2.1 ∧
    ∀ x y, (∀ t ∈ s.triangles, s.top t ≤ y → y ≤ s.bottom t → max 0 start ≤ s.top t) →
      (s.FillsFrom (fun t => max (max 0 start) (s.top t)) x y ↔ s.FillsFrom s.top x y) := by
  refine ⟨s.painted_draw_of_start config start width height canvas, fun x y later => ?_⟩
  refine exists_congr fun t => and_congr_right fun ht => and_congr_right fun above =>
    and_congr_right fun below => ?_
  have first : max (max 0 start) (s.top t) = s.top t := Int.max_eq_right (later t ht above below)
  simp only [first]

/-- A triangle that begins on line `1`, and that spreads to the right by a column per line. A
    pass that begins there paints it as far as column `2` on line `3`. -/
theorem painted_draw_at_top :
    let t : Triangle := { v0 := 0, v1 := 1, v2 := 1, bend := 4, upper := ⟨0, 1⟩ }
    let s : Slot := { vertices := #[{ screenY := 1 }, { screenY := 4 }], triangles := #[t] }
    let picture := (s.restart.draw {} s.buckets { width := 8, height := 3 } 1 (.replicate 24 0)).2.1
    s.FillsFrom s.top 2 3 ∧ ¬s.FillsFrom s.top 3 3 ∧
      picture[18]? = some 0x403FFFF ∧ picture[19]? = some 0 := by
  intro t s picture
  obtain ⟨painted, same⟩ := s.painted_draw {} 1 8 3 (.replicate 24 0)
  have only {u : Triangle} (hu : u ∈ s.triangles) : u = t := Array.mem_singleton.1 hu
  have later (u : Triangle) (hu : u ∈ s.triangles) (_ : s.top u ≤ 3) (_ : 3 ≤ s.bottom u) :
      max 0 1 ≤ s.top u := only hu ▸ (by decide)
  have filled : s.FillsFrom s.top 2 3 := ⟨t, by simp [s], by decide⟩
  have unfilled : ¬s.FillsFrom s.top 3 3 := by
    rintro ⟨u, hu, -, -, holds⟩
    cases only hu
    revert holds
    decide
  refine ⟨filled, unfilled, ?_, ?_⟩
  · exact painted.on 18 (by decide)
      ⟨rfl, 2, 2, rfl, by decide, by decide, by decide, (same 2 3 later).2 filled⟩
  · refine painted.off 19 ?_
    rintro ⟨-, n, x, hk, right, -, -, fills⟩
    have hn : n = 2 := by omega
    have hx : x = 3 := by omega
    subst hn hx
    exact unfilled ((same 3 3 later).1 fills)

/-- A triangle between the columns `8` and `16` of line `8`, with its top corner in column `12`
    of line `4`, is shown. With bounds that have stepped from the top corner, it fills column
    `10` of line `6`. A pass that begins on line `6` does not paint it. -/
theorem unpainted_below_top :
    let s := (({} : Session).run [.submit (.viewport ⟨8, 4, 15, 7⟩),
      .submit (.vertex 0 (-1) 0 1), .submit (.vertex (-1) 1 0 1),
      .submit (.vertex 1 1 0 1), .submit (.polygon 0 1 2 0 0),
      .submit .swapBuffers]).engine.frames.current
    s.FillsFrom s.top 10 6 ∧
      (s.restart.draw {} s.buckets { width := 24, height := 1 } 6 (.replicate 24 0)).2.1[10]? =
        some 0 := by
  intro s
  let t : Triangle := s.triangles[0]!
  have only : s.triangles = #[t] := by decide +kernel
  constructor
  · refine ⟨t, only ▸ Array.mem_singleton.2 rfl, ?_⟩
    decide +kernel
  · have painted := s.painted_draw_of_start {} 6 24 1 (.replicate 24 0)
    refine painted.off 10 ?_
    rintro ⟨-, n, x, hk, -, first, -, u, hu, -, -, holds⟩
    have hn : n = 0 := by omega
    have hx : x = 10 := by omega
    subst hn hx
    rw [only] at hu
    cases Array.mem_singleton.1 hu
    revert holds
    decide +kernel

end Slot

end GeometryEngine
