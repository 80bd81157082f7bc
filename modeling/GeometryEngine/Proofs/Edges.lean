import GeometryEngine.Proofs.Slopes
import GeometryEngine.Session

/-!
# Bounds and edges

What the bounds of a triangle have to do with its edges, after set-up and on every line from
its top corner down to its bottom corner.

* `Slot.bounds_of_upright`: without a level top, each bound is as near to the edges that it
  follows as the roundings of so many lines allow, and no column outside the triangle's own
  is filled.
* `Slot.bounds_of_level`: with a level top, the bound on the long edge is a step ahead. So
  only the triangle's own columns are filled on all lines but the last one; there the bound
  is a step beyond the bottom corner.

Corners are taken to lie within `2 ^ 18` columns of the first one of the screen, and within
`4096` lines of one another.
-/

namespace GeometryEngine

/-- Bounds that are not beyond some columns hold only columns between these. -/
theorem Bounds.Holds.between {b : Bounds} {x least greatest : Int} (h : b.Holds x)
    (left : 4096 * least ≤ b.left.raw.toInt) (right : b.right.raw.toInt ≤ 4096 * greatest) :
    least ≤ x ∧ x ≤ greatest := by
  obtain ⟨first, last⟩ := h
  rw [Fixed.toInt_floor] at first last
  omega

namespace Slot

variable {s : Slot} {t u : Triangle}

/-- A triangle without a level top is set up. On the `n`-th line below its top corner, on the
    same side on all lines,

    * one bound is within `n` units of the long edge, and the other one within `n` units of
      the two short edges;
    * as far down as the middle corner, the left bound is not to the right of the right one;
    * neither bound is outside the columns of the corners on its side, so no column outside
      of them is filled. -/
theorem bounds_of_upright (ready : t.setUp s.corner = .ok u) :
    let p := s.corner u.v0
    let q := s.corner u.v1
    let r := s.corner u.v2
    let least := min p.x.toInt (min q.x.toInt r.x.toInt)
    let greatest := max p.x.toInt (max q.x.toInt r.x.toInt)
    p.y < q.y → (∀ c ∈ [p, q, r], |c.x.toInt| < 2 ^ 18) → r.y.toInt - p.y.toInt ≤ 4096 →
    ∃ longLeft : Bool, ∀ n : Nat, p.y.toInt + n ≤ r.y.toInt →
      let y := p.y.toInt + n
      let b := u.boundsAfter p.y.toInt n
      |((b.side longLeft).raw.toInt : ℚ) - Corner.edge p r y| ≤ n ∧
        |((b.side !longLeft).raw.toInt : ℚ) - Corner.chain p q r y| ≤ n ∧
        (y ≤ q.y.toInt → b.left ≤ b.right) ∧
        4096 * least ≤ b.left.raw.toInt ∧ b.right.raw.toInt ≤ 4096 * greatest ∧
        ∀ x, b.Holds x → least ≤ x ∧ x ≤ greatest := by
  intro p q r least greatest upright columns height
  obtain ⟨made, -, lower⟩ := eq_ofCorners_of_setUp ready
  have upright : p.y.toInt < q.y.toInt := Int32.lt_iff_toInt_lt.1 upright
  have lower : q.y.toInt ≤ r.y.toInt := Int32.le_iff_toInt_le.1 lower
  obtain ⟨pq, qr, pr⟩ := Corner.near_of_columns columns upright.le lower height
  refine ⟨decide (Corner.change p r < Corner.change p q), fun n last => ?_⟩
  intro y b
  have first : (0 : Int) ≤ n := Int.natCast_nonneg n
  have sides := Triangle.boundsAfter_upright pq qr pr upright t last
  rw [← made] at sides
  obtain ⟨long, short⟩ : (b.side _).raw.toInt = _ ∧ (b.side _).raw.toInt = _ := sides
  have longError := Corner.abs_steps_sub_edge_le (p := p) (q := r) (by omega) first
  have shortError := Corner.abs_bentSteps_sub_chain_le upright first last
  have onLong := Corner.steps_between first last
  have onShort := Corner.bentSteps_within pq pr upright first last
  have ordered : (y ≤ q.y.toInt → b.left ≤ b.right) ∧
      4096 * least ≤ b.left.raw.toInt ∧ b.right.raw.toInt ≤ 4096 * greatest := by
    rw [Fixed.le_iff]
    rcases lt_or_ge (Corner.change p r) (Corner.change p q) with right | left
    · rw [decide_eq_true right] at long short
      have onLeft : b.left.raw.toInt = Corner.steps p r n := long
      have onRight : b.right.raw.toInt = Corner.bentSteps p q r n := short
      rw [onLeft, onRight]
      refine ⟨fun above => ?_, by omega, onShort.2 right⟩
      rw [Corner.bentSteps_of_le above]
      exact Int.add_le_add_left (Int.mul_le_mul_of_nonneg_left right.le first) _
    · rw [decide_eq_false left.not_gt] at long short
      have onLeft : b.left.raw.toInt = Corner.bentSteps p q r n := short
      have onRight : b.right.raw.toInt = Corner.steps p r n := long
      rw [onLeft, onRight]
      refine ⟨fun above => ?_, onShort.1 left, by omega⟩
      rw [Corner.bentSteps_of_le above]
      exact Int.add_le_add_left (Int.mul_le_mul_of_nonneg_left left first) _
  refine ⟨?_, ?_, ordered.1, ordered.2.1, ordered.2.2, fun x h =>
    h.between ordered.2.1 ordered.2.2⟩
  · rw [long]
    exact_mod_cast longError
  · rw [short]
    exact_mod_cast shortError

/-- The middle corner of a triangle is to the right, and the bottom one to the left. By the
    error on the way to the middle corner, the right bound is a unit beyond the bottom corner
    in the end. The left bound is not. -/
theorem bounds_of_upright_bent :
    let s : Slot := { vertices := #[{}, { screenX := 1, screenY := 3 },
      { screenX := -1, screenY := 4 }] }
    let t : Triangle := { v0 := 2, v1 := 0, v2 := 1 }
    ∃ u, t.setUp s.corner = .ok u ∧ u.v1 = 1 ∧
      let b := u.boundsAfter 0 4
      b.right.raw.toInt = -4097 ∧ -4096 ≤ b.left.raw.toInt ∧
        ∀ x, b.Holds x → -1 ≤ x ∧ x ≤ 1 := by
  intro s t
  let u := t.ofCorners (s.corner 0) (s.corner 1) (s.corner 2)
  have ready : t.setUp s.corner = .ok u := by decide +kernel
  have columns : ∀ c ∈ [s.corner 0, s.corner 1, s.corner 2], |c.x.toInt| < 2 ^ 18 := by
    decide +kernel
  obtain ⟨longLeft, all⟩ := bounds_of_upright ready (by decide +kernel) columns (by decide +kernel)
  obtain ⟨-, -, -, left, -, within⟩ := all 4 (by decide +kernel)
  exact ⟨u, ready, rfl, by decide +kernel, left, within⟩

/-- A triangle with a level top is set up. On the `n`-th line below its top, on the same side
    on all lines,

    * one bound is between the second and the third corner;
    * the other one is where the long edge gets in one more line, wrapped around;
    * but for the bottom line, this is also between the first and the third corner, so no
      column outside of the corners is filled. -/
theorem bounds_of_level (ready : t.setUp s.corner = .ok u) :
    let p := s.corner u.v0
    let q := s.corner u.v1
    let r := s.corner u.v2
    let least := min p.x.toInt (min q.x.toInt r.x.toInt)
    let greatest := max p.x.toInt (max q.x.toInt r.x.toInt)
    p.y = q.y → q.y < r.y → (∀ c ∈ [p, q, r], |c.x.toInt| < 2 ^ 18) →
    r.y.toInt - p.y.toInt ≤ 4096 →
    ∃ longLeft : Bool, ∀ n : Nat, p.y.toInt + n ≤ r.y.toInt →
      let b := u.boundsAfter p.y.toInt n
      let long := b.side longLeft
      let short := b.side !longLeft
      4096 * min q.x.toInt r.x.toInt ≤ short.raw.toInt ∧
        short.raw.toInt ≤ 4096 * max q.x.toInt r.x.toInt ∧
        long.raw.toInt = (4096 * p.x.toInt +
          (n + 1) * (4096 * (r.x.toInt - p.x.toInt)).tdiv (r.y.toInt - p.y.toInt)).bmod (2 ^ 32) ∧
        (p.y.toInt + n < r.y.toInt →
          4096 * min p.x.toInt r.x.toInt ≤ long.raw.toInt ∧
            long.raw.toInt ≤ 4096 * max p.x.toInt r.x.toInt ∧
            ∀ x, b.Holds x → least ≤ x ∧ x ≤ greatest) := by
  intro p q r least greatest level below columns height
  obtain ⟨made, -, -⟩ := eq_ofCorners_of_setUp ready
  have lines : p.y.toInt = q.y.toInt := congrArg Int32.toInt level
  have below : q.y.toInt < r.y.toInt := Int32.lt_iff_toInt_lt.1 below
  obtain ⟨pq, qr, pr⟩ := Corner.near_of_columns columns lines.le below.le height
  obtain ⟨longLeft, sides⟩ := Triangle.boundsAfter_level pq qr pr level below t
  rw [← made] at sides
  refine ⟨longLeft, fun n last => ?_⟩
  intro b long short
  obtain ⟨onLong, onShort⟩ : long.raw.toInt = _ ∧ short.raw.toInt = _ := sides n last
  have between : _ ∧ _ := Corner.steps_between (p := q) (q := r) (Int.natCast_nonneg n) (by omega)
  rw [← onShort] at between
  refine ⟨between.1, between.2, onLong, fun early => ?_⟩
  -- Ahead of all lines but the last one, the long edge is still between its corners.
  have ahead := Corner.steps_between (p := p) (q := r) (n := n + 1) (by omega) (by omega)
  have := abs_lt.1 pr.left
  have := abs_lt.1 pr.right
  rw [Int.bmod_eq_of_le (by omega) (by omega)] at onLong
  rw [← onLong] at ahead
  refine ⟨ahead.1, ahead.2, fun x h => ?_⟩
  cases longLeft
  · exact h.between (show _ ≤ short.raw.toInt by omega) (show long.raw.toInt ≤ _ by omega)
  · exact h.between (show _ ≤ long.raw.toInt by omega) (show short.raw.toInt ≤ _ by omega)

/-- The top of a triangle runs from column `12` to column `16`, and its bottom corner is in
    column `8`, four lines below. On the line above it, the triangle has come to its column. -/
theorem bounds_of_level_top :
    let s : Slot := { vertices := #[{ screenX := 12, screenY := 4 },
      { screenX := 16, screenY := 4 }, { screenX := 8, screenY := 8 }] }
    let t : Triangle := { v0 := 0, v1 := 1, v2 := 2 }
    ∃ u, t.setUp s.corner = .ok u ∧
      let b := u.boundsAfter 4 3
      b.Holds 8 ∧ ∀ x, b.Holds x → 8 ≤ x ∧ x ≤ 16 := by
  intro s t
  let u := t.ofCorners (s.corner 0) (s.corner 1) (s.corner 2)
  have ready : t.setUp s.corner = .ok u := by decide +kernel
  have columns : ∀ c ∈ [s.corner 0, s.corner 1, s.corner 2], |c.x.toInt| < 2 ^ 18 := by
    decide +kernel
  obtain ⟨longLeft, all⟩ :=
    bounds_of_level ready rfl (by decide +kernel) columns (by decide +kernel)
  obtain ⟨-, -, -, early⟩ := all 3 (by decide +kernel)
  exact ⟨u, ready, by decide +kernel, (early (by decide +kernel)).2.2⟩

/-- Such a triangle is shown. On the line of its bottom corner, it fills a column to the left of
    all its corners. -/
theorem outside_of_level :
    let s := (({} : Session).run [.submit (.viewport ⟨8, 4, 15, 7⟩),
      .submit (.vertex 0 (-1) 0 1), .submit (.vertex 1 (-1) 0 1),
      .submit (.vertex (-1) 1 0 1), .submit (.polygon 0 1 2 0 0),
      .submit .swapBuffers]).engine.frames.current
    ∃ u ∈ s.triangles,
      let p := s.corner u.v0
      let q := s.corner u.v1
      let r := s.corner u.v2
      p.y = q.y ∧ q.y < r.y ∧ (∀ c ∈ [p, q, r], |c.x.toInt| < 2 ^ 18) ∧
        r.y.toInt - p.y.toInt ≤ 4096 ∧
        (u.boundsAfter p.y.toInt (r.y.toInt - p.y.toInt).toNat).Holds 7 ∧
        7 < min p.x.toInt (min q.x.toInt r.x.toInt) := by
  intro s
  let u : Triangle := s.triangles[0]!
  have only : s.triangles = #[u] := by decide +kernel
  refine ⟨u, only ▸ Array.mem_singleton.2 rfl, ?_⟩
  decide +kernel

end Slot

end GeometryEngine
