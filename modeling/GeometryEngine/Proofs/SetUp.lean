import GeometryEngine.Frames

/-!
# Set-up never fails

A triangle cannot be set up if the distance between the lines of two of its corners
is too large for a word. A vertex gets its line by rounding a fixed-point number down
(`Vertex.project`), and such lines are not far enough apart for that (`IsLine`). So
the set-up of a frame whose vertices were all placed by projection has a plain result,
`Slot.ready`, and no fault (`Slot.setUp_eq_ready`).

A triangle that was set up is made from its own corners, in order (`Slot.eq_ofCorners_of_setUp`).
Which edges its sides follow is told by `Triangle.sides_ofCorners`.
-/

namespace GeometryEngine

/-! ### Lines -/

/-- The number of a line, on the screen or not, that is the whole part of some
    fixed-point number. -/
def IsLine (y : Int32) : Prop := -524288 ≤ y.toInt ∧ y.toInt < 524288

theorem isLine_zero : IsLine 0 := by
  constructor <;> decide

theorem isLine_floor (a : Fixed) : IsLine a.floor := by
  have := a.raw.le_toInt
  have := a.raw.toInt_lt
  rw [IsLine, Fixed.toInt_floor]
  omega

/-- The distance of two lines fits a word. -/
theorem IsLine.sub_nonneg {a b : Int32} (ha : IsLine a) (hb : IsLine b) (h : a ≤ b) :
    ¬b - a < 0 := by
  have := Int32.le_iff_toInt_le.1 h
  have := ha.1
  have := hb.2
  -- The numbers of lines are 20 bits wide, so their difference does not wrap around.
  have exact : (b - a).toInt = b.toInt - a.toInt := by
    rw [Int32.toInt_sub, Int.bmod_eq_of_le (by omega) (by omega)]
  rw [Int32.lt_iff_toInt_lt, exact, Int32.toInt_zero]
  omega

/-! ### Frames that were placed by projection -/

/-- All vertices of the frame are on lines that projection could give them. -/
def Slot.Placed (s : Slot) : Prop := ∀ v ∈ s.vertices, IsLine v.screenY

theorem Vertex.isLine_project (view : Viewport) {v : Vertex} (h : IsLine v.screenY) :
    IsLine (v.project view).screenY := by
  rw [Vertex.project]
  split
  · exact h
  · exact isLine_floor _

namespace Slot

theorem placed_empty : ({} : Slot).Placed := fun _ h => absurd h (Array.not_mem_empty _)

variable {s : Slot}

theorem Placed.isLine_corner (h : s.Placed) (i : Int32) : IsLine (s.corner i).y := by
  rw [corner, Slot.vertex, Array.getD]
  split
  · exact h _ (Array.getElem_mem _)
  · exact isLine_zero

theorem Placed.pushVertex (h : s.Placed) {v : Vertex} (hv : IsLine v.screenY) :
    (s.pushVertex v).Placed := by
  intro u hu
  rcases Array.mem_push.1 hu with hu | rfl
  · exact h u hu
  · exact hv

theorem Placed.project (h : s.Placed) (view : Viewport) (i : Int32) :
    (s.project view i).Placed := by
  intro u hu
  obtain ⟨j, hj⟩ := Array.mem_iff_getElem?.1 hu
  rw [Slot.project, Array.getElem?_modify] at hj
  split at hj
  · obtain ⟨v, hv, rfl⟩ := Option.map_eq_some_iff.1 hj
    exact Vertex.isLine_project view (h v (Array.mem_of_getElem? hv))
  · exact h u (Array.mem_of_getElem? hj)

end Slot

/-! ### Sorted corners -/

namespace Corner

theorem order_le (p q : Corner) : (order p q).1.y ≤ (order p q).2.y := by
  rw [Int32.le_iff_toInt_le, order]
  split
  · rename_i h
    exact Int.le_of_lt (Int32.lt_iff_toInt_lt.1 h)
  · rename_i h
    rw [Int32.lt_iff_toInt_lt] at h
    exact Int.not_lt.1 h

theorem order_fst_le (p q : Corner) : (order p q).1.y ≤ p.y := by
  rw [order]
  split
  · rename_i h
    exact Int32.le_of_lt h
  · exact Int32.le_refl _

/-- What holds of two corners holds of them in order. -/
theorem order_all {P : Corner → Prop} {p q : Corner} (hp : P p) (hq : P q) :
    P (order p q).1 ∧ P (order p q).2 := by
  rw [order]
  split
  · exact ⟨hq, hp⟩
  · exact ⟨hp, hq⟩

/-- What holds of three corners holds of them in order. -/
theorem sort_all {P : Corner → Prop} {p q r : Corner} (hp : P p) (hq : P q) (hr : P r) :
    P (sort p q r).1 ∧ P (sort p q r).2.1 ∧ P (sort p q r).2.2 := by
  obtain ⟨hp, hq⟩ := order_all hp hq
  obtain ⟨hp, hr⟩ := order_all hp hr
  exact ⟨hp, order_all hq hr⟩

/-- Corners are sorted from top to bottom. -/
theorem sort_le (p q r : Corner) :
    (sort p q r).1.y ≤ (sort p q r).2.1.y ∧ (sort p q r).2.1.y ≤ (sort p q r).2.2.y := by
  refine ⟨?_, order_le _ _⟩
  -- The first corner is above both that are sorted last.
  have above : (order (order p q).1 r).1.y ≤ (order p q).2.y :=
    Int32.le_trans (order_fst_le _ r) (order_le p q)
  exact (order_all (P := fun c => (order (order p q).1 r).1.y ≤ c.y) above (order_le _ _)).1

end Corner

/-! ### Sides -/

namespace Bounds

/-- The left bound, or the right one. -/
def side (b : Bounds) (left : Bool) : Fixed := if left then b.left else b.right

@[simp] theorem side_add (a b : Bounds) (left : Bool) :
    (a + b).side left = a.side left + b.side left := by
  cases left <;> rfl

@[simp] theorem side_same (bound : Fixed) (left : Bool) : side ⟨bound, bound⟩ left = bound := by
  cases left <;> rfl

end Bounds

namespace Triangle

variable (t : Triangle) (p q r : Corner)

theorem upper_ofCorners :
    let long := longSlope (r.x - p.x) (r.y - p.y)
    let above := slope (q.x - p.x) (q.y - p.y)
    (t.ofCorners p q r).upper = if long < above then ⟨long, above⟩ else ⟨above, long⟩ := by
  have lines : q.y - p.y + (r.y - q.y) = r.y - p.y := by grind
  simp only [ofCorners, lines, decide_eq_true_eq]

/-- The left side starts off to the left of the right one, or along with it. -/
theorem left_le_right_ofCorners :
    (t.ofCorners p q r).upper.left ≤ (t.ofCorners p q r).upper.right := by
  rw [upper_ofCorners, Fixed.le_iff]
  split <;> rename_i order <;> rw [Fixed.lt_iff] at order
  · exact Int.le_of_lt order
  · exact Int.not_lt.1 order

/-- One side of a triangle follows the long edge and the other one the two short edges. The
    long edge is on the left if it starts off further to the left. -/
theorem sides_ofCorners :
    let u := t.ofCorners p q r
    let long := longSlope (r.x - p.x) (r.y - p.y)
    let above := slope (q.x - p.x) (q.y - p.y)
    let below := slope (r.x - q.x) (r.y - q.y)
    let longLeft := decide (long < above)
    (u.upper.side longLeft = long ∧ u.lower.side longLeft = long) ∧
      u.upper.side (!longLeft) = above ∧ u.lower.side (!longLeft) = below := by
  intro u long above below longLeft
  have lines : q.y - p.y + (r.y - q.y) = r.y - p.y := by grind
  have lower : u.lower = if long < above then ⟨long, below⟩ else ⟨below, long⟩ := by
    simp only [u, ofCorners, lines, decide_eq_true_eq, long, above, below]
  rw [upper_ofCorners, lower]
  by_cases order : long < above
  · rw [if_pos order, if_pos order, show longLeft = true from decide_eq_true order]
    exact ⟨⟨rfl, rfl⟩, rfl, rfl⟩
  · rw [if_neg order, if_neg order, show longLeft = false from decide_eq_false order]
    exact ⟨⟨rfl, rfl⟩, rfl, rfl⟩

/-- Both sides start at the top corner, or a step past it if the top is level. -/
theorem start_ofCorners :
    (t.ofCorners p q r).start =
      if p.y = q.y then ⟨.ofInt p.x, .ofInt p.x⟩ + (t.ofCorners p q r).upper
      else ⟨.ofInt p.x, .ofInt p.x⟩ := by
  have level : q.y - p.y = 0 ↔ p.y = q.y := by grind
  simp only [ofCorners, level]

end Triangle

/-! ### Set-up -/

/-- A triangle with its corners sorted and its bounds at the top, wherever the corners
    are. -/
def Triangle.ready (corner : Int32 → Corner) (t : Triangle) : Triangle :=
  let (p, q, r) := Corner.sort (corner t.v0) (corner t.v1) (corner t.v2)
  t.ofCorners p q r

/-- A frame with all triangles ready. -/
def Slot.ready (s : Slot) : Slot :=
  { s with triangles := s.triangles.map (Triangle.ready s.corner) }

theorem Triangle.setUp_eq_ready {corner : Int32 → Corner} (h : ∀ i, IsLine (corner i).y)
    (t : Triangle) : t.setUp corner = .ok (t.ready corner) := by
  have sorted := Corner.sort_le (corner t.v0) (corner t.v1) (corner t.v2)
  have lines := Corner.sort_all (P := fun c => IsLine c.y) (h t.v0) (h t.v1) (h t.v2)
  unfold setUp ready
  generalize Corner.sort (corner t.v0) (corner t.v1) (corner t.v2) = pqr at sorted lines ⊢
  obtain ⟨p, q, r⟩ := pqr
  refine if_neg ?_
  rintro (upper | lower)
  · exact lines.1.sub_nonneg lines.2.1 sorted.1 upper
  · exact lines.2.1.sub_nonneg lines.2.2 sorted.2 lower

namespace Slot

theorem setUpFrom_eq_ready {corner : Int32 → Corner} (h : ∀ i, IsLine (corner i).y) (n : Nat)
    (ts : List Triangle) :
    setUpFrom (Triangle.setUp corner) n ts = .ok (ts.map (Triangle.ready corner)) := by
  induction ts generalizing n with
  | nil => rfl
  | cons t ts ih => simp only [setUpFrom, Triangle.setUp_eq_ready h, ih, List.map_cons]

/-- After set-up the corners of a triangle are in order, and its bounds are made from
    them. -/
theorem eq_ofCorners_of_setUp {s : Slot} {t u : Triangle} (h : t.setUp s.corner = .ok u) :
    let p := s.corner u.v0
    let q := s.corner u.v1
    let r := s.corner u.v2
    u = t.ofCorners p q r ∧ p.y ≤ q.y ∧ q.y ≤ r.y := by
  have sorted := Corner.sort_le (s.corner t.v0) (s.corner t.v1) (s.corner t.v2)
  have found := Corner.sort_all (P := fun c => s.corner c.index = c)
    (p := s.corner t.v0) (q := s.corner t.v1) (r := s.corner t.v2) rfl rfl rfl
  unfold Triangle.setUp at h
  generalize Corner.sort (s.corner t.v0) (s.corner t.v1) (s.corner t.v2) = pqr at sorted found h
  obtain ⟨p, q, r⟩ := pqr
  obtain ⟨hp, hq, hr⟩ := found
  dsimp only at h
  split at h <;> cases h
  dsimp only [Triangle.ofCorners] at hp hq hr ⊢
  rw [hp, hq, hr]
  exact ⟨rfl, sorted⟩

/-- A frame whose vertices are placed can be set up. -/
theorem setUp_eq_ready {s : Slot} (h : s.Placed) : s.setUp = .ok s.ready := by
  rw [setUp, setUpFrom_eq_ready h.isLine_corner, ready, ← Array.toList_map]

end Slot

end GeometryEngine
