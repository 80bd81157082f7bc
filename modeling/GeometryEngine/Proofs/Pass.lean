import GeometryEngine.Coverage

/-!
# Passes over a frame

Drawing fills pixels and moves bounds, line after line. Here it is told at once
what a pass has done by some line.

* `Canvas.Painted`: a picture with some pixels painted, and no others.
* `Slot.onLine`: the triangles as they come to a line, if their frame is drawn from
  line `top` on. A triangle waits with its first bounds until it is reached, and
  keeps the last ones once it is left behind (`Slot.arrival`).
* `Slot.Covered`: a pixel lies between the bounds with which some triangle comes to
  its line.
* `Drawing.triangles_drawLines`, `Drawing.painted_drawLines`: in a pass over a frame
  the triangles are always as they come to the line that is drawn next, and just the
  pixels that are covered are painted.

Within a line every triangle is drawn once, so that it does not matter that its
bounds move on while the line is drawn.
-/

namespace GeometryEngine

/-! ### Painting -/

namespace Canvas

/-- `after` is the picture `before` with the pixels painted that are `P`, and only
    these. -/
structure Painted (value : UInt32) (P : Nat → Prop) (before after : Canvas) : Prop where
  size : after.size = before.size
  on : ∀ k < before.size, P k → after[k]? = some value
  off : ∀ k, ¬P k → after[k]? = before[k]?

variable {value : UInt32} {P Q : Nat → Prop} {a b c : Canvas}

theorem Painted.refl (h : ∀ k, ¬P k) : Painted value P a a :=
  ⟨rfl, fun k _ hk => absurd hk (h k), fun _ _ => rfl⟩

theorem Painted.congr (h : ∀ k, P k ↔ Q k) (hp : Painted value P a b) : Painted value Q a b :=
  ⟨hp.size, fun k hk hq => hp.on k hk ((h k).2 hq), fun k hq => hp.off k (mt (h k).1 hq)⟩

/-- Painting twice paints what is painted either time. -/
theorem Painted.trans (hp : Painted value P a b) (hq : Painted value Q b c) :
    Painted value (fun k => P k ∨ Q k) a c := by
  refine ⟨hq.size.trans hp.size, fun k hk h => ?_, fun k h => ?_⟩
  · by_cases hqk : Q k
    · exact hq.on k (hp.size ▸ hk) hqk
    · rw [hq.off k hqk]
      exact hp.on k hk (h.resolve_right hqk)
  · rw [hq.off k fun hqk => h (.inr hqk), hp.off k fun hpk => h (.inl hpk)]

/-- A picture and what is painted determine the picture that comes of it. -/
theorem Painted.unique (hb : Painted value P a b) (hc : Painted value P a c) : b = c := by
  refine Array.ext_getElem? fun k => ?_
  by_cases h : P k
  · by_cases hk : k < a.size
    · rw [hb.on k hk h, hc.on k hk h]
    · have hbk := hb.size
      have hck := hc.size
      rw [Array.getElem?_eq_none (by omega), Array.getElem?_eq_none (by omega)]
  · rw [hb.off k h, hc.off k h]

theorem painted_set (canvas : Canvas) (i : Nat) (value : UInt32) :
    Painted value (· = i) canvas (canvas.set i value) := by
  refine ⟨Array.size_setIfInBounds, fun k hk h => ?_, fun k h => ?_⟩
  · rw [set, h, Array.getElem?_setIfInBounds_self_of_lt (h ▸ hk)]
  · exact Array.getElem?_setIfInBounds_ne (Ne.symm h)

theorem painted_fill (canvas : Canvas) (value : UInt32) (start count : Nat) :
    Painted value (fun k => start ≤ k ∧ k < start + count) canvas
      (canvas.fill value start count) := by
  induction count generalizing canvas start with
  | zero => exact .refl fun k => by omega
  | succ count ih =>
    rw [fill]
    exact ((painted_set canvas start value).trans (ih _ _)).congr fun k => by omega

end Canvas

/-- Whether column `x` is part of a line and of the screen. -/
def Line.Shows (line : Line) (x : Int) : Prop := 0 ≤ x ∧ x < min line.width screenWidth

/-- Whether column `x` lies between the bounds. -/
def Bounds.Holds (b : Bounds) (x : Int) : Prop := b.left.floor.toInt ≤ x ∧ x ≤ b.right.floor.toInt

instance (b : Bounds) (x : Int) : Decidable (b.Holds x) := inferInstanceAs (Decidable (_ ∧ _))

/-- A triangle paints the columns of a line between its bounds. A line without
    columns may begin anywhere. -/
theorem Triangle.painted_fill (t : Triangle) {line : Line} (h : line.width ≤ 0 ∨ 0 ≤ line.offset)
    (value : UInt32) (canvas : Canvas) :
    canvas.Painted value (fun k => line.Shows (k - line.offset) ∧ t.now.Holds (k - line.offset))
      (t.fill line value canvas) := by
  refine (canvas.painted_fill value _ _).congr fun k => ?_
  simp only [Line.Shows, Bounds.Holds]
  omega

/-! ### A line -/

namespace Drawing

variable (config : RenderConfig) (line : Line) (y : Int)

theorem getElem?_drawTriangle_self (d : Drawing) (i : Nat) :
    (drawTriangle config line y d i).triangles[i]? = d.triangles[i]?.map (Triangle.advance y) := by
  rw [drawTriangle]
  split
  · rename_i ht
    rw [ht]
    rfl
  · rename_i t ht
    have inside := (Array.getElem?_eq_some_iff.1 ht).1
    rw [ht, Array.getElem?_setIfInBounds_self_of_lt inside]
    rfl

theorem getElem?_drawTriangle_ne (d : Drawing) {i j : Nat} (h : i ≠ j) :
    (drawTriangle config line y d i).triangles[j]? = d.triangles[j]? := by
  rw [drawTriangle]
  split
  · rfl
  · exact Array.getElem?_setIfInBounds_ne h

/-- On a line every triangle of its bucket moves on by one line. -/
theorem triangles_foldl {is : List Nat} (once : is.Nodup) (d : Drawing) :
    (is.foldl (drawTriangle config line y) d).triangles =
      d.triangles.mapIdx fun i t => if i ∈ is then t.advance y else t := by
  -- None comes twice, so those that are still to come are as they were.
  induction is generalizing d with
  | nil =>
    refine Array.ext_getElem? fun j => ?_
    simp
  | cons i is ih =>
    obtain ⟨fresh, once⟩ := List.nodup_cons.1 once
    rw [List.foldl_cons, ih once]
    refine Array.ext_getElem? fun j => ?_
    simp only [Array.getElem?_mapIdx, List.mem_cons]
    by_cases hj : i = j
    · subst hj
      rw [getElem?_drawTriangle_self]
      cases d.triangles[i]? <;> simp [fresh]
    · rw [getElem?_drawTriangle_ne _ _ _ _ hj]
      simp [Ne.symm hj]

/-- On a line just the columns are painted that the bounds of some triangle of its
    bucket hold as the line is begun. -/
theorem painted_foldl (h : line.width ≤ 0 ∨ 0 ≤ line.offset) {is : List Nat} (once : is.Nodup)
    (d : Drawing) :
    d.canvas.Painted config.pixel
      (fun k => config.enabled = true ∧ line.Shows (k - line.offset) ∧
        ∃ i ∈ is, ∃ t, d.triangles[i]? = some t ∧ t.now.Holds (k - line.offset))
      (is.foldl (drawTriangle config line y) d).canvas := by
  induction is generalizing d with
  | nil => exact .refl fun k => by simp
  | cons i is ih =>
    obtain ⟨fresh, once⟩ := List.nodup_cons.1 once
    -- What moves on is drawn no more on this line.
    have others : ∀ j ∈ is, (drawTriangle config line y d i).triangles[j]? = d.triangles[j]? :=
      fun j hj => getElem?_drawTriangle_ne _ _ _ _ fun e => fresh (e.symm ▸ hj)
    have first : d.canvas.Painted config.pixel
        (fun k => config.enabled = true ∧ line.Shows (k - line.offset) ∧
          ∃ t, d.triangles[i]? = some t ∧ t.now.Holds (k - line.offset))
        (drawTriangle config line y d i).canvas := by
      rw [drawTriangle]
      split
      · rename_i ht
        exact .refl fun k => by simp [ht]
      · rename_i t ht
        cases henabled : config.enabled with
        | false => exact .refl fun k => by simp
        | true => exact (t.painted_fill h _ _).congr fun k => by simp [ht]
    rw [List.foldl_cons]
    refine (first.trans (ih once _)).congr fun k => ?_
    simp only [List.mem_cons, exists_eq_or_imp, ← and_or_left]
    refine and_congr_right fun _ => and_congr_right fun _ => or_congr_right ?_
    exact exists_congr fun j => and_congr_right fun hj => by rw [others j hj]

end Drawing

/-! ### A pass -/

namespace Slot

variable (s : Slot)

/-- The lowest line of the screen that a triangle reaches. -/
def lastLine (t : Triangle) : Int := min (screenHeight - 1) (s.vertex t.v2).screenY.toInt

/-- The bounds with which a triangle comes to line `y`, if its frame is drawn from
    line `top` on. -/
def arrival (top : Int) (t : Triangle) (y : Int) : Bounds :=
  let first := max top (s.firstLine t)
  t.boundsOn first (max first (min y (s.lastLine t + 1)))

/-- The triangles of a frame as they come to line `y`, if the frame is drawn from
    line `top` on. -/
def onLine (top y : Int) : Array Triangle :=
  s.triangles.map fun t => { t with now := s.arrival top t y }

/-- Whether column `x` of line `y` lies between the bounds of some triangle, if the
    frame is drawn from line `top` on. -/
def Covered (top x y : Int) : Prop :=
  ∃ t ∈ s.triangles, s.firstLine t ≤ y ∧ y ≤ s.lastLine t ∧
    (t.boundsOn (max top (s.firstLine t)) y).Holds x

theorem line_buckets {y : Nat} (h : y < screenHeight) : s.buckets.line y = s.bucket y := by
  simp [buckets, Buckets.line, h]

theorem nodup_bucket (y : Nat) : (s.bucket y).Nodup := List.nodup_range.filter _

variable {s}

theorem covers_iff {t : Triangle} {y : Int} (h : 0 ≤ y ∧ y < screenHeight) :
    s.covers t y.toNat = true ↔ s.firstLine t ≤ y ∧ y ≤ s.lastLine t := by
  simp only [covers, firstLine, lastLine, Bool.and_eq_true, decide_eq_true_eq]
  omega

theorem mem_bucket {y i : Nat} {t : Triangle} (h : s.triangles[i]? = some t) :
    i ∈ s.bucket y ↔ s.covers t y = true := by
  obtain ⟨inside, ht⟩ := Array.getElem?_eq_some_iff.1 h
  simp [bucket, inside, ht]

/-- At the beginning of a pass all triangles are at their top corners. -/
theorem triangles_restart (top : Int) : s.restart.triangles = s.onLine top top := by
  refine Array.map_congr_left fun t _ => ?_
  have : max (max top (s.firstLine t)) (min top (s.lastLine t + 1)) = max top (s.firstLine t) := by
    omega
  rw [Triangle.restart, arrival, this, Triangle.boundsOn_self]

/-- On a line that it reaches, a triangle has the bounds of that line. -/
theorem arrival_of_mem {top y : Int} {t : Triangle} (hy : top ≤ y)
    (h : s.firstLine t ≤ y ∧ y ≤ s.lastLine t) :
    s.arrival top t y = t.boundsOn (max top (s.firstLine t)) y := by
  have : max (max top (s.firstLine t)) (min y (s.lastLine t + 1)) = y := by omega
  rw [arrival, this]

/-- From a line to the next the triangles on it move on, and the others wait. -/
theorem arrival_succ {top y : Int} (t : Triangle) (hy : top ≤ y) :
    s.arrival top t (y + 1) =
      if s.firstLine t ≤ y ∧ y ≤ s.lastLine t then
        s.arrival top t y + if y < t.bend.toInt then t.upper else t.lower
      else s.arrival top t y := by
  split
  · rename_i h
    have next : max (max top (s.firstLine t)) (min (y + 1) (s.lastLine t + 1)) = y + 1 := by omega
    rw [arrival_of_mem hy h, ← Triangle.boundsOn_succ t (by omega), arrival, next]
  · rename_i h
    have same : max (max top (s.firstLine t)) (min (y + 1) (s.lastLine t + 1)) =
        max (max top (s.firstLine t)) (min y (s.lastLine t + 1)) := by omega
    rw [arrival, arrival, same]

/-- Lines that are not on the screen move nothing. -/
theorem onLine_succ_of_offScreen (top : Int) {y : Int} (h : ¬(0 ≤ y ∧ y < screenHeight)) :
    s.onLine top (y + 1) = s.onLine top y := by
  refine Array.map_congr_left fun t _ => ?_
  have same : max (max top (s.firstLine t)) (min (y + 1) (s.lastLine t + 1)) =
      max (max top (s.firstLine t)) (min y (s.lastLine t + 1)) := by
    simp only [firstLine, lastLine]
    omega
  rw [arrival, arrival, same]

end Slot

namespace Drawing

variable {s : Slot} {config : RenderConfig} {top y : Int} {d : Drawing}

/-- On a line the triangles move on from that line to the next. -/
theorem triangles_drawLine (line : Line) (hy : top ≤ max 0 y) (hd : d.triangles = s.onLine top y) :
    (d.drawLine config s.buckets line y).triangles = s.onLine top (y + 1) := by
  rw [drawLine]
  split
  · rename_i screen
    rw [Slot.line_buckets s (by omega), triangles_foldl _ _ _ (s.nodup_bucket _), hd]
    -- The bucket holds just the triangles that move on from this line.
    refine Array.ext_getElem? fun i => ?_
    simp only [Slot.onLine, Array.getElem?_mapIdx, Array.getElem?_map]
    cases ht : s.triangles[i]? with
    | none => rfl
    | some t =>
      simp only [Option.map_some, Slot.mem_bucket ht, Slot.covers_iff screen,
        s.arrival_succ t (show top ≤ y by omega)]
      split <;> rfl
  · rename_i off
    rw [hd, Slot.onLine_succ_of_offScreen top off]

/-- On a line just the pixels are painted that are covered. -/
theorem painted_drawLine {line : Line} (h : line.width ≤ 0 ∨ 0 ≤ line.offset)
    (hy : top ≤ max 0 y) (hd : d.triangles = s.onLine top y) :
    d.canvas.Painted config.pixel
      (fun k => config.enabled = true ∧ line.Shows (k - line.offset) ∧
        s.Covered top (k - line.offset) y)
      (d.drawLine config s.buckets line y).canvas := by
  rw [drawLine]
  split
  · rename_i screen
    rw [Slot.line_buckets s (by omega)]
    refine (painted_foldl config line y h (s.nodup_bucket _) d).congr fun k => ?_
    refine and_congr_right fun _ => and_congr_right fun _ => ?_
    rw [hd]
    constructor
    · rintro ⟨i, hi, t', ht', holds⟩
      rw [Slot.onLine, Array.getElem?_map, Option.map_eq_some_iff] at ht'
      obtain ⟨t, ht, rfl⟩ := ht'
      have reached := (Slot.covers_iff screen).1 ((Slot.mem_bucket ht).1 hi)
      refine ⟨t, Array.mem_of_getElem? ht, reached.1, reached.2, ?_⟩
      rwa [← Slot.arrival_of_mem (by omega) reached]
    · rintro ⟨t, ht, first, last, holds⟩
      obtain ⟨i, ht⟩ := Array.mem_iff_getElem?.1 ht
      refine ⟨i, (Slot.mem_bucket ht).2 ((Slot.covers_iff screen).2 ⟨first, last⟩),
        { t with now := s.arrival top t y }, ?_, ?_⟩
      · rw [Slot.onLine, Array.getElem?_map, ht]
        rfl
      · rwa [Slot.arrival_of_mem (by omega) ⟨first, last⟩]
  · rename_i off
    -- No triangle reaches a line that is not on the screen.
    refine .refl fun k => ?_
    rintro ⟨-, -, t, -, first, last, -⟩
    simp only [Slot.firstLine, Slot.lastLine] at first last
    omega

/-- In a pass the triangles move on line by line. -/
theorem triangles_drawLines (c : Cursor) (hy : top ≤ max 0 y) (hd : d.triangles = s.onLine top y) :
    (drawLines config s.buckets c y d).2.triangles = s.onLine top (y + c.left.toNat) := by
  fun_induction drawLines config s.buckets c y d with
  | case1 c y d hnext =>
    have done : c.left.toNat = 0 := by
      unfold Cursor.nextLine? at hnext
      split at hnext
      · simp only [Cursor.left]; omega
      · cases hnext
    rw [hd, done, Int.natCast_zero, Int.add_zero]
  | case2 c y d line c' hnext ih =>
    have left := Cursor.left_of_nextLine? hnext
    have shift : y + (c.left.toNat : Int) = y + 1 + (c'.left.toNat : Int) := by omega
    rw [ih (by omega) (triangles_drawLine line hy hd), shift]

/-- In a pass just the pixels are painted that are covered, as far as their lines are
    handed out. -/
theorem painted_drawLines (c : Cursor) (hy : top ≤ max 0 y) (hd : d.triangles = s.onLine top y) :
    d.canvas.Painted config.pixel
      (fun k => config.enabled = true ∧ ∃ n : Nat, c.next ≤ n ∧ (n : Int) < c.height ∧
        (⟨n * c.width, c.width⟩ : Line).Shows (k - n * c.width) ∧
        s.Covered top (k - n * c.width) (y + (n - c.next)))
      (drawLines config s.buckets c y d).2.canvas := by
  fun_induction drawLines config s.buckets c y d with
  | case1 c y d hnext =>
    refine .refl fun k => ?_
    rintro ⟨-, n, hn, hh, -⟩
    unfold Cursor.nextLine? at hnext
    split at hnext
    · omega
    · cases hnext
  | case2 c y d line c' hnext ih =>
    unfold Cursor.nextLine? at hnext
    split at hnext
    · cases hnext
    rename_i more
    cases hnext
    have inside : c.width ≤ 0 ∨ 0 ≤ (c.next : Int) * c.width := by
      rcases Int.le_total c.width 0 with hw | hw
      · exact .inl hw
      · exact .inr (Int.mul_nonneg (by omega) hw)
    have now : d.canvas.Painted config.pixel _
        (d.drawLine config s.buckets ⟨c.next * c.width, c.width⟩ y).canvas :=
      painted_drawLine inside hy hd
    refine (now.trans (ih (by omega) (triangles_drawLine _ hy hd))).congr fun k => ?_
    rw [← and_or_left]
    refine and_congr_right fun _ => ?_
    -- The first line that is handed out is drawn now, the others later.
    constructor
    · rintro (⟨shows, covered⟩ | ⟨n, hn, hh, shows, covered⟩)
      · refine ⟨c.next, Nat.le_refl _, by omega, shows, ?_⟩
        rwa [Int.sub_self, Int.add_zero]
      · refine ⟨n, by simp only at hn; omega, hh, shows, ?_⟩
        have same : y + 1 + ((n : Int) - (c.next + 1 : Nat)) = y + (n - c.next) := by omega
        rwa [same] at covered
    · rintro ⟨n, hn, hh, shows, covered⟩
      rcases Nat.eq_or_lt_of_le hn with rfl | later
      · rw [Int.sub_self, Int.add_zero] at covered
        exact .inl ⟨shows, covered⟩
      · refine .inr ⟨n, later, hh, shows, ?_⟩
        have same : y + 1 + ((n : Int) - (c.next + 1 : Nat)) = y + (n - c.next) := by omega
        rwa [same]

end Drawing

end GeometryEngine
