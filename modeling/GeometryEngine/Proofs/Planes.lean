import GeometryEngine.Proofs.Divisors

/-!
# Which planes a vertex is beyond

The flags of a vertex that has arrived, read in exact numbers (`Vertex.IsClassified`). The
planes are at `-w` and at `w`, and `-w` wraps around for one `w` only: the smallest number is
its own negative. No number is below it, so the planes at `-w` are not flagged there.

* `Fixed.lt_neg_iff`: the comparison with `-w`.
* `Vertex.isClassified_ofClip`: the flags tell which planes a vertex is beyond.
* `Vertex.IsClassified.inside`: a vertex without flags lies inside the view volume and can be
  divided by a positive number, unless all its coordinates but the third are the smallest
  number.
* `Session.run_classifies`: so in a session without loads, every divisor is positive or the
  smallest number.
-/

namespace GeometryEngine

/-- Only the smallest number wraps around when it is negated, to itself. -/
theorem Fixed.lt_neg_iff (a w : Fixed) :
    a < -w ↔ a.raw.toInt < -w.raw.toInt ∧ w.raw.toInt ≠ -2 ^ 31 := by
  have low := a.raw.le_toInt
  have low' := w.raw.le_toInt
  have high' := w.raw.toInt_lt
  rw [lt_iff, raw_neg, Int32.toInt_neg]
  by_cases least : w.raw.toInt = -2 ^ 31
  · have same : (-w.raw.toInt).bmod (2 ^ 32) = -2 ^ 31 := by
      rw [least]
      rfl
    omega
  · rw [Int.bmod_eq_of_le (by omega) (by omega)]
    omega

namespace Vertex

/-- The flags are set for the planes that the vertex is beyond, in exact numbers. A vertex with
    a last coordinate of `0` is beyond all of them. -/
structure IsClassified (v : Vertex) : Prop where
  left : v.flags &&& Flag.left ≠ 0 ↔
    (v.x.raw.toInt < -v.w.raw.toInt ∧ v.w.raw.toInt ≠ -2 ^ 31) ∨ v.w.raw.toInt = 0
  right : v.flags &&& Flag.right ≠ 0 ↔ v.w.raw.toInt < v.x.raw.toInt ∨ v.w.raw.toInt = 0
  top : v.flags &&& Flag.top ≠ 0 ↔
    (v.y.raw.toInt < -v.w.raw.toInt ∧ v.w.raw.toInt ≠ -2 ^ 31) ∨ v.w.raw.toInt = 0
  bottom : v.flags &&& Flag.bottom ≠ 0 ↔ v.w.raw.toInt < v.y.raw.toInt ∨ v.w.raw.toInt = 0
  near : v.flags &&& Flag.near ≠ 0 ↔ v.w.raw.toInt = 0
  far : v.flags &&& Flag.far ≠ 0 ↔ v.w.raw.toInt = 0
  rest : v.flags &&& ~~~Flag.anyPlane = 0

theorem isClassified_ofClip (x y z w : Fixed) : (ofClip x y z w).IsClassified := by
  have bits (a b c d e : Bool) :
      let flags := (if a then Flag.left else 0) ||| (if b then Flag.right else 0) |||
        (if c then Flag.top else 0) ||| (if d then Flag.bottom else 0) |||
        (if e then Flag.anyPlane else 0)
      (flags &&& Flag.left ≠ 0 ↔ a ∨ e) ∧ (flags &&& Flag.right ≠ 0 ↔ b ∨ e) ∧
        (flags &&& Flag.top ≠ 0 ↔ c ∨ e) ∧ (flags &&& Flag.bottom ≠ 0 ↔ d ∨ e) ∧
        (flags &&& Flag.near ≠ 0 ↔ e) ∧ (flags &&& Flag.far ≠ 0 ↔ e) ∧
        flags &&& ~~~Flag.anyPlane = 0 := by
    revert a b c d e
    decide
  have zero : w = 0 ↔ w.raw.toInt = 0 := by
    rw [← Int32.toInt_zero, Int32.toInt_inj]
    exact ⟨fun h => h ▸ rfl, Fixed.ext_raw⟩
  have set := bits (x < -w) (w < x) (y < -w) (w < y) (w = 0)
  simp only [decide_eq_true_eq] at set
  obtain ⟨left, right, top, bottom, near, far, rest⟩ := set
  exact {
    left := left.trans (or_congr (Fixed.lt_neg_iff x w) zero)
    right := right.trans (or_congr (Fixed.lt_iff w x) zero)
    top := top.trans (or_congr (Fixed.lt_neg_iff y w) zero)
    bottom := bottom.trans (or_congr (Fixed.lt_iff w y) zero)
    near := near.trans zero
    far := far.trans zero
    rest := rest }

/-- A vertex with no flag for a plane has none for any of them. -/
theorem and_flag_of_not_isOutside {v : Vertex} (inside : v.isOutside = false) {flag : UInt32}
    (plane : Flag.anyPlane &&& flag = flag) : v.flags &&& flag = 0 := by
  have none : v.flags &&& Flag.anyPlane = 0 := by simpa [isOutside] using inside
  rw [← plane, ← UInt32.and_assoc, none, UInt32.zero_and]

/-- The vertex lies between planes that are not all in one place. -/
def IsBetween (v : Vertex) : Prop :=
  0 < v.w.raw.toInt ∧ -v.w.raw.toInt ≤ v.x.raw.toInt ∧ v.x.raw.toInt ≤ v.w.raw.toInt ∧
    -v.w.raw.toInt ≤ v.y.raw.toInt ∧ v.y.raw.toInt ≤ v.w.raw.toInt

/-- A vertex without flags lies inside the view volume, with one exception. -/
theorem IsClassified.inside {v : Vertex} (h : v.IsClassified) (inside : v.isOutside = false) :
    v.IsBetween ∨
      v.x.raw.toInt = -2 ^ 31 ∧ v.y.raw.toInt = -2 ^ 31 ∧ v.w.raw.toInt = -2 ^ 31 := by
  have left := (not_congr h.left).1 (not_not.2 (and_flag_of_not_isOutside inside rfl))
  have right := (not_congr h.right).1 (not_not.2 (and_flag_of_not_isOutside inside rfl))
  have top := (not_congr h.top).1 (not_not.2 (and_flag_of_not_isOutside inside rfl))
  have bottom := (not_congr h.bottom).1 (not_not.2 (and_flag_of_not_isOutside inside rfl))
  have := v.x.raw.le_toInt
  have := v.y.raw.le_toInt
  rw [IsBetween]
  omega

end Vertex

namespace Session

/-- Every vertex that there is room for is stored behind the others, with the flags of the planes
    that it is beyond; without flags it lies inside the view volume. In a session of a new engine
    in which no state is loaded, all divisors of vertices are positive. To both there is one
    exception: the smallest number for `w` is its own negative, and at `x = y = w` no flag is
    set. -/
theorem run_classifies {actions : List Action} (others : ∀ a ∈ actions, ∀ bs, a ≠ .load bs) :
    (∀ (e : Engine) (x y z w : Fixed), e.frames.next.vertices.size < Slot.capacity →
      ∃ e' v, e.process (.vertex x y z w) = .ok e' ∧
        e'.frames.next.vertices = e.frames.next.vertices.push v ∧
        (v.x = x ∧ v.y = y ∧ v.z = z ∧ v.w = w) ∧ v.IsClassified ∧
        (v.isOutside = false → v.IsBetween ∨
          x.raw.toInt = -2 ^ 31 ∧ y.raw.toInt = -2 ^ 31 ∧ w.raw.toInt = -2 ^ 31)) ∧
      ∀ ev ∈ ({} : Session).events actions,
        ev.engine.process? (fun w => 0 < w.raw.toInt ∨ w.raw.toInt = -2 ^ 31) ev.command =
          some (ev.engine.process ev.command) := by
  constructor
  · intro e x y z w room
    have classified := Vertex.isClassified_ofClip x y z w
    refine ⟨_, .ofClip x y z w, Engine.process_vertex room x y z w, ?_, ⟨rfl, rfl, rfl, rfl⟩,
      classified, classified.inside⟩
    rw [Frames.next_mapNext]
    rfl
  · refine guarded_events (.inl Slot.isDivisible_empty) (fun x y z w inside => ?_) others
    rw [decide_eq_true_eq]
    exact ((Vertex.isClassified_ofClip x y z w).inside inside).imp And.left fun least => least.2.2

/-- A vertex on the right plane is inside, and one beyond it is flagged. A triangle between the
    first one and itself is projected, which divides by `1`. -/
theorem run_classifies_right :
    let actions : List Action := [.submit (.vertex 1 0 0 1), .submit (.vertex 2 0 0 1),
      .submit (.polygon 0 0 0 0 0)]
    let events := ({} : Session).events actions
    (∀ a ∈ actions, ∀ bs, a ≠ .load bs) ∧ events.length = 3 ∧
      (∀ ev ∈ events, ev.engine.process? (fun w => 0 < w.raw.toInt ∨ w.raw.toInt = -2 ^ 31)
        ev.command = some (ev.engine.process ev.command)) ∧
      ∃ e v, ({} : Engine).process (.vertex 2 0 0 1) = .ok e ∧ e.frames.next.vertices = #[v] ∧
        v.flags &&& Flag.right ≠ 0 ∧ v.flags &&& Flag.near = 0 := by
  intro actions events
  have others : ∀ a ∈ actions, ∀ bs, a ≠ .load bs := by simp [actions]
  obtain ⟨arrives, looked⟩ := run_classifies others
  obtain ⟨e, v, processed, stored, ⟨hx, -, -, hw⟩, classified, -⟩ :=
    arrives {} 2 0 0 1 (by decide)
  refine ⟨others, by decide +kernel, looked, e, v, processed, stored, ?_, ?_⟩
  · rw [classified.right, hx, hw]
    decide
  · by_contra near
    have := classified.near.1 near
    rw [hw] at this
    exact absurd this (by decide)

/-- A vertex with the smallest number for all coordinates but the third lies beyond the left
    side and the top, if `-w` is taken exactly, but no flag is set. A polygon at it has it
    divided by a number that is not positive. -/
theorem unflagged_at_least :
    let least : Fixed := ⟨-2 ^ 31⟩
    let actions : List Action := [.submit (.vertex least least 0 least)]
    let e := (({} : Session).run actions).engine
    (∀ a ∈ actions, ∀ bs, a ≠ .load bs) ∧ least.raw.toInt < -least.raw.toInt ∧
      e.frames.next.vertices.map Vertex.flags = #[0] ∧
      ∃ ev ∈ ({} : Session).events (actions ++ [.submit (.polygon 0 0 0 0 0)]),
        ev.engine.process? (fun w => 0 < w.raw.toInt) ev.command = none := by
  intro least actions e
  have divided : (({} : Session).events (actions ++ [.submit (.polygon 0 0 0 0 0)])).any
      (fun ev => (ev.engine.process? (fun w => 0 < w.raw.toInt) ev.command).isNone) = true := by
    decide +kernel
  obtain ⟨ev, hev, held⟩ := List.any_eq_true.1 divided
  exact ⟨by simp [actions], by decide, by decide +kernel, ev, hev,
    Option.isNone_iff_eq_none.1 held⟩

end Session

end GeometryEngine
