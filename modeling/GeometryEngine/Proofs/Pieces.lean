import GeometryEngine.Passes
import GeometryEngine.Proofs.Pass

/-!
# Drawing in pieces

In a pass, some lines that are drawn first and some more that are drawn after them leave the
same picture and the same triangles behind as all of them at once (`Slot.draw_pieces`).

All that the lines below take over from the lines above are the bounds of the triangles, and
these do not depend on what is painted (`Drawing.triangles_drawRows`). Where the rows lie does
not matter either: a picture of its own for the rows below and the larger picture that they
are a part of change in step (`Drawing.Spliced`).
-/

namespace GeometryEngine

/-! ### Rows -/

namespace Drawing

variable (config : RenderConfig) (buckets : Buckets) (width : Nat)

/-- Draws `count` rows of a picture from row `row` on, the first of which shows line `y`. -/
def drawRows (row : Nat) : Nat → Int → Drawing → Drawing
  | 0, _, d => d
  | count + 1, y, d =>
    drawRows (row + 1) count (y + 1) (d.drawLine config buckets ⟨row * width, width⟩ y)

/-- What a cursor hands out are the rows that are left. -/
theorem drawLines_eq_drawRows (row count : Nat) (y : Int) (d : Drawing) :
    (d.drawLines config buckets { width, height := row + count, next := row } y).2 =
      d.drawRows config buckets width row count y := by
  induction count generalizing row y d with
  | zero =>
    rw [drawLines]
    split
    · rfl
    · rename_i next
      rw [Cursor.nextLine?, if_pos (by simp)] at next
      cases next
  | succ count ih =>
    have more : ¬((row : Int) + (count + 1 : Nat) ≤ row) := by omega
    have height : (row : Int) + (count + 1 : Nat) = (row + 1 : Nat) + count := by omega
    rw [drawLines]
    split
    · rename_i last
      rw [Cursor.nextLine?, if_neg more] at last
      cases last
    · rename_i next
      rw [Cursor.nextLine?, if_neg more] at next
      cases next
      rw [height, ih, drawRows]

theorem drawRows_add (row n m : Nat) (y : Int) (d : Drawing) :
    d.drawRows config buckets width row (n + m) y =
      (d.drawRows config buckets width row n y).drawRows config buckets width (row + n) m
        (y + n) := by
  induction n generalizing row y d with
  | zero => simp [drawRows]
  | succ n ih =>
    have rows : row + (n + 1) = row + 1 + n := by omega
    have lines : y + (n + 1 : Nat) = y + 1 + n := by omega
    rw [Nat.succ_add, drawRows, ih, drawRows, rows, lines]

end Drawing

/-! ### What the lines above leave for those below -/

namespace Drawing

variable {config config' : RenderConfig} {buckets : Buckets} {width : Nat} {d d' : Drawing}

theorem triangles_drawTriangle (same : d.triangles = d'.triangles) (line line' : Line) (y : Int)
    (i : Nat) :
    (d.drawTriangle config line y i).triangles = (d'.drawTriangle config' line' y i).triangles := by
  rw [drawTriangle, drawTriangle, same]
  cases d'.triangles[i]? with
  | none => exact same
  | some t => rfl

/-- The bounds move on in the same way whatever is painted, if anything. -/
theorem triangles_drawRows (same : d.triangles = d'.triangles) (row row' count : Nat) (y : Int) :
    (d.drawRows config buckets width row count y).triangles =
      (d'.drawRows config' buckets width row' count y).triangles := by
  induction count generalizing row row' y d d' with
  | zero => exact same
  | succ count ih =>
    exact ih (drawLine_rel (R := fun d d' => d.triangles = d'.triangles)
      (fun _ _ i same => triangles_drawTriangle same _ _ y i) buckets same) _ _ _

/-- Pixels past the end of a line are not painted. -/
theorem getElem?_drawTriangle_past {line : Line} (inside : 0 ≤ line.offset) {k : Nat}
    (past : line.offset + line.width ≤ k) (y : Int) (i : Nat) :
    (d.drawTriangle config line y i).canvas[k]? = d.canvas[k]? := by
  rw [drawTriangle]
  split
  · rfl
  · dsimp only
    split
    · exact (d.canvas.painted_fill config.pixel _ _).off k (by omega)
    · rfl

/-- Pixels of the rows below are left for those who draw there. -/
theorem getElem?_drawRows_past {row count k : Nat} (past : (row + count) * width ≤ k) (y : Int) :
    (d.drawRows config buckets width row count y).canvas[k]? = d.canvas[k]? := by
  induction count generalizing row y d with
  | zero => rfl
  | succ count ih =>
    have upto : (row + 1) * width ≤ k :=
      Nat.le_trans (Nat.mul_le_mul_right width (by omega)) past
    rw [drawRows, ih (by rwa [Nat.add_assoc, Nat.add_comm 1])]
    refine drawLine_keep (P := fun e => e.canvas[k]? = d.canvas[k]?) (fun e i same => ?_) buckets
      rfl
    rw [getElem?_drawTriangle_past (Int.mul_nonneg (by omega) (by omega)), same]
    rw [Nat.add_mul, Nat.one_mul] at upto
    dsimp only
    exact_mod_cast upto

end Drawing

/-! ### Part of a picture -/

/-- `after` is the picture `before`, but from the pixel `base` on it is `part`. -/
structure Canvas.Spliced (base : Nat) (before part after : Canvas) : Prop where
  below : ∀ k < base, after[k]? = before[k]?
  above : ∀ k, after[base + k]? = part[k]?

namespace Canvas.Spliced

variable {base : Nat} {before part after : Canvas}

/-- Any picture that is the same from `base` on has the part there that the picture has. -/
theorem of_above (same : ∀ k, base ≤ k → after[k]? = before[k]?) :
    Spliced base after (before.extract base before.size) after := by
  refine ⟨fun _ _ => rfl, fun k => ?_⟩
  rw [same _ (Nat.le_add_right base k), Array.getElem?_extract]
  split
  · rfl
  · exact Array.getElem?_eq_none (by omega)

theorem size_le_iff (h : Spliced base before part after) (k : Nat) :
    after.size ≤ base + k ↔ part.size ≤ k := by
  rw [← Array.getElem?_eq_none_iff, h.above, Array.getElem?_eq_none_iff]

/-- The part is put in its place. -/
theorem eq (h : Spliced base before part after) : after = before.extract 0 base ++ part := by
  refine Array.ext_getElem? fun k => ?_
  rw [Array.getElem?_append, Array.getElem?_extract, Array.size_extract]
  by_cases room : base ≤ before.size
  · split
    · rw [Nat.zero_add, h.below k (by omega)]
    · have place : base + (k - (min base before.size - 0)) = k := by omega
      rw [← h.above, place]
  · -- The picture ends before `base`, so there are no pixels in the part.
    have ends : after.size ≤ before.size := by
      rw [← Array.getElem?_eq_none_iff, h.below _ (by omega)]
      exact Array.getElem?_eq_none (Nat.le_refl _)
    have empty : part.size ≤ 0 := (h.size_le_iff 0).1 (by omega)
    split
    · rw [Nat.zero_add, h.below k (by omega)]
    · rw [Array.getElem?_eq_none (by omega), Array.getElem?_eq_none (by omega)]

theorem set (h : Spliced base before part after) (i : Nat) (value : UInt32) :
    Spliced base before (part.set i value) (after.set (base + i) value) := by
  have inside := h.size_le_iff i
  refine ⟨fun k hk => ?_, fun k => ?_⟩
  · rw [Canvas.set, Array.getElem?_setIfInBounds_ne (by omega), h.below k hk]
  · have within : base + i < after.size ↔ i < part.size := by omega
    simp only [Canvas.set, Array.getElem?_setIfInBounds, Nat.add_left_cancel_iff, within, h.above]

theorem fill (h : Spliced base before part after) (value : UInt32) (start count : Nat) :
    Spliced base before (part.fill value start count) (after.fill value (base + start) count) := by
  induction count generalizing start part after with
  | zero => exact h
  | succ count ih => exact ih (h.set start value) (start + 1)

end Canvas.Spliced

/-- Two drawings with the same triangles, one of them on part of the picture of the other. -/
structure Drawing.Spliced (base : Nat) (before : Canvas) (part whole : Drawing) : Prop where
  triangles : whole.triangles = part.triangles
  canvas : Canvas.Spliced base before part.canvas whole.canvas

namespace Drawing.Spliced

variable {base : Nat} {before : Canvas} {part whole : Drawing}

theorem drawTriangle (h : Spliced base before part whole) (config : RenderConfig) {line : Line}
    (inside : 0 ≤ line.offset) (y : Int) (i : Nat) :
    Spliced base before (part.drawTriangle config line y i)
      (whole.drawTriangle config ⟨base + line.offset, line.width⟩ y i) := by
  rw [Drawing.drawTriangle, Drawing.drawTriangle, h.triangles]
  split
  · exact h
  · rename_i t _
    refine ⟨rfl, ?_⟩
    dsimp only
    split
    · have first : (base + line.offset + max t.now.left.floor.toInt 0).toNat =
          base + (line.offset + max t.now.left.floor.toInt 0).toNat := by omega
      rw [Triangle.fill, Triangle.fill]
      dsimp only
      rw [first]
      exact h.canvas.fill _ _ _
    · exact h.canvas

theorem drawRows {k width : Nat} (h : Spliced (k * width) before part whole)
    (config : RenderConfig) (buckets : Buckets) (row count : Nat) (y : Int) :
    Spliced (k * width) before (part.drawRows config buckets width row count y)
      (whole.drawRows config buckets width (k + row) count y) := by
  induction count generalizing row y part whole with
  | zero => exact h
  | succ count ih =>
    have offset : ((k + row : Nat) : Int) * width = (k * width : Nat) + row * width := by
      rw [Int.natCast_add, Int.add_mul, Int.natCast_mul]
    refine ih ?_ (row + 1) (y + 1)
    rw [offset]
    exact drawLine_rel (R := Spliced (k * width) before) (fun _ _ i h =>
      h.drawTriangle config (Int.mul_nonneg (by omega) (by omega)) y i) buckets h

end Drawing.Spliced

/-! ### A pass in two pieces -/

namespace Slot

variable (s : Slot) (buckets : Buckets) (width : Nat)

/-- Drawing with a new cursor, row by row. -/
theorem draw_eq_drawRows (config : RenderConfig) (count : Nat) (y : Int) (canvas : Canvas) :
    let d := Drawing.drawRows config buckets width 0 count y ⟨canvas, s.triangles⟩
    (s.draw config buckets { width, height := count } y canvas).2 =
      (d.canvas, { s with triangles := d.triangles }) := by
  have rows := Drawing.drawLines_eq_drawRows config buckets width 0 count y ⟨canvas, s.triangles⟩
  rw [Int.natCast_zero, Int.zero_add] at rows
  rw [← rows]
  rfl

/-- Drawing on the rows below is drawing on the whole picture, where the rows above are left
    out. -/
theorem drawFrom_eq_drawRows (k count : Nat) (config : RenderConfig) (y : Int) (canvas : Canvas) :
    let d := Drawing.drawRows config buckets width k count y ⟨canvas, s.triangles⟩
    (s.drawFrom (k * width) config buckets { width, height := count } y canvas).2 =
      (d.canvas, { s with triangles := d.triangles }) := by
  intro d
  have spliced : Drawing.Spliced (k * width) canvas
      ⟨canvas.extract (k * width) canvas.size, s.triangles⟩ ⟨canvas, s.triangles⟩ :=
    ⟨rfl, .of_above fun _ _ => rfl⟩
  have drawn := spliced.drawRows config buckets 0 count y
  have part := s.draw_eq_drawRows buckets width config count y
    (canvas.extract (k * width) canvas.size)
  have canvases : d.canvas = _ := drawn.canvas.eq
  have triangles : d.triangles = _ := drawn.triangles
  rw [canvases, triangles]
  exact congrArg (fun drawn => (canvas.extract 0 (k * width) ++ drawn.1, drawn.2)) part

/-- Some lines drawn first, on the rows above, and some more after them, on the rows below,
    leave the same picture and the same triangles behind as all of them drawn at once. The
    first line may be on the screen or not, and the pass may have come to it in any way.

    With another configuration for the first lines, also one that paints nothing, the rows
    below and the triangles are still the same. -/
theorem draw_pieces (config : RenderConfig) (n m : Nat) (y : Int) (canvas : Canvas) :
    let whole := s.draw config buckets { width, height := n + m } y canvas
    let pieces (first : RenderConfig) :=
      let upper := s.draw first buckets { width, height := n } y canvas
      upper.2.2.drawFrom (n * width) config buckets { width, height := m } (y + n) upper.2.1
    (pieces config).2 = whole.2 ∧
      ∀ first, (pieces first).2.2 = whole.2.2 ∧
        ∀ k, (pieces first).2.1[n * width + k]? = whole.2.1[n * width + k]? := by
  intro whole pieces
  let upper (first : RenderConfig) : Drawing :=
    Drawing.drawRows first buckets width 0 n y ⟨canvas, s.triangles⟩
  let lower (first : RenderConfig) : Drawing :=
    Drawing.drawRows config buckets width n m (y + n) (upper first)
  have drawn (first : RenderConfig) :
      (pieces first).2 = ((lower first).canvas, { s with triangles := (lower first).triangles }) := by
    have above := s.draw_eq_drawRows buckets width first n y canvas
    dsimp only [pieces]
    rw [above]
    exact drawFrom_eq_drawRows _ buckets width n m config (y + n) _
  have all : whole.2 = ((lower config).canvas, { s with triangles := (lower config).triangles }) := by
    have rows := s.draw_eq_drawRows buckets width config (n + m) y canvas
    rw [Drawing.drawRows_add, Nat.zero_add, Int.natCast_add] at rows
    exact rows
  -- The rows below are drawn on the same part of the picture, with the same triangles.
  have spliced (first : RenderConfig) : Drawing.Spliced (n * width) (upper first).canvas
      ⟨canvas.extract (n * width) canvas.size, (upper config).triangles⟩ (upper first) := by
    refine ⟨Drawing.triangles_drawRows rfl 0 0 n y, .of_above fun k hk => ?_⟩
    exact Drawing.getElem?_drawRows_past (by rwa [Nat.zero_add]) y
  have below (first : RenderConfig) := (spliced first).drawRows config buckets 0 m (y + n)
  refine ⟨(drawn config).trans all.symm, fun first => ?_⟩
  rw [drawn first, all]
  refine ⟨?_, fun k => ?_⟩
  · exact congrArg (Slot.mk s.vertices) ((below first).triangles.trans (below config).triangles.symm)
  · exact ((below first).canvas.above k).trans ((below config).canvas.above k).symm

end Slot

end GeometryEngine
