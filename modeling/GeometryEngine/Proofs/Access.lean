import GeometryEngine.Checked
import GeometryEngine.Proofs.Fits
import GeometryEngine.Proofs.InPlace
import GeometryEngine.Proofs.Pass

/-!
# Nothing is read that is not there

In every state of a session, looking first makes no difference to set-up, the text of a
frame, the buckets of a pass and drawing (`Session.run_safe`): every vertex, triangle,
bucket and pixel that they refer to is there, and the numbers of triangles fit the 16
bits that the buckets have for them.

* `Slot.setUp?_eq`, `SceneText.ofSlot?_eq`, `Slot.buckets?_eq`: the corners of triangles
  are vertices of a slot that fits;
* `Slot.draw?_eq`: buckets hold numbers of triangles, and between its bounds a triangle
  fills only pixels of the line;
* `Session.Holds`: for drawing, the frame for which the buckets were made has to be held
  until the end of the pass.
-/

namespace GeometryEngine

/-! ### Corners -/

theorem Triangle.setUpAt_corner (t : Triangle) (corner : Int32 → Corner) :
    t.setUpAt (corner t.v0) (corner t.v1) (corner t.v2) = t.setUp corner := by
  rw [setUpAt, setUp]

namespace Slot

variable {s : Slot}

theorem vertex?_eq {i : Int32} (h : s.resolves i = true) : s.vertex? i = some (s.vertex i) := by
  obtain ⟨nonneg, inside⟩ := resolves_iff.1 h
  have small : i.toNatClampNeg < s.vertices.size := by
    rw [Int32.toNatClampNeg]
    omega
  have sign : 0 ≤ i := Int32.le_iff_toInt_le.2 nonneg
  rw [vertex?, if_pos sign, vertex, Array.getElem?_eq_getElem small, Array.getD, dif_pos small]
  rfl

theorem corner?_eq {i : Int32} (h : s.resolves i = true) : s.corner? i = some (s.corner i) := by
  rw [corner?, vertex?_eq h]
  rfl

/-! ### Set-up and text -/

theorem setUpTriangle?_eq {t : Triangle} (h : s.resolvesTriangle t = true) :
    s.setUpTriangle? t = some (t.setUp s.corner) := by
  obtain ⟨h0, h1, h2⟩ := resolvesTriangle_iff.1 h
  rw [setUpTriangle?, corner?_eq h0, corner?_eq h1, corner?_eq h2]
  exact congrArg some (t.setUpAt_corner s.corner)

theorem setUpFrom?_eq {setUp? : Triangle → Option (Except (Int32 × Int32 × Int32) Triangle)}
    {setUp : Triangle → Except (Int32 × Int32 × Int32) Triangle} {ts : List Triangle}
    (h : ∀ t ∈ ts, setUp? t = some (setUp t)) (n : Nat) :
    setUpFrom? setUp? n ts = some (setUpFrom setUp n ts) := by
  induction ts generalizing n with
  | nil => rfl
  | cons t ts ih =>
    obtain ⟨first, rest⟩ := List.forall_mem_cons.1 h
    rw [setUpFrom?, first, Option.bind_some, ih rest, setUpFrom]
    cases setUp t with
    | error lines => rfl
    | ok t => cases setUpFrom setUp (n + 1) ts <;> rfl

/-- All corners are vertices when triangles are set up. -/
theorem setUp?_eq (h : s.Fits) : s.setUp? = some s.setUp := by
  have corners : ∀ t ∈ s.triangles.toList, s.setUpTriangle? t = some (t.setUp s.corner) :=
    fun t ht => setUpTriangle?_eq (h.resolved t (Array.mem_toList_iff.1 ht))
  rw [setUp?, setUpFrom?_eq corners, setUp, Option.map_some]
  cases setUpFrom (Triangle.setUp s.corner) 0 s.triangles.toList <;> rfl

theorem triangle?_eq {t : Triangle} (h : s.resolvesTriangle t = true) (i : Nat) :
    SceneText.triangle? s t i = some (SceneText.triangle s t i) := by
  obtain ⟨h0, h1, h2⟩ := resolvesTriangle_iff.1 h
  rw [SceneText.triangle?, vertex?_eq h0, vertex?_eq h1, vertex?_eq h2]
  rfl

theorem mapM_eq_some {α β : Type} {f? : α → Option β} {f : α → β} {as : List α}
    (h : ∀ a ∈ as, f? a = some (f a)) : as.mapM f? = some (as.map f) := by
  induction as with
  | nil => rfl
  | cons a as ih =>
    obtain ⟨first, rest⟩ := List.forall_mem_cons.1 h
    rw [List.mapM_cons, first, ih rest]
    rfl

/-- All corners are vertices when triangles are written down. -/
theorem text?_eq (h : s.Fits) : SceneText.ofSlot? s = some (SceneText.ofSlot s) := by
  have corners : ∀ p ∈ s.triangles.toList.zipIdx,
      SceneText.triangle? s p.1 p.2 = some (SceneText.triangle s p.1 p.2) := fun p hp =>
    triangle?_eq (h.resolved p.1 (Array.mem_toList_iff.1 (List.fst_mem_of_mem_zipIdx hp))) p.2
  rw [SceneText.ofSlot?, mapM_eq_some corners]
  rfl

end Slot

/-! ### Buckets -/

/-- A number is added to `count` buckets from that of line `y` on. -/
theorem WordBuckets.enter?_eq {b : WordBuckets} {y count : Nat}
    (inside : ∀ z, y ≤ z → z < y + count → z < b.size) (i : UInt16) :
    enter? i y count b =
      some (b.mapIdx fun z is => if y ≤ z ∧ z < y + count then is ++ [i] else is) := by
  induction count generalizing b y with
  | zero =>
    refine congrArg some (Array.ext_getElem? fun z => ?_)
    have none : ¬(y ≤ z ∧ z < y + 0) := by omega
    simp only [Array.getElem?_mapIdx, if_neg none, Option.map_id']
  | succ count ih =>
    have here : y < b.size := inside y (Nat.le_refl _) (by omega)
    rw [enter?, Array.getElem?_eq_getElem here, Option.bind_eq_bind, Option.bind_some, ih]
    · refine congrArg some (Array.ext_getElem? fun z => ?_)
      rw [Array.getElem?_mapIdx, Array.getElem?_mapIdx, Array.getElem?_setIfInBounds]
      by_cases hz : y = z
      · subst hz
        have past : ¬(y + 1 ≤ y ∧ y < y + 1 + count) := by omega
        have first : y ≤ y ∧ y < y + (count + 1) := by omega
        simp only [if_true, here, Option.map_some, if_neg past, if_pos first,
          Array.getElem?_eq_getElem here]
      · have later : (y + 1 ≤ z ∧ z < y + 1 + count) ↔ (y ≤ z ∧ z < y + (count + 1)) := by omega
        simp only [if_neg hz, later]
    · intro z low high
      rw [Array.size_setIfInBounds]
      exact inside z (by omega) (by omega)

namespace Slot

variable {s : Slot}

/-- A triangle gets into the buckets of the lines that it reaches over. -/
theorem enter?_eq {t : Triangle} (h : s.resolvesTriangle t = true) {b : WordBuckets}
    (size : b.size = screenHeight) (i : Nat) :
    s.enter? t i b =
      some (b.mapIdx fun z is => if s.covers t z then is ++ [UInt16.ofNat i] else is) := by
  obtain ⟨h0, -, h2⟩ := resolvesTriangle_iff.1 h
  have lines : screenHeight = 192 := rfl
  rw [enter?, vertex?_eq h0, vertex?_eq h2]
  simp only [Option.bind_eq_bind, Option.bind_some]
  rw [WordBuckets.enter?_eq fun z low high => by omega]
  refine congrArg some (Array.mapIdx_eq_mapIdx_iff.2 fun z hz => ?_)
  have reached : (s.covers t z = true) ↔ (max (s.vertex t.v0).screenY.toInt 0).toNat ≤ z ∧
      z < (max (s.vertex t.v0).screenY.toInt 0).toNat +
        (min (s.vertex t.v2).screenY.toInt (screenHeight - 1) + 1 -
          max (s.vertex t.v0).screenY.toInt 0).toNat := by
    rw [covers, Bool.and_eq_true, decide_eq_true_eq, decide_eq_true_eq]
    omega
  simp only [reached]

/-- The numbers of triangles that reach over line `z`, in 16 bits each. -/
def entered (s : Slot) (ps : List (Triangle × Nat)) (z : Nat) : List UInt16 :=
  (ps.filter fun p => s.covers p.1 z).map fun p => .ofNat p.2

theorem foldlM_enter? {ps : List (Triangle × Nat)} (h : ∀ p ∈ ps, s.resolvesTriangle p.1 = true)
    {b : WordBuckets} (size : b.size = screenHeight) :
    ps.foldlM (fun b (t, i) => s.enter? t i b) b =
      some (b.mapIdx fun z is => is ++ s.entered ps z) := by
  induction ps generalizing b with
  | nil =>
    refine congrArg some (Array.ext_getElem? fun z => ?_)
    simp only [Array.getElem?_mapIdx, entered, List.filter_nil, List.map_nil, List.append_nil,
      Option.map_id']
  | cons p ps ih =>
    obtain ⟨t, i⟩ := p
    obtain ⟨first, rest⟩ := List.forall_mem_cons.1 h
    rw [List.foldlM_cons]
    dsimp only
    rw [enter?_eq first size, Option.bind_eq_bind, Option.bind_some,
      ih rest (by rw [Array.size_mapIdx, size]), Array.mapIdx_mapIdx]
    refine congrArg some (Array.mapIdx_eq_mapIdx_iff.2 fun z hz => ?_)
    by_cases reached : s.covers t z = true
    · simp only [Function.comp_apply, entered, reached, if_true, List.filter_cons_of_pos,
        List.map_cons, List.append_assoc, List.singleton_append]
    · simp only [Function.comp_apply, entered, reached, if_false, List.filter_cons_of_neg,
        Bool.false_eq_true, not_false_eq_true]

/-- Sixteen bits are enough for the numbers of triangles. -/
theorem map_toNat_entered (h : s.Fits) (z : Nat) :
    (s.entered s.triangles.toList.zipIdx z).map UInt16.toNat = s.bucket z := by
  have numbers : List.range s.triangles.size = s.triangles.toList.zipIdx.map Prod.snd := by
    rw [List.zipIdx_map_snd, List.range_eq_range', Array.length_toList]
  have same : ∀ p ∈ s.triangles.toList.zipIdx,
      s.covers p.1 z = s.covers (s.triangles.getD p.2 {}) z ∧ (UInt16.ofNat p.2).toNat = p.2 := by
    intro p hp
    have hp := List.mem_zipIdx_iff_getElem?.1 hp
    rw [Array.getElem?_toList] at hp
    obtain ⟨inside, -⟩ := Array.getElem?_eq_some_iff.1 hp
    have small : p.2 < 4096 := Nat.lt_of_lt_of_le inside h.triangles
    refine ⟨?_, ?_⟩
    · rw [Array.getD_eq_getD_getElem?, hp, Option.getD_some]
    · rw [UInt16.toNat_ofNat']
      exact Nat.mod_eq_of_lt (by omega)
  rw [bucket, numbers, List.filter_map, entered, List.map_map,
    List.filter_congr fun p hp => (same p hp).1]
  exact List.map_congr_left fun p hp => (same p (List.mem_filter.1 hp).1).2

/-- In a pass the buckets are those of the frame, in 16 bits for each number. -/
theorem buckets?_eq (h : s.Fits) : ∃ b, s.buckets? = some b ∧ b.widen = s.buckets := by
  have resolved : ∀ p ∈ s.triangles.toList.zipIdx, s.resolvesTriangle p.1 = true := fun p hp =>
    h.resolved p.1 (Array.mem_toList_iff.1 (List.fst_mem_of_mem_zipIdx hp))
  refine ⟨_, foldlM_enter? resolved Array.size_replicate, ?_⟩
  refine Array.ext_getElem? fun z => ?_
  rw [WordBuckets.widen, Array.getElem?_map, Array.getElem?_mapIdx, buckets]
  by_cases hz : z < screenHeight
  · simp [hz, map_toNat_entered h]
  · simp [hz]

end Slot

/-! ### Lines -/

/-- A line lies within the picture, unless it has no pixels. -/
def Line.IsWithin (line : Line) (canvas : Canvas) : Prop :=
  0 < line.width → 0 ≤ line.offset ∧ line.offset + line.width ≤ canvas.size

theorem Canvas.fill?_eq {line : Line} {canvas : Canvas} (within : line.IsWithin canvas) {x : Int}
    {count : Nat} (inside : 0 < count → 0 ≤ x ∧ x + count ≤ line.width) (value : UInt32) :
    fill? line value x count canvas =
      some (canvas.fill value (line.offset + x).toNat count) := by
  induction count generalizing canvas x with
  | zero => rfl
  | succ count ih =>
    obtain ⟨first, last⟩ := inside (Nat.zero_lt_succ count)
    obtain ⟨begins, ends⟩ := within (by omega)
    have here : 0 ≤ x ∧ x < line.width ∧ 0 ≤ line.offset + x ∧
        line.offset + x < canvas.size := by omega
    have next : (line.offset + (x + 1)).toNat = (line.offset + x).toNat + 1 := by omega
    have same : (canvas.set (line.offset + x).toNat value).size = canvas.size :=
      Array.size_setIfInBounds
    rw [fill?, set?, if_pos here, Option.bind_eq_bind, Option.bind_some, fill, ih, next]
    · exact fun columns => same ▸ within columns
    · intro _
      omega

/-- Between its bounds a triangle fills only pixels of the line. -/
theorem Triangle.fill?_eq {line : Line} {canvas : Canvas} (within : line.IsWithin canvas)
    (t : Triangle) (value : UInt32) :
    t.fill? line value canvas = some (t.fill line value canvas) := by
  refine Canvas.fill?_eq within ?_ value
  intro _
  omega

/-- Whether there are buckets for all lines, which hold numbers below `n`. -/
structure WordBuckets.Serves (b : WordBuckets) (n : Nat) : Prop where
  lines : b.size = screenHeight
  numbers : ∀ is ∈ b, ∀ i ∈ is, i.toNat < n

/-- The buckets of a frame hold numbers of its triangles. -/
theorem Slot.serves {s : Slot} {b : WordBuckets} (h : b.widen = s.buckets) :
    b.Serves s.triangles.size where
  lines := by
    have := congrArg Array.size h
    rw [WordBuckets.widen, Array.size_map, buckets] at this
    simpa using this
  numbers is his i hi := by
    have wide : is.map UInt16.toNat ∈ s.buckets := h ▸ Array.mem_map_of_mem his
    rw [buckets, List.mem_toArray, List.mem_map] at wide
    obtain ⟨y, -, bucket⟩ := wide
    have inside : i.toNat ∈ s.bucket y := bucket ▸ List.mem_map_of_mem hi
    exact List.mem_range.1 (List.mem_filter.1 inside).1

namespace Drawing

variable {config : RenderConfig} {line : Line} {d : Drawing} {b : WordBuckets}

/-- Drawing adds neither triangles nor pixels. -/
theorem size_drawTriangle (config : RenderConfig) (line : Line) (y : Int) (d : Drawing) (i : Nat) :
    (d.drawTriangle config line y i).triangles.size = d.triangles.size ∧
      (d.drawTriangle config line y i).canvas.size = d.canvas.size := by
  rw [drawTriangle]
  split
  · exact ⟨rfl, rfl⟩
  · refine ⟨Array.size_setIfInBounds, ?_⟩
    dsimp only
    split
    · exact (d.canvas.painted_fill config.pixel _ _).size
    · rfl

theorem size_drawLine (config : RenderConfig) (buckets : Buckets) (line : Line) (y : Int)
    (d : Drawing) :
    (d.drawLine config buckets line y).triangles.size = d.triangles.size ∧
      (d.drawLine config buckets line y).canvas.size = d.canvas.size := by
  refine drawLine_keep (P := fun e => e.triangles.size = d.triangles.size ∧
    e.canvas.size = d.canvas.size) (fun e i ⟨triangles, canvas⟩ => ?_) buckets ⟨rfl, rfl⟩
  obtain ⟨triangles', canvas'⟩ := size_drawTriangle config line y e i
  exact ⟨triangles'.trans triangles, canvas'.trans canvas⟩

theorem drawTriangle?_eq (within : line.IsWithin d.canvas) {i : Nat} (inside : i < d.triangles.size)
    (y : Int) : d.drawTriangle? config line y i = some (d.drawTriangle config line y i) := by
  rw [drawTriangle?, drawTriangle, Array.getElem?_eq_getElem inside]
  simp only [Option.bind_eq_bind, Option.bind_some]
  by_cases enabled : config.enabled = true
  · simp only [enabled, if_true, Triangle.fill?_eq within, Option.bind_some]
  · simp only [enabled, if_false, Bool.false_eq_true]

theorem foldlM_drawTriangle? (within : line.IsWithin d.canvas) {is : List UInt16}
    (inside : ∀ i ∈ is, i.toNat < d.triangles.size) (y : Int) :
    is.foldlM (fun d i => d.drawTriangle? config line y i.toNat) d =
      some ((is.map UInt16.toNat).foldl (drawTriangle config line y) d) := by
  induction is generalizing d with
  | nil => rfl
  | cons i is ih =>
    obtain ⟨first, rest⟩ := List.forall_mem_cons.1 inside
    obtain ⟨triangles, canvas⟩ := size_drawTriangle config line y d i.toNat
    rw [List.foldlM_cons, drawTriangle?_eq within first, Option.bind_eq_bind, Option.bind_some, ih]
    · rfl
    · rw [Line.IsWithin, canvas]
      exact within
    · rwa [triangles]

theorem drawLine?_eq (serves : b.Serves d.triangles.size) (within : line.IsWithin d.canvas)
    (y : Int) : d.drawLine? config b line y = some (d.drawLine config b.widen line y) := by
  rw [drawLine?, drawLine]
  split
  · rename_i onScreen
    have inside : y.toNat < b.size := by
      rw [serves.lines]
      omega
    have bucket : b.widen.line y.toNat = b[y.toNat].map UInt16.toNat := by
      rw [Buckets.line, Array.getD_eq_getD_getElem?, WordBuckets.widen, Array.getElem?_map,
        Array.getElem?_eq_getElem inside]
      rfl
    rw [Array.getElem?_eq_getElem inside, Option.bind_eq_bind, Option.bind_some, bucket,
      foldlM_drawTriangle? within (serves.numbers _ (Array.getElem_mem inside))]
  · rfl

end Drawing

/-- The picture has room for all lines of the cursor. -/
def Cursor.HasRoom (c : Cursor) (canvas : Canvas) : Prop := c.width * c.height ≤ canvas.size

theorem Cursor.isWithin {c : Cursor} {canvas : Canvas} (room : c.HasRoom canvas)
    (more : ¬c.height ≤ c.next) : Line.IsWithin ⟨c.next * c.width, c.width⟩ canvas := by
  intro (columns : 0 < c.width)
  refine ⟨Int.mul_nonneg (Int.natCast_nonneg _) (Int.le_of_lt columns), ?_⟩
  have upto : (c.next + 1 : Int) * c.width ≤ c.height * c.width :=
    Int.mul_le_mul_of_nonneg_right (by omega) (Int.le_of_lt columns)
  rw [Int.add_mul, Int.one_mul, Int.mul_comm c.height] at upto
  exact Int.le_trans upto room

theorem Drawing.drawLines?_eq {config : RenderConfig} {b : WordBuckets} {c : Cursor} {y : Int}
    {d : Drawing} (serves : b.Serves d.triangles.size) (room : c.HasRoom d.canvas) :
    d.drawLines? config b c y = some (d.drawLines config b.widen c y) := by
  fun_induction drawLines config b.widen c y d with
  | case1 c y d last =>
    rw [drawLines?]
    split
    · rfl
    · rename_i next
      rw [last] at next
      cases next
  | case2 c y d line c' next ih =>
    have first : Line.IsWithin line d.canvas ∧ c'.width = c.width ∧ c'.height = c.height := by
      unfold Cursor.nextLine? at next
      split at next <;> cases next
      rename_i more
      exact ⟨Cursor.isWithin room more, rfl, rfl⟩
    obtain ⟨triangles, canvas⟩ := size_drawLine config b.widen line y d
    rw [drawLines?]
    split
    · rename_i last
      rw [next] at last
      cases last
    · rename_i line' c'' same
      rw [next] at same
      cases same
      rw [drawLine?_eq serves first.1, Option.bind_eq_bind, Option.bind_some, ih]
      · rwa [triangles]
      · rw [Cursor.HasRoom, canvas, first.2.1, first.2.2]
        exact room

theorem Slot.draw?_eq {s : Slot} {b : WordBuckets} (serves : b.Serves s.triangles.size)
    {c : Cursor} {canvas : Canvas} (room : c.HasRoom canvas) (config : RenderConfig) (y : Int) :
    s.draw? config b c y canvas = some (s.draw config b.widen c y canvas) := by
  rw [draw?, Drawing.drawLines?_eq serves room]
  rfl

/-! ### Sessions -/

namespace Slot

variable (s : Slot)

/-- The bounds that drawing moves play no part in the buckets. -/
theorem buckets_still : s.still.buckets = s.buckets := by
  have size : s.still.triangles.size = s.triangles.size := Array.size_map
  have covers (i z : Nat) : s.still.covers (s.still.triangles.getD i {}) z =
      s.covers (s.triangles.getD i {}) z := by
    rw [Array.getD_eq_getD_getElem?, Array.getD_eq_getD_getElem?, still, Array.getElem?_map]
    cases s.triangles[i]? <;> rfl
  have bucket (z : Nat) : s.still.bucket z = s.bucket z := by
    rw [Slot.bucket, Slot.bucket, size]
    exact List.filter_congr fun i _ => covers i z
  rw [buckets, buckets, funext bucket]

theorem buckets_eq_of_still {s s' : Slot} (h : s'.still = s.still) : s'.buckets = s.buckets := by
  rw [← buckets_still s', h, buckets_still]

end Slot

namespace Session

/-- The current frame is held while actions are done: apart from drawing it, they leave
    it alone. -/
def Holds (s : Session) : List Action → Prop
  | [] => True
  | a :: as =>
    (a.isDrawing = true ∨ (s.step a).engine.frames.current = s.engine.frames.current) ∧
      (s.step a).Holds as

variable {s : Session} {made : Buckets}

theorem buckets_step (same : s.buckets = made) (now : s.engine.frames.current.buckets = made)
    {a : Action}
    (held : a.isDrawing = true ∨ (s.step a).engine.frames.current = s.engine.frames.current) :
    (s.step a).buckets = made ∧ (s.step a).engine.frames.current.buckets = made := by
  cases a with
  | beginPass =>
    refine ⟨now, ?_⟩
    rw [step, Session.mapCurrent, Frames.current_mapCurrent,
      Slot.buckets_eq_of_still (Slot.still_restart _)]
    exact now
  | draw config c y canvas =>
    refine ⟨same, ?_⟩
    rw [step, Session.mapCurrent, Frames.current_mapCurrent,
      Slot.buckets_eq_of_still (Slot.still_draw _ config s.buckets c y canvas)]
    exact now
  | process c =>
    have held := held.resolve_left Bool.false_ne_true
    rw [held]
    refine ⟨?_, now⟩
    rw [step]
    split <;> exact same
  | call c =>
    have held := held.resolve_left Bool.false_ne_true
    exact ⟨same, held ▸ now⟩
  | submit c =>
    have held := held.resolve_left Bool.false_ne_true
    exact ⟨same, held ▸ now⟩
  | load bs =>
    have held := held.resolve_left Bool.false_ne_true
    exact ⟨same, held ▸ now⟩
  | save => exact ⟨same, now⟩

/-- As long as the current frame is held, the buckets are its buckets. -/
theorem Holds.buckets_run {during : List Action} (held : s.Holds during) (same : s.buckets = made)
    (now : s.engine.frames.current.buckets = made) :
    (s.run during).buckets = made ∧
      (s.run during).engine.frames.current.buckets = made := by
  induction during generalizing s with
  | nil => exact ⟨same, now⟩
  | cons a as ih =>
    obtain ⟨same, now⟩ := buckets_step same now held.1
    exact ih held.2 same now

/-- Carried out in place, a command leaves behind what the session goes on with. -/
theorem inPlace (s : Session) (c : Command) :
    Sink.submit s.engine c = s.engine.submitInPlace c ∧
      (Engine.carryOut c).run s.engine =
        match s.engine.process c with
        | .ok _ => .ok () (s.step (.process c)).engine
        | .error f => .error f (s.step (.process c)).engine := by
  refine ⟨(s.engine.submitInPlace_eq c).symm, ?_⟩
  rw [s.engine.carryOut_eq, Engine.outcome, step]
  cases s.engine.process c <;> rfl

/-- In every state of a session, both slots fit, and nothing is read or written that is
    not there: when the next frame is set up, when it is written down after that, when
    the buckets of the current frame are made, and when lines of it are drawn in a pass.
    Nor is any number of a triangle cut off in the buckets. The states are those that the
    commands lead to when they are carried out in place, also if a fault ends them half-way. -/
theorem run_safe (actions : List Action) :
    let s := ({} : Session).run actions
    let next := s.engine.frames.next
    let current := s.engine.frames.current
    s.engine.frames.Fits ∧
      (∀ c, Sink.submit s.engine c = s.engine.submitInPlace c ∧
        (Engine.carryOut c).run s.engine =
          match s.engine.process c with
          | .ok _ => .ok () (s.step (.process c)).engine
          | .error f => .error f (s.step (.process c)).engine) ∧
      next.setUp? = some next.setUp ∧
      (∀ slot, next.setUp = .ok slot → SceneText.ofSlot? slot = some (SceneText.ofSlot slot)) ∧
      ∃ b, current.buckets? = some b ∧ b.widen = current.buckets ∧
        ∀ during, (s.step .beginPass).Holds during →
          let pass := (s.step .beginPass).run during
          let shown := pass.engine.frames.current
          ∀ config c y (canvas : Canvas), c.HasRoom canvas →
            shown.draw? config b c y canvas = some (shown.draw config pass.buckets c y canvas) := by
  intro s next current
  have fits : s.engine.frames.Fits := run_fits actions
  obtain ⟨b, hb, wide⟩ := Slot.buckets?_eq fits.current
  refine ⟨fits, s.inPlace, Slot.setUp?_eq fits.next,
    fun slot hs => Slot.text?_eq (fits.next.setUp hs), b, hb, wide,
    fun during held config c y canvas room => ?_⟩
  obtain ⟨same, now⟩ := buckets_step (s := { s with buckets := current.buckets })
    (a := .beginPass) rfl rfl (.inl rfl)
  obtain ⟨same, now⟩ := held.buckets_run same now
  rw [same, ← wide]
  exact Slot.draw?_eq (Slot.serves (wide.trans now.symm)) room config y

/-- A triangle is shown, and while a picture of 16 by 9 pixels is drawn, a vertex of the
    next frame is submitted. -/
theorem run_safe_triangle :
    let actions : List Action :=
      [.submit (.vertex 0 ⟨4096⟩ 0 ⟨4096⟩), .submit (.vertex 0 ⟨-4096⟩ 0 ⟨4096⟩),
        .submit (.vertex ⟨4096⟩ 0 0 ⟨4096⟩), .submit (.polygon 0 1 2 0 0), .submit .swapBuffers]
    let s := ({} : Session).run actions
    let during : List Action := [.submit (.vertex 0 0 0 ⟨4096⟩)]
    let shown := ((s.step .beginPass).run during).engine.frames.current
    s.engine.frames.Fits ∧ shown.triangles.size = 1 ∧
      ∃ b, s.engine.frames.current.buckets? = some b ∧
        ∀ config y, shown.draw? config b { width := 16, height := 9 } y (Array.replicate 144 0) =
          some (shown.draw config ((s.step .beginPass).run during).buckets
            { width := 16, height := 9 } y (Array.replicate 144 0)) := by
  intro actions s during shown
  obtain ⟨fits, -, -, -, b, hb, -, draws⟩ := run_safe actions
  have held : (s.step .beginPass).Holds during := ⟨.inr (by decide +kernel), trivial⟩
  have room : Cursor.HasRoom { width := 16, height := 9 } (Array.replicate 144 0) := by
    unfold Cursor.HasRoom
    decide +kernel
  exact ⟨fits, by decide +kernel, b, hb, fun config y => draws during held config _ y _ room⟩

end Session

end GeometryEngine
