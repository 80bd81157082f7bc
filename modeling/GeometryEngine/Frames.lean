import GeometryEngine.Triangle
import GeometryEngine.Vertex

/-!
# Frames

A frame is a list of vertices and a list of triangles between them. There are
two slots for frames: while one frame is shown, the next is built in the other
slot, and a swap exchanges their parts. The counter of swaps tells which slot is
which: the next frame is built in the slot of the counter's parity.
-/

namespace GeometryEngine

/-! ### A slot -/

/-- A frame: vertices, and triangles between them. -/
structure Slot where
  /-- The vertices, in the order in which they arrived. -/
  vertices : Array Vertex := #[]
  /-- The triangles, in the order in which they arrived. -/
  triangles : Array Triangle := #[]
  deriving DecidableEq, Inhabited

namespace Slot

/-- The number of vertices, and of triangles, that a slot has room for. -/
def capacity : Nat := 4096

/-- Whether there is a vertex with the number `i`. -/
def resolves (s : Slot) (i : Int32) : Bool := 0 ≤ i && i.toInt < s.vertices.size

/-- The vertex with the number `i`, or a vertex of zeros if there is none. -/
def vertex (s : Slot) (i : Int32) : Vertex := s.vertices.getD i.toNatClampNeg {}

/-- The vertex with the number `i` as a corner. -/
def corner (s : Slot) (i : Int32) : Corner :=
  let v := s.vertex i
  ⟨i, v.screenX, v.screenY⟩

/-- The slot with one more vertex. -/
def pushVertex (v : Vertex) (s : Slot) : Slot := { s with vertices := s.vertices.push v }

/-- The slot with one more triangle. -/
def pushTriangle (t : Triangle) (s : Slot) : Slot := { s with triangles := s.triangles.push t }

/-- The slot with the vertex number `i` projected. -/
def project (view : Viewport) (s : Slot) (i : Int32) : Slot :=
  { s with vertices := s.vertices.modify i.toNatClampNeg (Vertex.project view) }

/-- Whether the corners that a triangle uses are vertices of the slot. -/
def resolvesTriangle (s : Slot) (t : Triangle) : Bool :=
  s.resolves t.v0 && s.resolves t.v1 && s.resolves t.v2

/-- Sets up triangles one after another, counting from `n`. A triangle that
    cannot be set up is reported with its number. -/
def setUpFrom (setUp : Triangle → Except (Int32 × Int32 × Int32) Triangle) (n : Nat) :
    List Triangle → Except (Nat × Int32 × Int32 × Int32) (List Triangle)
  | [] => .ok []
  | t :: ts =>
    match setUp t with
    | .error lines => .error (n, lines)
    | .ok t =>
      match setUpFrom setUp (n + 1) ts with
      | .error e => .error e
      | .ok ts => .ok (t :: ts)

/-- The slot with all triangles made ready for drawing. -/
def setUp (s : Slot) : Except (Nat × Int32 × Int32 × Int32) Slot :=
  match setUpFrom (Triangle.setUp s.corner) 0 s.triangles.toList with
  | .error e => .error e
  | .ok ts => .ok { s with triangles := ts.toArray }

/-- The triangles that a set-up leaves behind if one of them cannot be set up: those
    before it are ready, its own corners are in order, and those behind it are as
    they were. -/
def setUpPart (setUp : Triangle → Except (Int32 × Int32 × Int32) Triangle)
    (inOrder : Triangle → Triangle) : List Triangle → List Triangle
  | [] => []
  | t :: ts =>
    match setUp t with
    | .error _ => inOrder t :: ts
    | .ok t => t :: setUpPart setUp inOrder ts

/-- The slot as far as its triangles can be set up. -/
def halfSetUp (s : Slot) : Slot :=
  { s with
    triangles :=
      (setUpPart (Triangle.setUp s.corner) (Triangle.inOrder s.corner) s.triangles.toList).toArray }

end Slot

/-! ### Two slots -/

/-- The two slots and the counter of swaps. -/
structure Frames where
  /-- The number of swaps so far, wrapped around. -/
  counter : UInt32 := 0
  /-- The slot in which the next frame is built after an even number of swaps. -/
  even : Slot := {}
  /-- The slot in which the next frame is built after an odd number of swaps. -/
  odd : Slot := {}
  deriving DecidableEq, Inhabited

namespace Frames

/-- Whether the next frame is built in the odd slot. -/
def buildsOdd (f : Frames) : Bool := f.counter &&& 1 == 1

/-- The frame that is being built. -/
def next (f : Frames) : Slot := if f.buildsOdd then f.odd else f.even

/-- The frame that is shown. -/
def current (f : Frames) : Slot := if f.buildsOdd then f.even else f.odd

/-- Changes the frame that is being built. -/
def mapNext (g : Slot → Slot) (f : Frames) : Frames :=
  if f.buildsOdd then { f with odd := g f.odd } else { f with even := g f.even }

/-- Changes the frame that is shown. -/
def mapCurrent (g : Slot → Slot) (f : Frames) : Frames :=
  if f.buildsOdd then { f with even := g f.even } else { f with odd := g f.odd }

/-- The next frame becomes the current one, and an empty one is begun in the
    slot of the frame that was shown. -/
def swap (f : Frames) : Frames :=
  mapNext (fun _ => {}) { f with counter := f.counter + 1 }

/-! ### What a change leaves alone -/

@[simp] theorem counter_mapNext (g : Slot → Slot) (f : Frames) :
    (f.mapNext g).counter = f.counter := by
  unfold mapNext; split <;> rfl

@[simp] theorem counter_mapCurrent (g : Slot → Slot) (f : Frames) :
    (f.mapCurrent g).counter = f.counter := by
  unfold mapCurrent; split <;> rfl

@[simp] theorem buildsOdd_mapNext (g : Slot → Slot) (f : Frames) :
    (f.mapNext g).buildsOdd = f.buildsOdd := by
  simp [buildsOdd]

@[simp] theorem buildsOdd_mapCurrent (g : Slot → Slot) (f : Frames) :
    (f.mapCurrent g).buildsOdd = f.buildsOdd := by
  simp [buildsOdd]

@[simp] theorem next_mapNext (g : Slot → Slot) (f : Frames) :
    (f.mapNext g).next = g f.next := by
  rw [next, buildsOdd_mapNext]; unfold mapNext next; split <;> rfl

@[simp] theorem current_mapNext (g : Slot → Slot) (f : Frames) :
    (f.mapNext g).current = f.current := by
  rw [current, buildsOdd_mapNext]; unfold mapNext current; split <;> rfl

@[simp] theorem next_mapCurrent (g : Slot → Slot) (f : Frames) :
    (f.mapCurrent g).next = f.next := by
  rw [next, buildsOdd_mapCurrent]; unfold mapCurrent next; split <;> rfl

@[simp] theorem current_mapCurrent (g : Slot → Slot) (f : Frames) :
    (f.mapCurrent g).current = g f.current := by
  rw [current, buildsOdd_mapCurrent]; unfold mapCurrent current; split <;> rfl

theorem mapNext_id (f : Frames) : f.mapNext id = f := by
  unfold mapNext
  split <;> rfl

/-- Changing the next frame twice is one change. -/
theorem mapNext_mapNext (g h : Slot → Slot) (f : Frames) :
    (f.mapNext g).mapNext h = f.mapNext fun s => h (g s) := by
  rw [mapNext, buildsOdd_mapNext]; unfold mapNext; split <;> rfl

/-- Only what becomes of the next frame matters. -/
theorem mapNext_congr {g h : Slot → Slot} {f : Frames} (same : g f.next = h f.next) :
    f.mapNext g = f.mapNext h := by
  unfold mapNext
  unfold next at same
  split <;> rename_i odd
  · rw [if_pos odd] at same
    rw [same]
  · rw [if_neg odd] at same
    rw [same]

/-! ### Swaps -/

/-- After a swap the next frame is begun anew. -/
@[simp] theorem next_swap (f : Frames) : f.swap.next = {} := next_mapNext _ _

/-- The slots change places with every swap, also when the counter wraps around. -/
@[simp] theorem buildsOdd_swap (f : Frames) : f.swap.buildsOdd = !f.buildsOdd := by
  have parity (c : UInt32) : (c &&& 1 == 1) = decide (c.toNat % 2 = 1) := by
    rw [Bool.eq_iff_iff, beq_iff_eq, decide_eq_true_eq, ← UInt32.toNat_inj, UInt32.toNat_and]
    exact Nat.and_one_is_mod c.toNat ▸ Iff.rfl
  have next : f.swap.buildsOdd = (f.counter + 1 &&& 1 == 1) := buildsOdd_mapNext _ _
  rw [next, buildsOdd, parity, parity, UInt32.toNat_add, ← decide_not, decide_eq_decide]
  change (f.counter.toNat + 1) % 2 ^ 32 % 2 = 1 ↔ _
  omega

/-- The frame that was built is shown. -/
@[simp] theorem current_swap (f : Frames) : f.swap.current = f.next := by
  have kept : f.swap.current = if f.swap.buildsOdd then f.even else f.odd := by
    rw [swap, current_mapNext, buildsOdd_mapNext]
    rfl
  rw [kept, buildsOdd_swap, next]
  cases f.buildsOdd <;> rfl

end Frames

end GeometryEngine
