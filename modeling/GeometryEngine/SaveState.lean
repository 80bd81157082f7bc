import GeometryEngine.Engine
import GeometryEngine.Words

/-!
# Save states

A save state holds the viewport, the counter of swaps and both slots. A slot is
written as the number of its vertices and the vertices, then the number of its
triangles and the triangles; a vertex takes 8 words and a triangle 14.

Reading stops at the first thing that does not fit: a missing word, a slot with
more than it has room for, or a triangle whose corners are no vertices of its
slot. Frames that are read from a bad state keep what was read up to there
(`Frames.load`), with lists of the announced length; an engine is left with
empty frames and its own viewport instead (`Engine.load`).
-/

namespace GeometryEngine

/-! ### Records -/

/-- The words of a vertex. -/
def Vertex.words (v : Vertex) : List UInt32 :=
  [v.x.raw.toUInt32, v.y.raw.toUInt32, v.z.raw.toUInt32, v.w.raw.toUInt32, v.flags,
    v.screenX.toUInt32, v.screenY.toUInt32, v.depth.toUInt32]

/-- The vertex at the front of a sequence of words. -/
def Vertex.read? : List UInt32 → Option (Vertex × List UInt32)
  | x :: y :: z :: w :: flags :: sx :: sy :: d :: rest =>
    some ({ x := ⟨x.toInt32⟩, y := ⟨y.toInt32⟩, z := ⟨z.toInt32⟩, w := ⟨w.toInt32⟩, flags,
            screenX := sx.toInt32, screenY := sy.toInt32, depth := d.toInt32 }, rest)
  | _ => none

/-- The words of a triangle. -/
def Triangle.words (t : Triangle) : List UInt32 :=
  [t.v0.toUInt32, t.v1.toUInt32, t.v2.toUInt32, t.v3.toUInt32, t.attributes, t.bend.toUInt32,
    t.upper.left.raw.toUInt32, t.lower.left.raw.toUInt32,
    t.upper.right.raw.toUInt32, t.lower.right.raw.toUInt32,
    t.start.left.raw.toUInt32, t.start.right.raw.toUInt32,
    t.now.left.raw.toUInt32, t.now.right.raw.toUInt32]

/-- The triangle at the front of a sequence of words. -/
def Triangle.read? : List UInt32 → Option (Triangle × List UInt32)
  | v0 :: v1 :: v2 :: v3 :: attributes :: bend :: ul :: ll :: ur :: lr :: sl :: sr :: nl :: nr ::
      rest =>
    some ({ v0 := v0.toInt32, v1 := v1.toInt32, v2 := v2.toInt32, v3 := v3.toInt32, attributes,
            bend := bend.toInt32
            upper := ⟨⟨ul.toInt32⟩, ⟨ur.toInt32⟩⟩, lower := ⟨⟨ll.toInt32⟩, ⟨lr.toInt32⟩⟩
            start := ⟨⟨sl.toInt32⟩, ⟨sr.toInt32⟩⟩, now := ⟨⟨nl.toInt32⟩, ⟨nr.toInt32⟩⟩ }, rest)
  | _ => none

/-! ### Writing -/

/-- The words of a slot. -/
def Slot.words (s : Slot) : List UInt32 :=
  UInt32.ofNat s.vertices.size :: s.vertices.toList.flatMap Vertex.words ++
    UInt32.ofNat s.triangles.size :: s.triangles.toList.flatMap Triangle.words

/-- The words of both slots and their counter. -/
def Frames.words (f : Frames) : List UInt32 := f.counter :: f.even.words ++ f.odd.words

/-- Both slots and their counter as bytes. -/
def Frames.save (f : Frames) : List UInt8 := Words.encode f.words

/-- The words of a viewport. -/
def Viewport.words (view : Viewport) : List UInt32 :=
  [view.left.toUInt32, view.top.toUInt32, view.right.toUInt32, view.bottom.toUInt32]

/-- The save state of an engine. -/
def Engine.save (e : Engine) : List UInt8 := Words.encode (e.viewport.words ++ e.frames.words)

/-! ### Reading -/

namespace SaveState

/-- The records at the front of a sequence of words, at most `count` of them,
    and the words behind them. -/
def readUpTo {α : Type} (read? : List UInt32 → Option (α × List UInt32)) :
    Nat → List UInt32 → List α × List UInt32
  | 0, ws => ([], ws)
  | count + 1, ws =>
    match read? ws with
    | none => ([], ws)
    | some (a, ws) =>
      let (as, ws) := readUpTo read? count ws
      (a :: as, ws)

/-- A list of `count` records that begins with those that were read. The others
    are those that were there before, or records of zeros. -/
def refill {α : Type} [Inhabited α] (old : Array α) (count : Nat) (read : List α) : Array α :=
  (read ++ ((old.toList ++ List.replicate (count - old.size) default).take count).drop
    read.length).toArray

end SaveState

open SaveState

/-- Reads the triangles of a slot. Gives the slot as far as it was read and, if
    all is well, the words behind it. -/
def Slot.loadTriangles (s : Slot) : List UInt32 → Slot × Option (List UInt32)
  | [] => (s, none)
  | count :: ws =>
    if Slot.capacity < count.toNat then (s, none) else
      let (ts, ws) := readUpTo Triangle.read? count.toNat ws
      let s := { s with triangles := refill s.triangles count.toNat ts }
      if ts.length < count.toNat then (s, none)
      else if s.triangles.all s.resolvesTriangle then (s, some ws)
      else (s, none)

/-- Reads a slot. Gives the slot as far as it was read and, if all is well, the
    words behind it. -/
def Slot.load (s : Slot) : List UInt32 → Slot × Option (List UInt32)
  | [] => (s, none)
  | count :: ws =>
    if Slot.capacity < count.toNat then (s, none) else
      let (vs, ws) := readUpTo Vertex.read? count.toNat ws
      let s := { s with vertices := refill s.vertices count.toNat vs }
      if vs.length < count.toNat then (s, none) else s.loadTriangles ws

/-- Reads both slots. -/
def Frames.loadSlots (f : Frames) (ws : List UInt32) : Frames × Bool :=
  match f.even.load ws with
  | (s, none) => ({ f with even := s }, false)
  | (s, some ws) =>
    match f.odd.load ws with
    | (s', none) => ({ f with even := s, odd := s' }, false)
    | (s', some _) => ({ f with even := s, odd := s' }, true)

/-- Reads the counter and both slots. Gives the frames as far as they were read
    and whether all is well. Of a counter that is cut short, the bytes that are
    there count. -/
def Frames.load (f : Frames) : List UInt8 → Frames × Bool
  | a :: b :: c :: d :: bs =>
    { f with counter := Words.ofBytes a b c d }.loadSlots (Words.decode bs)
  | bs => ({ f with counter := Words.overlay f.counter bs }, false)

/-- The frames and the viewport of a save state, if it can be read into frames
    like `f`. -/
def SaveState.parse? (f : Frames) (bs : List UInt8) : Option (Viewport × Frames) :=
  match Words.decode (bs.take 16) with
  | [left, top, right, bottom] =>
    match f.load (bs.drop 16) with
    | (f, true) =>
      some ({ left := left.toInt32, top := top.toInt32, right := right.toInt32
              bottom := bottom.toInt32 }, f)
    | (_, false) => none
  | _ => none

/-- The engine with a save state read into it, and whether the state was
    accepted. -/
def Engine.load (e : Engine) (bs : List UInt8) : Engine × Bool :=
  match parse? e.frames bs with
  | some (viewport, frames) => ({ e with viewport, frames }, true)
  | none => ({ e with frames := {} }, false)

/-- A load neither mends an engine that has met a fault, nor raises one. -/
theorem Engine.fault_load (e : Engine) (bs : List UInt8) : (e.load bs).1.fault = e.fault := by
  rw [load]
  split <;> rfl

/-- Loading does not mend an engine that has halted, nor does it halt one. -/
@[simp] theorem Engine.isHalted_load (e : Engine) (bs : List UInt8) :
    (e.load bs).1.isHalted = e.isHalted := by
  rw [isHalted, fault_load, isHalted]

end GeometryEngine
