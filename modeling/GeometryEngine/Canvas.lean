import GeometryEngine.Viewport

/-!
# The picture

The pixels of a picture lie in one array, line after line. A cursor hands out the
lines of a picture from top to bottom, each of them once.
-/

namespace GeometryEngine

/-- The pixels of a picture, line after line. -/
abbrev Canvas := Array UInt32

/-- A line of a picture. -/
structure Line where
  /-- Where its first pixel lies in the picture. -/
  offset : Int
  /-- The number of its pixels. -/
  width : Int
  deriving DecidableEq, Inhabited

/-- What is left of a picture to be handed out. -/
structure Cursor where
  /-- The number of pixels of a line. -/
  width : Int := screenWidth
  /-- The number of lines. -/
  height : Int := screenHeight
  /-- The number of lines that were handed out. -/
  next : Nat := 0
  deriving DecidableEq, Inhabited

namespace Cursor

/-- The number of lines that are left. A picture of a negative height has a
    negative number of them. -/
def left (c : Cursor) : Int := c.height - c.next

/-- The next line, unless all of them were handed out. -/
def nextLine? (c : Cursor) : Option (Line × Cursor) :=
  if c.height ≤ c.next then none
  else some (⟨c.next * c.width, c.width⟩, { c with next := c.next + 1 })

theorem left_of_nextLine? {c c' : Cursor} {line : Line} (h : c.nextLine? = some (line, c')) :
    c'.left = c.left - 1 ∧ 0 ≤ c'.left := by
  unfold nextLine? at h
  split at h
  · cases h
  · cases h
    simp only [left]
    omega

end Cursor

namespace Canvas

/-- Sets a pixel; a pixel that is not part of the picture is not set. -/
def set (canvas : Canvas) (i : Nat) (value : UInt32) : Canvas :=
  canvas.setIfInBounds i value

/-- Sets `count` pixels from `start` on. -/
def fill (canvas : Canvas) (value : UInt32) (start : Nat) : Nat → Canvas
  | 0 => canvas
  | count + 1 => fill (canvas.set start value) value (start + 1) count

end Canvas

end GeometryEngine
