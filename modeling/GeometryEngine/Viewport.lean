import GeometryEngine.Fixed

/-!
# The screen and the viewport

The screen has 192 lines of 256 columns. A viewport is the rectangle of pixels
that clip space is spread over; its bounds belong to it.
-/

namespace GeometryEngine

/-- The number of columns of the screen. -/
def screenWidth : Nat := 256

/-- The number of lines of the screen. -/
def screenHeight : Nat := 192

/-- A rectangle of pixels, bounds included. -/
structure Viewport where
  /-- The leftmost column. -/
  left : Int32 := 0
  /-- The topmost line. -/
  top : Int32 := 0
  /-- The rightmost column. -/
  right : Int32 := 255
  /-- The lowest line. -/
  bottom : Int32 := 191
  deriving DecidableEq, Inhabited

namespace Viewport

/-- The number of columns. -/
def width (view : Viewport) : Int32 := view.right - view.left + 1

/-- The number of lines. -/
def height (view : Viewport) : Int32 := view.bottom - view.top + 1

end Viewport

end GeometryEngine
