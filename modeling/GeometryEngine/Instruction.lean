import GeometryEngine.MatrixUnit
import GeometryEngine.VertexList

/-!
# Instructions

The front-end is driven by instructions. On the wire an instruction is a number
of one byte and a fixed number of parameter words (`Instruction.parameters`);
`Instruction.decode` tells what they mean. Instructions that differ only in how
much of a matrix or of a point they spell out are one instruction here: the
short forms of a matrix are filled up from the identity, and a coordinate that
is not given stays as it is.
-/

namespace GeometryEngine

/-- What the front-end can be told to do. -/
inductive Instruction
  /-- Nothing. -/
  | nothing
  /-- Select a matrix. -/
  | setMode (mode : MatrixMode)
  /-- Push the selected matrix. -/
  | push
  /-- Take back the matrix that was pushed so many pushes ago. -/
  | pop (distance : Int)
  /-- Copy the selected matrix to a slot. -/
  | store (slot : Fin 32)
  /-- Copy the selected matrix from a slot. -/
  | restore (slot : Fin 32)
  /-- Replace the selected matrix. -/
  | load (m : Matrix)
  /-- Put a matrix before the selected one. -/
  | multiply (m : Matrix)
  /-- Add a vertex at a point, of which some coordinates are given. -/
  | place (x y z : Option Fixed)
  /-- Add a vertex at a distance from the last one. -/
  | offset (dx dy dz : Fixed)
  /-- Set the attributes of the lists that are begun from now on. -/
  | setAttributes (attributes : UInt32)
  /-- Begin a vertex list. -/
  | beginList (kind : ListKind)
  /-- Show the frame. -/
  | swapBuffers
  /-- Change the viewport. -/
  | setViewport (view : Viewport)
  /-- There is no such instruction. -/
  | unknown (id : UInt8)

namespace Instruction

/-- The number of parameter words of an instruction. -/
def parameters (id : UInt8) : Nat :=
  match id.toNat with
  | 0x10 | 0x12 | 0x13 | 0x14 => 1
  | 0x16 | 0x18 => 16
  | 0x17 | 0x19 => 12
  | 0x1A => 9
  | 0x1B | 0x1C => 3
  | 0x20 | 0x21 | 0x22 => 1
  | 0x23 => 2
  | 0x24 | 0x25 | 0x26 | 0x27 | 0x28 | 0x29 | 0x2A | 0x2B => 1
  | 0x30 | 0x31 | 0x32 | 0x33 => 1
  | 0x34 => 32
  | 0x40 | 0x50 | 0x60 => 1
  | 0x70 => 3
  | 0x71 => 2
  | 0x72 => 1
  | _ => 0

/-! ### Parts of a word -/

/-- The signed number in the 16 bits of a word from bit `shift` on. -/
def signed16 (w : UInt32) (shift : Nat) : Int := ((w.toNat >>> shift : Nat) : Int).bmod 65536

/-- The signed number in the 10 bits of a word from bit `shift` on. -/
def signed10 (w : UInt32) (shift : Nat) : Int := ((w.toNat >>> shift : Nat) : Int).bmod 1024

/-- The signed number in the lowest 6 bits of a word. -/
def signed6 (w : UInt32) : Int := (w.toNat : Int).bmod 64

/-- The number in the byte of a word from bit `shift` on. -/
def byte (w : UInt32) (shift : Nat) : Int32 := Int32.ofNat ((w.toNat >>> shift) % 256)

/-- The slot in the lowest 5 bits of a word. -/
def slotOf (w : UInt32) : Fin 32 := ⟨w.toNat % 32, Nat.mod_lt _ (Nat.zero_lt_succ 31)⟩

/-- The fixed-point number of a raw word that may be negative. -/
def fixed (raw : Int) : Fixed := ⟨Int32.ofInt raw⟩

/-- A coordinate with 12 fractional bits in the half of a word from bit `shift`
    on. -/
def coordinate (w : UInt32) (shift : Nat) : Option Fixed := some (fixed (signed16 w shift))

/-- A coordinate with 6 fractional bits in the 10 bits from bit `shift` on. -/
def coarse (w : UInt32) (shift : Nat) : Option Fixed := some (fixed (signed10 w shift * 64))

/-! ### Decoding -/

/-- What an instruction with its parameters means. Parameters that are missing
    count as `0`, and those beyond the ones it has do not count. -/
def decode (id : UInt8) (ws : List UInt32) : Instruction :=
  let w := ws.headD 0
  match id.toNat with
  | 0x00 | 0x41 => .nothing
  | 0x10 => .setMode (.ofWord w)
  | 0x11 => .push
  | 0x12 => .pop (signed6 w)
  | 0x13 => .store (slotOf w)
  | 0x14 => .restore (slotOf w)
  | 0x15 => .load .identity
  | 0x16 => .load (.ofWords ws)
  | 0x17 => .load (.ofWords43 ws)
  | 0x18 => .multiply (.ofWords ws)
  | 0x19 => .multiply (.ofWords43 ws)
  | 0x1A => .multiply (.ofWords33 ws)
  | 0x1B => .multiply (.scaling ws)
  | 0x1C => .multiply (.displacement ws)
  | 0x23 => .place (coordinate w 0) (coordinate w 16) (coordinate (ws.getD 1 0) 0)
  | 0x24 => .place (coarse w 0) (coarse w 10) (coarse w 20)
  | 0x25 => .place (coordinate w 0) (coordinate w 16) none
  | 0x26 => .place (coordinate w 0) none (coordinate w 16)
  | 0x27 => .place none (coordinate w 0) (coordinate w 16)
  | 0x28 => .offset (fixed (signed10 w 0)) (fixed (signed10 w 10)) (fixed (signed10 w 20))
  | 0x29 => .setAttributes w
  | 0x40 => .beginList (.ofWord w)
  | 0x50 => .swapBuffers
  | 0x60 => .setViewport ⟨byte w 0, byte w 8, byte w 16, byte w 24⟩
  | _ => .unknown id

end Instruction

end GeometryEngine
