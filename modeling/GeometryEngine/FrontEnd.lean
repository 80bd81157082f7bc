import GeometryEngine.Registers

/-!
# The front-end

Instructions arrive word by word. On the *plain* path every parameter comes with
the number of its instruction (`FrontEnd.write`). What has arrived is kept until
the first instruction has all its parameters; then it is carried out.

On the *packed* path (`FrontEnd.writePacked`) one word holds the numbers of up to
four instructions, the first in its lowest byte, and the words after it are their
parameters in order. An instruction without parameters is carried out as soon as
those before it are, and an empty word holds no instruction.

The status word tells how the stacks stand and whether the front-end waits for
parameters (`FrontEnd.status`).
-/

namespace GeometryEngine

/-- A word of the plain path. -/
structure Entry where
  /-- The number of an instruction. -/
  id : UInt8
  /-- A parameter of it. -/
  parameter : UInt32
  deriving DecidableEq, Inhabited

/-- The state of the front-end. -/
structure FrontEnd where
  /-- What has arrived and not been carried out, the oldest first. -/
  pending : List Entry := []
  /-- The packed instructions that were not carried out, the next one in the
      lowest byte. -/
  packed : UInt32 := 0
  /-- The number of parameters of the next packed instruction that have
      arrived, wrapped around. -/
  packedParameters : UInt8 := 0
  /-- The registers. -/
  registers : Registers := {}
  deriving DecidableEq, Inhabited

namespace FrontEnd

variable {σ : Type} [Sink σ]

/-! ### The plain path -/

/-- The number of entries that an instruction takes up, which is at least one. -/
def entries (id : UInt8) : Nat := max (Instruction.parameters id) 1

/-- Carries out the instructions at the front that have all their parameters. -/
def drain (pending : List Entry) (r : Registers) (s : σ) : Outcome FrontEnd σ :=
  match pending with
  | [] => ⟨{ registers := r }, s, none⟩
  | e :: rest =>
    if (e :: rest).length < Instruction.parameters e.id then
      ⟨{ pending := e :: rest, registers := r }, s, none⟩
    else
      let ws := ((e :: rest).take (entries e.id)).map Entry.parameter
      let rest := rest.drop (entries e.id - 1)
      let o := r.execute s (Instruction.decode e.id ws)
      match o.fault with
      | some f => ⟨{ pending := rest, registers := o.state }, o.sink, some f⟩
      | none => drain rest o.state o.sink
termination_by pending.length
decreasing_by simp only [List.length_drop, List.length_cons]; omega

/-- Writes a parameter together with the number of its instruction. An instruction
    without parameters is written with any word. -/
def write (fe : FrontEnd) (s : σ) (id : UInt8) (parameter : UInt32) : Outcome FrontEnd σ :=
  (drain (fe.pending ++ [⟨id, parameter⟩]) fe.registers s).map fun drained =>
    { drained with packed := fe.packed, packedParameters := fe.packedParameters }

/-! ### The packed path -/

/-- The number of the next packed instruction. -/
def nextPacked (fe : FrontEnd) : UInt8 := fe.packed.toUInt8

/-- The front-end with the next packed instruction done. -/
def dropPacked (fe : FrontEnd) : FrontEnd := { fe with packed := fe.packed >>> 8 }

/-- Carries out packed instructions as long as they have no parameters, at most
    as many of them as there are bytes in a word. -/
def skipPacked : Nat → FrontEnd → σ → Outcome FrontEnd σ
  | 0, fe, s => ⟨fe, s, none⟩
  | bytes + 1, fe, s =>
    if fe.packed ≠ 0 ∧ Instruction.parameters fe.nextPacked = 0 then
      (fe.write s fe.nextPacked 0).andThen fun fe s => skipPacked bytes fe.dropPacked s
    else ⟨fe, s, none⟩

/-- Takes a word as the next parameter of the next packed instruction. -/
def writeParameter (fe : FrontEnd) (s : σ) (w : UInt32) : Outcome FrontEnd σ :=
  (fe.write s fe.nextPacked w).andThen fun fe s =>
    if (fe.packedParameters + 1).toNat = Instruction.parameters fe.nextPacked then
      ⟨{ fe.dropPacked with packedParameters := 0 }, s, none⟩
    else ⟨{ fe with packedParameters := fe.packedParameters + 1 }, s, none⟩

/-- Writes a word of packed instructions or a parameter of one of them. -/
def writePacked (fe : FrontEnd) (s : σ) (w : UInt32) : Outcome FrontEnd σ :=
  let o := if fe.packed = 0 then ⟨{ fe with packed := w }, s, none⟩ else fe.writeParameter s w
  o.andThen (skipPacked 4)

/-! ### The status word -/

/-- The status word: from bit 8 on the pointer of the coordinate stack, in bit 13
    that of the projection stack, in bit 15 whether a stack was used beyond its
    bounds, from bit 16 on the number of entries that wait, in bit 26 whether
    there is none, and in bit 27 whether there are some. -/
def status (fe : FrontEnd) : UInt32 :=
  let u := fe.registers.matrices
  let waiting := fe.pending.length
  let pointer : UInt32 := (UInt32.ofNat u.pointer &&& 0x1F) <<< 8
  let depth : UInt32 := (UInt32.ofNat u.projectionDepth &&& 1) <<< 13
  let error : UInt32 := if u.stackError then 0x8000 else 0
  let count : UInt32 := (UInt32.ofNat waiting &&& 0x1FF) <<< 16
  let state : UInt32 := if waiting = 0 then 0x4000000 else 0x8000000
  pointer ||| depth ||| error ||| count ||| state

/-- Writes the status word. Bit 15 forgets a stack error. -/
def writeStatus (fe : FrontEnd) (w : UInt32) : FrontEnd :=
  if w &&& 0x8000 = 0 then fe
  else { fe with registers := fe.registers.mapMatrices MatrixUnit.acknowledge }

/-- Works out the clip matrix. -/
def readClip (fe : FrontEnd) : Matrix × FrontEnd :=
  let r := fe.registers.mapMatrices MatrixUnit.refresh
  (r.matrices.clip, { fe with registers := r })

end FrontEnd

end GeometryEngine
