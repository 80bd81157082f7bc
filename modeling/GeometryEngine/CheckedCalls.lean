import GeometryEngine.Calls

/-!
# Looking before taking

The front-end takes the parameters of an instruction off the words that wait without looking
whether they are there, and it works out in machine words which slot of the coordinate stack
a matrix goes to or comes from. Here is what a call does once more, but with a look at each
word and each slot first. Where there is none, everything is given up; so it is where words
that are written make up more than one instruction, and where more packed instructions are
to be skipped than a word has bytes.
-/

namespace GeometryEngine

/-! ### The coordinate stack -/

namespace MatrixUnit

/-- The matrix in a slot, if there is such a slot. -/
def slot? (u : MatrixUnit) (i : Int32) : Option Matrix :=
  if 0 ≤ i then u.slots[i.toNatClampNeg]? else none

/-- Copies the coordinate matrix to a slot, if there is such a slot. -/
def fillSlot? (u : MatrixUnit) (i : Int32) : Option MatrixUnit :=
  if 0 ≤ i ∧ i < 32 then
    some { u with slots := u.slots.setIfInBounds i.toNatClampNeg u.coordinate }
  else none

/-- The unit with a stack error, if there is one. -/
def flagIf (error : Bool) (u : MatrixUnit) : MatrixUnit :=
  if error then { u with stackError := true } else u

/-- The distance of a pop, extended with its sign to a whole word. -/
def distanceWord (w : UInt32) : UInt32 :=
  (if w &&& 0x20 = 0 then 0 else 0xFFFFFFC0) ||| (w &&& 0x3F)

/-- Pushes the selected matrix onto its stack. -/
def push? (u : MatrixUnit) : Option MatrixUnit :=
  match u.mode with
  | .coordinate => do
    let pointer := Int32.ofNat u.pointer
    let u := u.flagIf (30 ≤ pointer)
    if pointer < 31 then
      let u ← u.fillSlot? pointer
      some { u with pointer := (pointer + 1).toNatClampNeg }
    else some u
  | _ => some u.push

/-- Takes back the selected matrix from its stack. -/
def pop? (w : UInt32) (u : MatrixUnit) : Option MatrixUnit :=
  match u.mode with
  | .coordinate => do
    let address := (UInt32.ofNat u.pointer - distanceWord w).toInt32
    let u := u.flagIf (address < 0 ∨ 30 ≤ address)
    if 0 ≤ address ∧ address < 31 then
      let m ← u.slot? address
      some { u with coordinate := m, pointer := address.toNatClampNeg, stale := true }
    else some u
  | _ => some (u.pop (Instruction.signed6 w))

/-- Copies the selected matrix to a slot of its stack. -/
def store? (w : UInt32) (u : MatrixUnit) : Option MatrixUnit :=
  match u.mode with
  | .coordinate =>
    let address := (w &&& 0x1F).toInt32
    (u.flagIf (address = 31)).fillSlot? address
  | _ => some (u.store (Instruction.slotOf w))

/-- Copies the selected matrix back from a slot of its stack. -/
def restore? (w : UInt32) (u : MatrixUnit) : Option MatrixUnit :=
  match u.mode with
  | .coordinate => do
    let address := (w &&& 0x1F).toInt32
    let u := u.flagIf (address = 31)
    let m ← u.slot? address
    some { u with coordinate := m, stale := true }
  | _ => some (u.restore (Instruction.slotOf w))

end MatrixUnit

/-! ### Instructions -/

/-- Carries on with something that may be given up. -/
def Outcome.andThen? {α σ : Type} (o : Outcome α σ) (next : α → σ → Option (Outcome α σ)) :
    Option (Outcome α σ) :=
  match o.fault with
  | some _ => some o
  | none => next o.state o.sink

/-- Changes the matrices, unless that is given up. -/
def Registers.mapMatrices? {σ : Type} (f : MatrixUnit → Option MatrixUnit) (r : Registers) (s : σ) :
    Option (Outcome Registers σ) := do
  let matrices ← f r.matrices
  some ⟨{ r with matrices }, s, none⟩

section

variable {σ : Type} [Sink σ]

/-- Carries out an instruction. -/
def Registers.execute? (r : Registers) (s : σ) (id : UInt8) (ws : List UInt32) :
    Option (Outcome Registers σ) :=
  let w := ws.headD 0
  match id.toNat with
  | 0x11 => r.mapMatrices? MatrixUnit.push? s
  | 0x12 => r.mapMatrices? (MatrixUnit.pop? w) s
  | 0x13 => r.mapMatrices? (MatrixUnit.store? w) s
  | 0x14 => r.mapMatrices? (MatrixUnit.restore? w) s
  | _ => some (r.execute s (.decode id ws))

/-! ### Calls -/

namespace FrontEnd

/-- Takes `count` parameters off the words that wait. -/
def take? : Nat → List Entry → Option (List UInt32 × List Entry)
  | 0, es => some ([], es)
  | _ + 1, [] => none
  | count + 1, e :: es => do
    let (ws, rest) ← take? count es
    some (e.parameter :: ws, rest)

/-- Whether the first instruction has all its parameters. -/
def isReady : List Entry → Bool
  | [] => false
  | e :: rest => Instruction.parameters e.id ≤ (e :: rest).length

/-- Takes the first instruction off the words that wait, and carries it out. -/
def runFirst? (r : Registers) (s : σ) : List Entry → Option (Outcome FrontEnd σ)
  | [] => none
  | e :: es => do
    let (ws, rest) ← take? (entries e.id) (e :: es)
    let o ← r.execute? s e.id ws
    some (o.map fun r => { pending := rest, registers := r })

/-- Writes a parameter together with the number of its instruction. Not more than one
    instruction is carried out. -/
def write? (fe : FrontEnd) (s : σ) (id : UInt8) (parameter : UInt32) :
    Option (Outcome FrontEnd σ) :=
  let pending := fe.pending ++ [⟨id, parameter⟩]
  if isReady pending then do
    let o ← runFirst? fe.registers s pending
    if o.fault.isNone && isReady o.state.pending then none
    else some (o.map fun fe' =>
      { fe' with packed := fe.packed, packedParameters := fe.packedParameters })
  else some ⟨{ fe with pending }, s, none⟩

/-- Carries out packed instructions as long as they have no parameters, but not more of them
    than there are bytes. -/
def skipPacked? (bytes : Nat) (fe : FrontEnd) (s : σ) : Option (Outcome FrontEnd σ) :=
  if fe.packed ≠ 0 ∧ Instruction.parameters fe.nextPacked = 0 then
    match bytes with
    | 0 => none
    | bytes + 1 => do
      let o ← fe.write? s fe.nextPacked 0
      o.andThen? fun fe s => skipPacked? bytes fe.dropPacked s
  else some ⟨fe, s, none⟩

/-- Takes a word as the next parameter of the next packed instruction. -/
def writeParameter? (fe : FrontEnd) (s : σ) (w : UInt32) : Option (Outcome FrontEnd σ) := do
  let o ← fe.write? s fe.nextPacked w
  some (o.andThen fun fe s =>
    if (fe.packedParameters + 1).toNat = Instruction.parameters fe.nextPacked then
      ⟨{ fe.dropPacked with packedParameters := 0 }, s, none⟩
    else ⟨{ fe with packedParameters := fe.packedParameters + 1 }, s, none⟩)

/-- Writes a word of packed instructions or a parameter of one of them. -/
def writePacked? (fe : FrontEnd) (s : σ) (w : UInt32) : Option (Outcome FrontEnd σ) :=
  if fe.packed = 0 then skipPacked? 4 { fe with packed := w } s
  else do
    let o ← fe.writeParameter? s w
    o.andThen? (skipPacked? 4)

/-- Makes a call. -/
def call? (fe : FrontEnd) (s : σ) : Call → Option (Outcome FrontEnd σ)
  | .write id parameter => fe.write? s id parameter
  | .writePacked w => fe.writePacked? s w
  | .writeStatus w => some ⟨fe.writeStatus w, s, none⟩
  | .readClip => some ⟨fe.readClip.2, s, none⟩

end FrontEnd

end

end GeometryEngine
