import GeometryEngine.Numeral
import GeometryEngine.Text

/-!
# Settings and the text they are kept in

A setting has a name and a value, a number or a text. A settings file has a line
`name=value` for each of them.

A file is read in pieces: a piece ends with its line, and after 511 characters at
the latest. A piece counts up to a NUL character, and only if it has an equals
sign; the first one separates the name from the value, whose line end is taken
off. The value goes to the first setting of that name. A number is left as it is
by a text that is no number; by one that is too large for it, reading is broken
off. Whether the library that numbers are read with knows binary ones is the
parameter `binary`.
-/

namespace GeometryEngine

/-- The value of a setting. -/
inductive Value
  /-- A number. -/
  | number (n : Int32)
  /-- A text. -/
  | text (s : String)
  deriving DecidableEq, Inhabited

/-- A setting. -/
structure Setting where
  /-- Its name. -/
  name : String
  /-- Its value. -/
  value : Value
  deriving DecidableEq, Inhabited

namespace SettingsFile

/-! ### Pieces of a file -/

/-- The first piece of a text, of at most `limit` characters, and the rest of the
    text. -/
def piece : Nat → List Char → List Char × List Char
  | 0, cs => ([], cs)
  | _ + 1, [] => ([], [])
  | limit + 1, c :: cs =>
    if c = '\n' then ([c], cs)
    else
      let (p, rest) := piece limit cs
      (c :: p, rest)

theorem length_piece_le (limit : Nat) (cs : List Char) :
    (piece limit cs).2.length ≤ cs.length := by
  fun_induction piece limit cs with
  | case1 => simp
  | case2 => simp
  | case3 => simp
  | case4 limit c cs hc p rest hp ih =>
    simp only [hp] at ih
    simp only [List.length_cons]
    omega

/-- The number of characters that a piece has at most. -/
def pieceLimit : Nat := 511

theorem length_piece_lt (c : Char) (cs : List Char) :
    (piece pieceLimit (c :: cs)).2.length < (c :: cs).length := by
  have h := length_piece_le 510 cs
  unfold pieceLimit piece
  split
  · simp
  · simp only [List.length_cons]
    omega

/-- The pieces of a text. -/
def pieces : List Char → List (List Char)
  | [] => []
  | c :: cs => (piece pieceLimit (c :: cs)).1 :: pieces (piece pieceLimit (c :: cs)).2
termination_by cs => cs.length
decreasing_by exact length_piece_lt c cs

theorem piece_line {line : List Char} (rest : List Char) (h : '\n' ∉ line) {limit : Nat}
    (fits : line.length < limit) : piece limit (line ++ '\n' :: rest) = (line ++ ['\n'], rest) := by
  induction line generalizing limit with
  | nil =>
    obtain ⟨limit, rfl⟩ := Nat.exists_eq_succ_of_ne_zero (Nat.ne_zero_of_lt fits)
    rfl
  | cons c line ih =>
    rw [List.length_cons] at fits
    obtain ⟨limit, rfl⟩ := Nat.exists_eq_succ_of_ne_zero (Nat.ne_zero_of_lt fits)
    rw [List.mem_cons, not_or] at h
    rw [List.cons_append, piece, if_neg fun e => h.1 e.symm, ih h.2 (Nat.lt_of_succ_lt_succ fits)]
    rfl

/-- A line that is not too long is a piece, together with its line feed. -/
theorem pieces_line {line : List Char} (rest : List Char) (h : '\n' ∉ line)
    (fits : line.length < pieceLimit) :
    pieces (line ++ '\n' :: rest) = (line ++ ['\n']) :: pieces rest := by
  have first := piece_line rest h fits
  cases line with
  | nil => rw [List.nil_append, pieces, ← List.nil_append ('\n' :: rest), first]
  | cons c line => rw [List.cons_append, pieces, ← List.cons_append, first]

/-- The name and the value in a piece, if it has an equals sign. -/
def split? (p : List Char) : Option (List Char × List Char) :=
  let p := Text.untilNul p
  if p.contains '=' then some (p.takeWhile (· ≠ '='), (p.dropWhile (· ≠ '=')).drop 1) else none

/-- A value without the line end behind it. -/
def trimLineEnd (value : List Char) : List Char :=
  (value.reverse.dropWhile fun c => c = '\n' || c = '\r').reverse

/-! ### Reading -/

section

variable (binary : Bool)

/-- A setting with the value that a text gives it, or nothing if the text is a
    number that is too large. -/
def assign (s : Setting) (value : List Char) : Option Setting :=
  match s.value with
  | .text _ => some { s with value := .text (String.ofList value) }
  | .number _ =>
    match Numeral.read? binary value with
    | none => some s
    | some n => if n < 0x80000000 then some { s with value := .number (Int32.ofNat n) } else none

/-- Gives a value to the first setting of a name. -/
def assignFirst (name : String) (value : List Char) : List Setting → Option (List Setting)
  | [] => some []
  | s :: rest =>
    if s.name = name then (assign binary s value).map (· :: rest)
    else (assignFirst name value rest).map (s :: ·)

/-- What a piece of a file does to the settings. -/
def readPiece (settings : List Setting) (p : List Char) : Option (List Setting) :=
  match split? p with
  | none => some settings
  | some (name, value) => assignFirst binary (String.ofList name) (trimLineEnd value) settings

/-- The settings after a file was read piece by piece, and whether it was read to
    its end. -/
def readPieces (settings : List Setting) : List (List Char) → List Setting × Bool
  | [] => (settings, true)
  | p :: rest =>
    match readPiece binary settings p with
    | none => (settings, false)
    | some settings => readPieces settings rest

/-- The settings after a file was read, and whether it was read to its end. -/
def read (settings : List Setting) (text : String) : List Setting × Bool :=
  readPieces binary settings (pieces text.toList)

end

/-! ### Writing -/

/-- The text of a value. -/
def valueText : Value → String
  | .number n => toString n.toInt
  | .text s => s

/-- The line of a setting. -/
def line (s : Setting) : String :=
  Text.cut s.name ++ "=" ++ Text.cut (valueText s.value) ++ "\n"

/-- The text of a settings file. -/
def write (settings : List Setting) : String := String.join (settings.map line)

end SettingsFile

end GeometryEngine
