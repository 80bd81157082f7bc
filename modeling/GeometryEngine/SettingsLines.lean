import GeometryEngine.SettingsFile

/-!
# A settings file line by line

What a settings file says, told line by line and without regard to the pieces
that it is read in: `readLines` splits the file at its line feeds and lets every
line give its value to the setting that it names. It is for files whose lines are
no longer than a piece, that have no NUL character, and whose numbers are not too
large.

How numbers are written is told here once more, by the digits that a text begins
with (`numberOf?`). Whether binary numbers are known remains a parameter.
-/

namespace GeometryEngine.SettingsFile

variable (binary : Bool)

/-! ### Numbers -/

/-- The number whose digits in the given base a text begins with. -/
def leadingNumber (base : Nat) (cs : List Char) : Nat :=
  (cs.takeWhile (Numeral.isDigit base)).foldl (fun n c => base * n + (Numeral.digit? c).getD 0) 0

/-- The number in a text that begins with a decimal digit: hexadecimal after `0x`, binary after
    `0b` where that is known, octal after any other `0`, and decimal otherwise. -/
def numberOf? (value : List Char) : Option Nat :=
  if value.head?.any Char.isDigit then
    some (match value with
      | '0' :: 'x' :: digits | '0' :: 'X' :: digits => leadingNumber 16 digits
      -- Where it is not known, the number ends with the `0` before the letter.
      | '0' :: 'b' :: digits | '0' :: 'B' :: digits => if binary then leadingNumber 2 digits else 0
      | '0' :: digits => leadingNumber 8 digits
      | digits => leadingNumber 10 digits)
  else none

/-! ### Lines -/

/-- A value without the carriage returns behind it. -/
def dropReturns (value : List Char) : List Char :=
  (value.reverse.dropWhile (· = '\r')).reverse

/-- The name and the value on a line, if it has an equals sign. -/
def entry? (line : List Char) : Option (String × List Char) :=
  if '=' ∈ line then
    some (String.ofList (line.takeWhile (· ≠ '=')),
      dropReturns ((line.dropWhile (· ≠ '=')).drop 1))
  else none

/-- The setting after a text was given to it. A number stays as it is unless the
    text begins with a digit. -/
def give (value : List Char) (s : Setting) : Setting :=
  match s.value with
  | .text _ => { s with value := .text (String.ofList value) }
  | .number old => { s with value := .number (((numberOf? binary value).map Int32.ofNat).getD old) }

/-- The settings after a line was read. The value is given to the first setting of
    the name that stands before the equals sign, if there is one. -/
def readLine (settings : List Setting) (line : List Char) : List Setting :=
  match entry? line with
  | some (name, value) =>
    settings.modify (settings.findIdx fun s => s.name = name) (give binary value)
  | none => settings

/-! ### Files -/

/-- The settings after all lines of a file were read. -/
def readLines (settings : List Setting) (text : List Char) : List Setting :=
  (Text.split '\n' text).foldl (readLine binary) settings

/-- The file with a carriage return before every line feed. -/
def withReturns (text : List Char) : List Char :=
  text.flatMap fun c => if c = '\n' then ['\r', '\n'] else [c]

end GeometryEngine.SettingsFile
