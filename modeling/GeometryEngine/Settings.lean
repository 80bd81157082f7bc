import GeometryEngine.FileTree
import GeometryEngine.Renderer
import GeometryEngine.SettingsFile

/-!
# Settings

The settings of the engine, to which others can be added, and the directory that
its files are kept in. They are read from a file in that directory, which is
written with the present settings if there is none. Numbers are read without
binary ones unless it is said otherwise.
-/

namespace GeometryEngine

/-- The settings, in the order in which they were added. -/
structure Settings where
  /-- The settings. -/
  registered : List Setting :=
    [⟨"threaded3D", .number 1⟩, ⟨"commandQueueSize", .number 1024⟩, ⟨"dumpScene", .number 0⟩,
      ⟨"disable3D", .number 0⟩, ⟨"fillColor", .number 0x3FFFF⟩]
  /-- The directory of the files. -/
  basePath : String := "."
  deriving DecidableEq

namespace Settings

instance : Inhabited Settings := ⟨{}⟩

/-- The number that is set under a name, or `0`. -/
def number (s : Settings) (name : String) : Int32 :=
  match s.registered.find? fun e => e.name = name with
  | some ⟨_, .number n⟩ => n
  | _ => 0

/-- Sets the number under a name. -/
def setNumber (name : String) (n : Int32) (s : Settings) : Settings :=
  match s.registered.span fun e => e.name ≠ name with
  | (before, e :: rest) => { s with registered := before ++ { e with value := .number n } :: rest }
  | (_, []) => s

/-- Whether commands are carried out by a thread of their own. -/
def threaded (s : Settings) : Bool := s.number "threaded3D" != 0

/-- The number of commands that can wait for the thread. A negative number stands
    for one beyond all bounds. -/
def queueSize (s : Settings) : Nat := (s.number "commandQueueSize").toInt64.toUInt64.toNat

/-- Whether every frame is written down. -/
def writesScenes (s : Settings) : Bool := s.number "dumpScene" != 0

/-- How frames are drawn. -/
def renderConfig (s : Settings) : RenderConfig where
  enabled := s.number "disable3D" == 0
  color := (s.number "fillColor").toUInt32 &&& 0x3FFFF

/-- Adds settings behind the others. -/
def add (more : List Setting) (s : Settings) : Settings :=
  { s with registered := s.registered ++ more }

/-! ### Files -/

/-- The path of the settings file. -/
def filePath (s : Settings) : String := s.basePath ++ "/geods.ini"

/-- The path of the file that frames are written to. -/
def scenePath (s : Settings) : String := s.basePath ++ "/dump3d.txt"

/-- Writes the settings file, if it can be written. -/
def save? (s : Settings) (files : FileTree) : Option FileTree :=
  files.write? s.filePath (SettingsFile.write s.registered)

/-- What comes of reading the settings file. -/
inductive Loaded
  /-- It was read. -/
  | complete
  /-- There was none. -/
  | missing
  /-- It has a number that is too large; what stands before it was read. -/
  | numberTooLarge
  deriving DecidableEq, Inhabited

/-- Reads the settings file in a directory, which is made if need be. If there is
    no file, one with the present settings is written, if it can be. -/
def load (s : Settings) (files : FileTree) (path : String) (binary : Bool := false) :
    Settings × FileTree × Loaded :=
  let s := { s with basePath := path }
  let files := (files.makeDirectory? path).getD files
  match files.read? s.filePath with
  | none => (s, (s.save? files).getD files, .missing)
  | some text =>
    match SettingsFile.read binary s.registered text with
    | (registered, true) => ({ s with registered }, files, .complete)
    | (registered, false) => ({ s with registered }, files, .numberTooLarge)

end Settings

end GeometryEngine
