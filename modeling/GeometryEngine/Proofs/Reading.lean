import GeometryEngine.Settings
import GeometryEngine.Proofs.Files

/-!
# Reading any settings file

Whatever is in a settings file, reading it changes values only: the settings keep their names,
a number remains a number and a text a text (`SettingsFile.declarations_readPieces`). So the
settings as they are at first tell which pieces of the file have a text that is to be read as a
number (`SettingsFile.numberText?`), and of two kinds of these no number comes:

* a text that does not begin with a digit (`SettingsFile.HasNoNumber`) is passed over, and all
  settings are left as they are;
* a number that is too large (`SettingsFile.HasTooLarge`) ends the reading. The pieces before it
  were read, and those behind it are not.

`Settings.load_of_file` says so of a load, whether or not binary numbers are known.
-/

namespace GeometryEngine

/-- Whether a value is a text. -/
def Value.isText : Value → Bool
  | .number _ => false
  | .text _ => true

/-- A setting without its value: the name, and whether the value is a text. -/
def Setting.declaration (s : Setting) : String × Bool := (s.name, s.value.isText)

namespace SettingsFile

variable {binary : Bool} {settings : List Setting} {p : List Char}

/-- The first setting of a name is the one that counts. -/
theorem lookup_declarations_cons (name : String) (s : Setting) (rest : List Setting) :
    ((s :: rest).map Setting.declaration).lookup name =
      if s.name = name then some s.value.isText
      else (rest.map Setting.declaration).lookup name := by
  rw [List.map_cons, Setting.declaration, List.lookup_cons]
  by_cases named : s.name = name
  · simp [named]
  · simp [named, beq_eq_false_iff_ne.2 (Ne.symm named)]

/-! ### What a piece does -/

theorem declaration_assign {s t : Setting} {value : List Char}
    (h : assign binary s value = some t) : t.declaration = s.declaration := by
  unfold assign at h
  split at h
  · rename_i text
    cases h
    simp [Setting.declaration, Value.isText, text]
  · rename_i number
    split at h
    · cases h
      rfl
    · split at h <;> cases h
      simp [Setting.declaration, Value.isText, number]

theorem declarations_assignFirst {name : String} {value : List Char} {later : List Setting}
    (h : assignFirst binary name value settings = some later) :
    later.map Setting.declaration = settings.map Setting.declaration := by
  induction settings generalizing later with
  | nil =>
    cases h
    rfl
  | cons s rest ih =>
    rw [assignFirst] at h
    split at h
    · obtain ⟨t, assigned, rfl⟩ := Option.map_eq_some_iff.1 h
      rw [List.map_cons, List.map_cons, declaration_assign assigned]
    · obtain ⟨later, assigned, rfl⟩ := Option.map_eq_some_iff.1 h
      rw [List.map_cons, List.map_cons, ih assigned]

/-- A piece changes values only. -/
theorem declarations_readPiece {later : List Setting}
    (h : readPiece binary settings p = some later) :
    later.map Setting.declaration = settings.map Setting.declaration := by
  unfold readPiece at h
  split at h
  · cases h
    rfl
  · exact declarations_assignFirst h

/-- The text in a piece that is to be read as a number, as the first setting of the name before
    it is one. -/
def numberText? (settings : List Setting) (p : List Char) : Option (List Char) :=
  match split? p with
  | none => none
  | some (name, value) =>
    if (settings.map Setting.declaration).lookup (String.ofList name) = some false then
      some (trimLineEnd value)
    else none

/-- A piece has a text that is to be read as a number and does not begin with a digit. -/
def HasNoNumber (settings : List Setting) (p : List Char) : Prop :=
  ∃ value ∈ numberText? settings p, value.head?.any Char.isDigit = false

instance : Decidable (HasNoNumber settings p) :=
  inferInstanceAs (Decidable (∃ value ∈ numberText? settings p, _))

/-- A piece has a number that is too large for the setting that it is for. -/
def HasTooLarge (binary : Bool) (settings : List Setting) (p : List Char) : Prop :=
  ∃ value ∈ numberText? settings p, ∃ n ∈ Numeral.read? binary value, 0x80000000 ≤ n

instance : Decidable (HasTooLarge binary settings p) :=
  inferInstanceAs (Decidable (∃ value ∈ numberText? settings p, _))

theorem assign_eq_none_iff {s : Setting} {value : List Char} :
    assign binary s value = none ↔
      s.value.isText = false ∧ ∃ n ∈ Numeral.read? binary value, 0x80000000 ≤ n := by
  unfold assign
  split
  · rename_i text
    simp [text, Value.isText]
  · rename_i number
    cases Numeral.read? binary value with
    | none => simp
    | some n => simp [number, Value.isText]

theorem assignFirst_eq_none_iff {name : String} {value : List Char} :
    assignFirst binary name value settings = none ↔
      (settings.map Setting.declaration).lookup name = some false ∧
        ∃ n ∈ Numeral.read? binary value, 0x80000000 ≤ n := by
  induction settings with
  | nil => simp [assignFirst]
  | cons s rest ih =>
    rw [assignFirst, lookup_declarations_cons]
    by_cases named : s.name = name
    · rw [if_pos named, if_pos named, Option.map_eq_none_iff, assign_eq_none_iff, Option.some_inj]
    · rw [if_neg named, if_neg named, Option.map_eq_none_iff, ih]

/-- A number that is too large, and nothing else, ends the reading. -/
theorem readPiece_eq_none_iff :
    readPiece binary settings p = none ↔ HasTooLarge binary settings p := by
  unfold readPiece HasTooLarge numberText?
  cases split? p with
  | none => simp
  | some parts =>
    simp only [assignFirst_eq_none_iff]
    split <;> rename_i number <;> simp [number]

theorem assign_of_read?_eq_none {s : Setting} {value : List Char}
    (number : s.value.isText = false) (none : Numeral.read? binary value = none) :
    assign binary s value = some s := by
  unfold assign
  split
  · rename_i text
    rw [text] at number
    exact nomatch number
  · rw [none]

theorem assignFirst_of_read?_eq_none {name : String} {value : List Char}
    (number : (settings.map Setting.declaration).lookup name = some false)
    (none : Numeral.read? binary value = none) :
    assignFirst binary name value settings = some settings := by
  induction settings with
  | nil => exact nomatch number
  | cons s rest ih =>
    rw [lookup_declarations_cons] at number
    rw [assignFirst]
    by_cases named : s.name = name
    · rw [if_pos named, Option.some_inj] at number
      rw [if_pos named, assign_of_read?_eq_none number none, Option.map_some]
    · rw [if_neg named] at number
      rw [if_neg named, ih number, Option.map_some]

/-- A text that does not begin with a digit is passed over. -/
theorem readPiece_of_hasNoNumber (h : HasNoNumber settings p) :
    readPiece binary settings p = some settings := by
  obtain ⟨value, found, noDigit⟩ := h
  unfold numberText? at found
  unfold readPiece
  cases parts : split? p with
  | none => rfl
  | some parts =>
    simp only [parts] at found ⊢
    split at found
    · rename_i number
      cases found
      exact assignFirst_of_read?_eq_none number ((Numeral.read?_eq_none_iff ..).2 noDigit)
    · exact nomatch found

/-! ### What a file does -/

/-- Whatever is read, and however far, it changes values only. -/
theorem declarations_readPieces (binary : Bool) (settings : List Setting)
    (ps : List (List Char)) :
    (readPieces binary settings ps).1.map Setting.declaration =
      settings.map Setting.declaration := by
  induction ps generalizing settings with
  | nil => rfl
  | cons p ps ih =>
    rw [readPieces]
    split
    · rfl
    · rename_i later read
      rw [ih, declarations_readPiece read]

theorem numberText?_congr {later : List Setting}
    (same : later.map Setting.declaration = settings.map Setting.declaration) (p : List Char) :
    numberText? later p = numberText? settings p := by
  unfold numberText?
  rw [same]

theorem hasTooLarge_congr {later : List Setting}
    (same : later.map Setting.declaration = settings.map Setting.declaration) :
    HasTooLarge binary later p ↔ HasTooLarge binary settings p := by
  unfold HasTooLarge
  rw [numberText?_congr same]

theorem hasNoNumber_congr {later : List Setting}
    (same : later.map Setting.declaration = settings.map Setting.declaration) :
    HasNoNumber later p ↔ HasNoNumber settings p := by
  unfold HasNoNumber
  rw [numberText?_congr same]

/-- A file is read to its end unless it has a number that is too large. -/
theorem readPieces_eq_true_iff (binary : Bool) (settings : List Setting) (ps : List (List Char)) :
    (readPieces binary settings ps).2 = true ↔ ∀ p ∈ ps, ¬HasTooLarge binary settings p := by
  induction ps generalizing settings with
  | nil => simp [readPieces]
  | cons p ps ih =>
    rw [readPieces, List.forall_mem_cons, ← readPiece_eq_none_iff]
    cases read : readPiece binary settings p with
    | none => simp
    | some later => simp [ih, hasTooLarge_congr (declarations_readPiece read)]

theorem readPieces_append {met : List Setting} {before : List (List Char)}
    (read : readPieces binary settings before = (met, true)) (rest : List (List Char)) :
    readPieces binary settings (before ++ rest) = readPieces binary met rest := by
  induction before generalizing settings with
  | nil =>
    cases read
    rfl
  | cons p before ih =>
    rw [readPieces] at read
    rw [List.cons_append, readPieces]
    split at read
    · exact nomatch read
    · exact ih read

end SettingsFile

/-! ### Loads -/

namespace Settings

open SettingsFile

/-- If there is a settings file, a load reads it. -/
theorem load_eq_of_read? (s : Settings) (binary : Bool) {files : FileTree} {path text : String}
    (file : files.read? (path ++ "/geods.ini") = some text) :
    s.load files path binary =
      (⟨(read binary s.registered text).1, path⟩, (files.makeDirectory? path).getD files,
        if (read binary s.registered text).2 = true then .complete else .numberTooLarge) := by
  have there : ((files.makeDirectory? path).getD files).read? (path ++ "/geods.ini") =
      some text := by
    cases made : files.makeDirectory? path with
    | none => exact file
    | some more => exact FileTree.read?_of_makeDirectory? made file
  unfold load
  simp only [filePath, there]
  rcases read binary s.registered text with ⟨registered, _ | _⟩ <;> rfl

/-- What comes of reading any settings file, with or without binary numbers. Only a number
    that is too large ends a load before the end of the file. The pieces before it were read,
    and neither it nor what is behind it changes anything. A piece with a text that is no
    number, for a setting that is one, leaves all settings as they were before. -/
theorem load_of_file (s : Settings) (binary : Bool) {files : FileTree} {path text : String}
    (file : files.read? (path ++ "/geods.ini") = some text) :
    let loaded := s.load files path binary
    let outcome := loaded.2.2
    loaded.1.basePath = path ∧
    loaded.1.registered.map Setting.declaration = s.registered.map Setting.declaration ∧
    (outcome = .complete ∨ outcome = .numberTooLarge) ∧
    (outcome = .numberTooLarge ↔ ∃ p ∈ pieces text.toList, HasTooLarge binary s.registered p) ∧
    ∀ before p after, pieces text.toList = before ++ p :: after →
      (∀ q ∈ before, ¬HasTooLarge binary s.registered q) →
      ∃ met, readPieces binary s.registered before = (met, true) ∧
        (HasTooLarge binary s.registered p → loaded.1.registered = met) ∧
        (HasNoNumber s.registered p → readPiece binary met p = some met) := by
  dsimp only
  rw [load_eq_of_read? s binary file, SettingsFile.read]
  refine ⟨rfl, declarations_readPieces .., ?_, ?_, fun before p after whole free => ?_⟩
  · cases (readPieces binary s.registered (pieces text.toList)).2 <;> simp
  · have complete := readPieces_eq_true_iff binary s.registered (pieces text.toList)
    cases ended : (readPieces binary s.registered (pieces text.toList)).2 with
    | true => simpa using complete.1 ended
    | false => simpa [ended] using complete
  · have ended : readPieces binary s.registered before =
        ((readPieces binary s.registered before).1, true) :=
      Prod.ext rfl ((readPieces_eq_true_iff ..).2 free)
    have same := declarations_readPieces binary s.registered before
    refine ⟨_, ended, fun large => ?_, fun noNumber => ?_⟩
    · rw [whole, readPieces_append ended, readPieces,
        readPiece_eq_none_iff.2 ((hasTooLarge_congr same).2 large)]
    · exact readPiece_of_hasNoNumber ((hasNoNumber_congr same).2 noNumber)

/-- A word for a number is passed over, and a number that is too large ends the load, before the
    drawing is turned off. -/
theorem load_of_file_of_three_lines :
    let files : FileTree :=
      ⟨[(["geods.ini"], .file "commandQueueSize=lots\nfillColor=2147483648\ndisable3D=1\n")]⟩
    (({} : Settings).load files ".").2.2 = .numberTooLarge ∧
      (({} : Settings).load files ".").1.registered = ({} : Settings).registered := by
  have file : (⟨[(["geods.ini"],
      .file "commandQueueSize=lots\nfillColor=2147483648\ndisable3D=1\n")]⟩ : FileTree).read?
        ("." ++ "/geods.ini") =
      some "commandQueueSize=lots\nfillColor=2147483648\ndisable3D=1\n" := by decide +kernel
  obtain ⟨-, -, -, ended, read⟩ := load_of_file {} false file
  obtain ⟨met, before, stopped, -⟩ := read ["commandQueueSize=lots\n".toList]
    "fillColor=2147483648\n".toList ["disable3D=1\n".toList] (by decide +kernel)
    (by decide +kernel)
  refine ⟨ended.2 (by decide +kernel), (stopped (by decide +kernel)).trans ?_⟩
  have untouched : readPieces false ({} : Settings).registered ["commandQueueSize=lots\n".toList] =
      (({} : Settings).registered, true) := by decide +kernel
  exact congrArg Prod.fst (before.symm.trans untouched)

/-- A number that does not fit ends a load, and the color in the next line is not read. -/
theorem load_of_number_beyond_word :
    let files : FileTree :=
      ⟨[(["geods.ini"], .file "commandQueueSize=2147483648\nfillColor=2\n")]⟩
    ({} : Settings).load files "." = ({}, files, .numberTooLarge) ∧
      ({} : Settings).load files "." true = ({}, files, .numberTooLarge) := by
  decide +kernel

-- Of 32 binary digits, only who knows them takes notice.
example :
    let files : FileTree :=
      ⟨[(["geods.ini"], .file "commandQueueSize=0b11111111111111111111111111111111\n")]⟩
    (({} : Settings).load files "." true).2.2 = .numberTooLarge ∧
      (({} : Settings).load files ".").2.2 = .complete := by
  decide +kernel

end Settings

end GeometryEngine
