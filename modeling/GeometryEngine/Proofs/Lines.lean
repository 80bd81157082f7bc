import GeometryEngine.SettingsLines
import GeometryEngine.Proofs.Reading
import Mathlib.Algebra.Group.Nat.Defs

/-!
# Pieces and lines of a settings file

A settings file is read piece by piece, but what is meant are its lines. In a file without NUL
characters whose lines are no longer than a piece, every piece is a line, with its line feed
unless it is the last one. So the file is read line by line, as long as no line has a number that
is too large (`SettingsFile.readPieces_pieces`).

* `Numeral.read?_eq_numberOf?`: a number is what the digits stand for that its text begins with.
* `SettingsFile.readPiece_eq_readLine`: what a piece does is what its line does.
* `SettingsFile.readLines_withReturns`: carriage returns at the ends of lines mean nothing.

`Settings.load_of_lines` says so of a load.
-/

namespace GeometryEngine

open SettingsFile

/-! ### Numbers -/

namespace Numeral

variable {binary : Bool}

theorem leading_eq_foldl (base value : Nat) (cs : List Char) :
    leading base value cs =
      (cs.takeWhile (isDigit base)).foldl (fun n c => base * n + (digit? c).getD 0) value := by
  induction cs generalizing value with
  | nil => rfl
  | cons c cs ih =>
    rw [leading, List.takeWhile_cons, isDigit]
    cases digit : digit? c with
    | none => rfl
    | some d =>
      by_cases small : d < base
      · simp [small, ih, digit, Nat.mul_comm]
      · simp [small]

theorem leading_eq_leadingNumber (base : Nat) (cs : List Char) :
    leading base 0 cs = leadingNumber base cs :=
  leading_eq_foldl base 0 cs

theorem leadingNumber_of_not_isDigit {base : Nat} {c : Char} (h : isDigit base c = false)
    (cs : List Char) : leadingNumber base (c :: cs) = 0 := by
  rw [leadingNumber, List.takeWhile_cons_of_neg (by simp [h]), List.foldl_nil]

/-- A prefix without a digit of its base behind it is a zero before a letter. -/
theorem leading_of_sign {x : Char} (sign : isDigit 8 x = false) (digits : List Char) :
    leading 8 0 ('0' :: x :: digits) = 0 := by
  have zero : leading 8 0 ('0' :: x :: digits) = leadingNumber 8 (x :: digits) :=
    leading_eq_leadingNumber 8 (x :: digits)
  rw [zero, leadingNumber_of_not_isDigit sign]

/-- After `0x` there need not be a digit. -/
theorem read?_of_hexadecimal {x : Char} (sign : x = 'x' ∨ x = 'X') (digits : List Char) :
    read? binary ('0' :: x :: digits) = some (leadingNumber 16 digits) := by
  have zero : isDigit 10 '0' = true := by decide
  have letter : isDigit 8 x = false := by rcases sign with rfl | rfl <;> rfl
  have other : ¬(x = 'b' ∨ x = 'B') := by rcases sign with rfl | rfl <;> decide
  cases digits with
  | nil => simp [read?, zero, leading_of_sign letter, leadingNumber]
  | cons h rest =>
    cases digit : isDigit 16 h with
    | true => simp [read?, zero, sign, digit, leading_eq_leadingNumber]
    | false =>
      simp [read?, zero, digit, other, leading_of_sign letter, leadingNumber_of_not_isDigit digit]

/-- After `0b` there need not be a digit either, and there is none if binary numbers are not
    known. -/
theorem read?_of_binary {x : Char} (sign : x = 'b' ∨ x = 'B') (digits : List Char) :
    read? binary ('0' :: x :: digits) = some (if binary then leadingNumber 2 digits else 0) := by
  have zero : isDigit 10 '0' = true := by decide
  have letter : isDigit 8 x = false := by rcases sign with rfl | rfl <;> rfl
  have other : ¬(x = 'x' ∨ x = 'X') := by rcases sign with rfl | rfl <;> decide
  cases digits with
  | nil => simp [read?, zero, leading_of_sign letter, leadingNumber]
  | cons h rest =>
    cases binary with
    | false => simp [read?, zero, other, leading_of_sign letter]
    | true =>
      cases digit : isDigit 2 h with
      | true => simp [read?, zero, sign, other, digit, leading_eq_leadingNumber]
      | false =>
        simp [read?, zero, digit, other, leading_of_sign letter,
          leadingNumber_of_not_isDigit digit]

theorem read?_of_octal {rest : List Char}
    (plain : ∀ x ∈ rest.head?, ¬(x = 'x' ∨ x = 'X') ∧ ¬(x = 'b' ∨ x = 'B')) :
    read? binary ('0' :: rest) = some (leadingNumber 8 rest) := by
  have zero : isDigit 10 '0' = true := by decide
  have number : leading 8 0 ('0' :: rest) = leadingNumber 8 rest := leading_eq_leadingNumber 8 rest
  unfold read?
  dsimp only
  rw [zero, number]
  match rest with
  | [] | [_] => rfl
  | x :: h :: rest =>
    have other := plain x rfl
    simp [other]

theorem read?_of_decimal {c : Char} (digit : c.isDigit = true) (other : c ≠ '0')
    (rest : List Char) : read? binary (c :: rest) = some (leadingNumber 10 (c :: rest)) := by
  unfold read?
  simp only [isDigit_ten, digit, Bool.not_true, Bool.false_eq_true, if_false, if_neg other,
    leading_eq_leadingNumber]

/-- A number is what the digits stand for that its text begins with. -/
theorem read?_eq_numberOf? (cs : List Char) : read? binary cs = numberOf? binary cs := by
  unfold numberOf?
  cases some_digit : cs.head?.any Char.isDigit with
  | false => exact (read?_eq_none_iff binary cs).2 some_digit
  | true =>
    rw [if_pos rfl]
    split
    · exact read?_of_hexadecimal (.inl rfl) _
    · exact read?_of_hexadecimal (.inr rfl) _
    · exact read?_of_binary (.inl rfl) _
    · exact read?_of_binary (.inr rfl) _
    · rename_i digits x X b B
      refine read?_of_octal fun c first => ?_
      cases digits with
      | nil => cases first
      | cons c digits =>
        cases first
        exact ⟨not_or.2 ⟨fun e => x digits (e ▸ rfl), fun e => X digits (e ▸ rfl)⟩,
          not_or.2 ⟨fun e => b digits (e ▸ rfl), fun e => B digits (e ▸ rfl)⟩⟩
    · rename_i other
      cases cs with
      | nil => cases some_digit
      | cons c rest => exact read?_of_decimal some_digit (fun e => other rest (e ▸ rfl)) rest

end Numeral

namespace SettingsFile

variable {binary : Bool} {settings : List Setting}

/-! ### Pieces -/

theorem piece_of_not_mem {limit : Nat} {part : List Char} (h : '\n' ∉ part)
    (fits : part.length ≤ limit) : piece limit part = (part, []) := by
  induction part generalizing limit with
  | nil => cases limit <;> rfl
  | cons c part ih =>
    rw [List.mem_cons, not_or] at h
    rw [List.length_cons] at fits
    obtain ⟨limit, rfl⟩ := Nat.exists_eq_succ_of_ne_zero (Nat.ne_zero_of_lt fits)
    rw [piece, if_neg fun e => h.1 e.symm, ih h.2 (Nat.le_of_succ_le_succ fits)]

/-- What is behind the last line feed is a piece, unless there is nothing. -/
theorem pieces_of_not_mem {part : List Char} (h : '\n' ∉ part) (fits : part.length ≤ pieceLimit) :
    pieces part = if part = [] then [] else [part] := by
  cases part with
  | nil => rw [pieces, if_pos rfl]
  | cons c part => rw [pieces, piece_of_not_mem h fits, pieces, if_neg (List.cons_ne_nil c part)]

/-! ### Numbers on lines -/

/-- The number on a line, if the first setting of the name before it is one. -/
def numberOn? (binary : Bool) (settings : List Setting) (line : List Char) : Option Nat :=
  match entry? line with
  | none => none
  | some (name, value) =>
    if (settings.map Setting.declaration).lookup name = some false then numberOf? binary value
    else none

theorem numberOn?_congr {later : List Setting}
    (same : later.map Setting.declaration = settings.map Setting.declaration) (line : List Char) :
    numberOn? binary later line = numberOn? binary settings line := by
  unfold numberOn?
  rw [same]

/-! ### What a line does -/

theorem dropWhile_lineEnd {cs : List Char} (h : '\n' ∉ cs) :
    cs.dropWhile (fun c => c = '\n' || c = '\r') = cs.dropWhile (· = '\r') := by
  induction cs with
  | nil => rfl
  | cons c cs ih =>
    rw [List.mem_cons, not_or] at h
    have other : c ≠ '\n' := fun e => h.1 e.symm
    simp only [List.dropWhile_cons, other, decide_false, Bool.false_or, ih h.2]

/-- Neither a line feed nor carriage returns behind it belong to a value. -/
theorem trimLineEnd_append_of_not_mem {value ending : List Char} (h : '\n' ∉ value)
    (ends : ∀ c ∈ ending, c = '\n') : trimLineEnd (value ++ ending) = dropReturns value := by
  have passed : ∀ c ∈ ending.reverse, (decide (c = '\n') || decide (c = '\r')) = true :=
    fun c mem => by simp [ends c (List.mem_reverse.1 mem)]
  rw [trimLineEnd, dropReturns, List.reverse_append, List.dropWhile_append_of_pos passed,
    dropWhile_lineEnd (by simpa using h)]

/-- A piece has the name and the value of its line. -/
theorem split?_append {line ending : List Char} (noEnd : '\x00' ∉ line) (h : '\n' ∉ line)
    (ends : ∀ c ∈ ending, c = '\n') :
    (split? (line ++ ending)).map (fun p => (String.ofList p.1, trimLineEnd p.2)) =
      entry? line := by
  have feed {c : Char} (other : c ≠ '\n') : c ∉ ending := fun mem => other (ends c mem)
  have whole : Text.untilNul (line ++ ending) = line ++ ending :=
    Text.untilNul_eq_self (by simp [noEnd, feed])
  unfold split? entry?
  dsimp only
  rw [whole]
  by_cases sign : '=' ∈ line
  · obtain ⟨name, value, rfl, first⟩ := List.eq_append_cons_of_mem sign
    have before : ∀ c ∈ name, decide (c ≠ '=') = true :=
      fun c mem => decide_eq_true fun e => first (e ▸ mem)
    have rest : '\n' ∉ value := fun mem => h (by simp [mem])
    simp only [List.append_assoc, List.cons_append, List.takeWhile_append_of_pos before,
      List.dropWhile_append_of_pos before]
    simp [trimLineEnd_append_of_not_mem rest ends]
  · have none : (line ++ ending).contains '=' = false := by simp [sign, feed]
    rw [none, if_neg sign]
    rfl

theorem assign_eq_give {s : Setting} {value : List Char}
    (fits : s.value.isText = false → ∀ n ∈ numberOf? binary value, n < 2 ^ 31) :
    assign binary s value = some (give binary value s) := by
  obtain ⟨name, old⟩ := s
  cases old with
  | text t => rfl
  | number old =>
    have fits := fits rfl
    simp only [assign, give, Numeral.read?_eq_numberOf?]
    cases number : numberOf? binary value with
    | none => rfl
    | some n => exact if_pos (fits n number)

/-- The first setting of a name gets its value. -/
theorem assignFirst_eq_modify {name : String} {value : List Char}
    (fits : (settings.map Setting.declaration).lookup name = some false →
      ∀ n ∈ numberOf? binary value, n < 2 ^ 31) :
    assignFirst binary name value settings =
      some (settings.modify (settings.findIdx fun s => s.name = name) (give binary value)) := by
  induction settings with
  | nil => rfl
  | cons s rest ih =>
    rw [lookup_declarations_cons] at fits
    rw [assignFirst, List.findIdx_cons]
    by_cases named : s.name = name
    · rw [if_pos named, assign_eq_give fun number => fits (by rw [if_pos named, number])]
      simp [named]
    · rw [if_neg named] at fits
      rw [if_neg named, ih fits]
      simp [named]

/-- What a piece does is what its line does. -/
theorem readPiece_eq_readLine {line ending : List Char} (noEnd : '\x00' ∉ line) (h : '\n' ∉ line)
    (ends : ∀ c ∈ ending, c = '\n') (fits : ∀ n ∈ numberOn? binary settings line, n < 2 ^ 31) :
    readPiece binary settings (line ++ ending) = some (readLine binary settings line) := by
  have parts := split?_append noEnd h ends
  unfold numberOn? at fits
  unfold readPiece readLine
  cases found : split? (line ++ ending) with
  | none =>
    rw [found] at parts
    rw [← parts]
    rfl
  | some p =>
    rw [found] at parts
    rw [← parts] at fits ⊢
    refine assignFirst_eq_modify fun number => ?_
    simpa [number] using fits

/-! ### What a file does -/

/-- A file without NUL characters is read line by line, if its lines are short enough and none of
    them has a number that is too large. -/
theorem readPieces_pieces {text : List Char} (noEnd : '\x00' ∉ text)
    (short : ∀ line ∈ Text.split '\n' text, line.length ≤ 510)
    (fits : ∀ line ∈ Text.split '\n' text, ∀ n ∈ numberOn? binary settings line, n < 2 ^ 31) :
    readPieces binary settings (pieces text) = (readLines binary settings text, true) := by
  unfold readLines
  induction text using Text.split_induction '\n' generalizing settings with
  | last part h =>
    rw [Text.split_of_not_mem h, List.forall_mem_singleton] at short fits
    rw [Text.split_of_not_mem h, pieces_of_not_mem h (Nat.le_succ_of_le short)]
    split
    · rename_i nothing
      subst nothing
      rfl
    · have whole : readPiece binary settings (part ++ []) = some (readLine binary settings part) :=
        readPiece_eq_readLine noEnd h (List.forall_mem_nil _) fits
      rw [List.append_nil] at whole
      simp only [readPieces, whole, List.foldl_cons, List.foldl_nil]
  | more part rest h ih =>
    rw [Text.split_append_cons h, List.forall_mem_cons] at short fits
    rw [List.mem_append, List.mem_cons, not_or, not_or] at noEnd
    have first : readPiece binary settings (part ++ ['\n']) =
        some (readLine binary settings part) :=
      readPiece_eq_readLine noEnd.1 h (List.forall_mem_singleton.2 rfl) fits.1
    have same := declarations_readPiece first
    rw [Text.split_append_cons h, pieces_line rest h (Nat.lt_succ_of_le short.1), readPieces, first,
      List.foldl_cons]
    refine ih noEnd.2.2 short.2 fun line mem n hn => fits.2 line mem n ?_
    rwa [numberOn?_congr same] at hn

/-! ### Line ends -/

theorem entry?_append_return (line : List Char) : entry? (line ++ ['\r']) = entry? line := by
  unfold entry?
  by_cases sign : '=' ∈ line
  · obtain ⟨name, value, rfl, first⟩ := List.eq_append_cons_of_mem sign
    have before : ∀ c ∈ name, decide (c ≠ '=') = true :=
      fun c mem => decide_eq_true fun e => first (e ▸ mem)
    simp only [List.append_assoc, List.cons_append, List.takeWhile_append_of_pos before,
      List.dropWhile_append_of_pos before]
    simp [dropReturns]
  · simp [sign]

/-- A carriage return behind a line means nothing. -/
theorem readLine_append_return (settings : List Setting) (line : List Char) :
    readLine binary settings (line ++ ['\r']) = readLine binary settings line := by
  unfold readLine
  rw [entry?_append_return]

theorem withReturns_of_not_mem {part : List Char} (h : '\n' ∉ part) : withReturns part = part := by
  induction part with
  | nil => rfl
  | cons c part ih =>
    rw [List.mem_cons, not_or] at h
    rw [withReturns, List.flatMap_cons, if_neg fun e => h.1 e.symm, ← withReturns, ih h.2]
    rfl

/-- All lines but the last one get a carriage return. -/
theorem withReturns_append_cons {part : List Char} (h : '\n' ∉ part) (rest : List Char) :
    withReturns (part ++ '\n' :: rest) = (part ++ ['\r']) ++ '\n' :: withReturns rest := by
  rw [withReturns, List.flatMap_append, ← withReturns, withReturns_of_not_mem h, List.flatMap_cons,
    if_pos rfl, ← withReturns]
  simp

theorem readLines_withReturns (settings : List Setting) (text : List Char) :
    readLines binary settings (withReturns text) = readLines binary settings text := by
  unfold readLines
  induction text using Text.split_induction '\n' generalizing settings with
  | last part h => rw [withReturns_of_not_mem h]
  | more part rest h ih =>
    have h' : '\n' ∉ part ++ ['\r'] := by simp [h]
    rw [withReturns_append_cons h, Text.split_append_cons h', Text.split_append_cons h,
      List.foldl_cons, List.foldl_cons, readLine_append_return, ih]

/-- Carriage returns change neither the name nor the value on any line. -/
theorem exists_entry?_of_mem_withReturns {text line : List Char}
    (mem : line ∈ Text.split '\n' (withReturns text)) :
    ∃ same ∈ Text.split '\n' text, entry? line = entry? same := by
  induction text using Text.split_induction '\n' with
  | last part h =>
    rw [withReturns_of_not_mem h] at mem
    exact ⟨line, mem, rfl⟩
  | more part rest h ih =>
    have h' : '\n' ∉ part ++ ['\r'] := by simp [h]
    rw [withReturns_append_cons h, Text.split_append_cons h', List.mem_cons] at mem
    rw [Text.split_append_cons h]
    rcases mem with rfl | mem
    · exact ⟨part, List.mem_cons_self, entry?_append_return part⟩
    · obtain ⟨same, found, entry⟩ := ih mem
      exact ⟨same, List.mem_cons_of_mem _ found, entry⟩

theorem not_mem_withReturns {c : Char} {text : List Char} (other : c ≠ '\r') (h : c ∉ text) :
    c ∉ withReturns text := by
  rw [withReturns, List.mem_flatMap]
  rintro ⟨d, mem, found⟩
  split at found
  · rename_i feed
    rw [List.mem_cons, List.mem_singleton] at found
    exact found.elim other fun e => h (e ▸ feed ▸ mem)
  · exact h (List.mem_singleton.1 found ▸ mem)

/-- Nothing is on the line behind the last line feed. -/
theorem readLines_append_feed (settings : List Setting) (text : List Char) :
    readLines binary settings (text ++ ['\n']) = readLines binary settings text := by
  rw [readLines, Text.split_append_separator, List.foldl_append, ← readLines]
  rfl

/-- A line feed behind the file adds a line that says nothing. -/
theorem readPieces_append_feed {text : List Char} (noEnd : '\x00' ∉ text)
    (short : ∀ line ∈ Text.split '\n' text, line.length ≤ 510)
    (fits : ∀ line ∈ Text.split '\n' text, ∀ n ∈ numberOn? binary settings line, n < 2 ^ 31) :
    readPieces binary settings (pieces (text ++ ['\n'])) =
      (readLines binary settings text, true) := by
  have lines : ∀ line ∈ Text.split '\n' (text ++ ['\n']),
      line ∈ Text.split '\n' text ∨ line = [] := by
    rw [Text.split_append_separator]
    simp
  rw [← readLines_append_feed]
  refine readPieces_pieces (by simp [noEnd]) (fun line mem => ?_) fun line mem n hn => ?_
  · rcases lines line mem with mem | rfl
    · exact short line mem
    · exact Nat.zero_le _
  · rcases lines line mem with mem | rfl
    · exact fits line mem n hn
    · cases hn

/-- Lines that are still short enough with their carriage returns say the same as without. -/
theorem readPieces_withReturns {text : List Char} (noEnd : '\x00' ∉ text)
    (short : ∀ line ∈ Text.split '\n' (withReturns text), line.length ≤ 510)
    (fits : ∀ line ∈ Text.split '\n' text, ∀ n ∈ numberOn? binary settings line, n < 2 ^ 31) :
    readPieces binary settings (pieces (withReturns text)) =
      (readLines binary settings text, true) := by
  rw [← readLines_withReturns]
  refine readPieces_pieces (not_mem_withReturns (by decide) noEnd) short fun line mem n hn => ?_
  obtain ⟨line', mem', entry⟩ := exists_entry?_of_mem_withReturns mem
  refine fits line' mem' n ?_
  rwa [numberOn?, entry] at hn

end SettingsFile

/-! ### Loads -/

namespace Settings

/-- A settings file has no NUL character, no line with more than 510 characters, and no number
    that is too large for the setting that it is for. A load reads it to its end, line by line. It
    makes no difference if the file has a line feed at its end besides, or a carriage return before
    every line feed, as long as the lines are still short enough. All this is so with and without
    binary numbers. -/
theorem load_of_lines (s : Settings) (binary : Bool) {files : FileTree} {path text : String}
    (file : files.read? (path ++ "/geods.ini") = some text) (noEnd : '\x00' ∉ text.toList)
    (short : ∀ line ∈ Text.split '\n' text.toList, line.length ≤ 510)
    (fits : ∀ line ∈ Text.split '\n' text.toList,
      ∀ n ∈ numberOn? binary s.registered line, n < 2 ^ 31) :
    let loaded := s.load files path binary
    loaded = (⟨readLines binary s.registered text.toList, path⟩,
      (files.makeDirectory? path).getD files, .complete) ∧
    ∀ files' text', files'.read? (path ++ "/geods.ini") = some text' →
      (text'.toList = text.toList ++ ['\n'] ∨ text'.toList = withReturns text.toList ∧
        ∀ line ∈ Text.split '\n' text'.toList, line.length ≤ 510) →
      (s.load files' path binary).1 = loaded.1 ∧
        (s.load files' path binary).2.2 = .complete := by
  dsimp only
  rw [load_eq_of_read? s binary file, SettingsFile.read, readPieces_pieces noEnd short fits]
  refine ⟨rfl, fun files' text' file' change => ?_⟩
  have same : readPieces binary s.registered (pieces text'.toList) =
      (readLines binary s.registered text.toList, true) := by
    rcases change with ended | ⟨returns, short'⟩
    · rw [ended, readPieces_append_feed noEnd short fits]
    · rw [returns] at short' ⊢
      exact readPieces_withReturns noEnd short' fits
  rw [load_eq_of_read? s binary file', SettingsFile.read, same]
  exact ⟨rfl, rfl⟩

/-- A file whose lines end in line feeds, and in which a number comes twice, a title has an equals
    sign, and a word stands for a number: the file with carriage returns means the same. -/
theorem load_of_lines_returns :
    let s : Settings := ({} : Settings).add [⟨"title", .text ""⟩, ⟨"title", .text "second"⟩]
    let text := "fillColor=0x1Fx\ntitle=a=b\r\ncommandQueueSize=lots\nno sign\nfillColor=017"
    let returns :=
      "fillColor=0x1Fx\r\ntitle=a=b\r\r\ncommandQueueSize=lots\r\nno sign\r\nfillColor=017"
    let files : FileTree := ⟨[(["geods.ini"], .file text)]⟩
    let files' : FileTree := ⟨[(["geods.ini"], .file returns)]⟩
    (s.load files ".").2.2 = .complete ∧
      (s.load files ".").1.registered =
        [⟨"threaded3D", .number 1⟩, ⟨"commandQueueSize", .number 1024⟩, ⟨"dumpScene", .number 0⟩,
          ⟨"disable3D", .number 0⟩, ⟨"fillColor", .number 15⟩, ⟨"title", .text "a=b"⟩,
          ⟨"title", .text "second"⟩] ∧
      (s.load files' ".").1 = (s.load files ".").1 := by
  intro s text returns files files'
  have file : files.read? ("." ++ "/geods.ini") = some text := by decide +kernel
  have file' : files'.read? ("." ++ "/geods.ini") = some returns := by decide +kernel
  obtain ⟨loaded, same⟩ := load_of_lines s false file (by decide +kernel) (by decide +kernel)
    (by decide +kernel)
  obtain ⟨returned, -⟩ := same files' returns file' (.inr ⟨by decide +kernel, by decide +kernel⟩)
  refine ⟨congrArg (·.2.2) loaded, (congrArg (·.1.registered) loaded).trans ?_, returned⟩
  decide +kernel

/-- Not every `0` before a letter is the octal number zero: a capital `X` makes a hexadecimal
    number as well, and a `b` a binary one where these are known. -/
theorem load_of_other_prefixes :
    let files (value : String) : FileTree := ⟨[(["geods.ini"], .file ("fillColor=" ++ value))]⟩
    let color (value : String) (binary : Bool) : Int32 :=
      (({} : Settings).load (files value) "." binary).1.number "fillColor"
    leadingNumber 8 "X1F".toList = 0 ∧ color "0X1F" false = 31 ∧ color "0X1F" true = 31 ∧
      leadingNumber 8 "b101".toList = 0 ∧ color "0b101" false = 0 ∧ color "0b101" true = 5 := by
  decide +kernel

end Settings

end GeometryEngine
