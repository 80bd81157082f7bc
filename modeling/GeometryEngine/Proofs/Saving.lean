import GeometryEngine.Proofs.Reading

/-!
# Settings that are written and read again

A settings file that was written has a line for every setting, and no other piece
(`SettingsFile.pieces_write`). So it is read one setting after the other, if the settings can be
told apart in it: no two of them have the same name, and the names and texts have none of the
characters that end them (`Setting.IsPlain`).

Texts and the numbers from zero on are then read as they were written. A number below zero is
written with a sign, by which it is no number when it is read, and the setting keeps whatever
value it has (`Value.restored`). `Settings.load_of_save` says what a load brings back after
settings were saved and then changed in any way.
-/

namespace GeometryEngine

/-! ### Numbers -/

namespace Numeral

theorem leading_eq_ofDigitChars {cs : List Char} (digits : ∀ c ∈ cs, c.isDigit = true)
    (value : Nat) : leading 10 value cs = Nat.ofDigitChars 10 cs value := by
  induction cs generalizing value with
  | nil => rfl
  | cons c cs ih =>
    rw [List.forall_mem_cons] at digits
    simp only [leading, digit?_of_isDigit digits.1, digit_lt_ten digits.1, if_true]
    rw [ih digits.2, Nat.ofDigitChars_cons, Nat.mul_comm]

/-- Only zero is written with a zero in front. -/
theorem eq_zero_of_toDigits_eq_cons {n : Nat} {rest : List Char}
    (h : Nat.toDigits 10 n = '0' :: rest) : n = 0 := by
  induction n using Nat.strongRecOn generalizing rest with
  | ind n ih =>
    by_cases small : n < 10
    · rw [Nat.toDigits_of_lt_base small, List.cons.injEq, Nat.digitChar_eq_zero] at h
      exact h.1
    · rw [Nat.toDigits_of_base_le (by decide) (Nat.not_lt.1 small)] at h
      obtain ⟨c, front, digits⟩ :=
        List.exists_cons_of_ne_nil (Nat.toDigits_ne_nil (n := n / 10) (b := 10))
      rw [digits, List.cons_append, List.cons.injEq] at h
      have front_zero := ih (n / 10) (by omega) (h.1 ▸ digits)
      omega

/-- A number that is written in decimal is read as it was. -/
theorem read?_toDigits (binary : Bool) (n : Nat) :
    read? binary (Nat.toDigits 10 n) = some n := by
  have digits : ∀ c ∈ Nat.toDigits 10 n, c.isDigit = true :=
    fun c => Nat.isDigit_of_mem_toDigits (by decide) (by decide)
  have number : leading 10 0 (Nat.toDigits 10 n) = n := by
    rw [leading_eq_ofDigitChars digits, Nat.ofDigitChars_ten_toDigits]
  cases written : Nat.toDigits 10 n with
  | nil => exact absurd written Nat.toDigits_ne_nil
  | cons c rest =>
    rw [written] at digits number
    by_cases zero : c = '0'
    · subst zero
      cases eq_zero_of_toDigits_eq_cons written
      cases written
      rfl
    · unfold read?
      simp only [isDigit_ten, digits c List.mem_cons_self, if_neg zero, number, Bool.not_true,
        Bool.false_eq_true, if_false]

end Numeral

/-! ### Lines -/

/-- A setting that can be told from the others on a line of its own. -/
structure Setting.IsPlain (s : Setting) : Prop where
  /-- The name has no character that ends a name, a line or a text. -/
  name : ∀ c ∈ s.name.toList, c ≠ '=' ∧ c ≠ '\r' ∧ c ≠ '\n' ∧ c ≠ '\x00'
  /-- A text has no character that ends a line or a text. -/
  text : ∀ t, s.value = .text t → ∀ c ∈ t.toList, c ≠ '\r' ∧ c ≠ '\n' ∧ c ≠ '\x00'
  /-- The line is no longer than a piece, with its line feed. -/
  fits : (s.name ++ "=" ++ SettingsFile.valueText s.value).length ≤ 510

/-- The value that a setting has after the line of a value was read. A number below zero is not
    recognised. -/
def Value.restored (saved now : Value) : Value :=
  match saved with
  | .number n => if n < 0 then now else .number n
  | .text t => .text t

/-- A setting after the line of a setting of its name was read. -/
def Setting.restored (saved now : Setting) : Setting :=
  { now with value := saved.value.restored now.value }

namespace SettingsFile

variable {binary : Bool}

theorem toInt_nonneg {n : Int32} (h : ¬n < 0) : 0 ≤ n.toInt :=
  Int32.le_iff_toInt_le.1 (Int32.not_lt.1 h)

theorem toList_valueText_of_nonneg {n : Int32} (h : ¬n < 0) :
    (valueText (.number n)).toList = Nat.toDigits 10 n.toInt.toNat := by
  rw [valueText, Int.toString_eq_repr, Int.repr_eq_if, if_pos (toInt_nonneg h), Nat.toList_repr]

theorem toList_valueText_of_neg {n : Int32} (h : n < 0) :
    (valueText (.number n)).toList = '-' :: Nat.toDigits 10 (-n.toInt).toNat := by
  have sign : ¬0 ≤ n.toInt := Int.not_le.2 (Int32.lt_iff_toInt_lt.1 h)
  rw [valueText, Int.toString_eq_repr, Int.repr_eq_if, if_neg sign, String.toList_append,
    Nat.toList_repr]
  rfl

/-- A value has no character that ends a line or a text. -/
theorem ends_not_mem_valueText {s : Setting} (plain : s.IsPlain) :
    ∀ c ∈ (valueText s.value).toList, c ≠ '\r' ∧ c ≠ '\n' ∧ c ≠ '\x00' := by
  have digit {n : Nat} {c : Char} (h : c ∈ Nat.toDigits 10 n) :
      c ≠ '\r' ∧ c ≠ '\n' ∧ c ≠ '\x00' := by
    have digit := Nat.isDigit_of_mem_toDigits (by decide) (by decide) h
    refine ⟨?_, ?_, ?_⟩ <;> rintro rfl <;> exact absurd digit (by decide)
  cases value : s.value with
  | text t => exact plain.text t value
  | number n =>
    intro c mem
    by_cases sign : n < 0
    · rw [toList_valueText_of_neg sign, List.mem_cons] at mem
      rcases mem with rfl | mem
      · decide
      · exact digit mem
    · rw [toList_valueText_of_nonneg sign] at mem
      exact digit mem

/-- The line of a setting, without the line feed. -/
def lineChars (s : Setting) : List Char := s.name.toList ++ '=' :: (valueText s.value).toList

theorem toList_line {s : Setting} (plain : s.IsPlain) :
    (line s).toList = lineChars s ++ ['\n'] := by
  have name : Text.cut s.name = s.name :=
    Text.cut_eq_self fun mem => (plain.name _ mem).2.2.2 rfl
  have value : Text.cut (valueText s.value) = valueText s.value :=
    Text.cut_eq_self fun mem => (ends_not_mem_valueText plain _ mem).2.2 rfl
  simp [line, lineChars, name, value]

/-- The pieces of a file that was written are its lines. -/
theorem pieces_write {settings : List Setting} (plain : ∀ s ∈ settings, s.IsPlain) :
    pieces (write settings).toList = settings.map fun s => lineChars s ++ ['\n'] := by
  have lines : (write settings).toList = settings.flatMap fun s => (line s).toList := by
    rw [write, String.toList_join, List.flatMap_map]
  rw [lines]
  clear lines
  induction settings with
  | nil => rw [List.flatMap_nil, pieces, List.map_nil]
  | cons s rest ih =>
    rw [List.forall_mem_cons] at plain
    have noFeed : '\n' ∉ lineChars s := by
      rw [lineChars, List.mem_append, List.mem_cons]
      rintro (mem | mem | mem)
      · exact (plain.1.name _ mem).2.2.1 rfl
      · exact absurd mem (by decide)
      · exact (ends_not_mem_valueText plain.1 _ mem).2.1 rfl
    have fits : (lineChars s).length < pieceLimit := by
      have := plain.1.fits
      simp only [← String.length_toList, String.toList_append, List.length_append] at this
      have sign : "=".toList.length = 1 := rfl
      rw [lineChars, List.length_append, List.length_cons, pieceLimit]
      omega
    rw [List.flatMap_cons, toList_line plain.1, List.append_assoc, List.singleton_append,
      pieces_line _ noFeed fits, ih plain.2, List.map_cons]

/-- A line falls into the name and the value, at the equals sign that was written. -/
theorem split?_line {s : Setting} (plain : s.IsPlain) :
    split? (lineChars s ++ ['\n']) =
      some (s.name.toList, (valueText s.value).toList ++ ['\n']) := by
  have whole : lineChars s ++ ['\n'] =
      s.name.toList ++ '=' :: ((valueText s.value).toList ++ ['\n']) := by
    rw [lineChars, List.append_assoc, List.cons_append]
  have noEnd : '\x00' ∉ lineChars s ++ ['\n'] := by
    rw [whole, List.mem_append, List.mem_cons, List.mem_append, List.mem_singleton]
    rintro (mem | mem | mem | mem)
    · exact (plain.name _ mem).2.2.2 rfl
    · exact absurd mem (by decide)
    · exact (ends_not_mem_valueText plain _ mem).2.2 rfl
    · exact absurd mem (by decide)
  have name : ∀ c ∈ s.name.toList, decide (c ≠ '=') = true :=
    fun c mem => decide_eq_true (plain.name c mem).1
  have mem : (lineChars s ++ ['\n']).contains '=' = true := by simp [whole]
  rw [split?, Text.untilNul_eq_self noEnd, if_pos mem, whole, List.takeWhile_append_of_pos name,
    List.dropWhile_append_of_pos name]
  simp

theorem trimLineEnd_append {value : List Char} (h : ∀ c ∈ value, c ≠ '\r' ∧ c ≠ '\n') :
    trimLineEnd (value ++ ['\n']) = value := by
  have stay : value.reverse.dropWhile (fun c => c = '\n' || c = '\r') = value.reverse := by
    cases reversed : value.reverse with
    | nil => rfl
    | cons c rest =>
      have last := h c (by rw [← List.mem_reverse, reversed]; exact List.mem_cons_self)
      rw [List.dropWhile_cons_of_neg (by simpa using ⟨last.2, last.1⟩)]
  rw [trimLineEnd, List.reverse_append, List.reverse_singleton, List.singleton_append,
    List.dropWhile_cons_of_pos (by simp), stay, List.reverse_reverse]

/-! ### Reading what was written -/

/-- A text and a number from zero on come back from their text, and a number below zero is not
    recognised. -/
theorem assign_valueText {saved now : Setting} (same : now.declaration = saved.declaration) :
    assign binary now (valueText saved.value).toList = some (saved.restored now) := by
  obtain ⟨name, value⟩ := saved
  obtain ⟨name', value'⟩ := now
  have kind : value'.isText = value.isText := congrArg Prod.snd same
  cases value with
  | text t =>
    cases value' with
    | number n => cases kind
    | text t' => simp [assign, Setting.restored, Value.restored, valueText]
  | number n =>
    cases value' with
    | text t => cases kind
    | number n' =>
      by_cases sign : n < 0
      · have none : Numeral.read? binary (valueText (.number n)).toList = none := by
          rw [toList_valueText_of_neg sign]
          rfl
        simp [assign, none, Setting.restored, Value.restored, sign]
      · have read : Numeral.read? binary (valueText (.number n)).toList = some n.toInt.toNat := by
          rw [toList_valueText_of_nonneg sign, Numeral.read?_toDigits]
        have fits : n.toInt.toNat < 0x80000000 := by
          have := n.toInt_lt
          omega
        have back : Int32.ofNat n.toInt.toNat = n := by
          rw [← Int32.ofInt_eq_ofNat, Int.toNat_of_nonneg (toInt_nonneg sign), Int32.ofInt_toInt]
        simp only [assign, read, if_pos fits, back, Setting.restored, Value.restored, if_neg sign]

theorem assignFirst_append {name : String} (value : List Char) {before : List Setting}
    (other : ∀ s ∈ before, s.name ≠ name) (rest : List Setting) :
    assignFirst binary name value (before ++ rest) =
      (assignFirst binary name value rest).map (before ++ ·) := by
  induction before with
  | nil => simp
  | cons s before ih =>
    rw [List.forall_mem_cons] at other
    rw [List.cons_append, assignFirst, if_neg other.1, ih other.2, Option.map_map]
    rfl

/-- A line sets the setting that it was written for. -/
theorem readPiece_line {saved now : Setting} {before rest : List Setting} (plain : saved.IsPlain)
    (same : now.declaration = saved.declaration) (other : ∀ s ∈ before, s.name ≠ saved.name) :
    readPiece binary (before ++ now :: rest) (lineChars saved ++ ['\n']) =
      some (before ++ saved.restored now :: rest) := by
  have named : now.name = saved.name := congrArg Prod.fst same
  have value := trimLineEnd_append fun c mem =>
    ⟨(ends_not_mem_valueText plain c mem).1, (ends_not_mem_valueText plain c mem).2.1⟩
  simp only [readPiece, split?_line plain, value, String.ofList_toList]
  rw [assignFirst_append _ other, assignFirst, if_pos named, assign_valueText same]
  rfl

theorem readPieces_lines {saved now : List Setting} (plain : ∀ s ∈ saved, s.IsPlain)
    (before : List Setting)
    (names : ((before ++ saved).map Setting.name).Nodup)
    (same : now.map Setting.declaration = saved.map Setting.declaration) :
    readPieces binary (before ++ now) (saved.map fun s => lineChars s ++ ['\n']) =
      (before ++ List.zipWith Setting.restored saved now, true) := by
  -- By induction on the lines: `before` are the settings that were read already.
  induction saved generalizing now before with
  | nil =>
    cases List.map_eq_nil_iff.1 same
    rfl
  | cons s saved ih =>
    cases now with
    | nil => exact nomatch same
    | cons e now =>
      rw [List.forall_mem_cons] at plain
      rw [List.map_cons, List.map_cons, List.cons.injEq] at same
      have other : ∀ b ∈ before, b.name ≠ s.name := by
        rw [List.map_append, List.nodup_append] at names
        exact fun b mem => names.2.2 _ (List.mem_map_of_mem mem) _ List.mem_cons_self
      have named : (s.restored e).name = s.name := congrArg Prod.fst same.1
      rw [List.map_cons, readPieces, readPiece_line plain.1 same.1 other]
      have rest := ih plain.2 (before ++ [s.restored e]) (by simpa [named] using names) same.2
      simpa using rest

/-- What is read from a file that was written. -/
theorem read_write {saved now : List Setting} (plain : ∀ s ∈ saved, s.IsPlain)
    (names : (saved.map Setting.name).Nodup)
    (same : now.map Setting.declaration = saved.map Setting.declaration) :
    read binary now (write saved) = (List.zipWith Setting.restored saved now, true) := by
  rw [read, pieces_write plain]
  exact readPieces_lines plain [] names same

end SettingsFile

/-! ### Saving and loading -/

/-- With no number below zero, everything is as it was. -/
theorem Setting.zipWith_restored {saved now : List Setting}
    (same : now.map Setting.declaration = saved.map Setting.declaration)
    (signs : ∀ s ∈ saved, ∀ n, s.value = .number n → ¬n < 0) :
    List.zipWith Setting.restored saved now = saved := by
  induction saved generalizing now with
  | nil => rfl
  | cons s saved ih =>
    cases now with
    | nil => exact nomatch same
    | cons e now =>
      rw [List.map_cons, List.map_cons, List.cons.injEq] at same
      rw [List.forall_mem_cons] at signs
      have named : e.name = s.name := congrArg Prod.fst same.1
      have first : s.restored e = s := by
        obtain ⟨name, value⟩ := s
        cases value with
        | text t => simp [restored, Value.restored, named]
        | number n => simp [restored, Value.restored, named, signs.1 n rfl]
      rw [List.zipWith_cons_cons, first, ih same.2 signs.2]

/-- A load after a save, with the settings changed in any way in between, succeeds. It brings
    back every text and every number from zero on, and leaves numbers that were saved below zero
    as they are now. -/
theorem Settings.load_of_save {s : Settings} (now : Settings) (binary : Bool)
    {files saved : FileTree}
    (written : s.save? files = some saved) (plain : ∀ e ∈ s.registered, e.IsPlain)
    (names : (s.registered.map Setting.name).Nodup)
    (same : now.registered.map Setting.declaration = s.registered.map Setting.declaration) :
    let loaded := now.load saved s.basePath binary
    loaded.2.2 = .complete ∧
    loaded.1 = { s with registered := List.zipWith Setting.restored s.registered now.registered } ∧
    ((∀ e ∈ s.registered, ∀ n, e.value = .number n → ¬n < 0) → loaded.1 = s) := by
  have file : saved.read? (s.basePath ++ "/geods.ini") = some (SettingsFile.write s.registered) :=
    FileTree.read?_of_write? written
  dsimp only
  rw [load_eq_of_read? now binary file, SettingsFile.read_write plain names same]
  refine ⟨rfl, rfl, fun signs => ?_⟩
  rw [Setting.zipWith_restored same signs]

/-- A title and a size are saved, then changed, and brought back. -/
theorem Settings.load_of_save_title :
    let saved : Settings := { registered := [⟨"title", .text "a=b"⟩, ⟨"size", .number 64⟩] }
    let now : Settings := { registered := [⟨"title", .text ""⟩, ⟨"size", .number (-1)⟩] }
    ∃ files, saved.save? {} = some files ∧ (now.load files ".").2.2 = .complete ∧
      (now.load files ".").1 = saved := by
  have plain : ∀ e ∈ [(⟨"title", .text "a=b"⟩ : Setting), ⟨"size", .number 64⟩], e.IsPlain := by
    rw [List.forall_mem_cons, List.forall_mem_singleton]
    refine ⟨⟨by simp, fun t h => ?_, by decide⟩, ⟨by simp, nofun, by decide⟩⟩
    cases h
    simp
  have written : ({ registered := [⟨"title", .text "a=b"⟩, ⟨"size", .number 64⟩] } :
      Settings).save? {} = some ⟨[(["geods.ini"], .file "title=a=b\nsize=64\n")]⟩ := by
    decide +kernel
  obtain ⟨complete, -, back⟩ :=
    load_of_save { registered := [⟨"title", .text ""⟩, ⟨"size", .number (-1)⟩] } false written
      plain (by decide) rfl
  exact ⟨_, written, complete, back (by simp)⟩

/-- A color below zero is saved, then changed, and not brought back. -/
theorem Settings.load_of_save_below_zero :
    let saved := ({} : Settings).setNumber "fillColor" (-1)
    let now := ({} : Settings).setNumber "fillColor" 5
    ((saved.save? {}).map fun files => (now.load files ".").2.2) = some .complete ∧
      ((saved.save? {}).map fun files => (now.load files ".").1) = some now ∧ now ≠ saved := by
  decide +kernel

end GeometryEngine
