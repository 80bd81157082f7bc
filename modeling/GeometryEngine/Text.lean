/-!
# Parts of a text

Paths and the lines of a settings file end at a NUL character, if they have one.
Paths are split at slashes, and files at line feeds.
-/

namespace GeometryEngine.Text

/-- The characters before the first NUL. -/
def untilNul (cs : List Char) : List Char := cs.takeWhile (· ≠ '\x00')

/-- The part of a text before its first NUL. -/
def cut (s : String) : String := String.ofList (untilNul s.toList)

theorem untilNul_eq_self {cs : List Char} (h : '\x00' ∉ cs) : untilNul cs = cs := by
  unfold untilNul
  induction cs with
  | nil => rfl
  | cons c cs ih =>
    have hc : c ≠ '\x00' := fun e => h (by simp [e])
    rw [List.takeWhile_cons_of_pos (by simpa using hc), ih fun m => h (by simp [m])]

theorem cut_eq_self {s : String} (h : '\x00' ∉ s.toList) : cut s = s := by
  rw [cut, untilNul_eq_self h, String.ofList_toList]

/-- The parts of a text between the occurrences of a separator. -/
def split (separator : Char) : List Char → List (List Char)
  | [] => [[]]
  | c :: cs =>
    if c = separator then [] :: split separator cs
    else
      match split separator cs with
      | [] => [[c]]
      | part :: parts => (c :: part) :: parts

/-- A text without the separator is a single part. -/
theorem split_of_not_mem {separator : Char} {cs : List Char} (h : separator ∉ cs) :
    split separator cs = [cs] := by
  induction cs with
  | nil => rfl
  | cons c cs ih =>
    rw [List.mem_cons, not_or] at h
    rw [split, if_neg fun e => h.1 e.symm, ih h.2]

/-- The first part ends at the first separator. -/
theorem split_append_cons {separator : Char} {part : List Char} (h : separator ∉ part)
    (rest : List Char) :
    split separator (part ++ separator :: rest) = part :: split separator rest := by
  induction part with
  | nil => rw [List.nil_append, split, if_pos rfl]
  | cons c part ih =>
    rw [List.mem_cons, not_or] at h
    rw [List.cons_append, split, if_neg fun e => h.1 e.symm, ih h.2]

/-- What holds of a text without the separator, and of a part before others, holds of every
    text. -/
theorem split_induction (separator : Char) {P : List Char → Prop}
    (last : ∀ part, separator ∉ part → P part)
    (more : ∀ part rest, separator ∉ part → P rest → P (part ++ separator :: rest))
    (cs : List Char) : P cs := by
  by_cases mem : separator ∈ cs
  · obtain ⟨part, rest, split, first⟩ := List.eq_append_cons_of_mem mem
    rw [split]
    exact more part rest first (split_induction separator last more rest)
  · exact last cs mem
termination_by cs.length
decreasing_by
  rw [split, List.length_append, List.length_cons]
  omega

/-- Behind a separator at the end there is an empty part. -/
theorem split_append_separator (separator : Char) (cs : List Char) :
    split separator (cs ++ [separator]) = split separator cs ++ [[]] := by
  induction cs using split_induction separator with
  | last part h => rw [split_append_cons h, split_of_not_mem h]; rfl
  | more part rest h ih =>
    rw [List.append_assoc, List.cons_append, split_append_cons h, split_append_cons h, ih,
      List.cons_append]

end GeometryEngine.Text
