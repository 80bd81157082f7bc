import GeometryEngine.FileTree

/-!
# Files that are read again

* `FileTree.read?_of_write?`: what was written to a file is read from it;
* `FileTree.read?_of_makeDirectory?`: a file is read as before after a directory was made.

Both only put something where no directory was. So the directories that a path leads through
are still there (`FileTree.Extends`), and it leads to the location that it led to before.
-/

namespace GeometryEngine.FileTree

variable {t t' : FileTree} {path : String}

theorem lookup_filter_ne {k l : Location} (other : k ≠ l) (nodes : List (Location × Node)) :
    (nodes.filter fun e => e.1 ≠ l).lookup k = nodes.lookup k := by
  induction nodes with
  | nil => rfl
  | cons e nodes ih =>
    by_cases here : e.1 = l
    · rw [List.filter_cons_of_neg (by simpa using here), ih, List.lookup_cons,
        beq_eq_false_iff_ne.2 (here ▸ other)]
    · rw [List.filter_cons_of_pos (by simpa using here), List.lookup_cons, List.lookup_cons, ih]

theorem node?_put (t : FileTree) {l : Location} (h : l ≠ []) (n : Node) (k : Location) :
    (t.put l n).node? k = if k = l then some n else t.node? k := by
  unfold node? put
  by_cases root : k = []
  · simp [root, h.symm]
  rw [if_neg root, if_neg root, List.lookup_cons]
  by_cases same : k = l
  · simp [same]
  · rw [if_neg same, beq_eq_false_iff_ne.2 same, lookup_filter_ne same]

/-! ### Paths in a tree with more in it -/

/-- A tree has the directories of another one. -/
def Extends (t t' : FileTree) : Prop :=
  ∀ l, t.node? l = some .directory → t'.node? l = some .directory

theorem extends_put {l : Location} (h : t.node? l ≠ some .directory) (n : Node) :
    t.Extends (t.put l n) := by
  intro k directory
  have root : l ≠ [] := by
    rintro rfl
    exact h rfl
  have other : k ≠ l := by
    rintro rfl
    exact h directory
  rw [node?_put t root, if_neg other, directory]

theorem Extends.step_eq (h : t.Extends t') {l k : Location} {name : String}
    (located : t.step l name = some k) : t'.step l name = some k := by
  unfold step at located ⊢
  split at located
  · rename_i directory
    rwa [h l directory]
  · exact nomatch located

theorem Extends.locate_eq (h : t.Extends t') {path : List Char} {l : Location}
    (located : t.locate path = some l) : t'.locate path = some l := by
  unfold locate at located ⊢
  split at located
  · exact nomatch located
  rename_i relative
  rw [if_neg relative]
  generalize (Text.split '/' path).map String.ofList = names, ([] : Location) = start at located ⊢
  induction names generalizing start with
  | nil => exact located
  | cons name names ih =>
    rw [List.foldlM_cons, Option.bind_eq_bind, Option.bind_eq_some_iff] at located ⊢
    obtain ⟨k, first, rest⟩ := located
    exact ⟨k, h.step_eq first, ih k rest⟩

/-! ### Reading -/

/-- The path leads to a file with the text, or to a directory, which has none. -/
theorem read?_eq_some_iff {text : String} :
    t.read? path = some text ↔
      ∃ chars l, path? path = some chars ∧ t.locate chars = some l ∧
        (t.node? l = some (.file text) ∨ t.node? l = some .directory ∧ text = "") := by
  unfold read?
  constructor
  · intro read
    cases found : ((path? path).bind t.locate).bind t.node? with
    | none => simp [found] at read
    | some node =>
      obtain ⟨l, located, there⟩ := Option.bind_eq_some_iff.1 found
      obtain ⟨chars, named, located⟩ := Option.bind_eq_some_iff.1 located
      refine ⟨chars, l, named, located, ?_⟩
      cases node <;> simp_all
  · rintro ⟨chars, l, named, located, there | ⟨there, rfl⟩⟩ <;>
      simp [named, located, there]

/-- What was written to a file is read from it. -/
theorem read?_of_write? {text : String} (written : t.write? path text = some t') :
    t'.read? path = some text := by
  unfold write? at written
  split at written
  · exact nomatch written
  rename_i l located
  obtain ⟨chars, named, located⟩ := Option.bind_eq_some_iff.1 located
  split at written
  · exact nomatch written
  rename_i noDirectory
  cases written
  have root : l ≠ [] := by
    rintro rfl
    exact noDirectory rfl
  refine read?_eq_some_iff.2
    ⟨chars, l, named, (extends_put noDirectory _).locate_eq located, .inl ?_⟩
  rw [node?_put t root, if_pos rfl]

/-- A file is read as before after a directory was made. -/
theorem read?_of_makeDirectory? {directory text : String}
    (made : t.makeDirectory? directory = some t') (read : t.read? path = some text) :
    t'.read? path = some text := by
  obtain ⟨chars, l, named, located, node⟩ := read?_eq_some_iff.1 read
  unfold makeDirectory? at made
  split at made
  · exact nomatch made
  rename_i new _
  split at made
  · exact nomatch made
  rename_i free
  cases made
  have root : new ≠ [] := by
    rintro rfl
    exact nomatch free
  have other : l ≠ new := by
    rintro rfl
    simp [free] at node
  refine read?_eq_some_iff.2
    ⟨chars, l, named, (extends_put (by simp [free]) _).locate_eq located, ?_⟩
  rwa [node?_put t root, if_neg other]

end GeometryEngine.FileTree
