import GeometryEngine.SaveState

/-!
# Save states are exact

Writing and reading a save state are inverse to each other. A slot *fits* if it
holds no more than it has room for and its triangles have their corners among its
vertices (`Slot.Fits`); these are the slots that a reader accepts.

* `Exact`: a record is read from the front of a sequence of words if and only if
  the sequence begins with the words of the record. This holds of vertices and of
  triangles, and is all that the rest needs to know of them.
* `Slot.load_eq_iff`, `Frames.load_eq_iff`, `parse?_eq_some_iff`: the same of a
  slot, of both slots and of a whole save state, if they fit.
* `Engine.load_save_codec`: what is saved is restored, what is accepted begins
  with a save state of what is installed, so that nothing that was cut short is
  accepted, and a state that is not accepted leaves empty frames behind.
-/

namespace GeometryEngine

/-! ### Bytes and words -/

namespace Words

theorem length_encode (ws : List UInt32) : (encode ws).length = 4 * ws.length := by
  induction ws with
  | nil => rfl
  | cons w ws ih =>
    rw [encode, List.flatMap_cons, ← encode, List.length_append, ih, List.length_cons]
    simp only [bytes, List.length_cons, List.length_nil]
    omega

/-- The words that are read, written again, are what they were read from, less the
    bytes that are left over. -/
theorem encode_decode_prefix : ∀ bs : List UInt8, encode (decode bs) <+: bs
  | a :: b :: c :: d :: bs => by
    obtain ⟨rest, hrest⟩ := encode_decode_prefix bs
    refine ⟨rest, ?_⟩
    rw [decode_cons, encode, List.flatMap_cons, ← encode, bytes_ofBytes, List.append_assoc, hrest]
    rfl
  | [] | [_] | [_, _] | [_, _, _] => List.nil_prefix

/-- Bytes begin with those of some words if and only if these words are read
    first. -/
theorem encode_prefix_iff (ws : List UInt32) (bs : List UInt8) :
    encode ws <+: bs ↔ ws <+: decode bs := by
  constructor
  · rintro ⟨rest, rfl⟩
    exact ⟨decode rest, (decode_encode_append ws rest).symm⟩
  · rintro ⟨rest, h⟩
    obtain ⟨left, hleft⟩ := encode_decode_prefix bs
    refine ⟨encode rest ++ left, ?_⟩
    rw [← List.append_assoc, ← encode_append, h, hleft]

/-- Four words at the front of some bytes are their first 16 bytes. -/
theorem decode_take_eq_iff {bs : List UInt8} {ws : List UInt32} (h : ws.length = 4) :
    decode (bs.take 16) = ws ↔ bs = encode ws ++ bs.drop 16 := by
  have length : (encode ws).length = 16 := by rw [length_encode, h]
  constructor
  · intro hd
    have front : encode ws <+: bs.take 16 := hd ▸ encode_decode_prefix _
    have whole : encode ws = bs.take 16 := by
      refine front.eq_of_length_le ?_
      rw [length]
      exact List.length_take_le _ _
    rw [whole, List.take_append_drop]
  · intro hb
    have front : bs.take 16 = encode ws := by
      rw [hb, List.take_append_of_le_length (by omega), ← length, List.take_length]
    have := decode_encode_append ws []
    rw [List.append_nil] at this
    rw [front, this, decode_short (by decide), List.append_nil]

end Words

/-! ### Records -/

namespace SaveState

/-- A record is read if and only if its words come first, and then exactly its
    words are used up. -/
def Exact {α : Type} (words : α → List UInt32) (read? : List UInt32 → Option (α × List UInt32)) :
    Prop :=
  ∀ ws a rest, read? ws = some (a, rest) ↔ ws = words a ++ rest

theorem exact_vertex : Exact Vertex.words Vertex.read? := by
  intro ws v rest
  constructor
  · intro h
    unfold Vertex.read? at h
    split at h
    · cases h
      simp [Vertex.words]
    · cases h
  · rintro rfl
    simp [Vertex.words, Vertex.read?]

theorem exact_triangle : Exact Triangle.words Triangle.read? := by
  intro ws t rest
  constructor
  · intro h
    unfold Triangle.read? at h
    split at h
    · cases h
      simp [Triangle.words]
    · cases h
  · rintro rfl
    simp [Triangle.words, Triangle.read?]

variable {α : Type} {words : α → List UInt32} {read? : List UInt32 → Option (α × List UInt32)}

/-- Records are read back as they were written. -/
theorem readUpTo_flatMap (exact : Exact words read?) (as : List α) (ws : List UInt32) :
    readUpTo read? as.length (as.flatMap words ++ ws) = (as, ws) := by
  induction as with
  | nil => rfl
  | cons a as ih =>
    have first : read? (words a ++ (as.flatMap words ++ ws)) = some (a, as.flatMap words ++ ws) :=
      (exact _ _ _).2 rfl
    rw [List.flatMap_cons, List.append_assoc, List.length_cons, readUpTo, first]
    simp only [ih]

theorem length_readUpTo_le (read? : List UInt32 → Option (α × List UInt32)) (n : Nat)
    (ws : List UInt32) : (readUpTo read? n ws).1.length ≤ n := by
  induction n generalizing ws with
  | zero => exact Nat.le_refl 0
  | succ n ih =>
    rw [readUpTo]
    split
    · exact Nat.zero_le _
    · exact Nat.succ_le_succ (ih _)

/-- The records that were read use up exactly their words. -/
theorem eq_of_readUpTo (exact : Exact words read?) {n : Nat} {ws rest : List UInt32}
    {as : List α} (h : readUpTo read? n ws = (as, rest)) : ws = as.flatMap words ++ rest := by
  induction n generalizing ws as rest with
  | zero => cases h; rfl
  | succ n ih =>
    rw [readUpTo] at h
    split at h
    · cases h; rfl
    · rename_i a ws' hread
      cases h
      rw [(exact _ _ _).1 hread, List.flatMap_cons, List.append_assoc, ← ih rfl]

/-- Reading either falls short of the number of records that was wanted, or it was
    written what was read. -/
theorem exists_readUpTo (exact : Exact words read?) (n : Nat) (ws : List UInt32) :
    ∃ as rest, readUpTo read? n ws = (as, rest) ∧
      (as.length < n ∨ as.length = n ∧ ws = as.flatMap words ++ rest) := by
  refine ⟨_, _, rfl, ?_⟩
  have := length_readUpTo_le read? n ws
  by_cases all : (readUpTo read? n ws).1.length = n
  · exact .inr ⟨all, eq_of_readUpTo exact rfl⟩
  · exact .inl (by omega)

/-- If all records were read, nothing that was there before is left. -/
theorem refill_of_length [Inhabited α] (old : Array α) {n : Nat} {as : List α}
    (h : as.length = n) : refill old n as = as.toArray := by
  rw [refill, List.drop_eq_nil_of_le, List.append_nil]
  rw [h]
  exact List.length_take_le _ _

end SaveState

open SaveState

/-! ### Slots -/

/-- A slot with no more than it has room for, whose triangles have their corners
    among its vertices. -/
structure Slot.Fits (s : Slot) : Prop where
  vertices : s.vertices.size ≤ Slot.capacity
  triangles : s.triangles.size ≤ Slot.capacity
  resolved : ∀ t ∈ s.triangles, s.resolvesTriangle t = true

/-- Frames both slots of which fit. -/
structure Frames.Fits (f : Frames) : Prop where
  even : f.even.Fits
  odd : f.odd.Fits

namespace Slot

theorem toNat_count {n : Nat} (h : n ≤ capacity) : (UInt32.ofNat n).toNat = n := by
  rw [UInt32.toNat_ofNat']
  have : capacity = 4096 := rfl
  omega

/-- Triangles are accepted if and only if their number and their words come first
    and the slot with them fits. -/
theorem loadTriangles_eq_iff (s s' : Slot) (hs : s.vertices.size ≤ capacity)
    (ws rest : List UInt32) :
    s.loadTriangles ws = (s', some rest) ↔
      s'.vertices = s.vertices ∧ s'.Fits ∧
        ws = UInt32.ofNat s'.triangles.size :: s'.triangles.toList.flatMap Triangle.words ++
          rest := by
  constructor
  · intro h
    unfold loadTriangles at h
    split at h
    · cases h
    split at h
    · cases h
    rename_i count ws hcount
    obtain ⟨ts, left, hread, short | ⟨all, rfl⟩⟩ := exists_readUpTo exact_triangle count.toNat ws
    · -- Too few triangles are not accepted.
      simp [hread, short] at h
    simp only [hread, all, Nat.lt_irrefl, ↓reduceIte] at h
    rw [refill_of_length _ all] at h
    split at h
    · rename_i hres
      cases h
      refine ⟨rfl, ⟨hs, ?_, ?_⟩, ?_⟩
      · simp only [List.size_toArray]
        omega
      · exact Array.all_eq_true_iff_forall_mem.1 hres
      · simp [all]
    · cases h
  · rintro ⟨hv, fits, rfl⟩
    have count := toNat_count fits.triangles
    have same : ({ s with triangles := s'.triangles } : Slot) = s' := by
      rw [← hv]
    rw [List.cons_append, loadTriangles, if_neg (by rw [count]; exact Nat.not_lt.2 fits.triangles),
      count, ← Array.length_toList, readUpTo_flatMap exact_triangle]
    simp only [refill_of_length, Array.toArray_toList, Nat.lt_irrefl, ↓reduceIte, same]
    rw [if_pos (Array.all_eq_true_iff_forall_mem.2 fits.resolved)]

/-- A slot is accepted if and only if its words come first and it fits. -/
theorem load_eq_iff (old s : Slot) (ws rest : List UInt32) :
    old.load ws = (s, some rest) ↔ s.Fits ∧ ws = s.words ++ rest := by
  constructor
  · intro h
    unfold load at h
    split at h
    · cases h
    split at h
    · cases h
    rename_i count ws hcount
    obtain ⟨vs, left, hread, short | ⟨all, rfl⟩⟩ := exists_readUpTo exact_vertex count.toNat ws
    · simp [hread, short] at h
    simp only [hread, all, Nat.lt_irrefl, ↓reduceIte] at h
    rw [refill_of_length _ all, loadTriangles_eq_iff _ _ (by simp only [List.size_toArray]; omega)]
      at h
    obtain ⟨hv, fits, rfl⟩ := h
    refine ⟨fits, ?_⟩
    simp [words, hv, all]
  · rintro ⟨fits, rfl⟩
    have count := toNat_count fits.vertices
    rw [words, List.append_assoc, List.cons_append, load,
      if_neg (by rw [count]; exact Nat.not_lt.2 fits.vertices), count, ← Array.length_toList,
      readUpTo_flatMap exact_vertex]
    simp only [refill_of_length, Array.toArray_toList, Nat.lt_irrefl, ↓reduceIte]
    exact (loadTriangles_eq_iff { old with vertices := s.vertices } s fits.vertices _ rest).2
      ⟨rfl, fits, rfl⟩

end Slot

/-! ### Frames -/

namespace Frames

theorem loadSlots_eq_iff (f g : Frames) (ws : List UInt32) :
    f.loadSlots ws = (g, true) ↔
      g.Fits ∧ g.counter = f.counter ∧ g.even.words ++ g.odd.words <+: ws := by
  constructor
  · intro h
    unfold loadSlots at h
    split at h
    · cases h
    rename_i even ws' heven
    split at h
    · cases h
    rename_i odd rest hodd
    cases h
    obtain ⟨feven, rfl⟩ := (Slot.load_eq_iff _ _ _ _).1 heven
    obtain ⟨fodd, rfl⟩ := (Slot.load_eq_iff _ _ _ _).1 hodd
    exact ⟨⟨feven, fodd⟩, rfl, rest, List.append_assoc _ _ _⟩
  · rintro ⟨fits, hc, rest, rfl⟩
    have heven := (Slot.load_eq_iff f.even g.even _ (g.odd.words ++ rest)).2 ⟨fits.even, rfl⟩
    have hodd := (Slot.load_eq_iff f.odd g.odd _ rest).2 ⟨fits.odd, rfl⟩
    simp only [loadSlots, List.append_assoc, heven, hodd, ← hc]

/-- Frames are accepted if and only if their bytes come first and both slots
    fit. -/
theorem load_eq_iff (f g : Frames) (bs : List UInt8) :
    f.load bs = (g, true) ↔ g.Fits ∧ g.save <+: bs := by
  have split_save : ∀ bs, g.save <+: bs ↔ g.counter :: (g.even.words ++ g.odd.words) <+:
      Words.decode bs := fun bs => Words.encode_prefix_iff _ _
  match bs with
  | a :: b :: c :: d :: bs =>
    rw [load, loadSlots_eq_iff, split_save, Words.decode_cons, List.cons_prefix_cons]
  | [] | [_] | [_, _] | [_, _, _] =>
    rw [split_save, Words.decode_short (by simp), List.prefix_nil]
    simp [load]

end Frames

/-! ### Engines -/

namespace SaveState

/-- A save state is accepted if and only if its bytes come first and both slots
    fit. -/
theorem parse?_eq_some_iff (f g : Frames) (view : Viewport) (bs : List UInt8) :
    parse? f bs = some (view, g) ↔ g.Fits ∧ Words.encode (view.words ++ g.words) <+: bs := by
  have four (v : Viewport) : v.words.length = 4 := rfl
  rw [Words.encode_append]
  constructor
  · intro h
    unfold parse? at h
    split at h
    · rename_i left top right bottom hview
      split at h
      · rename_i frames hframes
        cases h
        obtain ⟨fits, rest, hrest⟩ := (Frames.load_eq_iff _ _ _).1 hframes
        refine ⟨fits, rest, ?_⟩
        rw [(Words.decode_take_eq_iff (by rfl)).1 hview, ← hrest, Frames.save, List.append_assoc]
        rfl
      · cases h
    · cases h
  · -- The viewport takes the first 16 bytes, whatever it is.
    rintro ⟨fits, rest, rfl⟩
    have length : (Words.encode view.words).length = 16 := by
      rw [Words.length_encode, four]
    have behind : (Words.encode view.words ++ Words.encode g.words ++ rest).drop 16 =
        Words.encode g.words ++ rest := by
      rw [List.append_assoc, ← length, List.drop_left]
    have hview := (Words.decode_take_eq_iff (four view)).2
      (show Words.encode view.words ++ Words.encode g.words ++ rest = Words.encode view.words ++ _
        by rw [behind, List.append_assoc])
    have hframes : f.load (Words.encode g.words ++ rest) = (g, true) :=
      (Frames.load_eq_iff f g _).2 ⟨fits, rest, rfl⟩
    rw [parse?, hview, behind, hframes]
    rfl

end SaveState

namespace Engine

/-- A save state is accepted by every engine, and then its viewport and its frames
    are those that were saved; nothing else is accepted. -/
theorem load_eq_iff (e e' : Engine) (bs : List UInt8) :
    e'.load bs = ({ e' with viewport := e.viewport, frames := e.frames }, true) ↔
      e.frames.Fits ∧ e.save <+: bs := by
  rw [save, ← parse?_eq_some_iff e'.frames]
  rw [load]
  constructor
  · intro h
    split at h
    · rename_i view frames hparse
      simp only [Prod.mk.injEq, Engine.mk.injEq, and_true] at h
      rw [hparse, h.1, h.2]
    · simp at h
  · intro h
    rw [h]

/-- What was accepted is installed, or nothing is. -/
theorem load_cases (e : Engine) (bs : List UInt8) :
    (∃ view frames, e.load bs = ({ e with viewport := view, frames }, true)) ∨
      e.load bs = ({ e with frames := {} }, false) := by
  rw [load]
  split
  · exact .inl ⟨_, _, rfl⟩
  · exact .inr rfl

/-- Save states are an exact codec.

    What was saved is restored, whatever follows it. What is accepted begins with
    the save state of what is then installed, so a save state that was cut short
    is not accepted. A state that is not accepted leaves the viewport alone and
    both slots empty. -/
theorem load_save_codec :
    (∀ (e e' : Engine) (bs : List UInt8), e.frames.Fits →
      e'.load (e.save ++ bs) = ({ e' with viewport := e.viewport, frames := e.frames }, true)) ∧
    (∀ (e : Engine) (bs : List UInt8), (e.load bs).2 = true → (e.load bs).1.save <+: bs) ∧
    (∀ (e e' : Engine) (bs : List UInt8), e.frames.Fits → bs <+: e.save → bs ≠ e.save →
      (e'.load bs).2 = false) ∧
    ∀ (e : Engine) (bs : List UInt8), (e.load bs).2 = false →
      (e.load bs).1 = { e with frames := {} } := by
  have restored (e e' : Engine) (bs : List UInt8) (fits : e.frames.Fits) :
      e'.load (e.save ++ bs) = ({ e' with viewport := e.viewport, frames := e.frames }, true) :=
    (load_eq_iff e e' _).2 ⟨fits, List.prefix_append _ _⟩
  refine ⟨restored, fun e bs h => ?_, fun e e' bs fits cut proper => ?_, fun e bs h => ?_⟩
  · obtain ⟨view, frames, hload⟩ | hload := e.load_cases bs
    · rw [hload]
      exact ((load_eq_iff { e with viewport := view, frames } e bs).1 hload).2
    · rw [hload] at h
      cases h
  · obtain ⟨view, frames, hload⟩ | hload := e'.load_cases bs
    · -- What was accepted is saved as a part of what was cut short, so both are
      -- read from the whole save state, and are equal.
      obtain ⟨fits', shorter⟩ :=
        (load_eq_iff { e' with viewport := view, frames } e' bs).1 hload
      have hload' := (load_eq_iff { e' with viewport := view, frames } e' e.save).2
        ⟨fits', shorter.trans cut⟩
      have whole := restored e e' [] fits
      rw [List.append_nil, hload'] at whole
      simp only [Prod.mk.injEq, Engine.mk.injEq, and_true] at whole
      have same : ({ e' with viewport := view, frames } : Engine).save = e.save := by
        rw [save, save, whole.1, whole.2]
      rw [same] at shorter
      exact absurd (cut.eq_of_length_le shorter.length_le) proper
    · rw [hload]
  · obtain ⟨view, frames, hload⟩ | hload := e.load_cases bs
    · rw [hload] at h
      cases h
    · rw [hload]

/-- An engine that has shown a triangle: its save state is restored before other
    bytes, and refused without its last byte. -/
theorem load_save_codec_triangle :
    let s : Slot := { vertices := #[.ofClip 0 0 0 1, .ofClip 0 1 0 1, .ofClip 1 0 0 1]
                      triangles := #[{ v0 := 0, v1 := 1, v2 := 2 }] }
    let e : Engine := { viewport := ⟨0, 0, 99, 99⟩, frames := { counter := 1, even := s } }
    ({} : Engine).load (e.save ++ [1, 2, 3]) = (e, true) ∧
      (({} : Engine).load e.save.dropLast).2 = false := by
  intro s e
  have fits : e.frames.Fits :=
    ⟨⟨by decide, by decide, by decide⟩, ⟨by decide, by decide, by decide⟩⟩
  have shorter : e.save.dropLast ≠ e.save := by
    intro h
    have := congrArg List.length h
    rw [List.length_dropLast, save, Words.length_encode, List.length_append,
      show e.viewport.words.length = 4 from rfl] at this
    omega
  exact ⟨load_save_codec.1 e {} [1, 2, 3] fits,
    load_save_codec.2.2.1 e {} e.save.dropLast fits (List.dropLast_prefix _) shorter⟩

end Engine

end GeometryEngine
