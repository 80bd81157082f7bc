import GeometryEngine.Instruction
import GeometryEngine.Outlines
import GeometryEngine.Transcript

/-!
# Vertices and polygons as they are sent

What is sent for a vertex list, told from its outlines: vertices and other commands, and
each polygon right after the last of its vertices (`Command.AreList`). Which list is in
effect, and with which attributes, is told by the instructions that were carried out
before.

The last vertex of a polygon is the one that has completed it
(`VertexList.filter_last_outlines`).
-/

namespace GeometryEngine

/-! ### What was carried out -/

namespace Instruction

/-- Whether an instruction sends a vertex. -/
def isVertex : Instruction → Bool
  | .place .. | .offset .. => true
  | _ => false

/-- Whether vertices are grouped anew after an instruction. -/
def divides : Instruction → Bool
  | .beginList _ | .swapBuffers => true
  | _ => false

/-- The attributes that were set last by instructions, the latest first. -/
def attributesSet : List Instruction → UInt32
  | [] => 0
  | .setAttributes attributes :: _ => attributes
  | _ :: earlier => attributesSet earlier

/-- The kind of the list that was begun last. -/
def kindBegun : List Instruction → ListKind
  | [] => .triangles
  | .beginList kind :: _ => kind
  | _ :: earlier => kindBegun earlier

/-- The attributes that were set when the last list was begun. -/
def attributesLatched : List Instruction → UInt32
  | [] => 0
  | .beginList _ :: earlier => attributesSet earlier
  | _ :: earlier => attributesLatched earlier

end Instruction

/-! ### What is sent -/

/-- The latest of the vertices of an outline. -/
def Outline.last : Outline → Nat
  | .triangle v0 v1 v2 => max (max v0 v1) v2
  | .quad v0 v1 v2 v3 => max (max v0 v1) (max v2 v3)

namespace Command

/-- Whether a command sends a vertex. -/
def isVertex : Command → Bool
  | .vertex .. => true
  | _ => false

/-- Puts polygons in between commands: `polygons v` right after the vertex with the
    number `v`. The first vertex among the commands has the number `first`. -/
def weave (polygons : Nat → List Command) (first : Nat) : List Command → List Command
  | [] => []
  | c :: cs =>
    if c.isVertex then c :: polygons first ++ weave polygons (first + 1) cs
    else c :: weave polygons first cs

/-- Only the polygons of the vertices that there are matter. -/
theorem weave_congr {polygons polygons' : Nat → List Command} {first : Nat} {cs : List Command}
    (h : ∀ k < cs.countP isVertex, polygons (first + k) = polygons' (first + k)) :
    weave polygons first cs = weave polygons' first cs := by
  induction cs generalizing first with
  | nil => rfl
  | cons c cs ih =>
    unfold weave
    by_cases hc : c.isVertex = true
    · rw [List.countP_cons_of_pos hc] at h
      have now := h 0 (Nat.zero_lt_succ _)
      have later : weave polygons (first + 1) cs = weave polygons' (first + 1) cs := by
        refine ih fun k hk => ?_
        rw [Nat.add_assoc, Nat.add_comm 1 k]
        exact h (k + 1) (Nat.succ_lt_succ hk)
      rw [if_pos hc, if_pos hc, later]
      exact congrArg (fun ps => c :: ps ++ _) now
    · rw [List.countP_cons_of_neg hc] at h
      rw [if_neg hc, if_neg hc, ih h]

/-- What is sent with the `n` vertices from the number `m` on, which make a list of a
    certain kind whose polygons have certain attributes. -/
structure AreList (kind : ListKind) (attributes : UInt32) (m n : Nat) (sent : List Command) :
    Prop where
  vertices : sent.countP isVertex = n
  /-- The polygons are those of the whole list, in order. -/
  polygons : sent.filter Transcript.isPolygon =
    (kind.outlines m n).map (Outline.command attributes)
  /-- Each is sent right after its last vertex. -/
  order : sent = weave
    (fun v => ((kind.outlines m n).filter fun o => o.last = v).map (Outline.command attributes)) m
    (sent.filter fun c => !Transcript.isPolygon c)

end Command

/-! ### The last vertices of outlines -/

namespace VertexList

@[simp] theorem attributes_pushFrom (m : Nat) (l : VertexList) (n : Nat) :
    (l.pushFrom m n).attributes = l.attributes := by
  induction n with
  | zero => rfl
  | succ n ih => exact ih

variable {l : VertexList} {m n : Nat}

/-- A polygon that a vertex completes has it as its last one. -/
theorem last_completed (h : l.length = 0) {o : Outline}
    (ho : (l.pushFrom m (n + 1)).completed? = some o) : o.last = m + n := by
  have length : (l.pushFrom m (n + 1)).length = n + 1 := by rw [length_pushFrom, h, Nat.zero_add]
  have last : (l.pushFrom m (n + 1)).last = m + n := rfl
  have second (many : 1 ≤ n) : (l.pushFrom m (n + 1)).secondLast = m + (n - 1) := by
    obtain ⟨n, rfl⟩ := Nat.exists_eq_add_of_le' many
    rfl
  have third (many : 2 ≤ n) : (l.pushFrom m (n + 1)).thirdLast = m + (n - 2) := by
    obtain ⟨n, rfl⟩ := Nat.exists_eq_add_of_le' many
    rfl
  have fourth (many : 3 ≤ n) : (l.pushFrom m (n + 1)).fourthLast = m + (n - 3) := by
    obtain ⟨n, rfl⟩ := Nat.exists_eq_add_of_le' many
    rfl
  unfold completed? at ho
  rw [length] at ho
  -- So many vertices are there that all corners are among the latest of them.
  split at ho <;> split at ho <;> cases ho <;> rename_i complete <;> rw [Outline.last]
  · rw [third (by omega), second (by omega), last]
    omega
  · rw [fourth (by omega), third (by omega), second (by omega), last]
    omega
  · rw [third (by omega), second (by omega), last]
    omega
  · rw [fourth (by omega), third (by omega), second (by omega), last]
    omega

theorem last_lt_of_mem_outlines (h : l.length = 0) {o : Outline}
    (ho : o ∈ l.kind.outlines m n) : o.last < m + n := by
  induction n with
  | zero => cases hk : l.kind <;> simp [hk, ListKind.outlines] at ho
  | succ n ih =>
    rw [outlines_succ m n h] at ho
    rcases List.mem_append.1 ho with ho | ho
    · exact Nat.lt_succ_of_lt (ih ho)
    · rw [last_completed h (Option.mem_toList.1 ho)]
      exact Nat.lt_succ_self _

/-- Of the polygons of a list, those with a certain last vertex are those that this
    vertex has completed. -/
theorem filter_last_outlines (h : l.length = 0) {k : Nat} (hk : k < n) :
    ((l.kind.outlines m n).filter fun o => o.last = m + k) =
      (l.pushFrom m (k + 1)).completed?.toList := by
  induction n with
  | zero => exact absurd hk (Nat.not_lt_zero _)
  | succ n ih =>
    rw [outlines_succ m n h, List.filter_append]
    rcases Nat.lt_succ_iff_lt_or_eq.1 hk with hk | rfl
    · have none :
          ((l.pushFrom m (n + 1)).completed?.toList.filter fun o => o.last = m + k) = [] := by
        refine List.filter_eq_nil_iff.2 fun o ho => ?_
        rw [last_completed h (Option.mem_toList.1 ho)]
        simp only [decide_eq_true_eq]
        omega
      rw [ih hk, none, List.append_nil]
    · have none : ((l.kind.outlines m k).filter fun o => o.last = m + k) = [] := by
        refine List.filter_eq_nil_iff.2 fun o ho => ?_
        have := last_lt_of_mem_outlines h ho
        simp only [decide_eq_true_eq]
        omega
      have all : ((l.pushFrom m (k + 1)).completed?.toList.filter fun o => o.last = m + k) =
          (l.pushFrom m (k + 1)).completed?.toList := by
        refine List.filter_eq_self.2 fun o ho => ?_
        simpa using last_completed h (Option.mem_toList.1 ho)
      rw [none, all, List.nil_append]

end VertexList

end GeometryEngine
