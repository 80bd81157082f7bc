import GeometryEngine.VertexList

/-!
# The polygons of a whole list

Which polygons the vertices of a list make, told for the whole list at once
(`ListKind.outlines`) and not vertex by vertex. The two agree: with every vertex
the list gains just the polygon that the vertex completes (`outlines_succ`).
-/

namespace GeometryEngine

/-! ### A list at once -/

/-- The polygons of the first `n` vertices of a list whose vertices have the
    numbers from `m` on. -/
def ListKind.outlines (m n : Nat) : ListKind → List Outline
  | .triangles =>
    (List.range (n / 3)).map fun k => .triangle (m + 3 * k) (m + 3 * k + 1) (m + 3 * k + 2)
  | .quads =>
    (List.range (n / 4)).map fun k =>
      .quad (m + 4 * k) (m + 4 * k + 1) (m + 4 * k + 2) (m + 4 * k + 3)
  | .triangleStrip =>
    (List.range (n - 2)).map fun k => .triangle (m + k) (m + k + 1) (m + k + 2)
  | .quadStrip =>
    (List.range (n / 2 - 1)).map fun k =>
      .quad (m + 2 * k) (m + 2 * k + 1) (m + 2 * k + 3) (m + 2 * k + 2)

/-! ### Vertex by vertex -/

namespace VertexList

/-- The list with the vertices that have the `n` numbers from `m` on added. -/
def pushFrom (m : Nat) (l : VertexList) : Nat → VertexList
  | 0 => l
  | n + 1 => (l.pushFrom m n).push (m + n)

variable (m : Nat) (l : VertexList) (n : Nat)

@[simp] theorem kind_pushFrom : (l.pushFrom m n).kind = l.kind := by
  induction n with
  | zero => rfl
  | succ n ih => exact ih

@[simp] theorem length_pushFrom : (l.pushFrom m n).length = l.length + n := by
  induction n with
  | zero => rfl
  | succ n ih =>
    change (l.pushFrom m n).length + 1 = _
    rw [ih, Nat.add_assoc]

@[simp] theorem last_pushFrom_succ : (l.pushFrom m (n + 1)).last = m + n := rfl

@[simp] theorem secondLast_pushFrom : (l.pushFrom m (n + 2)).secondLast = m + n := rfl

@[simp] theorem thirdLast_pushFrom : (l.pushFrom m (n + 3)).thirdLast = m + n := rfl

@[simp] theorem fourthLast_pushFrom : (l.pushFrom m (n + 4)).fourthLast = m + n := rfl

variable {l}

/-- With its last vertex a list gains the polygon that the vertex completes, and no
    other. -/
theorem outlines_succ (h : l.length = 0) :
    l.kind.outlines m (n + 1) =
      l.kind.outlines m n ++ (l.pushFrom m (n + 1)).completed?.toList := by
  have hlen : (l.pushFrom m (n + 1)).length = n + 1 := by rw [length_pushFrom, h]; omega
  cases hk : l.kind <;>
    simp only [ListKind.outlines, completed?, kind_pushFrom, hk, hlen]
  · by_cases hn : (n + 1) % 3 = 0
    · obtain ⟨k, rfl⟩ : ∃ k, n = 3 * k + 2 := ⟨n / 3, by omega⟩
      have h1 : (3 * k + 2 + 1) / 3 = k + 1 := by omega
      have h2 : (3 * k + 2) / 3 = k := by omega
      simp [hn, h1, h2, List.range_succ, Nat.add_assoc]
    · have h1 : (n + 1) / 3 = n / 3 := by omega
      simp [hn, h1]
  · by_cases hn : (n + 1) % 4 = 0
    · obtain ⟨k, rfl⟩ : ∃ k, n = 4 * k + 3 := ⟨n / 4, by omega⟩
      have h1 : (4 * k + 3 + 1) / 4 = k + 1 := by omega
      have h2 : (4 * k + 3) / 4 = k := by omega
      simp [hn, h1, h2, List.range_succ, Nat.add_assoc]
    · have h1 : (n + 1) / 4 = n / 4 := by omega
      simp [hn, h1]
  · by_cases hn : 3 ≤ n + 1
    · obtain ⟨k, rfl⟩ : ∃ k, n = k + 2 := ⟨n - 2, by omega⟩
      have h1 : k + 2 + 1 - 2 = k + 1 := by omega
      simp [h1, List.range_succ, Nat.add_assoc]
    · have h1 : n + 1 - 2 = 0 := by omega
      have h2 : n - 2 = 0 := by omega
      simp [hn, h1, h2]
  · by_cases hn : 4 ≤ n + 1 ∧ (n + 1) % 2 = 0
    · obtain ⟨k, rfl⟩ : ∃ k, n = 2 * k + 3 := ⟨(n - 3) / 2, by omega⟩
      have h1 : (2 * k + 3 + 1) / 2 - 1 = k + 1 := by omega
      have h2 : (2 * k + 3) / 2 - 1 = k := by omega
      have h3 : (2 * k + 3 + 1) % 2 = 0 := by omega
      simp [h1, h2, h3, List.range_succ, Nat.add_assoc]
    · have h1 : (n + 1) / 2 - 1 = n / 2 - 1 := by omega
      simp only [hn, h1, ↓reduceIte, Option.toList_none, List.append_nil]

end VertexList

end GeometryEngine
