import GeometryEngine.Assembly
import GeometryEngine.Proofs.Accepted
import GeometryEngine.Proofs.InStep

/-!
# The polygons of a vertex list

The front-end groups vertices as they come: it remembers the latest four of them and
how many there are, and sends a polygon with the vertex that completes it. Whatever else
is written in between, the polygons of a list are those that its vertices make when they
are looked at all at once (`ListKind.outlines`).

* `Registers.InBudget.execute`: there is always room for the triangles of a vertex that
  has found room, so no polygon is left out;
* `Registers.Remembers.execute`: the list in effect is told by what was carried out
  before, and so are its attributes, which were fixed when it was begun;
* `Registers.Amid.executeAll`: until another list or frame is begun, vertices and
  polygons are sent as the outlines tell, each polygon right after its last vertex;
* `FrontEnd.polygons_of_list`: so it is for all that is written to a new front-end, if
  its receiver accepts everything.
-/

namespace GeometryEngine

namespace Registers

/-! ### Room for triangles -/

/-- The front-end has not sent more than a frame has room for, and of triangles even two
    less than of vertices, or fewer still. -/
structure InBudget (r : Registers) : Prop where
  room : r.vertices ≤ frameLimit
  listed : r.list.length ≤ r.vertices
  /-- The current list has made some of the triangles, and the vertices of earlier lists
      have made the others. -/
  budget : r.triangles ≤ r.vertices - r.list.length - 2 + r.made

namespace InBudget

variable {r : Registers}

theorem congr {r' : Registers} (h : r.InBudget) (list : r'.list = r.list)
    (vertices : r'.vertices = r.vertices) (triangles : r'.triangles = r.triangles) :
    r'.InBudget where
  room := vertices ▸ h.room
  listed := by rw [list, vertices]; exact h.listed
  budget := by rw [made, list, vertices, triangles]; exact h.budget

theorem triangles_le (h : r.InBudget) : r.triangles ≤ r.vertices - 2 :=
  triangles_le_of_budget h.listed h.budget

/-- A list that was begun has made no triangles. -/
theorem restart (h : r.InBudget) (kind : ListKind) :
    InBudget { r with list := r.list.restart kind r.attributes } where
  room := h.room
  listed := Nat.zero_le _
  budget := by
    rw [made, VertexList.restart, ListKind.triangleCount_zero]
    exact h.triangles_le

theorem beginFrame (r : Registers) : r.beginFrame.InBudget where
  room := Nat.zero_le _
  listed := Nat.le_refl _
  budget := Nat.zero_le _

/-- The polygon that a vertex completes finds room, and is sent right after it. -/
theorem sendCompleted (h : r.InBudget) (few : r.vertices < frameLimit) (t : Transcript) :
    let polygons := (r.list.push r.vertices).completed?.toList
    ∃ triangles, InBudget { r.countVertex with triangles } ∧
      r.countVertex.sendCompleted t = ⟨{ r.countVertex with triangles },
        ⟨t.commands ++ polygons.map (Outline.command r.list.attributes)⟩, none⟩ := by
  have gained := r.list.triangleCount_push r.vertices
  have most := r.list.kind.triangleCount_le (r.list.length + 1)
  have budget := h.budget
  have listed := h.listed
  rw [made] at budget
  have counted (triangles : Nat) (all : triangles = r.triangles +
      ((r.list.push r.vertices).completed?.map Outline.triangles).getD 0) :
      InBudget { r.countVertex with triangles } := by
    refine ⟨few, Nat.succ_le_succ listed, ?_⟩
    change triangles ≤ r.vertices + 1 - (r.list.length + 1) - 2 +
      r.list.kind.triangleCount (r.list.length + 1)
    omega
  refine ⟨_, counted _ rfl, ?_⟩
  have same : r.countVertex.list = r.list.push r.vertices := rfl
  rw [Registers.sendCompleted, same]
  cases hc : (r.list.push r.vertices).completed? with
  | none => simp [countVertex]
  | some o =>
    have fits : r.countVertex.triangles + o.triangles ≤ frameLimit := by
      rw [hc] at gained
      simp only [Option.map_some, Option.getD_some] at gained
      change r.triangles + o.triangles ≤ frameLimit
      omega
    simp only [sendPolygon, if_neg (Nat.not_lt.2 fits), Transcript.submit_eq]
    rfl

end InBudget

/-! ### Single instructions -/

/-- The commands for the polygon that the last vertex of a list completes. -/
def completing (l : VertexList) : List Command :=
  l.completed?.toList.map (Outline.command l.attributes)

/-- What becomes of a vertex: there is no room for it, or it is sent, and the polygon
    that it completes right after it. -/
def SendsVertex (r : Registers) (t : Transcript) (o : Outcome Registers Transcript) : Prop :=
  frameLimit ≤ r.vertices ∧ o.state.list = r.list ∧ o.state.vertices = r.vertices ∧ o.sink = t ∨
    r.vertices < frameLimit ∧ o.state.list = r.list.push r.vertices ∧
      o.state.vertices = r.vertices + 1 ∧
      ∃ v : Command, v.isVertex = true ∧
        o.sink.commands = t.commands ++ v :: completing (r.list.push r.vertices)

variable {r : Registers}

theorem InBudget.sendVertex (h : r.InBudget) (t : Transcript) :
    let o := r.sendVertex t
    o.state.InBudget ∧ o.state.attributes = r.attributes ∧ SendsVertex r t o := by
  rw [Registers.sendVertex]
  by_cases full : frameLimit ≤ r.vertices
  · rw [if_pos full]
    exact ⟨h, rfl, .inl ⟨full, rfl, rfl, rfl⟩⟩
  · have few := Nat.lt_of_not_le full
    have refreshed : (r.mapMatrices .refresh).InBudget := h.congr rfl rfl rfl
    simp only [if_neg full, Transcript.submit_eq]
    obtain ⟨triangles, counted, sent⟩ := refreshed.sendCompleted few
      ⟨t.commands ++ [(r.mapMatrices .refresh).vertexCommand]⟩
    rw [sent]
    have vertex : (r.mapMatrices .refresh).vertexCommand.isVertex = true := rfl
    exact ⟨counted, rfl, .inr ⟨few, rfl, rfl, _, vertex, List.append_assoc ..⟩⟩

theorem InBudget.execute_vertex (h : r.InBudget) {i : Instruction} (vertex : i.isVertex = true)
    (t : Transcript) :
    let o := r.execute t i
    o.state.InBudget ∧ o.state.attributes = r.attributes ∧ SendsVertex r t o := by
  cases i with
  | place x y z => exact sendVertex (r := r.moveTo x y z) (h.congr rfl rfl rfl) t
  | offset dx dy dz => exact sendVertex (r := r.moveBy dx dy dz) (h.congr rfl rfl rfl) t
  | _ => cases vertex

/-- An instruction without a vertex that does not group vertices anew sends no vertex
    and no polygon. -/
theorem execute_other {i : Instruction} (other : i.isVertex = false) (undivided : i.divides = false)
    (t : Transcript) :
    let o := r.execute t i
    o.state.list = r.list ∧ o.state.vertices = r.vertices ∧ o.state.triangles = r.triangles ∧
      ∃ cs, o.sink.commands = t.commands ++ cs ∧
        ∀ c ∈ cs, c.isVertex = false ∧ Transcript.isPolygon c = false := by
  cases i with
  | place x y z => cases other
  | offset dx dy dz => cases other
  | beginList kind => cases undivided
  | swapBuffers => cases undivided
  | setViewport view =>
    exact ⟨rfl, rfl, rfl, [.viewport view], rfl, by simp [Command.isVertex, Transcript.isPolygon]⟩
  | _ => exact ⟨rfl, rfl, rfl, [], (List.append_nil _).symm, nofun⟩

/-- Every instruction leaves room for the triangles of the vertices that find room. -/
theorem InBudget.execute (h : r.InBudget) (t : Transcript) (i : Instruction) :
    (r.execute t i).state.InBudget := by
  by_cases vertex : i.isVertex = true
  · exact (h.execute_vertex vertex t).1
  · cases i with
    | beginList kind => exact h.restart kind
    | swapBuffers => exact beginFrame r
    | place | offset => exact absurd rfl vertex
    | _ => exact h.congr rfl rfl rfl

/-! ### Which list is in effect -/

/-- The registers after instructions, the latest first, on a new front-end. -/
structure Remembers (history : List Instruction) (r : Registers) : Prop where
  inBudget : r.InBudget
  attributes : r.attributes = Instruction.attributesSet history
  kind : r.list.kind = Instruction.kindBegun history
  latched : r.list.attributes = Instruction.attributesLatched history

theorem remembers_fresh : Remembers [] {} where
  inBudget := ⟨Nat.zero_le _, Nat.le_refl _, Nat.le_refl _⟩
  attributes := rfl
  kind := rfl
  latched := rfl

/-- Vertices leave the list in effect as it is. -/
theorem Remembers.execute_vertex {history : List Instruction} (h : Remembers history r)
    {i : Instruction} (vertex : i.isVertex = true) (t : Transcript) :
    Remembers history (r.execute t i).state := by
  obtain ⟨inBudget, attributes, sent⟩ := h.inBudget.execute_vertex vertex t
  have list : (r.execute t i).state.list.kind = r.list.kind ∧
      (r.execute t i).state.list.attributes = r.list.attributes := by
    rcases sent with ⟨-, list, -⟩ | ⟨-, list, -⟩ <;> rw [list] <;> exact ⟨rfl, rfl⟩
  exact ⟨inBudget, attributes.trans h.attributes, list.1.trans h.kind, list.2.trans h.latched⟩

theorem Remembers.execute {history : List Instruction} (h : Remembers history r) (t : Transcript)
    (i : Instruction) : Remembers (i :: history) (r.execute t i).state := by
  have inBudget := h.inBudget.execute t i
  cases i with
  | place x y z =>
    obtain ⟨-, attributes, kind, latched⟩ := h.execute_vertex (i := .place x y z) rfl t
    exact ⟨inBudget, attributes, kind, latched⟩
  | offset dx dy dz =>
    obtain ⟨-, attributes, kind, latched⟩ := h.execute_vertex (i := .offset dx dy dz) rfl t
    exact ⟨inBudget, attributes, kind, latched⟩
  | setAttributes attributes => exact ⟨inBudget, rfl, h.kind, h.latched⟩
  | beginList kind => exact ⟨inBudget, h.attributes, rfl, h.attributes⟩
  | _ => exact ⟨inBudget, h.attributes, h.kind, h.latched⟩

theorem Remembers.executeAll {history : List Instruction} (h : Remembers history r)
    (t : Transcript) (is : List Instruction) :
    Remembers (is.reverse ++ history) (r.executeAll t is).state := by
  induction is generalizing history r t with
  | nil => exact h
  | cons i is ih =>
    rw [executeAll_cons, List.reverse_cons, List.append_assoc]
    exact ih (h.execute t i) _

/-! ### Amid a list -/

/-- To the list `l`, `k` vertices were added, which have the numbers from `m` on. -/
structure Amid (m : Nat) (l : VertexList) (k : Nat) (r : Registers) : Prop where
  inBudget : r.InBudget
  vertices : r.vertices = m + k
  list : r.list = l.pushFrom m k

/-- The commands for the polygon that is complete with the vertex `v` of a list whose
    first vertex is `m`. -/
def completedAt (m : Nat) (l : VertexList) (v : Nat) : List Command :=
  completing (l.pushFrom m (v - m + 1))

theorem completedAt_eq (m : Nat) (l : VertexList) (k : Nat) :
    completedAt m l (m + k) =
      (l.pushFrom m (k + 1)).completed?.toList.map (Outline.command l.attributes) := by
  rw [completedAt, completing, Nat.add_sub_cancel_left, VertexList.attributes_pushFrom]

/-- What is sent with `n` more vertices of a list that has `k` of them. -/
structure Sends (m : Nat) (l : VertexList) (k n : Nat) (sent : List Command) : Prop where
  vertices : sent.countP Command.isVertex = n
  /-- Together with the polygons before, these are the polygons of the list. -/
  polygons : (l.kind.outlines m k).map (Outline.command l.attributes) ++
      sent.filter Transcript.isPolygon =
    (l.kind.outlines m (k + n)).map (Outline.command l.attributes)
  /-- They are sent right after their last vertices. -/
  order : sent = Command.weave (completedAt m l) (m + k)
    (sent.filter fun c => !Transcript.isPolygon c)

namespace Sends

variable {m k n : Nat} {l : VertexList} {sent : List Command}

theorem nil : Sends m l k 0 [] where
  vertices := rfl
  polygons := List.append_nil _
  order := rfl

theorem other (h : Sends m l k n sent) {c : Command} (vertex : c.isVertex = false)
    (polygon : Transcript.isPolygon c = false) : Sends m l k n (c :: sent) where
  vertices := by rw [List.countP_cons_of_neg (by simp [vertex]), h.vertices]
  polygons := by rw [List.filter_cons_of_neg (by simp [polygon]), h.polygons]
  order := by
    rw [List.filter_cons_of_pos (by simp [polygon]), Command.weave, if_neg (by simp [vertex]),
      ← h.order]

theorem others (h : Sends m l k n sent) {cs : List Command}
    (hcs : ∀ c ∈ cs, c.isVertex = false ∧ Transcript.isPolygon c = false) :
    Sends m l k n (cs ++ sent) := by
  induction cs with
  | nil => exact h
  | cons c cs ih =>
    obtain ⟨⟨vertex, polygon⟩, rest⟩ := List.forall_mem_cons.1 hcs
    exact (ih rest).other vertex polygon

/-- A vertex is sent, and the polygon that it completes right after it. -/
theorem vertex (h : Sends m l (k + 1) n sent) (empty : l.length = 0) {v : Command}
    (hv : v.isVertex = true) :
    Sends m l k (n + 1) (v :: completedAt m l (m + k) ++ sent) := by
  have completed := completedAt_eq m l k
  have polygon : ∀ c ∈ completedAt m l (m + k), Transcript.isPolygon c = true := by
    rw [completed]
    refine List.forall_mem_map.2 fun o _ => ?_
    cases o <;> rfl
  have noVertex : ∀ c ∈ completedAt m l (m + k), ¬c.isVertex = true := by
    intro c hc
    have := polygon c hc
    cases c <;> first | exact Bool.false_ne_true | cases this
  have noPolygon : Transcript.isPolygon v = false := by
    cases v <;> first | rfl | cases hv
  constructor
  case vertices =>
    rw [List.cons_append, List.countP_cons_of_pos hv, List.countP_append,
      List.countP_eq_zero.2 noVertex, Nat.zero_add, h.vertices]
  case polygons =>
    rw [List.cons_append, List.filter_cons_of_neg (by simp [noPolygon]), List.filter_append,
      List.filter_eq_self.2 polygon, completed, ← List.append_assoc, ← List.map_append,
      ← VertexList.outlines_succ m k empty, h.polygons, Nat.add_right_comm, Nat.add_assoc]
  case order =>
    have others : (v :: completedAt m l (m + k) ++ sent).filter (fun c => !Transcript.isPolygon c) =
        v :: sent.filter fun c => !Transcript.isPolygon c := by
      rw [List.cons_append, List.filter_cons_of_pos (by simp [noPolygon]), List.filter_append,
        List.filter_eq_nil_iff.2 fun c hc => by simp [polygon c hc], List.nil_append]
    rw [others, Command.weave, if_pos hv, Nat.add_assoc, ← h.order]

end Sends

/-- Until vertices are grouped anew, vertices and polygons are sent as the list tells,
    and vertices beyond the limit count for nothing. -/
theorem Amid.executeAll {m k : Nat} {l : VertexList} (empty : l.length = 0) (h : Amid m l k r)
    {is : List Instruction} (undivided : ∀ i ∈ is, i.divides = false) (t : Transcript) :
    let n := min (is.countP Instruction.isVertex) (frameLimit - (m + k))
    let o := r.executeAll t is
    Amid m l (k + n) o.state ∧
      ∃ sent, o.sink.commands = t.commands ++ sent ∧ Sends m l k n sent := by
  induction is generalizing r k t with
  | nil =>
    rw [List.countP_nil, Nat.zero_min]
    exact ⟨h, [], (List.append_nil _).symm, .nil⟩
  | cons i is ih =>
    obtain ⟨first, rest⟩ := List.forall_mem_cons.1 undivided
    rw [executeAll_cons]
    by_cases vertex : i.isVertex = true
    · obtain ⟨inBudget, -, ⟨full, list, vertices, sink⟩ | ⟨few, list, vertices, v, hv, commands⟩⟩ :=
        h.inBudget.execute_vertex vertex t
      · have none : frameLimit - (m + k) = 0 := Nat.sub_eq_zero_of_le (h.vertices ▸ full)
        have later := ih ⟨inBudget, vertices.trans h.vertices, list.trans h.list⟩ rest
          (r.execute t i).sink
        rw [none, Nat.min_zero] at later ⊢
        rw [sink] at later ⊢
        exact later
      · have amid : Amid m l (k + 1) (r.execute t i).state := by
          refine ⟨inBudget, ?_, ?_⟩
          · rw [vertices, h.vertices, Nat.add_assoc]
          · rw [list, h.list, h.vertices]
            rfl
        obtain ⟨amid, sent, later, sends⟩ := ih amid rest (r.execute t i).sink
        have count : min ((i :: is).countP Instruction.isVertex) (frameLimit - (m + k)) =
            min (is.countP Instruction.isVertex) (frameLimit - (m + (k + 1))) + 1 := by
          rw [List.countP_cons_of_pos vertex]
          have := h.vertices ▸ few
          omega
        rw [Nat.add_right_comm, Nat.add_assoc k] at amid
        rw [count]
        refine ⟨amid, _, ?_, sends.vertex empty hv⟩
        rw [later, commands, h.list, h.vertices, List.append_assoc, List.cons_append,
          completedAt, Nat.add_sub_cancel_left]
        rfl
    · obtain ⟨list, vertices, triangles, cs, commands, others⟩ :=
        execute_other (Bool.eq_false_iff.2 vertex) first t
      have inBudget := h.inBudget.congr list vertices triangles
      obtain ⟨amid, sent, later, sends⟩ :=
        ih ⟨inBudget, vertices.trans h.vertices, list.trans h.list⟩ rest (r.execute t i).sink
      rw [List.countP_cons_of_neg vertex]
      exact ⟨amid, cs ++ sent, by rw [later, commands, List.append_assoc], sends.others others⟩

theorem length_executeAll {opening : Instruction} (opens : opening.divides = true)
    (r : Registers) (t : Transcript) (before : List Instruction) :
    (r.executeAll t (before ++ [opening])).state.list.length = 0 := by
  rw [executeAll_append_transcript, executeAll, Outcome.andThen, fault_execute]
  cases opening <;> first | rfl | cases opens

/-- After a list or a frame was begun, the polygons are those that the vertices make
    when they are looked at all at once. -/
theorem executeAll_list {during : List Instruction} {opening : Instruction}
    (opens : opening.divides = true) (undivided : ∀ i ∈ during, i.divides = false)
    (t : Transcript) (before : List Instruction) :
    let start := ({} : Registers).executeAll t (before ++ [opening])
    let final := start.state.executeAll start.sink during
    let history := (before ++ [opening]).reverse
    let m := start.state.vertices
    let n := min (during.countP Instruction.isVertex) (frameLimit - m)
    final.state.vertices = m + n ∧
      ∃ sent, final.sink.commands = start.sink.commands ++ sent ∧
        Command.AreList (Instruction.kindBegun history) (Instruction.attributesLatched history)
          m n sent := by
  intro start final history m n
  have remembers : Remembers history start.state := by
    have := remembers_fresh.executeAll t (before ++ [opening])
    rwa [List.append_nil] at this
  have empty : start.state.list.length = 0 := length_executeAll opens {} t before
  have amid : Amid m start.state.list 0 start.state := ⟨remembers.inBudget, rfl, rfl⟩
  obtain ⟨after, sent, commands, sends⟩ := amid.executeAll empty undivided start.sink
  rw [Nat.zero_add] at after
  have vertices : sent.countP Command.isVertex = n := sends.vertices
  refine ⟨after.vertices, sent, commands, ?_⟩
  rw [← remembers.kind, ← remembers.latched]
  constructor
  case vertices => exact vertices
  case polygons =>
    have none : start.state.list.kind.outlines m 0 = [] := by
      cases start.state.list.kind <;> rfl
    have polygons := sends.polygons
    rwa [none, Nat.zero_add] at polygons
  case order =>
    refine sends.order.trans (Command.weave_congr fun k hk => ?_)
    have few : k < n := by
      rw [← vertices]
      exact Nat.lt_of_lt_of_le hk List.filter_sublist.countP_le
    rw [Nat.add_zero, completedAt_eq, VertexList.filter_last_outlines empty few]

end Registers

/-! ### Streams -/

namespace FrontEnd

variable {σ : Type} [Sink σ]

/-- Instructions are written to a new front-end, and everything that it sends is
    accepted. The vertices after an instruction that begins a list or a frame, and before
    the next one, are sent as long as the frame has room for them. With them exactly the
    polygons are sent that they make when they are looked at all at once, each right
    after its last vertex. The list that was begun last tells which polygons these are,
    and their attributes are those that were set when it was begun. -/
theorem polygons_of_list {before during : List Encoded} {opening : Encoded}
    (complete : ∀ e ∈ before ++ opening :: during, e.isComplete = true)
    (opens : opening.meaning.divides = true)
    (undivided : ∀ e ∈ during, e.meaning.divides = false) (s : σ)
    (accepted : (({} : FrontEnd).writePlain (⟨s, []⟩ : Ledger σ)
      (before ++ opening :: during)).sink.IsAccepted) :
    let start := ({} : FrontEnd).writePlain (⟨s, []⟩ : Ledger σ) (before ++ [opening])
    let final := ({} : FrontEnd).writePlain (⟨s, []⟩ : Ledger σ) (before ++ opening :: during)
    let history := ((before ++ [opening]).map Encoded.meaning).reverse
    let m := start.state.registers.vertices
    let n := min (during.countP fun e => e.meaning.isVertex) (Registers.frameLimit - m)
    final.fault = none ∧ final.state.registers.vertices = m + n ∧
      ∃ sent, final.sink.commands = start.sink.commands ++ sent ∧
        Command.AreList (Instruction.kindBegun history) (Instruction.attributesLatched history)
          m n sent := by
  intro start final history m n
  let l : Ledger σ := ⟨s, []⟩
  let t : Transcript := {}
  have idle : ({} : FrontEnd).IsIdle := ⟨rfl, rfl, rfl⟩
  have inTwo : before ++ opening :: during = before ++ [opening] ++ during := List.append_cons ..
  have hstart : Writes start
      (({} : Registers).executeAll l ((before ++ [opening]).map Encoded.meaning)) :=
    writes_plain idle (fun e he => complete e (by rw [inTwo]; exact List.mem_append_left _ he)) l
  have hfinal : Writes final (({} : Registers).executeAll l
      ((before ++ [opening]).map Encoded.meaning ++ during.map Encoded.meaning)) := by
    rw [← List.map_append, ← inTwo]
    exact writes_plain idle complete l
  -- As all is accepted, a transcript might be in place of the receiver.
  change final.sink.IsAccepted at accepted
  rw [hfinal.sink] at accepted
  have follows is := Registers.follows_executeAll (l := l) (t := t) rfl {} is
  obtain ⟨sound, state, commands⟩ := (follows _).same accepted
  obtain ⟨-, state', commands'⟩ := (follows _).same (Registers.isAccepted_of_append accepted)
  rw [← hstart.registers] at state'
  rw [← hfinal.registers, Registers.executeAll_append_transcript] at state
  rw [← hstart.sink] at commands'
  rw [← hfinal.sink, Registers.executeAll_append_transcript] at commands
  have undivided' : ∀ i ∈ during.map Encoded.meaning, i.divides = false :=
    List.forall_mem_map.2 undivided
  obtain ⟨vertices, sent, more, areList⟩ :=
    Registers.executeAll_list opens undivided' t (before.map Encoded.meaning)
  have opened : before.map Encoded.meaning ++ [opening.meaning] =
      (before ++ [opening]).map Encoded.meaning := by
    rw [List.map_append, List.map_singleton]
  rw [opened, ← state, ← state', List.countP_map] at vertices
  rw [opened, ← commands, ← commands'] at more
  rw [opened, ← state', List.countP_map] at areList
  exact ⟨hfinal.fault.trans sound, vertices, sent, more, areList⟩

/-- A strip of four vertices after a list that was left incomplete, with a viewport, other
    attributes and a push in between: two triangles, with the attributes from before the
    list. -/
theorem polygons_of_list_strip :
    let before : List Encoded :=
      [⟨0x29, [0x1F]⟩, ⟨0x40, [1]⟩, ⟨0x24, [0]⟩, ⟨0x29, [0x800000C0]⟩]
    let opening : Encoded := ⟨0x40, [2]⟩
    let during : List Encoded :=
      [⟨0x24, [1]⟩, ⟨0x60, [0xBFFF0000]⟩, ⟨0x24, [2]⟩, ⟨0x29, [0]⟩, ⟨0x25, [3]⟩, ⟨0x11, []⟩,
        ⟨0x28, [4]⟩]
    let start := ({} : FrontEnd).writePlain (⟨{}, []⟩ : Ledger Engine) (before ++ [opening])
    let final := ({} : FrontEnd).writePlain (⟨{}, []⟩ : Ledger Engine)
      (before ++ opening :: during)
    final.fault = none ∧ final.state.registers.vertices = 5 ∧
      ∃ sent, final.sink.commands = start.sink.commands ++ sent ∧
        sent.filter Transcript.isPolygon = [.polygon 1 2 3 0 0xC0, .polygon 2 3 4 0 0xC0] := by
  intro before opening during start final
  have complete : ∀ e ∈ before ++ opening :: during, e.isComplete = true := by decide
  have undivided : ∀ e ∈ during, e.meaning.divides = false := by decide
  have accepted : final.sink.IsAccepted := by
    unfold Ledger.IsAccepted
    decide +kernel
  obtain ⟨sound, vertices, sent, commands, areList⟩ :=
    polygons_of_list complete rfl undivided ({} : Engine) accepted
  exact ⟨sound, vertices.trans (by decide +kernel), sent, commands,
    areList.polygons.trans (by decide +kernel)⟩

end FrontEnd

end GeometryEngine
