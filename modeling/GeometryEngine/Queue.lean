/-!
# A bounded queue

A queue between those who put items in and those who take them out. It has room
for a fixed number of items. Putting an item into a full queue, and taking one
out of an empty queue, waits until there is room or an item.

A queue can be stopped. It then takes no more items, and gives out those that it
still holds; nobody waits at a stopped queue. It can be started again.

What the queue holds is `items`, the oldest first. Each operation is described by
what it does to that list.
-/

namespace GeometryEngine

/-- A queue with room for `capacity` items. -/
structure Queue (α : Type) where
  /-- The number of items there is room for. -/
  capacity : Nat
  /-- The items, the oldest first. -/
  items : List α := []
  /-- Whether the queue takes items. -/
  running : Bool := true
  deriving DecidableEq

namespace Queue

variable {α : Type}

/-- What comes of putting an item in. -/
inductive Push (α : Type)
  /-- It is in the queue. -/
  | accepted (q : Queue α)
  /-- The queue is stopped. -/
  | refused
  /-- The queue is full: wait. -/
  | blocked

/-- What comes of taking an item out. -/
inductive Pop (α : Type)
  /-- The oldest item, and the queue without it. -/
  | taken (a : α) (q : Queue α)
  /-- The queue is stopped and empty. -/
  | closed
  /-- The queue is empty: wait. -/
  | blocked

/-- An empty queue that has room for the wanted number of items, or for one. -/
def ofCapacity (wanted : Nat) : Queue α := { capacity := max wanted 1 }

/-- Puts an item in behind the others. -/
def push (q : Queue α) (a : α) : Push α :=
  if !q.running then .refused
  else if q.items.length < q.capacity then .accepted { q with items := q.items ++ [a] }
  else .blocked

/-- Takes the oldest item out. -/
def pop (q : Queue α) : Pop α :=
  match q.items with
  | a :: items => .taken a { q with items }
  | [] => if q.running then .blocked else .closed

/-- Lets the queue take items. -/
def start (q : Queue α) : Queue α := { q with running := true }

/-- Lets the queue take no more items. -/
def stop (q : Queue α) : Queue α := { q with running := false }

/-- Throws all items away. -/
def clear (q : Queue α) : Queue α := { q with items := [] }

/-! ### What the operations do to the items -/

theorem push_eq_refused_iff (q : Queue α) (a : α) : q.push a = .refused ↔ q.running = false := by
  unfold push
  cases q.running <;> simp
  split <;> simp

theorem items_of_push {q q' : Queue α} {a : α} (h : q.push a = .accepted q') :
    q'.items = q.items ++ [a] ∧ q'.capacity = q.capacity ∧ q'.running = q.running ∧
      q.items.length < q.capacity := by
  unfold push at h
  split at h
  · cases h
  · split at h
    · cases h; simp_all
    · cases h

theorem items_of_pop {q q' : Queue α} {a : α} (h : q.pop = .taken a q') :
    q.items = a :: q'.items ∧ q'.capacity = q.capacity ∧ q'.running = q.running := by
  unfold pop at h
  split at h
  · cases h; simp_all
  · split at h <;> cases h

theorem pop_eq_closed_iff (q : Queue α) :
    q.pop = .closed ↔ q.running = false ∧ q.items = [] := by
  unfold pop
  split
  · simp_all
  · cases q.running <;> simp_all

end Queue

end GeometryEngine
