import GeometryEngine.Queue

/-!
# The history of a queue

A queue with a record of what went in and what came out. Whoever puts items in or
takes them out, and in which order they do, a queue goes through a sequence of
actions, each of which happens at once; one that has to wait happens later or not
at all (`History.step?`).

Nothing is lost and nothing is taken twice: the items that were accepted are those
that have left the queue, in the same order, and behind them those that it still
holds (`History.accepted_eq_of_step?`).
-/

namespace GeometryEngine.Queue

variable {α : Type}

/-- Something that is done to a queue. -/
inductive Action (α : Type)
  /-- An item is put in. -/
  | push (a : α)
  /-- An item is taken out. -/
  | pop
  /-- The queue is started. -/
  | start
  /-- The queue is stopped. -/
  | stop
  /-- The queue is emptied. -/
  | clear

/-- Whether a queue that takes items at first does so after actions: the latest start or
    stop decides. -/
def isOpenAfter (actions : List (Action α)) : Bool :=
  actions.foldl
    (fun running a =>
      match a with
      | .start => true
      | .stop => false
      | .push _ | .pop | .clear => running)
    true

/-- How an item has left a queue. -/
inductive Departure
  /-- Somebody has taken it out. -/
  | popped
  /-- It was thrown away. -/
  | discarded
  deriving DecidableEq, Inhabited

/-- A queue and what has become of its items. -/
structure History (α : Type) where
  /-- The queue. -/
  queue : Queue α
  /-- The items that were accepted, the oldest first. -/
  accepted : List α := []
  /-- The items that have left the queue, the first of them first. -/
  departed : List (α × Departure) := []

namespace History

/-- The history after an action; there is none while the action has to wait. -/
def step? (h : History α) : Action α → Option (History α)
  | .push a =>
    match h.queue.push a with
    | .accepted queue => some { h with queue, accepted := h.accepted ++ [a] }
    | .refused => some h
    | .blocked => none
  | .pop =>
    match h.queue.pop with
    | .taken a queue => some { h with queue, departed := h.departed ++ [(a, .popped)] }
    | .closed => some h
    | .blocked => none
  | .start => some { h with queue := h.queue.start }
  | .stop => some { h with queue := h.queue.stop }
  | .clear =>
    some { h with
      queue := h.queue.clear
      departed := h.departed ++ h.queue.items.map fun a => (a, .discarded) }

/-- The items that were taken out. -/
def popped (h : History α) : List α :=
  (h.departed.filter fun d => d.2 = .popped).map Prod.fst

/-- The history after actions, one after another; there is none if one of them has to
    wait. -/
def run? (h : History α) (actions : List (Action α)) : Option (History α) :=
  actions.foldlM step? h

/-- An action keeps track of all items. -/
theorem accepted_eq_of_step? {h h' : History α} {a : Action α} (hs : h.step? a = some h')
    (eq : h.accepted = h.departed.map Prod.fst ++ h.queue.items) :
    h'.accepted = h'.departed.map Prod.fst ++ h'.queue.items := by
  cases a with
  | push a =>
    unfold step? at hs
    simp only at hs
    split at hs <;> cases hs
    · rename_i hp
      simp [eq, (items_of_push hp).1]
    · exact eq
  | pop =>
    unfold step? at hs
    simp only at hs
    split at hs <;> cases hs
    · rename_i hp
      simp [eq, (items_of_pop hp).1]
    · exact eq
  | start => cases hs; exact eq
  | stop => cases hs; exact eq
  | clear =>
    cases hs
    simp [eq, clear, Function.comp_def]

end History

end GeometryEngine.Queue
