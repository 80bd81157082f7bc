import GeometryEngine.QueueHistory
import Mathlib.Data.List.Induction

/-!
# Nothing is lost in a queue

Whoever puts items into a queue and takes them out, and whenever it is started, stopped
and emptied: it never holds more items than it has room for, it turns items away only
while it is stopped, and it tells that there will be no more of them only while it is
stopped and empty. Every item that was accepted is taken out once, or thrown away once, or
still there, in the order in which the items were accepted
(`Queue.History.accounts_of_run?`).

Each action keeps that (`Queue.History.Kept.step`). What was taken out is what was
accepted first as long as nothing is thrown away.
-/

namespace GeometryEngine.Queue

variable {α : Type}

/-! ### When an action has to wait -/

/-- An item has to wait at an open queue that is full. -/
theorem push_eq_blocked_iff (q : Queue α) (a : α) :
    q.push a = .blocked ↔ q.running = true ∧ q.capacity ≤ q.items.length := by
  rw [push]
  cases q.running with
  | false => simp
  | true =>
    simp only [Bool.not_true, Bool.false_eq_true, ↓reduceIte, true_and]
    split <;> simp <;> omega

/-- Whoever takes items out has to wait at an open queue that is empty. -/
theorem pop_eq_blocked_iff (q : Queue α) :
    q.pop = .blocked ↔ q.running = true ∧ q.items = [] := by
  rw [pop]
  split
  · simp_all
  · cases q.running <;> simp_all

theorem isOpenAfter_append (actions : List (Action α)) (a : Action α) :
    isOpenAfter (actions ++ [a]) =
      match a with
      | .start => true
      | .stop => false
      | .push _ | .pop | .clear => isOpenAfter actions := by
  rw [isOpenAfter, List.foldl_append]
  rfl

namespace History

/-! ### What an action keeps -/

/-- The history of a queue with room for the wanted number of items, after actions. -/
structure Kept (wanted : Nat) (actions : List (Action α)) (h : History α) : Prop where
  capacity : h.queue.capacity = max wanted 1
  room : h.queue.items.length ≤ max wanted 1
  running : h.queue.running = isOpenAfter actions
  /-- No item is lost, and none is there twice. -/
  accepted : h.accepted = h.departed.map Prod.fst ++ h.queue.items
  /-- Only an emptying throws items away. -/
  popped : .clear ∉ actions → ∀ d ∈ h.departed, d.2 = .popped

namespace Kept

variable {wanted : Nat} {actions : List (Action α)} {h h' : History α}

theorem fresh : Kept wanted [] ({ queue := .ofCapacity wanted } : History α) where
  capacity := rfl
  room := Nat.zero_le _
  running := rfl
  accepted := rfl
  popped _ _ hd := absurd hd List.not_mem_nil

theorem push {a : α} (kept : Kept wanted actions h) (hs : h.step? (.push a) = some h') :
    Kept wanted (actions ++ [.push a]) h' := by
  have opened := isOpenAfter_append actions (.push a)
  have accepted := accepted_eq_of_step? hs kept.accepted
  have others (clear : .clear ∉ actions ++ [.push a]) : .clear ∉ actions :=
    fun hc => clear (List.mem_append_left _ hc)
  simp only [step?] at hs
  split at hs <;> cases hs
  · rename_i q put
    obtain ⟨items, capacity, running, room⟩ := items_of_push put
    refine ⟨capacity.trans kept.capacity, ?_, (running.trans kept.running).trans opened.symm,
      accepted, fun clear => kept.popped (others clear)⟩
    change q.items.length ≤ max wanted 1
    rw [items, List.length_append, List.length_singleton, ← kept.capacity]
    exact room
  · exact ⟨kept.capacity, kept.room, kept.running.trans opened.symm, accepted,
      fun clear => kept.popped (others clear)⟩

theorem pop (kept : Kept wanted actions h) (hs : h.step? .pop = some h') :
    Kept wanted (actions ++ [.pop]) h' := by
  have opened := isOpenAfter_append actions .pop
  have accepted := accepted_eq_of_step? hs kept.accepted
  have others (clear : .clear ∉ actions ++ [.pop]) : .clear ∉ actions :=
    fun hc => clear (List.mem_append_left _ hc)
  simp only [step?] at hs
  split at hs <;> cases hs
  · rename_i a q taken
    obtain ⟨items, capacity, running⟩ := items_of_pop taken
    refine ⟨capacity.trans kept.capacity, ?_, (running.trans kept.running).trans opened.symm,
      accepted, fun clear d hd => ?_⟩
    · have room := kept.room
      rw [items, List.length_cons] at room
      exact Nat.le_of_succ_le room
    · rcases List.mem_append.1 hd with hd | hd
      · exact kept.popped (others clear) d hd
      · rw [List.mem_singleton.1 hd]
  · exact ⟨kept.capacity, kept.room, kept.running.trans opened.symm, accepted,
      fun clear => kept.popped (others clear)⟩

/-- Every action keeps track of all items. -/
theorem step {a : Action α} (kept : Kept wanted actions h) (hs : h.step? a = some h') :
    Kept wanted (actions ++ [a]) h' := by
  cases a with
  | push a => exact kept.push hs
  | pop => exact kept.pop hs
  | start =>
    cases hs
    exact ⟨kept.capacity, kept.room, (isOpenAfter_append actions .start).symm, kept.accepted,
      fun clear => kept.popped fun hc => clear (List.mem_append_left _ hc)⟩
  | stop =>
    cases hs
    exact ⟨kept.capacity, kept.room, (isOpenAfter_append actions .stop).symm, kept.accepted,
      fun clear => kept.popped fun hc => clear (List.mem_append_left _ hc)⟩
  | clear =>
    have accepted := accepted_eq_of_step? hs kept.accepted
    cases hs
    exact ⟨kept.capacity, Nat.zero_le _,
      kept.running.trans (isOpenAfter_append actions .clear).symm, accepted,
      fun clear => absurd (List.mem_append_right _ List.mem_cons_self) clear⟩

/-- Nothing was taken out but what was accepted, and that in its order. -/
theorem popped_sublist (kept : Kept wanted actions h) : h.popped.Sublist h.accepted := by
  rw [kept.accepted]
  exact (List.filter_sublist.map Prod.fst).trans (List.sublist_append_left _ _)

/-- If nothing is thrown away, it is what was accepted first. -/
theorem popped_prefix (kept : Kept wanted actions h) (whole : .clear ∉ actions) :
    h.popped <+: h.accepted := by
  have all : h.departed.filter (fun d => d.2 = .popped) = h.departed :=
    List.filter_eq_self.2 fun d hd => decide_eq_true (kept.popped whole d hd)
  rw [History.popped, all, kept.accepted]
  exact List.prefix_append _ _

end Kept

/-! ### What a run keeps -/

theorem run?_append (h : History α) (actions : List (Action α)) (a : Action α) :
    h.run? (actions ++ [a]) = (h.run? actions).bind fun h => h.step? a := by
  rw [run?, List.foldlM_append]
  exact congrArg _ (funext fun h => bind_pure _)

theorem Kept.run {wanted : Nat} {actions : List (Action α)} {h : History α}
    (run : History.run? { queue := .ofCapacity wanted } actions = some h) :
    Kept wanted actions h := by
  induction actions using List.reverseRecOn generalizing h with
  | nil =>
    cases run
    exact .fresh
  | append_singleton actions a ih =>
    rw [run?_append] at run
    obtain ⟨h', before, hs⟩ := Option.bind_eq_some_iff.1 run
    exact (ih before).step hs

/-- Whatever is done to a queue, and by whomever:

    * It holds no more items than it has room for, which are as many as wanted, or one.
    * An item is turned away if and only if the queue is stopped, and has to wait if and
      only if the queue is open and full.
    * There will be no more items if and only if the queue is stopped and empty, and one
      has to be waited for if and only if the queue is open and empty.
    * The accepted items, in their order, are those that have left, each of them taken out
      or thrown away, and behind them those that are still there.
    * So those that were taken out are some of the accepted ones, in the same order; and
      they are the first of them if the queue was never emptied. -/
theorem accounts_of_run? {wanted : Nat} {actions : List (Action α)} {h : History α}
    (run : History.run? { queue := .ofCapacity wanted } actions = some h) :
    h.queue.items.length ≤ max wanted 1 ∧
    (∀ a, (h.queue.push a = .refused ↔ isOpenAfter actions = false) ∧
      (h.queue.push a = .blocked ↔
        isOpenAfter actions = true ∧ h.queue.items.length = max wanted 1)) ∧
    (h.queue.pop = .closed ↔ isOpenAfter actions = false ∧ h.queue.items = []) ∧
    (h.queue.pop = .blocked ↔ isOpenAfter actions = true ∧ h.queue.items = []) ∧
    h.accepted = h.departed.map Prod.fst ++ h.queue.items ∧
    h.popped.Sublist h.accepted ∧
    (.clear ∉ actions → h.popped <+: h.accepted) := by
  have kept : Kept wanted actions h := .run run
  have full : h.queue.capacity ≤ h.queue.items.length ↔ h.queue.items.length = max wanted 1 := by
    have := kept.room
    rw [kept.capacity]
    omega
  rw [← kept.running]
  refine ⟨kept.room, fun a => ⟨h.queue.push_eq_refused_iff a, ?_⟩, h.queue.pop_eq_closed_iff,
    h.queue.pop_eq_blocked_iff, kept.accepted, kept.popped_sublist, kept.popped_prefix⟩
  rw [← full]
  exact h.queue.push_eq_blocked_iff a

/-- Room for one item, which is taken out, thrown away after a restart, or still there; an
    item that comes while the queue is stopped is turned away. -/
theorem accounts_of_run?_restarted :
    let actions : List (Action Nat) :=
      [.push 1, .pop, .push 2, .stop, .push 3, .pop, .pop, .start, .push 4, .clear, .push 5]
    ∃ h, History.run? { queue := .ofCapacity 0 } actions = some h ∧
      h.accepted = [1, 2, 4, 5] ∧ h.popped = [1, 2] ∧ h.queue.items = [5] ∧
      h.popped.Sublist h.accepted ∧ h.queue.push 6 = .blocked := by
  intro actions
  have run : History.run? { queue := .ofCapacity 0 } actions = some _ := rfl
  obtain ⟨-, push, -, -, -, sublist, -⟩ := accounts_of_run? run
  exact ⟨_, run, rfl, rfl, rfl, sublist, (push 6).2.2 ⟨rfl, rfl⟩⟩

end History

end GeometryEngine.Queue
