import CodeListing.FirstByKey
import CodeListing.Proofs.Queue

/-!
# What becomes of queued items

Items are queued and taken in any order.  An item may be queued while another one of the same method
waits in front of it, and only when it is taken does it show that the method was taken before.  So
the queue alone does not say what will be taken.

The history of a scheduler keeps what was accepted and what was handed out.  At any time the
accepted items are those that left the queue and those that wait in it, and what was handed out are
the first ones of each method among those that left it (`History.Kept`).  Each operation keeps this,
so every sequence of operations does.  What is handed out in the end is therefore known from the
accepted items alone.
-/

set_option autoImplicit false

namespace CodeListing.Scheduler

/-! ## Taking until nothing is left -/

/-- The items that are handed out if the next one is taken again and again until there is none. -/
def drained (scheduler : Scheduler) : List WorkItem :=
  match _h : scheduler.next with
  | (none, _) => []
  | (some item, after) => item :: after.drained
termination_by scheduler.unseen
decreasing_by exact unseen_lt_of_next_eq _h

/-- If nothing is handed out, nothing ever is. -/
theorem drained_of_next_eq_none {scheduler after : Scheduler}
    (h : scheduler.next = (none, after)) : scheduler.drained = [] := by
  unfold drained
  split
  · rfl
  · rename_i heq
    rw [h] at heq
    cases heq

/-- If an item is handed out, it comes first of all that ever are. -/
theorem drained_of_next_eq_some {scheduler after : Scheduler} {item : WorkItem}
    (h : scheduler.next = (some item, after)) : scheduler.drained = item :: after.drained := by
  conv =>
    lhs
    unfold drained
  split
  · rename_i heq
    rw [h] at heq
    cases heq
  · rename_i heq
    rw [h] at heq
    cases heq
    rfl

/-- What is still handed out are the queued items, of each method only the first one, without the
methods that were taken before. -/
theorem drained_eq (scheduler : Scheduler) :
    scheduler.drained =
      firstByKeyFrom WorkItem.identity scheduler.seen scheduler.queue := by
  induction hn : scheduler.unseen using Nat.strongRecOn generalizing scheduler with
  | _ n ih =>
    rcases hnext : scheduler.next with ⟨taken, after⟩
    cases taken with
    | none =>
      rw [drained_of_next_eq_none hnext, firstByKeyFrom_eq_nil (next_eq_none hnext).1]
    | some item =>
      have hless : after.unseen < n := by
        rw [← hn]
        exact unseen_lt_of_next_eq hnext
      obtain ⟨passed, rest, hqueue, hpassed, hnew, rfl⟩ := next_eq_some hnext
      rw [drained_of_next_eq_some hnext, ih _ hless _ rfl, hqueue,
        firstByKeyFrom_append_of_seen hpassed, firstByKeyFrom_cons_of_not_mem hnew]
      rfl

/-! ## Histories -/

/-- What can be done with a scheduler. -/
inductive Operation where
  | enqueue (item : WorkItem)
  | next
  deriving DecidableEq, Repr

/-- A scheduler with the items that it has accepted and those that it has handed out, each in
order. -/
structure History where
  scheduler : Scheduler
  accepted : List WorkItem := []
  handedOut : List WorkItem := []
  deriving Repr

namespace History

/-- The history after one more operation. -/
def perform (history : History) : Operation → History
  | .enqueue item =>
    { history with
      scheduler := history.scheduler.enqueue item
      accepted := history.accepted ++ if history.scheduler.accepts item then [item] else [] }
  | .next =>
    let (taken, scheduler) := history.scheduler.next
    { history with scheduler, handedOut := history.handedOut ++ taken.toList }

/-- The history of a new scheduler after some operations. -/
def ofOperations (maxDepth : UInt32) (operations : List Operation) : History :=
  operations.foldl perform { scheduler := { maxDepth } }

/-- The accepted items left the queue or wait in it.  Of those that left it, the first one of each
method was handed out, and these methods are the ones that count as taken. -/
structure Kept (maxDepth : UInt32) (history : History) : Prop where
  depth : history.scheduler.maxDepth = maxDepth
  split : ∃ gone, history.accepted = gone ++ history.scheduler.queue ∧
    history.handedOut = firstByKey WorkItem.identity gone ∧
    ∀ identity, identity ∈ history.scheduler.seen ↔ identity ∈ gone.map WorkItem.identity

variable {maxDepth : UInt32} {history : History}

/-- A new scheduler keeps its history. -/
theorem Kept.new (maxDepth : UInt32) : Kept maxDepth { scheduler := { maxDepth } } :=
  ⟨rfl, [], rfl, rfl, by simp⟩

/-- Queueing an item keeps the history. -/
theorem Kept.enqueue (h : history.Kept maxDepth) (item : WorkItem) :
    (history.perform (.enqueue item)).Kept maxDepth := by
  obtain ⟨hdepth, gone, haccepted, hhandedOut, hseen⟩ := h
  by_cases haccepts : history.scheduler.accepts item = true
  · refine ⟨?_, gone, ?_, hhandedOut, ?_⟩
    · simp [perform, Scheduler.enqueue, haccepts, hdepth]
    · simp [perform, Scheduler.enqueue, haccepts, haccepted]
    · simpa [perform] using hseen
  · refine ⟨?_, gone, ?_, hhandedOut, ?_⟩
    · simp [perform, Scheduler.enqueue, haccepts, hdepth]
    · simp [perform, Scheduler.enqueue, haccepts, haccepted]
    · simpa [perform] using hseen

/-- Handing out an item keeps the history. -/
theorem Kept.next (h : history.Kept maxDepth) : (history.perform .next).Kept maxDepth := by
  obtain ⟨hdepth, gone, haccepted, hhandedOut, hseen⟩ := h
  -- What leaves the queue now is handed out as far as it is new.
  have hleave : ∀ leaving, firstByKey WorkItem.identity (gone ++ leaving) =
      history.handedOut ++
        firstByKeyFrom WorkItem.identity history.scheduler.seen leaving := by
    intro leaving
    rw [hhandedOut]
    apply firstByKeyFrom_append
    simpa using hseen
  rcases hnext : history.scheduler.next with ⟨taken, after⟩
  cases taken with
  | none =>
    obtain ⟨hpassed, rfl⟩ := next_eq_none hnext
    refine ⟨?_, gone ++ history.scheduler.queue, ?_, ?_, ?_⟩
    · simpa [perform, hnext] using hdepth
    · simpa [perform, hnext] using haccepted
    · rw [hleave, firstByKeyFrom_eq_nil hpassed]
      simp [perform, hnext]
    · intro identity
      simp only [perform, hnext, List.map_append, List.mem_append, ← hseen]
      constructor
      · exact Or.inl
      · rintro (hmem | hmem)
        · exact hmem
        · obtain ⟨item, hitem, rfl⟩ := List.mem_map.1 hmem
          exact hpassed item hitem
  | some item =>
    obtain ⟨passed, rest, hqueue, hpassed, hnew, rfl⟩ := next_eq_some hnext
    refine ⟨?_, gone ++ (passed ++ [item]), ?_, ?_, ?_⟩
    · simpa [perform, hnext] using hdepth
    · simp [perform, hnext, haccepted, hqueue]
    · rw [hleave, firstByKeyFrom_append_of_seen hpassed, firstByKeyFrom_cons_of_not_mem hnew]
      simp [perform, hnext, firstByKeyFrom]
    · intro identity
      simp only [perform, hnext, seen_taking, List.mem_cons, List.map_append, List.mem_append,
        List.map_cons, List.map_nil, List.not_mem_nil, or_false, ← hseen]
      constructor
      · rintro (rfl | hmem)
        · exact Or.inr (Or.inr rfl)
        · exact Or.inl hmem
      · rintro (hmem | hmem | rfl)
        · exact Or.inr hmem
        · obtain ⟨other, hother, rfl⟩ := List.mem_map.1 hmem
          exact Or.inr (hpassed other hother)
        · exact Or.inl rfl

/-- Every operation keeps the history. -/
theorem Kept.perform (h : history.Kept maxDepth) (operation : Operation) :
    (history.perform operation).Kept maxDepth := by
  cases operation with
  | enqueue item => exact h.enqueue item
  | next => exact h.next

/-- All operations keep the history. -/
theorem Kept.foldl (h : history.Kept maxDepth) (operations : List Operation) :
    (operations.foldl History.perform history).Kept maxDepth := by
  induction operations generalizing history with
  | nil => exact h
  | cons operation rest ih => exact ih (h.perform operation)

/-- After any operations on a new scheduler the history is kept. -/
theorem kept_ofOperations (maxDepth : UInt32) (operations : List Operation) :
    (ofOperations maxDepth operations).Kept maxDepth :=
  (Kept.new maxDepth).foldl operations

/-- What was handed out and what is still handed out are together the accepted items, of each method
only the first one. -/
theorem Kept.handedOut_append_drained (h : history.Kept maxDepth) :
    history.handedOut ++ history.scheduler.drained =
      firstByKey WorkItem.identity history.accepted := by
  obtain ⟨-, gone, haccepted, hhandedOut, hseen⟩ := h
  rw [haccepted, hhandedOut, drained_eq]
  refine (firstByKeyFrom_append ?_).symm
  simpa using hseen

/-- The methods that count as taken are those that were handed out. -/
theorem Kept.mem_seen_iff (h : history.Kept maxDepth) (identity : UInt64) :
    identity ∈ history.scheduler.seen ↔
      identity ∈ history.handedOut.map WorkItem.identity := by
  obtain ⟨-, gone, -, hhandedOut, hseen⟩ := h
  rw [hseen, hhandedOut, mem_map_firstByKey]

end History

/-- After any operations on a new scheduler, what was handed out and what is handed out if the next
item is taken until there is none are together the accepted items in order, of each method only the
first one.  An item would be accepted exactly if it is not too deep and its method was not handed
out.  So each accepted method is handed out, none is twice, and each is with the item, and hence the
depth, with which it was accepted first. -/
theorem handedOut_eq_first_accepted (maxDepth : UInt32) (operations : List Operation) :
    let history := History.ofOperations maxDepth operations
    let handedOut := history.handedOut ++ history.scheduler.drained
    handedOut = firstByKey WorkItem.identity history.accepted ∧
    (∀ item, history.scheduler.accepts item = true ↔
      item.depth ≤ maxDepth ∧ item.identity ∉ history.handedOut.map WorkItem.identity) ∧
    (∀ item ∈ history.accepted, item.identity ∈ handedOut.map WorkItem.identity) ∧
    (handedOut.map WorkItem.identity).Nodup ∧
    ∀ item ∈ handedOut,
      history.accepted.find? (·.identity == item.identity) = some item := by
  intro history handedOut
  have hkept : history.Kept maxDepth := History.kept_ofOperations maxDepth operations
  have heq : handedOut = firstByKey WorkItem.identity history.accepted :=
    hkept.handedOut_append_drained
  refine ⟨heq, ?_, ?_, ?_, ?_⟩
  · intro item
    rw [accepts_iff, hkept.depth, hkept.mem_seen_iff]
  · intro item hitem
    rw [heq, mem_map_firstByKey]
    exact List.mem_map_of_mem hitem
  · rw [heq]
    exact nodup_map_firstByKeyFrom history.accepted
  · intro item hitem
    rw [heq] at hitem
    exact find?_eq_of_mem_firstByKeyFrom hitem

namespace Requeued

/-- A call of the method with this code, so many calls from the entry. -/
def call (nativeCode : UInt64) (depth : UInt32) : WorkItem where
  method := ⟨"A.Run()", "A", nativeCode, 0, .jitted, false, true, []⟩
  depth := depth

/-- A method is queued twice before it is taken and once more after that, and another one is queued
too deep, then twice. -/
def operations : List Operation :=
  [.enqueue (call 1 0), .enqueue (call 1 1), .next, .enqueue (call 1 1), .enqueue (call 2 3),
    .enqueue (call 2 2), .enqueue (call 2 1), .next]

end Requeued

open Requeued in
/-- Of four accepted items two are handed out, the one of the second method at the greater depth,
with which it was accepted first. -/
theorem handedOut_of_requeued_methods :
    (History.ofOperations 2 operations).accepted =
        [call 1 0, call 1 1, call 2 2, call 2 1] ∧
      (History.ofOperations 2 operations).handedOut ++
          (History.ofOperations 2 operations).scheduler.drained =
        [call 1 0, call 2 2] := by
  refine ⟨by decide, ?_⟩
  rw [(handedOut_eq_first_accepted 2 operations).1]
  decide

end CodeListing.Scheduler
