import CodeListing.Method

/-!
# The methods still to list

A breadth-first queue of methods with their distance from the entry.  A method counts as seen when
it is taken from the queue and not when it is put there, so a method that calls itself is listed
exactly once.
-/

set_option autoImplicit false

namespace CodeListing

/-- A method and its distance from the entry in calls. -/
structure WorkItem where
  method : Method
  depth : UInt32
  deriving DecidableEq, Repr

/-- The identity of the method. -/
def WorkItem.identity (item : WorkItem) : UInt64 := item.method.identity

/-- The queue and what was taken from it. -/
structure Scheduler where
  queue : List WorkItem := []
  /-- The identities of the methods that were taken. -/
  seen : List UInt64 := []
  maxDepth : UInt32
  deriving Repr

namespace Scheduler

/-- The method was taken before. -/
def isSeen (scheduler : Scheduler) (identity : UInt64) : Bool :=
  scheduler.seen.contains identity

/-- The item is neither too deep nor taken before. -/
def accepts (scheduler : Scheduler) (item : WorkItem) : Bool :=
  item.depth ≤ scheduler.maxDepth && !scheduler.isSeen item.identity

/-- Queues an item if it is accepted. -/
def enqueue (scheduler : Scheduler) (item : WorkItem) : Scheduler :=
  if scheduler.accepts item then { scheduler with queue := scheduler.queue ++ [item] }
  else scheduler

/-- Queues the accepted ones of several items. -/
def enqueueAll (scheduler : Scheduler) (items : List WorkItem) : Scheduler :=
  items.foldl enqueue scheduler

/-- The first item whose method was not seen, and the items behind it. -/
def firstUnseen? (seen : List UInt64) : List WorkItem → Option (WorkItem × List WorkItem)
  | [] => none
  | item :: rest =>
    if seen.contains item.identity then firstUnseen? seen rest else some (item, rest)

/-- Takes the next item; items whose method was taken meanwhile are dropped. -/
def next (scheduler : Scheduler) : Option WorkItem × Scheduler :=
  match firstUnseen? scheduler.seen scheduler.queue with
  | none => (none, { scheduler with queue := [] })
  | some (item, rest) =>
    (some item, { scheduler with queue := rest, seen := item.identity :: scheduler.seen })

/-- The number of queued items. -/
def pending (scheduler : Scheduler) : Nat := scheduler.queue.length

/-- Queueing an item does not make its method seen. -/
@[simp] theorem seen_enqueue (scheduler : Scheduler) (item : WorkItem) :
    (scheduler.enqueue item).seen = scheduler.seen := by
  unfold enqueue
  split <;> rfl

/-- Queueing items does not make their methods seen. -/
@[simp] theorem seen_enqueueAll (scheduler : Scheduler) (items : List WorkItem) :
    (scheduler.enqueueAll items).seen = scheduler.seen := by
  induction items generalizing scheduler with
  | nil => rfl
  | cons item rest ih =>
    show (enqueueAll (scheduler.enqueue item) rest).seen = scheduler.seen
    rw [ih, seen_enqueue]

/-- The item that is taken from the queue was not seen. -/
theorem not_mem_of_firstUnseen? {seen : List UInt64} {queue rest : List WorkItem} {item : WorkItem}
    (h : firstUnseen? seen queue = some (item, rest)) : item.identity ∉ seen := by
  induction queue with
  | nil => simp [firstUnseen?] at h
  | cons head tail ih =>
    simp only [firstUnseen?] at h
    split at h
    · exact ih h
    · rename_i hnew
      simp only [Option.some.injEq, Prod.mk.injEq] at h
      obtain ⟨rfl, -⟩ := h
      simpa using hnew

/-- A taken item is new, and it is the only one that becomes seen. -/
theorem seen_of_next_eq {scheduler after : Scheduler} {item : WorkItem}
    (h : scheduler.next = (some item, after)) :
    item.identity ∉ scheduler.seen ∧ after.seen = item.identity :: scheduler.seen := by
  unfold next at h
  split at h
  · simp at h
  · rename_i item' rest hfirst
    simp only [Prod.mk.injEq, Option.some.injEq] at h
    obtain ⟨rfl, rfl⟩ := h
    exact ⟨not_mem_of_firstUnseen? hfirst, rfl⟩

/-- How many of the numbers below `bound` are no identities of seen methods. -/
def unseenBelow (bound : Nat) (seen : List UInt64) : Nat :=
  (List.range bound).countP fun n => !seen.any fun identity => identity.toNat == n

/-- A weaker condition counts more items if one of them meets it and not the stronger one. -/
theorem countP_lt_countP {α : Type} {p q : α → Bool} {items : List α} {x : α}
    (hmem : x ∈ items) (himp : ∀ a, p a = true → q a = true) (hp : p x = false)
    (hq : q x = true) : items.countP p < items.countP q := by
  induction items with
  | nil => simp at hmem
  | cons a rest ih =>
    have hle : rest.countP p ≤ rest.countP q := List.countP_mono_left fun b _ => himp b
    rcases List.mem_cons.1 hmem with rfl | hmem
    · simp only [List.countP_cons, hp, hq]
      simp
      omega
    · have hlt := ih hmem
      simp only [List.countP_cons]
      cases hpa : p a
      · simp only [Bool.false_eq_true, if_false]; omega
      · simp only [himp a hpa, if_true]; omega

/-- One more seen method leaves fewer unseen ones. -/
theorem unseenBelow_cons_lt {bound : Nat} {seen : List UInt64} {identity : UInt64}
    (hbound : identity.toNat < bound) (hnew : identity ∉ seen) :
    unseenBelow bound (identity :: seen) < unseenBelow bound seen := by
  refine countP_lt_countP (x := identity.toNat) (List.mem_range.2 hbound) ?_ ?_ ?_
  · intro n hn
    simp_all
  · simp
  · simp only [Bool.not_eq_true', List.any_eq_false, beq_iff_eq]
    intro other hother heq
    exact hnew (UInt64.toNat_inj.1 heq ▸ hother)

/-- How many methods can still be taken. -/
def unseen (scheduler : Scheduler) : Nat :=
  unseenBelow UInt64.size scheduler.seen

/-- Taking an item leaves fewer methods that can still be taken. -/
theorem unseen_lt_of_next_eq {scheduler after : Scheduler} {item : WorkItem}
    (h : scheduler.next = (some item, after)) : after.unseen < scheduler.unseen := by
  obtain ⟨hnew, hseen⟩ := seen_of_next_eq h
  unfold unseen
  rw [hseen]
  exact unseenBelow_cons_lt item.identity.toNat_lt hnew

end Scheduler

end CodeListing
