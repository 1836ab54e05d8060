import CodeListing.Resolver

/-!
# What the queue of methods does

Taking an item from the queue passes over the items whose methods were taken meanwhile, and queueing
items appends those that are accepted.  Both are said here once, as equations on the queue.

In a breadth-first run the queue is layered: its depths ascend and lie between the depth of the item
that was taken last and the depth one call further.  Every step of a run keeps it so.
-/

set_option autoImplicit false

namespace CodeListing

/-! ## Depths -/

/-- One call further is one more, up to the largest depth. -/
theorem toNat_nextDepth_eq_min (depth : UInt32) :
    (nextDepth depth).toNat = min (depth.toNat + 1) 4294967295 := by
  have hlt : depth.toNat < 4294967296 := depth.toNat_lt
  unfold nextDepth
  split
  · rename_i hmax
    rw [beq_iff_eq.1 hmax]
    rfl
  · rename_i hne
    have hmax : depth.toNat ≠ 4294967295 := by
      intro heq
      apply hne
      rw [beq_iff_eq]
      exact UInt32.toNat_inj.1 heq
    rw [UInt32.toNat_add]
    show (depth.toNat + 1) % 4294967296 = min (depth.toNat + 1) 4294967295
    omega

/-- The next depth is not less. -/
theorem le_nextDepth (depth : UInt32) : depth ≤ nextDepth depth := by
  have hlt : depth.toNat < 4294967296 := depth.toNat_lt
  rw [UInt32.le_iff_toNat_le, toNat_nextDepth_eq_min]
  omega

/-- Below the largest depth, one call further is one more. -/
theorem toNat_nextDepth {depth : UInt32} (h : depth < 0xFFFFFFFF) :
    (nextDepth depth).toNat = depth.toNat + 1 := by
  have hlt : depth.toNat < 4294967295 := UInt32.lt_iff_toNat_lt.1 h
  rw [toNat_nextDepth_eq_min]
  omega

/-- The calls of an entry are within every depth but zero. -/
theorem nextDepth_zero_le_iff {depth : UInt32} : nextDepth 0 ≤ depth ↔ 0 < depth := by
  rw [UInt32.le_iff_toNat_le, UInt32.lt_iff_toNat_lt]
  rfl

/-- Deeper items have deeper calls. -/
theorem nextDepth_mono {depth other : UInt32} (h : depth ≤ other) :
    nextDepth depth ≤ nextDepth other := by
  have hle := UInt32.le_iff_toNat_le.1 h
  rw [UInt32.le_iff_toNat_le, toNat_nextDepth_eq_min, toNat_nextDepth_eq_min]
  omega

/-- Comparing depths one call further is comparing the depths, unless one call further may be no
further. -/
theorem nextDepth_le_nextDepth_iff {depth maxDepth : UInt32} (h : maxDepth < 0xFFFFFFFE) :
    nextDepth depth ≤ nextDepth maxDepth ↔ depth ≤ maxDepth := by
  have hmax : maxDepth.toNat < 4294967294 := UInt32.lt_iff_toNat_lt.1 h
  rw [UInt32.le_iff_toNat_le, UInt32.le_iff_toNat_le, toNat_nextDepth_eq_min,
    toNat_nextDepth_eq_min]
  omega

/-- The next depth is no more only at the largest depth. -/
theorem nextDepth_le_self_iff {depth : UInt32} : nextDepth depth ≤ depth ↔ depth = 0xFFFFFFFF := by
  have hlt : depth.toNat < 4294967296 := depth.toNat_lt
  rw [UInt32.le_iff_toNat_le, toNat_nextDepth_eq_min, ← UInt32.toNat_inj]
  show min (depth.toNat + 1) 4294967295 ≤ depth.toNat ↔ depth.toNat = 4294967295
  omega

namespace Scheduler

/-! ## Queueing -/

/-- An item is accepted if it is not too deep and its method was not seen. -/
theorem accepts_iff {scheduler : Scheduler} {item : WorkItem} :
    scheduler.accepts item = true ↔
      item.depth ≤ scheduler.maxDepth ∧ item.identity ∉ scheduler.seen := by
  simp [accepts, isSeen]

/-- Queueing items appends the accepted ones; whether one is accepted does not depend on the queue.
-/
theorem enqueueAll_eq (scheduler : Scheduler) (items : List WorkItem) :
    scheduler.enqueueAll items =
      { scheduler with queue := scheduler.queue ++ items.filter scheduler.accepts } := by
  induction items generalizing scheduler with
  | nil => simp [enqueueAll]
  | cons item rest ih =>
    show enqueueAll (scheduler.enqueue item) rest = _
    rw [ih]
    by_cases h : scheduler.accepts item = true
    · have heq :
          scheduler.enqueue item = { scheduler with queue := scheduler.queue ++ [item] } := by
        unfold enqueue
        rw [if_pos h]
      rw [heq, List.filter_cons_of_pos h]
      simp only [List.append_assoc, List.singleton_append]
      rfl
    · have heq : scheduler.enqueue item = scheduler := by
        unfold enqueue
        rw [if_neg h]
      rw [heq, List.filter_cons_of_neg h]

/-- Queueing items does not change the largest depth. -/
@[simp] theorem maxDepth_enqueueAll (scheduler : Scheduler) (items : List WorkItem) :
    (scheduler.enqueueAll items).maxDepth = scheduler.maxDepth := by
  rw [enqueueAll_eq]

/-- The queue has what it had and the accepted items. -/
theorem mem_queue_enqueueAll {scheduler : Scheduler} {items : List WorkItem} {item : WorkItem} :
    item ∈ (scheduler.enqueueAll items).queue ↔
      item ∈ scheduler.queue ∨ item ∈ items ∧ scheduler.accepts item = true := by
  rw [enqueueAll_eq, List.mem_append, List.mem_filter]

/-! ## Taking -/

/-- The scheduler after the item was taken, with what stood behind it still queued. -/
def taking (scheduler : Scheduler) (item : WorkItem) (behind : List WorkItem) : Scheduler :=
  { scheduler with queue := behind, seen := item.identity :: scheduler.seen }

/-- What is behind the item that is taken stays in the queue. -/
@[simp] theorem queue_taking (scheduler : Scheduler) (item : WorkItem) (behind : List WorkItem) :
    (scheduler.taking item behind).queue = behind := rfl

/-- The method of the item that is taken is seen. -/
@[simp] theorem seen_taking (scheduler : Scheduler) (item : WorkItem) (behind : List WorkItem) :
    (scheduler.taking item behind).seen = item.identity :: scheduler.seen := rfl

/-- Taking an item does not change the largest depth. -/
@[simp] theorem maxDepth_taking (scheduler : Scheduler) (item : WorkItem)
    (behind : List WorkItem) : (scheduler.taking item behind).maxDepth = scheduler.maxDepth := rfl

/-- If no item can be taken, all methods in the queue were seen. -/
theorem firstUnseen?_eq_none {seen : List UInt64} {queue : List WorkItem}
    (h : firstUnseen? seen queue = none) : ∀ item ∈ queue, item.identity ∈ seen := by
  induction queue with
  | nil => simp
  | cons head tail ih =>
    simp only [firstUnseen?] at h
    split at h
    · rename_i hseen
      intro item hitem
      rcases List.mem_cons.1 hitem with rfl | hitem
      · simpa using hseen
      · exact ih h item hitem
    · simp at h

/-- If an item is taken, all methods in front of it were seen. -/
theorem firstUnseen?_eq_some {seen : List UInt64} {queue rest : List WorkItem} {item : WorkItem}
    (h : firstUnseen? seen queue = some (item, rest)) :
    ∃ passed, queue = passed ++ item :: rest ∧ ∀ other ∈ passed, other.identity ∈ seen := by
  induction queue with
  | nil => simp [firstUnseen?] at h
  | cons head tail ih =>
    simp only [firstUnseen?] at h
    split at h
    · rename_i hseen
      obtain ⟨passed, hqueue, hpassed⟩ := ih h
      refine ⟨head :: passed, by rw [hqueue, List.cons_append], ?_⟩
      intro other hother
      rcases List.mem_cons.1 hother with rfl | hother
      · simpa using hseen
      · exact hpassed other hother
    · simp only [Option.some.injEq, Prod.mk.injEq] at h
      obtain ⟨rfl, rfl⟩ := h
      exact ⟨[], rfl, by simp⟩

/-- Nothing is taken only if every queued method was taken before. -/
theorem next_eq_none {scheduler after : Scheduler} (h : scheduler.next = (none, after)) :
    (∀ item ∈ scheduler.queue, item.identity ∈ scheduler.seen) ∧
      after = { scheduler with queue := [] } := by
  unfold next at h
  split at h
  · rename_i hfirst
    simp only [Prod.mk.injEq, true_and] at h
    exact ⟨firstUnseen?_eq_none hfirst, h.symm⟩
  · simp at h

/-- What is taken is the first item of the queue whose method was not taken before. -/
theorem next_eq_some {scheduler after : Scheduler} {item : WorkItem}
    (h : scheduler.next = (some item, after)) :
    ∃ passed rest, scheduler.queue = passed ++ item :: rest ∧
      (∀ other ∈ passed, other.identity ∈ scheduler.seen) ∧ item.identity ∉ scheduler.seen ∧
      after = scheduler.taking item rest := by
  have hnew := (seen_of_next_eq h).1
  unfold next at h
  split at h
  · simp at h
  · rename_i item' rest hfirst
    simp only [Prod.mk.injEq, Option.some.injEq] at h
    obtain ⟨rfl, rfl⟩ := h
    obtain ⟨passed, hqueue, hpassed⟩ := firstUnseen?_eq_some hfirst
    exact ⟨passed, rest, hqueue, hpassed, hnew, rfl⟩

/-- The first item whose method was not taken before is the one that is taken. -/
theorem next_of_queue_eq {scheduler : Scheduler} {passed rest : List WorkItem} {item : WorkItem}
    (hqueue : scheduler.queue = passed ++ item :: rest)
    (hpassed : ∀ other ∈ passed, other.identity ∈ scheduler.seen)
    (hnew : item.identity ∉ scheduler.seen) :
    scheduler.next = (some item, scheduler.taking item rest) := by
  have hfirst : firstUnseen? scheduler.seen (passed ++ item :: rest) = some (item, rest) := by
    clear hqueue
    induction passed with
    | nil =>
      have hnot : ¬ scheduler.seen.contains item.identity = true := by simpa using hnew
      rw [List.nil_append, firstUnseen?, if_neg hnot]
    | cons head tail ih =>
      have hseen : scheduler.seen.contains head.identity = true := by
        simpa using hpassed head List.mem_cons_self
      rw [List.cons_append, firstUnseen?, if_pos hseen]
      exact ih fun other hother => hpassed other (List.mem_cons_of_mem _ hother)
  unfold next
  rw [hqueue, hfirst]
  rfl

/-! ## Layers -/

/-- The depths of the queue ascend, and none of them lies below `depth` or more than one call beyond
it. -/
structure Layered (depth : UInt32) (queue : List WorkItem) : Prop where
  ascending : queue.Pairwise fun a b => a.depth ≤ b.depth
  within : ∀ item ∈ queue, depth ≤ item.depth ∧ item.depth ≤ nextDepth depth

/-- A queue of one item is layered. -/
theorem Layered.singleton (item : WorkItem) : Layered item.depth [item] := by
  refine ⟨List.pairwise_singleton _ _, ?_⟩
  intro other hother
  rw [List.mem_singleton.1 hother]
  exact ⟨UInt32.le_refl _, le_nextDepth _⟩

/-- What stands behind a taken item is layered from the depth of that item on. -/
theorem Layered.behind {depth : UInt32} {passed rest : List WorkItem} {item : WorkItem}
    (h : Layered depth (passed ++ item :: rest)) : Layered item.depth rest := by
  have hcons := (List.pairwise_append.1 h.ascending).2.1
  obtain ⟨hbehind, hrest⟩ := List.pairwise_cons.1 hcons
  refine ⟨hrest, ?_⟩
  intro other hother
  have hitem := h.within item (List.mem_append_right _ List.mem_cons_self)
  have hwithin := h.within other (List.mem_append_right _ (List.mem_cons_of_mem _ hother))
  exact ⟨hbehind other hother, UInt32.le_trans hwithin.2 (nextDepth_mono hitem.1)⟩

/-- Items one call further keep the queue layered. -/
theorem Layered.append {depth : UInt32} {queue items : List WorkItem} (h : Layered depth queue)
    (hitems : ∀ item ∈ items, item.depth = nextDepth depth) : Layered depth (queue ++ items) := by
  constructor
  · rw [List.pairwise_append]
    refine ⟨h.ascending, ?_, ?_⟩
    · refine List.pairwise_of_forall_mem_list ?_
      intro a ha b hb
      rw [hitems a ha, hitems b hb]
      exact UInt32.le_refl _
    · intro a ha b hb
      rw [hitems b hb]
      exact (h.within a ha).2
  · intro item hitem
    rcases List.mem_append.1 hitem with hitem | hitem
    · exact h.within item hitem
    · rw [hitems item hitem]
      exact ⟨le_nextDepth depth, UInt32.le_refl _⟩

end Scheduler

end CodeListing
