import CodeListing.Proofs.CallGraph
import CodeListing.Proofs.Visits
import Mathlib.Data.List.Nodup

/-!
# A run visits what lies within its depth

A run from an entry takes exactly the methods whose distance from the entry in the call graph is at
most the depth of the run, each with its distance as depth, nearer ones first.

The invariant is `Explored`.  It relates the methods taken so far, the queue and the names.  A
callee is covered up to some depth if an item for it with at most that depth was taken or is queued,
or if the run does not go that deep.  Callees of methods taken are covered one call further.  So is
every method at an address that has a name, which is why an address that has a name already can be
passed over.
-/

set_option autoImplicit false

namespace CodeListing

variable {σ : Type}

/-- The run does not go as deep as `depth`, or there is an item for the method that is no deeper. -/
def Covered (maxDepth : UInt32) (items : List WorkItem) (method : Method) (depth : Nat) : Prop :=
  maxDepth.toNat < depth ∨ ∃ item ∈ items, item.method = method ∧ item.depth.toNat ≤ depth

/-- A method that is covered at a depth is covered at greater depths. -/
theorem Covered.deeper {maxDepth : UInt32} {items : List WorkItem} {method : Method}
    {depth depth' : Nat} (h : Covered maxDepth items method depth) (hle : depth ≤ depth') :
    Covered maxDepth items method depth' := by
  rcases h with h | ⟨item, hitem, hmethod, hdepth⟩
  · exact Or.inl (by omega)
  · exact Or.inr ⟨item, hitem, hmethod, by omega⟩

/-- A method that is covered by some items is covered by more items. -/
theorem Covered.subset {maxDepth : UInt32} {items items' : List WorkItem} {method : Method}
    {depth : Nat} (h : Covered maxDepth items method depth) (hsub : items ⊆ items') :
    Covered maxDepth items' method depth := by
  rcases h with h | ⟨item, hitem, hmethod, hdepth⟩
  · exact Or.inl h
  · exact Or.inr ⟨item, hsub hitem, hmethod, hdepth⟩

/-- What a run knows after it has taken the items of `done`, the last of them with this depth. -/
structure Explored (context : Context σ) (s : σ) (entry : Method) (methods : List Method)
    (maxDepth : UInt32) (done : List WorkItem) (depth : UInt32) (state : RunState) : Prop where
  maxDepth_eq : state.scheduler.maxDepth = maxDepth
  seen_iff : ∀ identity, identity ∈ state.scheduler.seen ↔ ∃ item ∈ done, item.identity = identity
  layered : Scheduler.Layered depth state.scheduler.queue
  below : ∀ item ∈ done, item.depth ≤ depth
  ascending : done.Pairwise fun a b => a.depth ≤ b.depth
  known : ∀ item ∈ done ++ state.scheduler.queue, item.method ∈ methods
  shallow : ∀ item ∈ done ++ state.scheduler.queue, item.depth ≤ maxDepth
  path : ∀ item ∈ done ++ state.scheduler.queue,
    context.CallPath s entry item.depth.toNat item.method
  started : Covered maxDepth (done ++ state.scheduler.queue) entry 0
  closed : ∀ item ∈ done, ∀ callee, context.Calls s item.method callee →
    Covered maxDepth (done ++ state.scheduler.queue) callee (item.depth.toNat + 1)
  named : ∀ address callee, state.names.get? address ≠ none →
    context.findingAt s address = .method callee →
    Covered maxDepth (done ++ state.scheduler.queue) callee (depth.toNat + 1)

namespace Explored

variable {context : Context σ} {s : σ} {entry : Method} {methods : List Method}
  {maxDepth depth : UInt32} {done : List WorkItem} {state : RunState}

/-- Methods with one code address are one method. -/
theorem eq_of_identity_eq (hcodes : (methods.map (·.nativeCode)).Nodup) {method other : Method}
    (hmethod : method ∈ methods) (hother : other ∈ methods)
    (h : method.identity = other.identity) : method = other :=
  List.inj_on_of_nodup_map hcodes hmethod hother h

/-- An item that is queued for a method taken before is no less deep than the one that was taken. -/
theorem exists_done_of_seen (h : Explored context s entry methods maxDepth done depth state)
    (hcodes : (methods.map (·.nativeCode)).Nodup) {item : WorkItem}
    (hmethod : item.method ∈ methods) (hdepth : depth ≤ item.depth)
    (hseen : item.identity ∈ state.scheduler.seen) :
    ∃ earlier ∈ done, earlier.method = item.method ∧ earlier.depth ≤ item.depth := by
  obtain ⟨earlier, hearlier, hidentity⟩ := (h.seen_iff _).1 hseen
  refine ⟨earlier, hearlier, ?_, UInt32.le_trans (h.below earlier hearlier) hdepth⟩
  have hknown := h.known earlier (List.mem_append_left _ hearlier)
  exact eq_of_identity_eq hcodes hknown hmethod hidentity

/-- Items that are passed over are not needed to cover a method. -/
theorem covered_behind (h : Explored context s entry methods maxDepth done depth state)
    (hcodes : (methods.map (·.nativeCode)).Nodup) {passed rest : List WorkItem}
    (hqueue : state.scheduler.queue = passed ++ rest)
    (hpassed : ∀ item ∈ passed, item.identity ∈ state.scheduler.seen) {method : Method} {n : Nat}
    (hcovered : Covered maxDepth (done ++ state.scheduler.queue) method n) :
    Covered maxDepth (done ++ rest) method n := by
  rcases hcovered with hdeep | ⟨item, hitem, rfl, hdepth⟩
  · exact Or.inl hdeep
  rw [hqueue, ← List.append_assoc, List.mem_append, List.mem_append] at hitem
  rcases hitem with (hitem | hitem) | hitem
  · exact Or.inr ⟨item, List.mem_append_left _ hitem, rfl, hdepth⟩
  · have hmem : item ∈ state.scheduler.queue := by
      rw [hqueue]
      exact List.mem_append_left _ hitem
    obtain ⟨earlier, hearlier, hmethod, hle⟩ := h.exists_done_of_seen hcodes
      (h.known item (List.mem_append_right _ hmem)) (h.layered.within item hmem).1
      (hpassed item hitem)
    refine Or.inr ⟨earlier, List.mem_append_left _ hearlier, hmethod, ?_⟩
    exact Nat.le_trans (UInt32.le_iff_toNat_le.1 hle) hdepth
  · exact Or.inr ⟨item, List.mem_append_right _ hitem, rfl, hdepth⟩

/-! ## One visit -/

section Visit

variable {item : WorkItem} {passed rest : List WorkItem} {outcome : Context.Outcome}
  (hsteady : context.provider.StandsStill)
  (hfinds : ∀ address s method, ((context.provider.methodAt? address).run s).1 = some method →
    method ∈ methods)
  (hcodes : (methods.map (·.nativeCode)).Nodup) (hmax : maxDepth < 0xFFFFFFFF)
  (h : Explored context s entry methods maxDepth done depth state)
  (hqueue : state.scheduler.queue = passed ++ item :: rest)
  (hpassed : ∀ other ∈ passed, other.identity ∈ state.scheduler.seen)
  (hfound : ((context.listMethod state.names item).run s).1.findings = outcome.findings)

include h hqueue in
/-- The item is among those done and queued, and it is no less deep. -/
theorem item_mem : item ∈ done ++ state.scheduler.queue ∧ depth ≤ item.depth := by
  have hmem : item ∈ state.scheduler.queue := by
    rw [hqueue]
    exact List.mem_append_right _ List.mem_cons_self
  exact ⟨List.mem_append_right _ hmem, (h.layered.within item hmem).1⟩

include h hcodes hqueue hpassed in
/-- What was covered stays so. -/
theorem covered_after {method : Method} {n : Nat}
    (hcovered : Covered maxDepth (done ++ state.scheduler.queue) method n) :
    Covered maxDepth (done ++ [item] ++ (state.after item rest outcome).scheduler.queue)
      method n := by
  refine (h.covered_behind hcodes hqueue hpassed hcovered).subset ?_
  intro other hother
  simp only [List.mem_append, List.mem_cons, List.not_mem_nil, or_false] at hother ⊢
  rcases hother with hother | rfl | hother
  · exact Or.inl (Or.inl hother)
  · exact Or.inl (Or.inr rfl)
  · exact Or.inr (RunState.mem_queue_after.2 (Or.inl hother))

include hfound in
/-- A callee lies one call deeper than the method that calls it. -/
theorem depth_of_mem_callees {callee : WorkItem} (hcallee : callee ∈ outcome.findings.callees) :
    callee.depth = nextDepth item.depth := by
  rw [← hfound] at hcallee
  exact context.depth_of_mem_callees state.names item s callee hcallee

include hfinds hfound in
/-- A callee is one of the methods of the snapshot. -/
theorem known_of_mem_callees {callee : WorkItem} (hcallee : callee ∈ outcome.findings.callees) :
    callee.method ∈ methods := by
  rw [← hfound] at hcallee
  exact Context.forall_callee_listMethod hfinds state.names item s callee hcallee

include h hqueue hmax in
/-- The depth of the callees is one more than that of the item, without saturation. -/
theorem toNat_nextDepth_item : (nextDepth item.depth).toNat = item.depth.toNat + 1 := by
  apply toNat_nextDepth
  exact UInt32.lt_of_le_of_lt (h.shallow item (item_mem h hqueue).1) hmax

include h hfinds hcodes hmax hqueue hfound in
/-- A callee that was found is covered: it is queued, or too deep, or taken before. -/
theorem covered_callee {callee : WorkItem} (hcallee : callee ∈ outcome.findings.callees) :
    Covered maxDepth (done ++ [item] ++ (state.after item rest outcome).scheduler.queue)
      callee.method (item.depth.toNat + 1) := by
  have hnext := toNat_nextDepth_item hmax h hqueue
  have hdepth := depth_of_mem_callees hfound hcallee
  by_cases hdeep : callee.depth ≤ maxDepth
  · by_cases hseen : callee.identity ∈ item.identity :: state.scheduler.seen
    · -- It was taken before, and what was taken before is no deeper than the item.
      have hmethod := known_of_mem_callees hfinds hfound hcallee
      rcases List.mem_cons.1 hseen with hsame | hseen
      · have heq : item.method = callee.method :=
          eq_of_identity_eq hcodes (h.known item (item_mem h hqueue).1) hmethod hsame.symm
        exact Or.inr ⟨item, by simp, heq, Nat.le_succ _⟩
      · have hle : depth ≤ callee.depth := by
          rw [hdepth]
          exact UInt32.le_trans (item_mem h hqueue).2 (le_nextDepth item.depth)
        obtain ⟨earlier, hearlier, heq, hle⟩ := h.exists_done_of_seen hcodes hmethod hle hseen
        refine Or.inr ⟨earlier, by simp [hearlier], heq, ?_⟩
        rw [UInt32.le_iff_toNat_le, hdepth, hnext] at hle
        exact hle
    · have hqueued : callee ∈ (state.after item rest outcome).scheduler.queue := by
        rw [RunState.mem_queue_after, h.maxDepth_eq]
        exact Or.inr ⟨hcallee, hdeep, hseen⟩
      refine Or.inr ⟨callee, List.mem_append_right _ hqueued, rfl, Nat.le_of_eq ?_⟩
      rw [hdepth, hnext]
  · left
    rw [hdepth, UInt32.le_iff_toNat_le, hnext] at hdeep
    omega

include hsteady h hfinds hcodes hmax hqueue hpassed hfound in
/-- Methods at addresses that have names after the visit are covered one call beyond the item. -/
theorem covered_named {address : UInt64} {callee : Method}
    (hnamed : outcome.findings.names.get? address ≠ none)
    (hfinding : context.findingAt s address = .method callee) :
    Covered maxDepth (done ++ [item] ++ (state.after item rest outcome).scheduler.queue)
      callee (item.depth.toNat + 1) := by
  rw [← hfound] at hnamed
  rcases Context.named_before_or_mem_callees hsteady hnamed hfinding with hbefore | hcallee
  · refine (covered_after hcodes h hqueue hpassed
      (h.named address callee hbefore hfinding)).deeper ?_
    have hle := UInt32.le_iff_toNat_le.1 (item_mem h hqueue).2
    omega
  · rw [hfound] at hcallee
    exact covered_callee hfinds hcodes hmax h hqueue hfound hcallee

include hsteady h hfinds hcodes hmax hqueue hpassed hfound in
/-- Taking an item and listing its method keeps the invariant. -/
theorem visit : Explored context s entry methods maxDepth (done ++ [item]) item.depth
    (state.after item rest outcome) := by
  obtain ⟨hitem, hdepth⟩ := item_mem h hqueue
  have hrest : ∀ other ∈ rest, other ∈ done ++ state.scheduler.queue := by
    intro other hother
    rw [hqueue]
    simp [hother]
  -- Everything that is taken or queued afterwards was so before, or is a callee that was found.
  have horigin : ∀ other ∈ done ++ [item] ++ (state.after item rest outcome).scheduler.queue,
      other ∈ done ++ state.scheduler.queue ∨
        other ∈ outcome.findings.callees ∧ other.depth ≤ maxDepth := by
    intro other hother
    rcases List.mem_append.1 hother with hother | hother
    · rcases List.mem_append.1 hother with hother | hother
      · exact Or.inl (List.mem_append_left _ hother)
      · rw [List.mem_singleton.1 hother]
        exact Or.inl hitem
    · rcases RunState.mem_queue_after.1 hother with hother | ⟨hother, hle, -⟩
      · exact Or.inl (hrest other hother)
      · rw [h.maxDepth_eq] at hle
        exact Or.inr ⟨hother, hle⟩
  refine ⟨?_, ?_, ?_, ?_, ?_, ?_, ?_, ?_, ?_, ?_, ?_⟩
  · rw [RunState.maxDepth_after]
    exact h.maxDepth_eq
  · intro identity
    rw [RunState.seen_after, List.mem_cons, h.seen_iff]
    simp only [List.mem_append, List.mem_singleton]
    constructor
    · rintro (rfl | ⟨earlier, hearlier, heq⟩)
      · exact ⟨item, Or.inr rfl, rfl⟩
      · exact ⟨earlier, Or.inl hearlier, heq⟩
    · rintro ⟨earlier, hearlier | rfl, heq⟩
      · exact Or.inr ⟨earlier, hearlier, heq⟩
      · exact Or.inl heq.symm
  · have hlayered := h.layered
    rw [hqueue] at hlayered
    exact RunState.layered_after hlayered fun _ => depth_of_mem_callees hfound
  · intro other hother
    rcases List.mem_append.1 hother with hother | hother
    · exact UInt32.le_trans (h.below other hother) hdepth
    · rw [List.mem_singleton.1 hother]
      exact UInt32.le_refl _
  · rw [List.pairwise_append]
    refine ⟨h.ascending, List.pairwise_singleton _ _, ?_⟩
    intro earlier hearlier other hother
    rw [List.mem_singleton.1 hother]
    exact UInt32.le_trans (h.below earlier hearlier) hdepth
  · intro other hother
    rcases horigin other hother with hother | ⟨hcallee, -⟩
    · exact h.known other hother
    · exact known_of_mem_callees hfinds hfound hcallee
  · intro other hother
    rcases horigin other hother with hother | ⟨-, hle⟩
    · exact h.shallow other hother
    · exact hle
  · intro other hother
    rcases horigin other hother with hother | ⟨hcallee, -⟩
    · exact h.path other hother
    · rw [depth_of_mem_callees hfound hcallee, toNat_nextDepth_item hmax h hqueue]
      rw [← hfound] at hcallee
      exact .call (h.path item hitem) (Context.calls_of_mem_callees hsteady hcallee)
  · exact covered_after hcodes h hqueue hpassed h.started
  · intro caller hcaller callee hcalls
    rcases List.mem_append.1 hcaller with hcaller | hcaller
    · exact covered_after hcodes h hqueue hpassed (h.closed caller hcaller callee hcalls)
    · rw [List.mem_singleton.1 hcaller] at hcalls ⊢
      obtain ⟨address, hnamed, hfinding⟩ := Context.exists_named_of_calls hsteady hcalls
      rw [hfound] at hnamed
      exact covered_named hsteady hfinds hcodes hmax h hqueue hpassed hfound hnamed hfinding
  · intro address callee hnamed hfinding
    exact covered_named hsteady hfinds hcodes hmax h hqueue hpassed hfound hnamed hfinding

end Visit

/-! ## Whole runs -/

/-- At the start of a run only the entry is queued and no address has a name. -/
theorem start (hentry : entry ∈ methods) (maxDepth : UInt32) :
    Explored context s entry methods maxDepth [] 0
      { scheduler := { queue := [⟨entry, 0⟩], maxDepth } } where
  maxDepth_eq := rfl
  seen_iff := by simp
  layered := .singleton ⟨entry, 0⟩
  below := by simp
  ascending := List.Pairwise.nil
  known := by simpa using hentry
  shallow := by
    intro item hitem
    rw [List.mem_singleton.1 hitem, UInt32.le_iff_toNat_le]
    exact Nat.zero_le _
  path := by
    intro item hitem
    rw [List.mem_singleton.1 hitem]
    exact .entry
  started := Or.inr ⟨⟨entry, 0⟩, by simp, rfl, Nat.le_refl 0⟩
  closed := by simp
  named := by
    intro address callee hnamed
    exact absurd rfl hnamed

/-- The invariant holds through all visits of a run, up to a state where nothing can be taken. -/
theorem drains {final : RunState} {t t' : σ} {visits : List Visit}
    (hdrains : context.Drains state t visits final t') (hsteady : context.provider.StandsStill)
    (hfinds : ∀ address s method, ((context.provider.methodAt? address).run s).1 = some method →
      method ∈ methods)
    (hcodes : (methods.map (·.nativeCode)).Nodup) (hmax : maxDepth < 0xFFFFFFFF)
    (h : Explored context s entry methods maxDepth done depth state) :
    ∃ depth' last, Explored context s entry methods maxDepth (done ++ visits.map (·.item)) depth'
      last ∧ ∀ item ∈ last.scheduler.queue, item.identity ∈ last.scheduler.seen := by
  induction hdrains generalizing done depth with
  | @idle state t scheduler hnext =>
    refine ⟨depth, state, ?_, (Scheduler.next_eq_none hnext).1⟩
    rw [List.map_nil, List.append_nil]
    exact h
  | @visit state final t t' t'' scheduler item outcome visits hnext hlist _ ih =>
    obtain ⟨passed, rest, hqueue, hpassed, -, rfl⟩ := Scheduler.next_eq_some hnext
    have hfound : ((context.listMethod state.names item).run s).1.findings = outcome.findings := by
      rw [Context.findings_listMethod_eq hsteady state.names item s t, hlist]
    have hvisit := visit hsteady hfinds hcodes hmax h hqueue hpassed hfound
    obtain ⟨depth', last, hlast, hidle⟩ := ih hvisit
    refine ⟨depth', last, ?_, hidle⟩
    rw [List.map_cons, List.append_cons]
    exact hlast

/-- Once nothing can be taken, every method that is not too far from the entry was taken. -/
theorem exists_done_of_path (h : Explored context s entry methods maxDepth done depth state)
    (hcodes : (methods.map (·.nativeCode)).Nodup)
    (hidle : ∀ item ∈ state.scheduler.queue, item.identity ∈ state.scheduler.seen) {n : Nat}
    {method : Method} (hpath : context.CallPath s entry n method) (hn : n ≤ maxDepth.toNat) :
    ∃ item ∈ done, item.method = method ∧ item.depth.toNat ≤ n := by
  -- With nothing left to take, a method that is covered within the depth was taken.
  have hdone : ∀ {method : Method} {n : Nat}, n ≤ maxDepth.toNat →
      Covered maxDepth (done ++ state.scheduler.queue) method n →
      ∃ item ∈ done, item.method = method ∧ item.depth.toNat ≤ n := by
    intro method n hn hcovered
    have hcovered' := h.covered_behind hcodes (List.append_nil _).symm hidle hcovered
    rw [List.append_nil] at hcovered'
    rcases hcovered' with hdeep | hitem
    · omega
    · exact hitem
  induction hpath with
  | entry => exact hdone hn h.started
  | @call n caller callee _ hcall ih =>
    obtain ⟨item, hitem, rfl, hdepth⟩ := ih (by omega)
    refine hdone hn ((h.closed item hitem callee hcall).deeper ?_)
    omega

/-- Once nothing can be taken, every item was taken with the distance of its method as depth. -/
theorem callDistance_of_mem_done (h : Explored context s entry methods maxDepth done depth state)
    (hcodes : (methods.map (·.nativeCode)).Nodup)
    (hidle : ∀ item ∈ state.scheduler.queue, item.identity ∈ state.scheduler.seen)
    (hnodup : (done.map (·.identity)).Nodup) {item : WorkItem} (hitem : item ∈ done) :
    context.CallDistance s entry item.method item.depth.toNat := by
  refine ⟨h.path item (List.mem_append_left _ hitem), ?_⟩
  intro n hpath
  by_cases hn : n ≤ maxDepth.toNat
  · -- The chain leads to an item that was taken, and no method was taken twice.
    obtain ⟨other, hother, hmethod, hle⟩ := h.exists_done_of_path hcodes hidle hpath hn
    have heq : other = item :=
      List.inj_on_of_nodup_map hnodup hother hitem (congrArg Method.identity hmethod)
    rw [← heq]
    exact hle
  · have hle := UInt32.le_iff_toNat_le.1 (h.shallow item (List.mem_append_left _ hitem))
    omega

end Explored

namespace Disassembler

/-- Over a snapshot whose methods have different code addresses, a run from one of them takes
exactly the methods whose distance from the entry is at most the depth of the run, each once and
with its distance as depth, in the order of their distances. -/
theorem visits_eq_within_distance {index : SnapshotIndex}
    {disassembler disassembler' : Disassembler} {entry : Method}
    {sourceOf : Option (SourceLocator σ)} {context : Context σ} (s : σ)
    (hcontext : disassembler.context (index.provider σ) sourceOf = .ok (context, disassembler'))
    (hcodes : (index.snapshot.methods.map (·.nativeCode)).Nodup)
    (hentry : entry ∈ index.snapshot.methods)
    (hdepth : entryDepth disassembler.settings entry < 0xFFFFFFFF) :
    ∃ visits final s',
      context.Drains (entryState disassembler.settings entry) s visits final s' ∧
      (disassembler.run (index.provider σ) entry sourceOf).run s =
        ((.ok (context.finish (withoutWrappers (visits.map (·.outcome.listing))) final),
          disassembler'), s') ∧
      (∀ method, method ∈ visits.map (·.item.method) ↔
        ∃ n ≤ (entryDepth disassembler.settings entry).toNat,
          context.CallDistance s entry method n) ∧
      (∀ visit ∈ visits, context.CallDistance s entry visit.item.method visit.item.depth.toNat) ∧
      (visits.map (·.item.method)).Nodup ∧
      visits.Pairwise fun earlier later => earlier.item.depth ≤ later.item.depth := by
  obtain ⟨hprovider, -⟩ := context_eq_ok hcontext
  have hsteady : context.provider.StandsStill := standsStill_of_context hcontext
  have hfinds : ∀ address s method, ((context.provider.methodAt? address).run s).1 = some method →
      method ∈ index.snapshot.methods := by
    rw [hprovider]
    exact index.mem_methods_of_methodAt?
  obtain ⟨visits, final, s', hdrains⟩ :=
    context.exists_drains (entryState disassembler.settings entry) s
  obtain ⟨depth, last, h, hidle⟩ := Explored.drains hdrains hsteady hfinds hcodes hdepth
    (Explored.start hentry _)
  rw [List.nil_append] at h
  have hnodup : ((visits.map (·.item)).map (·.identity)).Nodup := by
    rw [List.map_map]
    exact hdrains.identities.2
  have hdistance : ∀ visit ∈ visits,
      context.CallDistance s entry visit.item.method visit.item.depth.toNat := fun visit hvisit =>
    h.callDistance_of_mem_done hcodes hidle hnodup (List.mem_map_of_mem hvisit)
  refine ⟨visits, final, s', hdrains, run_eq_of_drains hcontext hdrains, ?_, hdistance, ?_, ?_⟩
  · intro method
    rw [List.mem_map]
    constructor
    · rintro ⟨visit, hvisit, rfl⟩
      refine ⟨visit.item.depth.toNat, ?_, hdistance visit hvisit⟩
      have hmem : visit.item ∈ visits.map (·.item) := List.mem_map_of_mem hvisit
      exact UInt32.le_iff_toNat_le.1 (h.shallow visit.item (List.mem_append_left _ hmem))
    · rintro ⟨n, hn, hmethod⟩
      obtain ⟨item, hitem, heq, -⟩ := h.exists_done_of_path hcodes hidle hmethod.path hn
      obtain ⟨visit, hvisit, rfl⟩ := List.mem_map.1 hitem
      exact ⟨visit, hvisit, heq⟩
  · rw [List.map_map] at hnodup
    refine List.Nodup.of_map Method.identity ?_
    rw [List.map_map]
    exact hnodup
  · have hascending := List.pairwise_map.1 h.ascending
    exact hascending

/-- Of two methods that call each other, a run of depth one takes those within one call. -/
theorem visits_eq_of_mutual_calls :
    ∃ visits final s',
      (MutualCalls.context 1 [MutualCalls.ping, MutualCalls.pong]).Drains
        (entryState { maxDepth := 1 } MutualCalls.ping) () visits final s' ∧
      ∀ method, method ∈ visits.map (·.item.method) ↔
        ∃ n ≤ 1, (MutualCalls.context 1 [MutualCalls.ping, MutualCalls.pong]).CallDistance ()
          MutualCalls.ping method n := by
  obtain ⟨disassembler', hcontext⟩ := MutualCalls.context_eq 1 [MutualCalls.ping, MutualCalls.pong]
  obtain ⟨visits, final, s', hdrains, -, hmethods, -, -, -⟩ :=
    visits_eq_within_distance () hcontext (by decide) List.mem_cons_self (by decide)
  exact ⟨visits, final, s', hdrains, hmethods⟩

end Disassembler

end CodeListing
