import CodeListing.Proofs.Steady

/-!
# The visits of a run

A run takes one item after the other from the queue and lists its method.  `Context.Drains` is this
loop as a relation: it holds of the visits that are made, in order, until nothing can be taken.  A
derivation is finite, so that one exists (`Context.exists_drains`) says that the loop ends.

`Drains.run_drain_eq` ties the relation to the function that runs, and every statement about a run
is then proved by induction over its visits: what one visit preserves, the run preserves.
-/

set_option autoImplicit false

namespace CodeListing

variable {σ : Type}

namespace RunState

/-- The state after the item was taken, with what stood behind it still queued, and its method
listed. -/
def after (state : RunState) (item : WorkItem) (behind : List WorkItem)
    (outcome : Context.Outcome) : RunState :=
  { state with scheduler := state.scheduler.taking item behind }.absorb outcome

variable (state : RunState) (item : WorkItem) (behind : List WorkItem) (outcome : Context.Outcome)

/-- After a visit the names are those that it found. -/
@[simp] theorem names_after : (state.after item behind outcome).names = outcome.findings.names :=
  rfl

/-- After a visit its error is noted behind the others. -/
@[simp] theorem errors_after :
    (state.after item behind outcome).errors = state.errors ++ outcome.error.toList := rfl

/-- After a visit its method is seen. -/
@[simp] theorem seen_after :
    (state.after item behind outcome).scheduler.seen = item.identity :: state.scheduler.seen :=
  Scheduler.seen_enqueueAll _ _

/-- A visit does not change the largest depth. -/
@[simp] theorem maxDepth_after :
    (state.after item behind outcome).scheduler.maxDepth = state.scheduler.maxDepth :=
  Scheduler.maxDepth_enqueueAll _ _

/-- What is queued after a visit stood behind the item or is an accepted callee. -/
theorem queue_after : (state.after item behind outcome).scheduler.queue =
    behind ++ outcome.findings.callees.filter (state.scheduler.taking item behind).accepts := by
  unfold after absorb
  rw [Scheduler.enqueueAll_eq, Scheduler.queue_taking]

variable {state item behind outcome}

/-- After a visit there is what was behind its item and the callees that are accepted. -/
theorem mem_queue_after {other : WorkItem} :
    other ∈ (state.after item behind outcome).scheduler.queue ↔
      other ∈ behind ∨ other ∈ outcome.findings.callees ∧
        other.depth ≤ state.scheduler.maxDepth ∧
        other.identity ∉ item.identity :: state.scheduler.seen := by
  rw [queue_after, List.mem_append, List.mem_filter, Scheduler.accepts_iff,
    Scheduler.maxDepth_taking, Scheduler.seen_taking]

/-- A visit that finds callees one call further keeps the queue layered. -/
theorem layered_after {depth : UInt32} {passed : List WorkItem}
    (h : Scheduler.Layered depth (passed ++ item :: behind))
    (hcallees : ∀ callee ∈ outcome.findings.callees, callee.depth = nextDepth item.depth) :
    Scheduler.Layered item.depth (state.after item behind outcome).scheduler.queue := by
  rw [queue_after]
  refine h.behind.append ?_
  intro callee hcallee
  exact hcallees callee (List.mem_filter.1 hcallee).1

end RunState

/-- An item that was taken from the queue, and what listing its method brought. -/
structure Visit where
  item : WorkItem
  outcome : Context.Outcome

/-- The loop of a run from one state to another with the visits that it makes. -/
inductive Context.Drains (context : Context σ) : RunState → σ → List Visit → RunState → σ → Prop
  | idle {state : RunState} {s : σ} {scheduler : Scheduler}
      (hnext : state.scheduler.next = (none, scheduler)) :
      Drains context state s [] { state with scheduler } s
  | visit {state final : RunState} {s s' s'' : σ} {scheduler : Scheduler} {item : WorkItem}
      {outcome : Outcome} {visits : List Visit}
      (hnext : state.scheduler.next = (some item, scheduler))
      (hlist : (context.listMethod state.names item).run s = (outcome, s'))
      (hrest : Drains context ({ state with scheduler }.absorb outcome) s' visits final s'') :
      Drains context state s (⟨item, outcome⟩ :: visits) final s''

namespace Context

/-- The loop ends from every state: each visit leaves fewer methods that can still be taken. -/
theorem exists_drains (context : Context σ) (state : RunState) (s : σ) :
    ∃ visits final s', context.Drains state s visits final s' := by
  -- The queue may grow with every visit, so the measure leaves it out.
  induction hn : state.scheduler.unseen using Nat.strongRecOn generalizing state s with
  | _ n ih =>
    rcases hnext : state.scheduler.next with ⟨taken, scheduler⟩
    cases taken with
    | none => exact ⟨[], _, s, .idle hnext⟩
    | some item =>
      rcases hlist : (context.listMethod state.names item).run s with ⟨outcome, s'⟩
      have hless : ({ state with scheduler }.absorb outcome).scheduler.unseen < n := by
        rw [RunState.unseen_absorb, ← hn]
        exact Scheduler.unseen_lt_of_next_eq hnext
      obtain ⟨visits, final, s'', hrest⟩ := ih _ hless _ s' rfl
      exact ⟨_, final, s'', .visit hnext hlist hrest⟩

variable {context : Context σ} {state final final' : RunState} {s s' s'' : σ}
  {visits visits' : List Visit}

/-- The function that runs the loop gives the listings of its visits. -/
theorem Drains.run_drain_eq (h : context.Drains state s visits final s') :
    (context.drain state).run s = ((visits.map (·.outcome.listing), final), s') := by
  induction h with
  | idle hnext =>
    unfold drain
    split
    · rename_i heq
      rw [hnext] at heq
      cases heq
      rfl
    · rename_i heq
      rw [hnext] at heq
      cases heq
  | visit hnext hlist _ ih =>
    unfold drain
    split
    · rename_i heq
      rw [hnext] at heq
      cases heq
    · rename_i heq
      rw [hnext] at heq
      cases heq
      rw [run_bind, hlist, run_bind, ih]
      rfl

/-- The visits of a run are determined by its start. -/
theorem Drains.unique (h : context.Drains state s visits final s')
    (h' : context.Drains state s visits' final' s'') :
    visits = visits' ∧ final = final' ∧ s' = s'' := by
  induction h generalizing visits' with
  | idle hnext =>
    cases h' with
    | idle hnext' =>
      rw [hnext] at hnext'
      cases hnext'
      exact ⟨rfl, rfl, rfl⟩
    | visit hnext' =>
      rw [hnext] at hnext'
      cases hnext'
  | visit hnext hlist _ ih =>
    cases h' with
    | idle hnext' =>
      rw [hnext] at hnext'
      cases hnext'
    | visit hnext' hlist' hrest' =>
      rw [hnext] at hnext'
      cases hnext'
      rw [hlist] at hlist'
      cases hlist'
      obtain ⟨rfl, rfl, rfl⟩ := ih hrest'
      exact ⟨rfl, rfl, rfl⟩

/-- A visit is made exactly if some queued method was not taken before. -/
theorem Drains.ne_nil_iff (h : context.Drains state s visits final s') :
    visits ≠ [] ↔ ∃ item ∈ state.scheduler.queue, item.identity ∉ state.scheduler.seen := by
  cases h with
  | idle hnext =>
    constructor
    · intro hne
      exact absurd rfl hne
    · rintro ⟨item, hitem, hnew⟩
      exact absurd ((Scheduler.next_eq_none hnext).1 item hitem) hnew
  | @visit _ _ _ _ _ _ item outcome visits hnext =>
    obtain ⟨passed, rest, hqueue, -, hnew, -⟩ := Scheduler.next_eq_some hnext
    have hitem : item ∈ state.scheduler.queue := by
      rw [hqueue]
      exact List.mem_append_right _ List.mem_cons_self
    exact ⟨fun _ => ⟨item, hitem, hnew⟩, fun _ => List.cons_ne_nil _ _⟩

/-- If one method is queued and its listing finds no callees, the loop ends after one visit. -/
theorem exists_drains_single {item : WorkItem} (hqueue : state.scheduler.queue = [item])
    (hnew : item.identity ∉ state.scheduler.seen)
    (hcallees : ((context.listMethod state.names item).run s).1.findings.callees = []) :
    ∃ final s', context.Drains state s
      [⟨item, ((context.listMethod state.names item).run s).1⟩] final s' := by
  have hqueue' : state.scheduler.queue = [] ++ item :: [] := hqueue
  have hnext := Scheduler.next_of_queue_eq hqueue' (by simp) hnew
  obtain ⟨visits, final, s', hrest⟩ := context.exists_drains
    (state.after item [] ((context.listMethod state.names item).run s).1)
    ((context.listMethod state.names item).run s).2
  have hnil : visits = [] := by
    refine Classical.byContradiction fun hne => ?_
    obtain ⟨other, hother, -⟩ := hrest.ne_nil_iff.1 hne
    rw [RunState.queue_after, hcallees] at hother
    cases hother
  subst hnil
  exact ⟨final, s', .visit hnext rfl hrest⟩

/-! ## What all visits have in common -/

/-- A property that every queued item has, and that passes from an item to the callees found in it,
holds of every item that is taken. -/
theorem Drains.forall_item {P : WorkItem → Prop} (h : context.Drains state s visits final s')
    (hqueue : ∀ item ∈ state.scheduler.queue, P item)
    (hcallees : ∀ names item s, P item →
      ∀ callee ∈ ((context.listMethod names item).run s).1.findings.callees, P callee) :
    ∀ visit ∈ visits, P visit.item := by
  induction h with
  | idle => simp
  | @visit state final s s' s'' scheduler item outcome visits hnext hlist _ ih =>
    obtain ⟨passed, rest, hsplit, -, -, rfl⟩ := Scheduler.next_eq_some hnext
    have hitem : P item := hqueue item (by simp [hsplit])
    have hothers := ih (by
      intro other hother
      rcases RunState.mem_queue_after.1 hother with hother | ⟨hother, -⟩
      · exact hqueue other (by simp [hsplit, hother])
      · have hP := hcallees state.names item s hitem other
        rw [hlist] at hP
        exact hP hother)
    intro visit hvisit
    rcases List.mem_cons.1 hvisit with rfl | hvisit
    · exact hitem
    · exact hothers visit hvisit

/-- The items queued at the start come first, of each method only the first one that was not taken
before. -/
theorem Drains.firstByKeyFrom_prefix (h : context.Drains state s visits final s') :
    firstByKeyFrom WorkItem.identity state.scheduler.seen state.scheduler.queue <+:
      visits.map (·.item) := by
  induction h with
  | @idle state s scheduler hnext =>
    rw [firstByKeyFrom_eq_nil (Scheduler.next_eq_none hnext).1]
    exact List.nil_prefix
  | @visit state final s s' s'' scheduler item outcome visits hnext _ _ ih =>
    obtain ⟨passed, rest, hqueue, hpassed, hnew, rfl⟩ := Scheduler.next_eq_some hnext
    have hafter : firstByKeyFrom WorkItem.identity (item.identity :: state.scheduler.seen) rest <+:
        visits.map (·.item) := by
      refine (firstByKeyFrom_prefix_append rest
        (outcome.findings.callees.filter (state.scheduler.taking item rest).accepts)).trans ?_
      have hqueued := RunState.queue_after state item rest outcome
      have hseen := RunState.seen_after state item rest outcome
      rw [← hqueued, ← hseen]
      exact ih
    rw [hqueue, firstByKeyFrom_append_of_seen hpassed, firstByKeyFrom_cons_of_not_mem hnew,
      List.map_cons]
    exact List.cons_prefix_cons.2 ⟨rfl, hafter⟩

/-- Every queued method is visited unless it was taken before. -/
theorem Drains.exists_visit_of_queued (h : context.Drains state s visits final s')
    {item : WorkItem} (hitem : item ∈ state.scheduler.queue)
    (hnew : item.identity ∉ state.scheduler.seen) :
    ∃ visit ∈ visits, visit.item.identity = item.identity := by
  obtain ⟨first, hfirst, hidentity⟩ := exists_mem_firstByKeyFrom hitem hnew
  obtain ⟨visit, hvisit, rfl⟩ := List.mem_map.1 (h.firstByKeyFrom_prefix.subset hfirst)
  exact ⟨visit, hvisit, hidentity⟩

/-- What is visited was queued at the start, or it is a callee found in an earlier visit that is not
too deep. -/
theorem Drains.queued_or_found (h : context.Drains state s visits final s')
    {earlier later : List Visit} {visit : Visit} (hvisits : visits = earlier ++ visit :: later) :
    visit.item ∈ state.scheduler.queue ∨ ∃ caller ∈ earlier,
      visit.item ∈ caller.outcome.findings.callees ∧
      visit.item.depth ≤ state.scheduler.maxDepth := by
  induction h generalizing earlier with
  | idle => simp at hvisits
  | @visit state final s s' s'' scheduler item outcome visits hnext _ _ ih =>
    obtain ⟨passed, rest, hqueue, -, -, rfl⟩ := Scheduler.next_eq_some hnext
    cases earlier with
    | nil =>
      obtain ⟨rfl, -⟩ := List.cons.inj hvisits
      exact Or.inl (by simp [hqueue])
    | cons first earlier =>
      obtain ⟨rfl, hrest⟩ := List.cons.inj hvisits
      rcases ih hrest with hqueued | ⟨caller, hcaller, hcallee, hdepth⟩
      · rcases RunState.mem_queue_after.1 hqueued with hbehind | ⟨hcallee, hdepth, -⟩
        · exact Or.inl (by simp [hqueue, hbehind])
        · exact Or.inr ⟨_, List.mem_cons_self, hcallee, hdepth⟩
      · have hle : visit.item.depth ≤ (state.after item rest outcome).scheduler.maxDepth := hdepth
        rw [RunState.maxDepth_after] at hle
        exact Or.inr ⟨caller, List.mem_cons_of_mem _ hcaller, hcallee, hle⟩

/-- No method is visited that was taken before, and none is visited twice. -/
theorem Drains.identities (h : context.Drains state s visits final s') :
    (∀ visit ∈ visits, visit.item.identity ∉ state.scheduler.seen) ∧
      (visits.map (·.item.identity)).Nodup := by
  induction h with
  | idle => simp
  | @visit state final s s' s'' scheduler item outcome visits hnext _ _ ih =>
    obtain ⟨hnew, hseen⟩ := Scheduler.seen_of_next_eq hnext
    obtain ⟨hothers, hnodup⟩ := ih
    have hafter :
        ∀ visit ∈ visits, visit.item.identity ∉ item.identity :: state.scheduler.seen := by
      intro visit hvisit
      rw [← hseen, ← Scheduler.seen_enqueueAll scheduler outcome.findings.callees]
      exact hothers visit hvisit
    constructor
    · intro visit hvisit
      rcases List.mem_cons.1 hvisit with rfl | hvisit
      · exact hnew
      · intro hmem
        exact hafter visit hvisit (List.mem_cons_of_mem _ hmem)
    · rw [List.map_cons, List.nodup_cons]
      refine ⟨?_, hnodup⟩
      intro hmem
      obtain ⟨visit, hvisit, heq⟩ := List.mem_map.1 hmem
      apply hafter visit hvisit
      rw [heq]
      exact List.mem_cons_self

/-- The listing of a visit carries the name and the address of the method that was taken. -/
theorem Drains.listing_eq (h : context.Drains state s visits final s') :
    ∀ visit ∈ visits, visit.outcome.listing.name = visit.item.method.displayName ∧
      visit.outcome.listing.nativeCode = visit.item.method.nativeCode := by
  induction h with
  | idle => simp
  | @visit state final s s' s'' scheduler item outcome visits _ hlist _ ih =>
    have hlisting := context.listing_listMethod state.names item s
    rw [hlist] at hlisting
    intro visit hvisit
    rcases List.mem_cons.1 hvisit with rfl | hvisit
    · exact hlisting
    · exact ih visit hvisit

/-- A run keeps the names and the errors from before. -/
theorem Drains.keeps (h : context.Drains state s visits final s') :
    state.names.Within final.names ∧ state.errors <+: final.errors := by
  induction h with
  | idle => exact ⟨NameMap.Within.refl _, List.prefix_rfl⟩
  | @visit state final s s' s'' scheduler item outcome visits _ hlist _ ih =>
    have hnames := (context.grows_listMethod state.names item s).names
    rw [hlist] at hnames
    exact ⟨hnames.trans ih.1, (List.prefix_append _ _).trans ih.2⟩

/-- Every visit lists its method at some state, knowing the names from the start and more, and the
run keeps the names that it brings. -/
theorem Drains.outcome_eq (h : context.Drains state s visits final s') :
    ∀ visit ∈ visits, ∃ names t, state.names.Within names ∧
      ((context.listMethod names visit.item).run t).1 = visit.outcome ∧
      visit.outcome.findings.names.Within final.names := by
  induction h with
  | idle => simp
  | @visit state final s s' s'' scheduler item outcome visits _ hlist hrest ih =>
    have hgrows := (context.grows_listMethod state.names item s).names
    rw [hlist] at hgrows
    intro visit hvisit
    rcases List.mem_cons.1 hvisit with rfl | hvisit
    · exact ⟨state.names, s, NameMap.Within.refl _, by rw [hlist], hrest.keeps.1⟩
    · obtain ⟨names, t, hnames, hrest⟩ := ih visit hvisit
      exact ⟨names, t, hgrows.trans hnames, hrest⟩

/-- While the runtime stands still, every visit finds what it would find at any other state, knowing
the names from the start and more. -/
theorem Drains.findings_eq (h : context.Drains state s visits final s')
    (hsteady : context.provider.StandsStill) (r : σ) :
    ∀ visit ∈ visits, ∃ names, state.names.Within names ∧
      ((context.listMethod names visit.item).run r).1.findings = visit.outcome.findings ∧
      visit.outcome.findings.names.Within final.names := by
  intro visit hvisit
  obtain ⟨names, t, hnames, houtcome, hwithin⟩ := h.outcome_eq visit hvisit
  refine ⟨names, hnames, ?_, hwithin⟩
  rw [findings_listMethod_eq hsteady names visit.item r t, houtcome]

/-- The addresses of the listings are the identities of the methods taken, in order. -/
theorem Drains.map_nativeCode (h : context.Drains state s visits final s') :
    (visits.map (·.outcome.listing)).map (·.nativeCode) = visits.map (·.item.identity) := by
  rw [List.map_map]
  refine List.map_congr_left ?_
  intro visit hvisit
  exact (h.listing_eq visit hvisit).2

/-- No two listings of a run have the same address. -/
theorem Drains.nodup_nativeCode (h : context.Drains state s visits final s') :
    ((visits.map (·.outcome.listing)).map (·.nativeCode)).Nodup := by
  rw [h.map_nativeCode]
  exact h.identities.2

end Context

/-! ## Runs from an entry and by patterns -/

namespace Disassembler

/-- The state of a run from an entry before its first visit. -/
def entryState (settings : Settings) (entry : Method) : RunState where
  scheduler := { queue := [⟨entry, 0⟩], maxDepth := entryDepth settings entry }

variable {disassembler disassembler' : Disassembler} {provider : Provider σ} {entry : Method}
  {sourceOf : Option (SourceLocator σ)} {context : Context σ} {final : RunState}
  {visits : List Visit} {s s' : σ}

/-- Without a decoder for the architecture there is no context. -/
theorem context_eq_error {error : Error}
    (h : Isa.ofArchitecture disassembler.decoders provider.architecture = .error error) :
    disassembler.context provider sourceOf = .error error := by
  unfold Disassembler.context
  rw [h]
  rfl

/-- A run has no context only if the architecture cannot be decoded; else the context is about the
provider and the settings. -/
theorem context_cases (disassembler : Disassembler) (provider : Provider σ)
    (sourceOf : Option (SourceLocator σ)) :
    (∃ error, Isa.ofArchitecture disassembler.decoders provider.architecture = .error error) ∨
    (∃ context disassembler',
      disassembler.context provider sourceOf = .ok (context, disassembler') ∧
      context.provider = provider ∧ context.settings = disassembler.settings) := by
  unfold Disassembler.context
  cases Isa.ofArchitecture disassembler.decoders provider.architecture with
  | error error => exact Or.inl ⟨error, rfl⟩
  | ok isa => exact Or.inr ⟨_, _, rfl, rfl, rfl⟩

/-- A context has the provider and the settings that it was made with. -/
theorem context_eq_ok (h : disassembler.context provider sourceOf = .ok (context, disassembler')) :
    context.provider = provider ∧ context.settings = disassembler.settings := by
  rcases context_cases disassembler provider sourceOf with
    ⟨error, herror⟩ | ⟨_, _, hok, hprovider, hsettings⟩
  · rw [context_eq_error herror] at h
    cases h
  · rw [hok] at h
    cases h
    exact ⟨hprovider, hsettings⟩

section Snapshot

variable {index : SnapshotIndex}
  (h : disassembler.context (index.provider σ) sourceOf = .ok (context, disassembler'))

include h

/-- The provider of the context stands still. -/
theorem standsStill_of_context : context.provider.StandsStill := by
  rw [(context_eq_ok h).1]
  exact index.standsStill_provider

/-- Every method that is found in the context is one of the snapshot. -/
theorem mem_methods_of_context (address : UInt64) (s : σ) (method : Method)
    (hfound : ((context.provider.methodAt? address).run s).1 = some method) :
    method ∈ index.snapshot.methods := by
  rw [(context_eq_ok h).1] at hfound
  exact index.mem_methods_of_methodAt? address s method hfound

end Snapshot

/-- At the start of a run the entry is queued. -/
theorem enqueue_entry (settings : Settings) (entry : Method) :
    { RunState.start (entryDepth settings entry) with
      scheduler := (RunState.start (entryDepth settings entry)).scheduler.enqueue ⟨entry, 0⟩ } =
      entryState settings entry := by
  have haccepts :
      (RunState.start (entryDepth settings entry)).scheduler.accepts ⟨entry, 0⟩ = true := by
    rw [Scheduler.accepts_iff]
    refine ⟨?_, by simp [RunState.start]⟩
    rw [UInt32.le_iff_toNat_le]
    exact Nat.zero_le _
  unfold Scheduler.enqueue
  rw [if_pos haccepts]
  rfl

/-- A run from an entry visits the entry first, while no address has a name. -/
theorem visits_eq_cons_of_drains {settings : Settings}
    (h : context.Drains (entryState settings entry) s visits final s') :
    ∃ outcome others t, visits = ⟨⟨entry, 0⟩, outcome⟩ :: others ∧
      (context.listMethod .empty ⟨entry, 0⟩).run s = (outcome, t) ∧
      context.Drains ((entryState settings entry).after ⟨entry, 0⟩ [] outcome) t others final
        s' := by
  have hfirst : (entryState settings entry).scheduler.next =
      (some ⟨entry, 0⟩, (entryState settings entry).scheduler.taking ⟨entry, 0⟩ []) := rfl
  cases h with
  | idle hnext =>
    rw [hfirst] at hnext
    cases hnext
  | visit hnext hlist hrest =>
    rw [hfirst] at hnext
    cases hnext
    exact ⟨_, _, _, rfl, hlist, hrest⟩

/-- A run from an entry gives the listings of its visits, less the wrappers. -/
theorem run_eq_of_drains
    (hcontext : disassembler.context provider sourceOf = .ok (context, disassembler'))
    (h : context.Drains (entryState disassembler.settings entry) s visits final s') :
    (disassembler.run provider entry sourceOf).run s =
      ((.ok (context.finish (withoutWrappers (visits.map (·.outcome.listing))) final),
        disassembler'), s') := by
  unfold run
  rw [hcontext]
  simp only [enqueue_entry]
  rw [run_bind, h.run_drain_eq]
  rfl

/-- Without a decoder for the architecture a run fails and changes nothing. -/
theorem run_eq_of_error {error : Error}
    (h : Isa.ofArchitecture disassembler.decoders provider.architecture = .error error) :
    (disassembler.run provider entry sourceOf).run s = ((.error error, disassembler), s) := by
  unfold run
  rw [context_eq_error h]
  rfl

/-- A run by patterns gives the listings of its visits. -/
theorem runFiltered_eq_of_drains (hfilters : disassembler.settings.filters ≠ [])
    (hcontext : disassembler.context provider sourceOf = .ok (context, disassembler'))
    (h : context.Drains (seed disassembler.settings provider.methods) s visits final s') :
    (disassembler.runFiltered provider sourceOf).run s =
      ((.ok (context.finish (visits.map (·.outcome.listing)) final), disassembler'), s') := by
  have hnonempty : ¬ disassembler.settings.filters.isEmpty = true := by
    rw [List.isEmpty_iff]
    exact hfilters
  unfold runFiltered
  rw [if_neg hnonempty, hcontext]
  show StateT.run (context.drain _ >>= _) s = _
  rw [run_bind, h.run_drain_eq]
  rfl

/-- Without a decoder for the architecture a filtered run fails and changes nothing. -/
theorem runFiltered_eq_of_error (hfilters : disassembler.settings.filters ≠ []) {error : Error}
    (h : Isa.ofArchitecture disassembler.decoders provider.architecture = .error error) :
    (disassembler.runFiltered provider sourceOf).run s = ((.error error, disassembler), s) := by
  have hnonempty : ¬ disassembler.settings.filters.isEmpty = true := by
    rw [List.isEmpty_iff]
    exact hfilters
  unfold runFiltered
  rw [if_neg hnonempty, context_eq_error h]
  rfl

end Disassembler

end CodeListing
