import CodeListing.Proofs.CallGraph
import CodeListing.Proofs.Visits

/-!
# A deeper run goes on where a shallower one ends

Two runs from one entry whose settings differ in the depth make the same visits for as long as the
shallower one goes on.  The listings of the shallower run are therefore the first ones of the deeper
run, and its errors and names are among those of the deeper run.

The two runs are compared step by step with `Truncation`: they know the same names and have taken
the same methods, and the queue of the deeper run is that of the shallower one with items behind it
that lie beyond the depth of the shallower one.  Because the queue is layered, these are never taken
before the others, and nothing that is found in the others depends on them.
-/

set_option autoImplicit false

namespace CodeListing

variable {σ : Type}

/-! ## The depth is not read by a listing -/

/-- The context with another depth. -/
def Context.withDepth (context : Context σ) (maxDepth : UInt32) : Context σ :=
  { context with settings := { context.settings with maxDepth } }

/-- The disassembler with another depth. -/
def Disassembler.withDepth (disassembler : Disassembler) (maxDepth : UInt32) : Disassembler :=
  { disassembler with settings := { disassembler.settings with maxDepth } }

namespace Context

/-- How references are named does not depend on the largest depth. -/
theorem annotateAll_withDepth (context : Context σ) (maxDepth : UInt32) (current : Current)
    (instructions : List Instruction) (findings : Findings) :
    (context.withDepth maxDepth).annotateAll current instructions findings =
      context.annotateAll current instructions findings := by
  induction instructions generalizing findings with
  | nil => rfl
  | cons instruction rest ih =>
    simp only [annotateAll, ih]
    rfl

/-- How ranges are read does not depend on the largest depth. -/
theorem readAll_withDepth (context : Context σ) (maxDepth : UInt32) (ranges : List CodeRange) :
    (context.withDepth maxDepth).readAll ranges = context.readAll ranges := by
  apply readAll_congr
  rfl

/-- A method is listed the same way whatever the depth of the run is. -/
theorem listMethod_withDepth (context : Context σ) (maxDepth : UInt32) (names : NameMap)
    (item : WorkItem) :
    (context.withDepth maxDepth).listMethod names item = context.listMethod names item := by
  simp only [listMethod, readAll_withDepth, annotateAll_withDepth]
  rfl

/-- The visits of a run from a state are the same whatever depth its settings have; the depth that
counts is that of the state. -/
theorem Drains.withDepth {context : Context σ} {state final : RunState} {s s' : σ}
    {visits : List Visit} (h : context.Drains state s visits final s') (maxDepth : UInt32) :
    (context.withDepth maxDepth).Drains state s visits final s' := by
  induction h with
  | idle hnext => exact .idle hnext
  | visit hnext hlist _ ih =>
    refine .visit hnext ?_ ih
    rw [listMethod_withDepth]
    exact hlist

end Context

/-! ## Two runs side by side -/

/-- The deeper run has taken the same methods and knows the same names as the shallower one, and it
has queued the same items and behind them some that are too deep for the shallower one.  The last
item that was taken had this depth. -/
structure Truncation (depth : UInt32) (shallow deep : RunState) : Prop where
  names_eq : deep.names = shallow.names
  errors_eq : deep.errors = shallow.errors
  seen_eq : deep.scheduler.seen = shallow.scheduler.seen
  maxDepth_le : shallow.scheduler.maxDepth ≤ deep.scheduler.maxDepth
  layered : Scheduler.Layered depth deep.scheduler.queue
  queue_eq : ∃ beyond, deep.scheduler.queue = shallow.scheduler.queue ++ beyond ∧
    ∀ item ∈ beyond, shallow.scheduler.maxDepth < item.depth

namespace Truncation

variable {depth : UInt32} {shallow deep : RunState} {item : WorkItem} {outcome : Context.Outcome}

/-- Two schedulers that have taken the same methods accept the same items of depths that are too
deep for neither. -/
theorem filter_accepts_eq {scheduler scheduler' : Scheduler} {items : List WorkItem}
    (hseen : scheduler'.seen = scheduler.seen)
    (hitems : ∀ item ∈ items, item.depth ≤ scheduler.maxDepth ∧ item.depth ≤ scheduler'.maxDepth) :
    items.filter scheduler'.accepts = items.filter scheduler.accepts := by
  refine List.filter_congr ?_
  intro item hitem
  rw [Bool.eq_iff_iff, Scheduler.accepts_iff, Scheduler.accepts_iff, hseen]
  simp only [(hitems item hitem).1, (hitems item hitem).2]

/-- No items are accepted that are all too deep. -/
theorem filter_accepts_eq_nil {scheduler : Scheduler} {items : List WorkItem}
    (hitems : ∀ item ∈ items, scheduler.maxDepth < item.depth) :
    items.filter scheduler.accepts = [] := by
  rw [List.filter_eq_nil_iff]
  intro item hitem haccepts
  exact UInt32.not_lt.2 (Scheduler.accepts_iff.1 haccepts).1 (hitems item hitem)

/-- What the deeper run has queued after a visit is what the shallower one has queued, with items
behind it that are too deep for the shallower one. -/
theorem queue_after_eq {rest beyond : List WorkItem} (h : Truncation depth shallow deep)
    (hlayered : Scheduler.Layered item.depth (rest ++ beyond))
    (hdeeper : ∀ other ∈ beyond, shallow.scheduler.maxDepth < other.depth)
    (hcallees : ∀ callee ∈ outcome.findings.callees, callee.depth = nextDepth item.depth) :
    ∃ beyond', (deep.after item (rest ++ beyond) outcome).scheduler.queue =
        (shallow.after item rest outcome).scheduler.queue ++ beyond' ∧
      ∀ other ∈ beyond', shallow.scheduler.maxDepth < other.depth := by
  rw [RunState.queue_after, RunState.queue_after]
  by_cases hdepth : nextDepth item.depth ≤ shallow.scheduler.maxDepth
  · -- Both runs go that deep.  Nothing queued can lie further, so nothing is queued beyond.
    have hnil : beyond = [] := by
      rw [List.eq_nil_iff_forall_not_mem]
      intro other hother
      have hle := (hlayered.within other (List.mem_append_right _ hother)).2
      exact UInt32.not_lt.2 (UInt32.le_trans hle hdepth) (hdeeper other hother)
    refine ⟨[], ?_, by simp⟩
    rw [hnil, List.append_nil, List.append_nil]
    refine congrArg (rest ++ ·) (filter_accepts_eq ?_ ?_)
    · rw [Scheduler.seen_taking, Scheduler.seen_taking, h.seen_eq]
    · intro callee hcallee
      rw [hcallees callee hcallee]
      exact ⟨hdepth, UInt32.le_trans hdepth h.maxDepth_le⟩
  · -- The shallower run queues no callee, and what the deeper one queues lies beyond.
    have hlt : ∀ callee ∈ outcome.findings.callees, shallow.scheduler.maxDepth < callee.depth := by
      intro callee hcallee
      rw [hcallees callee hcallee]
      exact UInt32.not_le.1 hdepth
    have hnone :
        outcome.findings.callees.filter (shallow.scheduler.taking item rest).accepts = [] :=
      filter_accepts_eq_nil hlt
    rw [hnone, List.append_nil, List.append_assoc]
    refine ⟨_, rfl, ?_⟩
    intro other hother
    rcases List.mem_append.1 hother with hother | hother
    · exact hdeeper other hother
    · exact hlt other (List.mem_filter.1 hother).1

/-- The deeper run takes the item that the shallower one takes, and listing its method keeps the two
runs alike. -/
theorem visit {passed rest : List WorkItem} (h : Truncation depth shallow deep)
    (hqueue : shallow.scheduler.queue = passed ++ item :: rest)
    (hpassed : ∀ other ∈ passed, other.identity ∈ shallow.scheduler.seen)
    (hnew : item.identity ∉ shallow.scheduler.seen)
    (hcallees : ∀ callee ∈ outcome.findings.callees, callee.depth = nextDepth item.depth) :
    ∃ behind, deep.scheduler.next = (some item, deep.scheduler.taking item behind) ∧
      Truncation item.depth (shallow.after item rest outcome) (deep.after item behind outcome) := by
  obtain ⟨beyond, hbeyond, hdeeper⟩ := h.queue_eq
  have hqueue' : deep.scheduler.queue = passed ++ item :: (rest ++ beyond) := by
    rw [hbeyond, hqueue, List.append_assoc, List.cons_append]
  rw [← h.seen_eq] at hpassed hnew
  refine ⟨rest ++ beyond, Scheduler.next_of_queue_eq hqueue' hpassed hnew, ?_⟩
  have hlayered := h.layered
  rw [hqueue'] at hlayered
  refine ⟨?_, ?_, ?_, ?_, RunState.layered_after hlayered hcallees, ?_⟩
  · rw [RunState.names_after, RunState.names_after]
  · rw [RunState.errors_after, RunState.errors_after, h.errors_eq]
  · rw [RunState.seen_after, RunState.seen_after, h.seen_eq]
  · rw [RunState.maxDepth_after, RunState.maxDepth_after]
    exact h.maxDepth_le
  · rw [RunState.maxDepth_after]
    exact h.queue_after_eq hlayered.behind hdeeper hcallees

/-- A deeper run makes the visits of the shallower one and then its own. -/
theorem drains {context : Context σ} {final : RunState} {s s' : σ} {visits : List Visit}
    (hdrains : context.Drains shallow s visits final s') (h : Truncation depth shallow deep) :
    ∃ more final' s'', context.Drains deep s (visits ++ more) final' s'' ∧
      final.names.Within final'.names ∧ final.errors <+: final'.errors := by
  induction hdrains generalizing depth deep with
  | @idle shallow s scheduler hnext =>
    -- The shallower run has ended, and the deeper one goes on from here.
    obtain ⟨more, final', s'', hmore⟩ := context.exists_drains deep s
    have hkeeps := hmore.keeps
    rw [h.names_eq, h.errors_eq] at hkeeps
    exact ⟨more, final', s'', hmore, hkeeps⟩
  | @visit shallow final s s' s'' scheduler item outcome visits hnext hlist _ ih =>
    have hcallees : ∀ callee ∈ outcome.findings.callees, callee.depth = nextDepth item.depth := by
      intro callee hcallee
      have hdepth := context.depth_of_mem_callees shallow.names item s callee
      rw [hlist] at hdepth
      exact hdepth hcallee
    obtain ⟨passed, rest, hqueue, hpassed, hnew, rfl⟩ := Scheduler.next_eq_some hnext
    obtain ⟨behind, hnext', h'⟩ := h.visit hqueue hpassed hnew hcallees
    obtain ⟨more, final', t, hmore, hkeeps⟩ := ih h'
    refine ⟨more, final', t, .visit hnext' ?_ hmore, hkeeps⟩
    rw [h.names_eq]
    exact hlist

end Truncation

/-! ## Whole runs -/

namespace Disassembler

/-- With another largest depth the context is the same but for this depth. -/
theorem context_withDepth {disassembler disassembler' : Disassembler} {provider : Provider σ}
    {sourceOf : Option (SourceLocator σ)} {context : Context σ}
    (h : disassembler.context provider sourceOf = .ok (context, disassembler'))
    (maxDepth : UInt32) :
    (disassembler.withDepth maxDepth).context provider sourceOf =
      .ok (context.withDepth maxDepth, disassembler'.withDepth maxDepth) := by
  unfold Disassembler.context at h ⊢
  cases hisa : Isa.ofArchitecture disassembler.decoders provider.architecture with
  | error error =>
    rw [hisa] at h
    cases h
  | ok isa =>
    have hisa' : Isa.ofArchitecture (disassembler.withDepth maxDepth).decoders
        provider.architecture = .ok isa := hisa
    rw [hisa] at h
    rw [hisa']
    cases h
    rfl

/-- A larger depth of the settings is a larger depth of the run, also if the entry is a wrapper. -/
theorem entryDepth_mono {settings : Settings} {maxDepth : UInt32}
    (h : settings.maxDepth ≤ maxDepth) (entry : Method) :
    entryDepth settings entry ≤ entryDepth { settings with maxDepth } entry := by
  unfold entryDepth
  by_cases hwrapper : isWrapperName entry.signature = true
  · rw [if_pos hwrapper, if_pos hwrapper]
    exact nextDepth_mono h
  · rw [if_neg hwrapper, if_neg hwrapper]
    exact h

/-- At the start both runs have queued the entry. -/
theorem truncation_entryState {settings : Settings} {maxDepth : UInt32}
    (h : settings.maxDepth ≤ maxDepth) (entry : Method) :
    Truncation 0 (entryState settings entry) (entryState { settings with maxDepth } entry) where
  names_eq := rfl
  errors_eq := rfl
  seen_eq := rfl
  maxDepth_le := entryDepth_mono h entry
  layered := .singleton ⟨entry, 0⟩
  queue_eq := ⟨[], rfl, by simp⟩

/-- If the first listing is none of a wrapper, dropping wrappers goes through all listings. -/
theorem withoutWrappers_cons {first : Listing} (others : List Listing)
    (h : isWrapperName first.name = false) :
    withoutWrappers (first :: others) =
      (first :: others).filter fun listing => !isWrapperName listing.name := by
  unfold withoutWrappers
  cases others with
  | nil => simp [h]
  | cons second rest => rw [if_pos (by simp)]

/-- A deeper run from an entry that is no wrapper goes on where a shallower one ends: the listings
and errors of the shallower one come first, and its names are kept.  Neither run gives listings only
if the architecture cannot be decoded. -/
theorem run_prefix_of_depth_le (disassembler : Disassembler) (provider : Provider σ)
    (entry : Method) (sourceOf : Option (SourceLocator σ)) (s : σ) {maxDepth : UInt32}
    (hdepth : disassembler.settings.maxDepth ≤ maxDepth)
    (hentry : isWrapperName entry.displayName = false) :
    (∃ error, Isa.ofArchitecture disassembler.decoders provider.architecture = .error error ∧
      ((disassembler.run provider entry sourceOf).run s).1.1 = .error error ∧
      (((disassembler.withDepth maxDepth).run provider entry sourceOf).run s).1.1 =
        .error error) ∨
    ∃ shallow deep,
      ((disassembler.run provider entry sourceOf).run s).1.1 = .ok shallow ∧
      (((disassembler.withDepth maxDepth).run provider entry sourceOf).run s).1.1 = .ok deep ∧
      shallow.listings <+: deep.listings ∧ shallow.errors <+: deep.errors ∧
      shallow.names.entries ⊆ deep.names.entries := by
  rcases context_cases disassembler provider sourceOf with
    ⟨error, herror⟩ | ⟨context, disassembler', hcontext, -, -⟩
  · left
    have herror' : Isa.ofArchitecture (disassembler.withDepth maxDepth).decoders
        provider.architecture = .error error := herror
    refine ⟨error, herror, ?_, ?_⟩
    · rw [run_eq_of_error herror]
    · rw [run_eq_of_error herror']
  right
  obtain ⟨visits, final, s', hdrains⟩ :=
    context.exists_drains (entryState disassembler.settings entry) s
  obtain ⟨more, final', s'', hmore, hnames, herrors⟩ :=
    (truncation_entryState hdepth entry).drains hdrains
  have hrun := run_eq_of_drains hcontext hdrains
  have hrun' := run_eq_of_drains (context_withDepth hcontext maxDepth) (hmore.withDepth maxDepth)
  refine ⟨_, _, by rw [hrun], by rw [hrun'], ?_, herrors, hnames.entries_subset⟩
  obtain ⟨outcome, others, -, rfl, -, -⟩ := visits_eq_cons_of_drains hdrains
  have hfirst : isWrapperName outcome.listing.name = false := by
    rw [(hdrains.listing_eq _ List.mem_cons_self).1]
    exact hentry
  show withoutWrappers _ <+: withoutWrappers _
  rw [List.cons_append, List.map_cons, List.map_cons, withoutWrappers_cons _ hfirst,
    withoutWrappers_cons _ hfirst, List.map_append]
  exact (List.prefix_append (_ :: _) _).filter _

/-- Of two methods that call each other, a run of depth zero gives the first listings of a run of
depth one. -/
theorem run_prefix_of_mutual_calls :
    ∃ shallow deep,
      (((MutualCalls.disassembler 0).run
        ((MutualCalls.index [MutualCalls.ping, MutualCalls.pong]).provider Unit) MutualCalls.ping
        none).run ()).1.1 = .ok shallow ∧
      (((MutualCalls.disassembler 1).run
        ((MutualCalls.index [MutualCalls.ping, MutualCalls.pong]).provider Unit) MutualCalls.ping
        none).run ()).1.1 = .ok deep ∧
      shallow.listings <+: deep.listings := by
  have hdepth : (MutualCalls.disassembler 0).settings.maxDepth ≤ 1 := by decide
  have hentry : isWrapperName MutualCalls.ping.displayName = false := by decide +kernel
  rcases run_prefix_of_depth_le (MutualCalls.disassembler 0)
    ((MutualCalls.index [MutualCalls.ping, MutualCalls.pong]).provider Unit) MutualCalls.ping none
    () hdepth hentry with
    ⟨error, herror, -⟩ | ⟨shallow, deep, hshallow, hdeep, hprefix, -⟩
  · cases herror
  · exact ⟨shallow, deep, hshallow, hdeep, hprefix⟩

end Disassembler

end CodeListing
