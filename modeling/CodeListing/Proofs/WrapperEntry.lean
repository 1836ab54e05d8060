import CodeListing.Proofs.DeeperListing
import CodeListing.Proofs.DepthPrefix
import Mathlib.Data.List.Forall2
import Mathlib.Data.List.Nodup

/-!
# A wrapper around the entry makes no difference

A wrapper is generated around an entry only to have the entry compiled.  A run from the wrapper goes
one call deeper and drops the wrapper from its listings, so that it should give what a run from the
entry gives.  This holds for every wrapper that refers to nothing outside of its own code but to the
code of the entry (`Context.Wraps`).

The run from the entry and the run from the wrapper are compared visit by visit with `Shadows`.
Every item lies one call deeper in the second run.  That run has seen the wrapper from the start,
whereas the first one may come upon it later and then makes a visit that the second one does not
make.  The second run also knows names for the addresses through which the wrapper refers to the
entry.  Those lie in the entry's own code, where they have labels, and everywhere else the runtime
would give them the same name.
-/

set_option autoImplicit false

namespace CodeListing

variable {σ : Type}

/-! ## Wrappers -/

/-- A method with the signature of a wrapper is displayed as one. -/
theorem isWrapperName_displayName {method : Method}
    (h : isWrapperName method.signature = true) : isWrapperName method.displayName = true := by
  unfold Method.displayName
  split
  · exact h
  · unfold isWrapperName Text.containsText
    rw [String.toList_append]
    exact Text.occursIn_append _ h

namespace Context

/-- An instruction of the method refers to the address, which lies outside of the method's own code.
-/
def RefersOut (context : Context σ) (s : σ) (method : Method) (address : UInt64) : Prop :=
  ∃ instruction ∈ context.decodedOf s method, context.RefersTo s instruction address ∧
    (context.provider.codeRanges method).any (·.contains address) = false

/-- The wrapper has the mark and can be listed, and it refers to something outside of its own code,
which is always code of the entry at which the runtime finds the entry. -/
structure Wraps (context : Context σ) (s : σ) (wrapper entry : Method) : Prop where
  marked : isWrapperName wrapper.signature = true
  listed : ((context.listMethod .empty ⟨wrapper, 0⟩).run s).1.listing.problem = none
  other : entry.identity ≠ wrapper.identity
  refers : ∃ address, context.RefersOut s wrapper address
  only : context.Finds s (context.RefersOut s wrapper) entry

namespace Wraps

variable {context : Context σ} {s : σ} {wrapper entry : Method}

/-- At every address outside that it refers to, the wrapper calls the entry. -/
theorem callsAt (h : context.Wraps s wrapper entry) {address : UInt64}
    (haddress : context.RefersOut s wrapper address) :
    context.CallsAt s wrapper address entry := by
  have hvalid := h.only.valid address haddress
  have hfinding := h.only.finding address haddress
  obtain ⟨instruction, hmem, hrefers, houtside⟩ := haddress
  have hlocal : (context.currentOf ⟨wrapper, 0⟩).contains address = false := by
    rw [← houtside]
    exact context.any_contains_rangesOf wrapper address
  exact ⟨h.listed, instruction, hmem, hrefers, hlocal, hvalid, hfinding, h.other⟩

/-- Listing the wrapper names only the addresses through which it refers to the entry, all of them
after the entry, and finds no other callee. -/
theorem findings_listMethod (h : context.Wraps s wrapper entry)
    (hsteady : context.provider.StandsStill) (names : NameMap) (depth : UInt32) (t : σ) :
    (∀ address, ((context.listMethod names ⟨wrapper, depth⟩).run t).1.findings.names.get? address =
        names.get? address ∨ context.RefersOut s wrapper address ∧
      ((context.listMethod names ⟨wrapper, depth⟩).run t).1.findings.names.get? address =
        some entry.displayName) ∧
    ∀ callee ∈ ((context.listMethod names ⟨wrapper, depth⟩).run t).1.findings.callees,
      callee.method = entry := by
  rw [findings_listMethod_eq hsteady names ⟨wrapper, depth⟩ t s]
  rcases @Context.findings_listMethod σ context s names ⟨wrapper, depth⟩ hsteady with
    ⟨-, heq⟩ | ⟨-, heq⟩
  · rw [heq]
    exact ⟨fun address => Or.inl rfl, fun callee hcallee => by cases hcallee⟩
  · rw [heq]
    refine annotateAll_preserves_at (I := fun findings =>
      (∀ address, findings.names.get? address = names.get? address ∨
        context.RefersOut s wrapper address ∧
          findings.names.get? address = some entry.displayName) ∧
      ∀ callee ∈ findings.callees, callee.method = entry) hsteady ?_
      ⟨fun address => Or.inl rfl, fun callee hcallee => by cases hcallee⟩
    rintro instruction hmem findings isPrecode address hrefers hlocal hunnamed - ⟨hnames, hcallees⟩
    have hout : context.RefersOut s wrapper address := by
      refine ⟨instruction, hmem, hrefers, ?_⟩
      rw [← hlocal]
      exact (context.any_contains_rangesOf wrapper address).symm
    -- The runtime is asked about nothing else, and there it finds the entry.
    rw [h.only.finding address hout]
    have hname : (Finding.method entry).name? (context.currentOf ⟨wrapper, depth⟩) isPrecode =
        some entry.displayName := Finding.name?_method_of_ne isPrecode h.other
    constructor
    · intro other
      unfold Findings.add
      rw [hname]
      simp only [NameMap.get?_insert]
      by_cases hsame : other = address
      · subst hsame
        exact Or.inr ⟨hout, by simp [hunnamed]⟩
      · simp only [hsame, if_false, Option.or_none]
        exact hnames other
    · intro callee hcallee
      rcases Findings.mem_callees_add hcallee with hcallee | hcallee
      · exact hcallees callee hcallee
      · obtain ⟨hfound, -⟩ := Finding.eq_method_of_callee? hcallee
        cases hfound
        rfl

/-- After its first visit a run from the wrapper is ahead of a run from the entry. -/
theorem ahead (h : context.Wraps s wrapper entry) (hsteady : context.provider.StandsStill) :
    NameMap.Ahead (context.RefersOut s wrapper) entry.displayName .empty
      ((context.listMethod .empty ⟨wrapper, 0⟩).run s).1.findings.names := by
  obtain ⟨hnames, -⟩ := h.findings_listMethod hsteady .empty 0 s
  constructor
  · intro address hout
    refine ⟨?_, Or.inl rfl⟩
    have hcalls : context.CallsAt s (⟨wrapper, 0⟩ : WorkItem).method address entry := h.callsAt hout
    rcases hnames address with hsame | ⟨-, hnamed⟩
    · exact absurd hsame (named_of_callsAt hsteady hcalls)
    · exact hnamed
  · intro address hnot
    rcases hnames address with hsame | ⟨hout, -⟩
    · exact hsame
    · exact absurd hout hnot

end Wraps

end Context

/-! ## Two runs side by side -/

/-- The items whose methods were not taken yet. -/
def untaken (seen : List UInt64) (items : List WorkItem) : List WorkItem :=
  items.filter fun item => !seen.contains item.identity

section Untaken

variable {seen : List UInt64} {items others : List WorkItem} {item : WorkItem}

/-- The items to be taken of two rows are those of the first one and those of the second one. -/
theorem untaken_append (items others : List WorkItem) :
    untaken seen (items ++ others) = untaken seen items ++ untaken seen others :=
  List.filter_append items others

/-- Nothing is left to be taken if all methods were seen. -/
theorem untaken_eq_nil_iff : untaken seen items = [] ↔ ∀ item ∈ items, item.identity ∈ seen := by
  simp [untaken, List.filter_eq_nil_iff]

/-- An item whose method was seen is not to be taken. -/
theorem untaken_cons_of_mem (h : item.identity ∈ seen) :
    untaken seen (item :: items) = untaken seen items :=
  List.filter_cons_of_neg (by simpa using h)

/-- An item whose method was not seen is to be taken. -/
theorem untaken_cons_of_not_mem (h : item.identity ∉ seen) :
    untaken seen (item :: items) = item :: untaken seen items :=
  List.filter_cons_of_pos (by simpa using h)

/-- The first item to be taken stands behind items whose methods were seen. -/
theorem untaken_eq_cons (h : untaken seen items = item :: others) :
    ∃ passed rest, items = passed ++ item :: rest ∧ (∀ other ∈ passed, other.identity ∈ seen) ∧
      item.identity ∉ seen ∧ untaken seen rest = others := by
  obtain ⟨passed, rest, hitems, hpassed, hitem, hrest⟩ := List.filter_eq_cons_iff.1 h
  exact ⟨passed, rest, hitems, by simpa using hpassed, by simpa using hitem, hrest⟩

/-- Once a method is seen, its items are no longer to be taken. -/
theorem untaken_cons (identity : UInt64) :
    untaken (identity :: seen) items =
      (untaken seen items).filter fun item => item.identity != identity := by
  unfold untaken
  rw [List.filter_filter]
  refine List.filter_congr fun item _ => ?_
  rw [Bool.eq_iff_iff]
  simp

/-- Of some callees, those are queued and still to be taken that are neither too deep nor seen.  One
that was seen may be left out from the start. -/
theorem untaken_filter_accepts {scheduler : Scheduler} (hseen : scheduler.seen ⊆ seen)
    {identity : UInt64} (hidentity : identity ∈ seen) :
    untaken seen (items.filter scheduler.accepts) =
      (items.filter (·.identity != identity)).filter fun item =>
        decide (item.depth ≤ scheduler.maxDepth) && !seen.contains item.identity := by
  unfold untaken
  rw [List.filter_filter, List.filter_filter]
  refine List.filter_congr fun item _ => ?_
  rw [Bool.eq_iff_iff]
  simp only [Bool.and_eq_true, Bool.not_eq_true', ← Bool.not_eq_true, List.contains_iff_mem,
    Scheduler.accepts_iff, decide_eq_true_eq, bne_iff_ne]
  constructor
  · rintro ⟨hnew, hdepth, -⟩
    exact ⟨⟨hdepth, hnew⟩, fun hsame => hnew (hsame ▸ hidentity)⟩
  · rintro ⟨⟨hdepth, hnew⟩, -⟩
    exact ⟨hnew, hdepth, fun hmem => hnew (hseen hmem)⟩

end Untaken

/-- What a run from the entry and a run from the wrapper have in common, whatever they have queued.
-/
structure Beside (context : Context σ) (s : σ) (wrapper entry : Method)
    (direct through : RunState) : Prop where
  names : NameMap.Ahead (context.RefersOut s wrapper) entry.displayName direct.names through.names
  errors : through.errors = direct.errors
  seen : ∀ identity, identity ∈ through.scheduler.seen ↔
    identity = wrapper.identity ∨ identity ∈ direct.scheduler.seen
  maxDepth : through.scheduler.maxDepth = nextDepth direct.scheduler.maxDepth
  bounded : direct.scheduler.maxDepth < 0xFFFFFFFE

/-- The entry was taken, and what is still to be taken is the same one call deeper. -/
structure Shadows (context : Context σ) (s : σ) (wrapper entry : Method)
    (direct through : RunState) : Prop extends Beside context s wrapper entry direct through where
  entered : entry.identity ∈ direct.scheduler.seen
  queue : untaken through.scheduler.seen through.scheduler.queue =
    (untaken through.scheduler.seen direct.scheduler.queue).map WorkItem.deeper

section Shadows

variable {context : Context σ} {s t t' : σ} {wrapper entry : Method} {direct through : RunState}
  {item : WorkItem} {rest rest' : List WorkItem} {outcome outcome' : Context.Outcome}

/-- Items whose methods the run from the entry has seen are not to be taken in the other run. -/
theorem Beside.untaken_eq_nil (h : Beside context s wrapper entry direct through)
    {items : List WorkItem} (hitems : ∀ item ∈ items, item.identity ∈ direct.scheduler.seen) :
    untaken through.scheduler.seen items = [] :=
  untaken_eq_nil_iff.2 fun item hitem => (h.seen _).2 (Or.inr (hitems item hitem))

/-- Both runs queue the same callees.  The entry may be found once more in one of them, but it was
taken before. -/
theorem Beside.untaken_callees (h : Beside context s wrapper entry direct through)
    (hentered : entry.identity ∈ item.identity :: direct.scheduler.seen)
    {found found' : List WorkItem}
    (hfound : found'.filter (·.identity != entry.identity) =
      (found.filter (·.identity != entry.identity)).map WorkItem.deeper) :
    untaken (item.identity :: through.scheduler.seen)
        (found'.filter (through.scheduler.taking item.deeper rest').accepts) =
      (untaken (item.identity :: through.scheduler.seen)
        (found.filter (direct.scheduler.taking item rest).accepts)).map WorkItem.deeper := by
  have hmore : (direct.scheduler.taking item rest).seen ⊆
      item.identity :: through.scheduler.seen := by
    refine List.cons_subset_cons _ fun identity hidentity => ?_
    exact (h.seen identity).2 (Or.inr hidentity)
  have hsame : (through.scheduler.taking item.deeper rest').seen ⊆
      item.identity :: through.scheduler.seen := List.Subset.refl _
  rw [untaken_filter_accepts hsame (hmore hentered),
    untaken_filter_accepts hmore (hmore hentered), hfound, List.filter_map]
  refine congrArg (List.map WorkItem.deeper) (List.filter_congr fun callee _ => ?_)
  have hdepth : callee.deeper.depth ≤ through.scheduler.maxDepth ↔
      callee.depth ≤ direct.scheduler.maxDepth := by
    rw [h.maxDepth]
    exact nextDepth_le_nextDepth_iff h.bounded
  simp only [Function.comp_apply, Scheduler.maxDepth_taking, hdepth]
  rfl

/-- Visits to one method in both runs keep them side by side. -/
theorem Beside.after (h : Beside context s wrapper entry direct through)
    (hentered : entry.identity ∈ item.identity :: direct.scheduler.seen)
    (hrest : untaken (item.identity :: through.scheduler.seen) rest' =
      (untaken (item.identity :: through.scheduler.seen) rest).map WorkItem.deeper)
    (halike : Findings.Alike (context.RefersOut s wrapper) entry outcome.findings
      outcome'.findings)
    (herror : outcome.error = outcome'.error) :
    Shadows context s wrapper entry (direct.after item rest outcome)
      (through.after item.deeper rest' outcome') where
  names := halike.names
  errors := by rw [RunState.errors_after, RunState.errors_after, h.errors, herror]
  seen identity := by
    rw [RunState.seen_after, RunState.seen_after, List.mem_cons, List.mem_cons, h.seen,
      WorkItem.identity_deeper]
    exact or_left_comm
  maxDepth := by rw [RunState.maxDepth_after, RunState.maxDepth_after, h.maxDepth]
  bounded := by
    rw [RunState.maxDepth_after]
    exact h.bounded
  entered := by
    rw [RunState.seen_after]
    exact hentered
  queue := by
    rw [RunState.seen_after, RunState.queue_after, RunState.queue_after, WorkItem.identity_deeper,
      untaken_append, untaken_append, List.map_append, hrest,
      h.untaken_callees hentered halike.callees]

/-- A method that both runs take is listed alike in both. -/
theorem Beside.visit (h : Beside context s wrapper entry direct through)
    (hwraps : context.Wraps s wrapper entry) (hsteady : context.provider.StandsStill)
    (ht : context.Asked s t) (ht' : context.Asked s t')
    (hentered : entry.identity ∈ item.identity :: direct.scheduler.seen)
    (hself : item.method ≠ entry → entry.identity ≠ item.method.identity)
    (houtcome : ((context.listMethod direct.names item).run t).1 = outcome)
    (hrest : untaken (item.identity :: through.scheduler.seen) rest' =
      (untaken (item.identity :: through.scheduler.seen) rest).map WorkItem.deeper) :
    context.ListedAlike s outcome.listing
        ((context.listMethod through.names item.deeper).run t').1.listing ∧
      Shadows context s wrapper entry (direct.after item rest outcome)
        (through.after item.deeper rest'
          ((context.listMethod through.names item.deeper).run t').1) := by
  obtain ⟨hlisting, herror, halike⟩ :=
    Context.alike_listMethod hsteady hwraps.only hself h.names ht ht'
  rw [houtcome] at hlisting herror halike
  exact ⟨hlisting, h.after hentered hrest halike herror⟩

/-- A visit to the wrapper in the run from the entry brings nothing that the run from the wrapper
does not know. -/
theorem Shadows.after_wrapper (h : Shadows context s wrapper entry direct through)
    (hwraps : context.Wraps s wrapper entry) (hsteady : context.provider.StandsStill)
    {passed : List WorkItem} {depth : UInt32}
    (hqueue : direct.scheduler.queue = passed ++ ⟨wrapper, depth⟩ :: rest)
    (hpassed : ∀ other ∈ passed, other.identity ∈ direct.scheduler.seen)
    (houtcome : ((context.listMethod direct.names ⟨wrapper, depth⟩).run t).1 = outcome) :
    Shadows context s wrapper entry (direct.after ⟨wrapper, depth⟩ rest outcome) through := by
  obtain ⟨hnames, hcallees⟩ := hwraps.findings_listMethod hsteady direct.names depth t
  have hproblem := (Context.problem_listMethod_empty_iff direct.names ⟨wrapper, depth⟩).1
    hwraps.listed
  rw [Context.problem_listMethod_eq hsteady direct.names ⟨wrapper, depth⟩ s t] at hproblem
  have herror := context.error_listMethod_eq_none hproblem
  rw [houtcome] at hnames hcallees herror
  refine ⟨⟨h.names.learn hnames, ?_, ?_, ?_, ?_⟩, ?_, ?_⟩
  · rw [RunState.errors_after, herror, h.errors]
    exact (List.append_nil _).symm
  · intro identity
    have hwrapper : (⟨wrapper, depth⟩ : WorkItem).identity = wrapper.identity := rfl
    rw [RunState.seen_after, hwrapper, List.mem_cons, h.seen, ← or_assoc, or_self]
  · rw [RunState.maxDepth_after]
    exact h.maxDepth
  · rw [RunState.maxDepth_after]
    exact h.bounded
  · rw [RunState.seen_after]
    exact List.mem_cons_of_mem _ h.entered
  · have hnone : outcome.findings.callees.filter
        (direct.scheduler.taking ⟨wrapper, depth⟩ rest).accepts = [] := by
      rw [List.filter_eq_nil_iff]
      intro callee hcallee haccepts
      apply (Scheduler.accepts_iff.1 haccepts).2
      have hidentity : callee.identity = entry.identity :=
        congrArg Method.identity (hcallees callee hcallee)
      rw [hidentity, Scheduler.seen_taking]
      exact List.mem_cons_of_mem _ h.entered
    have hwrapper : (⟨wrapper, depth⟩ : WorkItem).identity ∈ through.scheduler.seen :=
      (h.seen _).2 (Or.inl rfl)
    rw [RunState.queue_after, hnone, List.append_nil, h.queue, hqueue, untaken_append,
      h.untaken_eq_nil hpassed, List.nil_append, untaken_cons_of_mem hwrapper]

/-- The run from the wrapper takes the item that the run from the entry takes, unless that is the
wrapper, and lists it alike. -/
theorem Shadows.visit (h : Shadows context s wrapper entry direct through)
    (hwraps : context.Wraps s wrapper entry) (hsteady : context.provider.StandsStill)
    (ht : context.Asked s t) (ht' : context.Asked s t')
    {passed : List WorkItem} (hqueue : direct.scheduler.queue = passed ++ item :: rest)
    (hpassed : ∀ other ∈ passed, other.identity ∈ direct.scheduler.seen)
    (hnew : item.identity ∉ direct.scheduler.seen) (hother : item.identity ≠ wrapper.identity)
    (hself : item.method ≠ entry → entry.identity ≠ item.method.identity)
    (houtcome : ((context.listMethod direct.names item).run t).1 = outcome) :
    ∃ behind, through.scheduler.next =
        (some item.deeper, through.scheduler.taking item.deeper behind) ∧
      context.ListedAlike s outcome.listing
        ((context.listMethod through.names item.deeper).run t').1.listing ∧
      Shadows context s wrapper entry (direct.after item rest outcome)
        (through.after item.deeper behind
          ((context.listMethod through.names item.deeper).run t').1) := by
  have hnew' : item.identity ∉ through.scheduler.seen := by
    rw [h.seen]
    rintro (hsame | hseen)
    · exact hother hsame
    · exact hnew hseen
  have hthrough : untaken through.scheduler.seen through.scheduler.queue =
      item.deeper :: (untaken through.scheduler.seen rest).map WorkItem.deeper := by
    rw [h.queue, hqueue, untaken_append, h.untaken_eq_nil hpassed, List.nil_append,
      untaken_cons_of_not_mem hnew', List.map_cons]
  obtain ⟨skipped, behind, hsplit, hskipped, hfresh, hbehind⟩ := untaken_eq_cons hthrough
  refine ⟨behind, Scheduler.next_of_queue_eq hsplit hskipped hfresh,
    h.toBeside.visit hwraps hsteady ht ht' (List.mem_cons_of_mem _ h.entered) hself houtcome ?_⟩
  rw [untaken_cons, untaken_cons, hbehind, List.filter_map]
  rfl

/-- A run from the wrapper makes the visits of a run from the entry, less those to the wrapper, and
lists every method alike. -/
theorem Shadows.drains {final : RunState} {r : σ} {visits : List Visit}
    (hdrains : context.Drains direct t visits final r)
    (h : Shadows context s wrapper entry direct through)
    (hwraps : context.Wraps s wrapper entry) (hsteady : context.provider.StandsStill)
    (ht : context.Asked s t) (ht' : context.Asked s t')
    (honly : ∀ visit ∈ visits,
      (visit.item.identity = wrapper.identity → visit.item.method = wrapper) ∧
      (visit.item.identity = entry.identity → visit.item.method = entry)) :
    ∃ visits' final' r', context.Drains through t' visits' final' r' ∧
      List.Forall₂ (context.ListedAlike s)
        ((visits.filter (·.item.identity != wrapper.identity)).map (·.outcome.listing))
        (visits'.map (·.outcome.listing)) ∧
      final'.errors = final.errors := by
  -- The induction is on the run from the entry, which may make one visit more than the other run.
  induction hdrains generalizing through t' with
  | @idle direct t scheduler hnext =>
    have hnone : untaken through.scheduler.seen through.scheduler.queue = [] := by
      rw [h.queue, h.untaken_eq_nil (Scheduler.next_eq_none hnext).1, List.map_nil]
    rcases hnext' : through.scheduler.next with ⟨taken, scheduler'⟩
    cases taken with
    | none => exact ⟨[], _, t', .idle hnext', .nil, h.errors⟩
    | some item =>
      obtain ⟨passed, rest, hqueue, -, hnew, -⟩ := Scheduler.next_eq_some hnext'
      exact absurd (untaken_eq_nil_iff.1 hnone item (by simp [hqueue])) hnew
  | @visit direct final t u r scheduler item outcome visits hnext hlist _ ih =>
    have hu := ht.listMethod hsteady direct.names item
    rw [hlist] at hu
    obtain ⟨passed, rest, hqueue, hpassed, hnew, rfl⟩ := Scheduler.next_eq_some hnext
    obtain ⟨hwrapper, hentry⟩ := honly _ List.mem_cons_self
    have honly' := fun visit hvisit => honly visit (List.mem_cons_of_mem _ hvisit)
    have houtcome : ((context.listMethod direct.names item).run t).1 = outcome := by rw [hlist]
    by_cases hsame : item.identity = wrapper.identity
    · -- The other run has seen the wrapper and stays where it is.
      obtain ⟨method, depth⟩ := item
      obtain rfl : method = wrapper := hwrapper hsame
      have h' := h.after_wrapper hwraps hsteady hqueue hpassed houtcome
      obtain ⟨visits', final', r', hdrains', hlistings, herrors⟩ := ih h' hu ht' honly'
      refine ⟨visits', final', r', hdrains', ?_, herrors⟩
      rw [List.filter_cons_of_neg (by simp [hsame])]
      exact hlistings
    · have hself : item.method ≠ entry → entry.identity ≠ item.method.identity :=
        fun hne hidentity => hne (hentry hidentity.symm)
      obtain ⟨behind, hnext', hlisting, h'⟩ :=
        h.visit hwraps hsteady ht ht' hqueue hpassed hnew hsame hself houtcome
      have hu' := ht'.listMethod hsteady through.names item.deeper
      obtain ⟨visits', final', r', hdrains', hlistings, herrors⟩ := ih h' hu hu' honly'
      refine ⟨_, final', r', .visit hnext' rfl hdrains', ?_, herrors⟩
      rw [List.filter_cons_of_pos (by simpa using hsame)]
      exact .cons hlisting hlistings

end Shadows

/-! ## Whole runs -/

namespace Disassembler

section Runs

variable {context : Context σ} {settings : Settings} {s : σ} {wrapper entry : Method}

/-- After its first visit a run from the wrapper has queued the entry and nothing else. -/
theorem queue_after_wrapper (settings : Settings) (hwraps : context.Wraps s wrapper entry)
    (hsteady : context.provider.StandsStill) {outcome : Context.Outcome}
    (houtcome : ((context.listMethod .empty ⟨wrapper, 0⟩).run s).1 = outcome) :
    ∃ others, ((entryState settings wrapper).after ⟨wrapper, 0⟩ [] outcome).scheduler.queue =
        (⟨entry, 0⟩ : WorkItem).deeper :: others ∧
      ∀ item ∈ others, item.identity = entry.identity := by
  obtain ⟨-, hcallees⟩ := hwraps.findings_listMethod hsteady .empty 0 s
  have hdepths := context.depth_of_mem_callees .empty ⟨wrapper, 0⟩ s
  obtain ⟨address, hout⟩ := hwraps.refers
  have hcalls : context.Calls s wrapper entry :=
    (Context.calls_iff_callsAt hsteady).2 ⟨address, hwraps.callsAt hout⟩
  have hmem : ⟨entry, nextDepth 0⟩ ∈
      ((context.listMethod .empty ⟨wrapper, 0⟩).run s).1.findings.callees :=
    (Context.mem_callees_iff_calls hsteady).2 hcalls
  rw [houtcome] at hcallees hdepths hmem
  have hqueue : ∀ item ∈
      ((entryState settings wrapper).after ⟨wrapper, 0⟩ [] outcome).scheduler.queue,
      item = (⟨entry, 0⟩ : WorkItem).deeper := by
    intro item hitem
    rcases RunState.mem_queue_after.1 hitem with hnil | ⟨hcallee, -⟩
    · cases hnil
    · obtain ⟨method, depth⟩ := item
      obtain rfl : method = entry := hcallees _ hcallee
      obtain rfl : depth = nextDepth 0 := hdepths _ hcallee
      rfl
  have hqueued : ⟨entry, nextDepth 0⟩ ∈
      ((entryState settings wrapper).after ⟨wrapper, 0⟩ [] outcome).scheduler.queue := by
    refine RunState.mem_queue_after.2 (Or.inr ⟨hmem, ?_, ?_⟩)
    · show nextDepth 0 ≤ entryDepth settings wrapper
      unfold entryDepth
      rw [if_pos hwraps.marked]
      exact nextDepth_mono (UInt32.le_iff_toNat_le.2 (Nat.zero_le _))
    · show entry.identity ∉ [wrapper.identity]
      rw [List.mem_singleton]
      exact hwraps.other
  obtain ⟨first, others, hsplit⟩ := List.exists_cons_of_ne_nil (List.ne_nil_of_mem hqueued)
  rw [hsplit] at hqueue ⊢
  refine ⟨others, by rw [hqueue first List.mem_cons_self], fun item hitem => ?_⟩
  rw [hqueue item (List.mem_cons_of_mem _ hitem)]
  rfl

/-- After its first visit a run from the wrapper stands where a run from the entry starts. -/
theorem beside_after_wrapper (hwraps : context.Wraps s wrapper entry)
    (hsteady : context.provider.StandsStill) (hentry : isWrapperName entry.signature = false)
    (hdepth : settings.maxDepth < 0xFFFFFFFE) {outcome : Context.Outcome}
    (houtcome : ((context.listMethod .empty ⟨wrapper, 0⟩).run s).1 = outcome) :
    Beside context s wrapper entry (entryState settings entry)
      ((entryState settings wrapper).after ⟨wrapper, 0⟩ [] outcome) := by
  have hahead := hwraps.ahead hsteady
  have herror := context.error_listMethod_eq_none hwraps.listed
  rw [houtcome] at hahead herror
  have hdirect : (entryState settings entry).scheduler.maxDepth = settings.maxDepth :=
    if_neg (by simp [hentry])
  refine ⟨hahead, ?_, ?_, ?_, ?_⟩
  · rw [RunState.errors_after, herror]
    rfl
  · intro identity
    rw [RunState.seen_after]
    exact List.mem_cons
  · rw [RunState.maxDepth_after, hdirect]
    exact if_pos hwraps.marked
  · rw [hdirect]
    exact hdepth

section Drains

variable {visits : List Visit} {final : RunState} {s' : σ}
  (hwraps : context.Wraps s wrapper entry) (hsteady : context.provider.StandsStill)
  (hdrains : context.Drains (entryState settings entry) s visits final s')
  (honly : ∀ visit ∈ visits,
    (visit.item.identity = wrapper.identity → visit.item.method = wrapper) ∧
    (visit.item.identity = entry.identity → visit.item.method = entry))

include hwraps hsteady hdrains honly

/-- From where a run from the entry starts, a run that has queued the entry one call deeper goes on
like it. -/
theorem exists_drains_of_beside {through : RunState} {queued : List WorkItem} {t : σ}
    (h : Beside context s wrapper entry (entryState settings entry) through)
    (ht : context.Asked s t)
    (hqueue : through.scheduler.queue = (⟨entry, 0⟩ : WorkItem).deeper :: queued)
    (hqueued : ∀ item ∈ queued, item.identity = entry.identity) :
    ∃ visits' final' t', context.Drains through t visits' final' t' ∧
      List.Forall₂ (context.ListedAlike s)
        ((visits.filter (·.item.identity != wrapper.identity)).map (·.outcome.listing))
        (visits'.map (·.outcome.listing)) ∧
      final'.errors = final.errors := by
  obtain ⟨outcome, others, u, rfl, hlist, hrest⟩ := visits_eq_cons_of_drains hdrains
  have hu : context.Asked s u := by
    have hstart : context.Asked s s := .start
    have hu := hstart.listMethod hsteady .empty ⟨entry, 0⟩
    rwa [hlist] at hu
  have houtcome : ((context.listMethod (entryState settings entry).names ⟨entry, 0⟩).run s).1 =
      outcome := by
    show ((context.listMethod .empty ⟨entry, 0⟩).run s).1 = outcome
    rw [hlist]
  -- Whatever else is queued is the entry again.
  have hnone : untaken (entry.identity :: through.scheduler.seen) queued =
      (untaken (entry.identity :: through.scheduler.seen) []).map WorkItem.deeper := by
    refine untaken_eq_nil_iff.2 fun item hitem => ?_
    rw [hqueued item hitem]
    exact List.mem_cons_self
  obtain ⟨hlisting, hshadows⟩ := h.visit hwraps hsteady .start ht List.mem_cons_self
    (fun hne => absurd rfl hne) houtcome hnone
  obtain ⟨visits', final', t', hdrains', hlistings, herrors⟩ := hshadows.drains hrest hwraps
    hsteady hu (ht.listMethod hsteady _ _)
    fun visit hvisit => honly visit (List.mem_cons_of_mem _ hvisit)
  have hnew : (⟨entry, 0⟩ : WorkItem).deeper.identity ∉ through.scheduler.seen := by
    rw [h.seen]
    rintro (hsame | hseen)
    · exact hwraps.other hsame
    · cases hseen
  have hqueue' : through.scheduler.queue = [] ++ (⟨entry, 0⟩ : WorkItem).deeper :: queued := hqueue
  have hnext := Scheduler.next_of_queue_eq hqueue' (by simp) hnew
  refine ⟨_, final', t', .visit hnext rfl hdrains', ?_, herrors⟩
  rw [List.filter_cons_of_pos (by exact bne_iff_ne.2 hwraps.other)]
  exact .cons hlisting hlistings

/-- A run from the wrapper lists the wrapper and then what a run from the entry lists, less the
wrapper. -/
theorem exists_drains_wrapper (hentry : isWrapperName entry.signature = false)
    (hdepth : settings.maxDepth < 0xFFFFFFFE) :
    ∃ first visits' final' s'',
      context.Drains (entryState settings wrapper) s (⟨⟨wrapper, 0⟩, first⟩ :: visits') final'
        s'' ∧
      List.Forall₂ (context.ListedAlike s)
        ((visits.filter (·.item.identity != wrapper.identity)).map (·.outcome.listing))
        (visits'.map (·.outcome.listing)) ∧
      final'.errors = final.errors := by
  obtain ⟨queued, hqueue, hqueued⟩ := queue_after_wrapper settings hwraps hsteady rfl
  obtain ⟨visits', final', t, hdrains', hsame⟩ := exists_drains_of_beside hwraps hsteady hdrains
    honly (beside_after_wrapper hwraps hsteady hentry hdepth rfl)
    (Context.Asked.start.listMethod hsteady .empty ⟨wrapper, 0⟩) hqueue hqueued
  exact ⟨_, visits', final', t, .visit rfl rfl hdrains', hsame⟩

end Drains

end Runs

/-- Dropping the listings with the mark drops those of one method, if only that one is displayed
with the mark. -/
theorem filter_listings_of_drains {context : Context σ} {state final : RunState} {s s' : σ}
    {visits : List Visit} (h : context.Drains state s visits final s') {wrapper : Method}
    (hmarks : ∀ visit ∈ visits, isWrapperName visit.item.method.displayName = true ↔
      visit.item.identity = wrapper.identity) :
    (visits.map (·.outcome.listing)).filter (fun listing => !isWrapperName listing.name) =
      (visits.filter (·.item.identity != wrapper.identity)).map (·.outcome.listing) := by
  rw [List.filter_map]
  refine congrArg (List.map _) (List.filter_congr fun visit hvisit => ?_)
  rw [Bool.eq_iff_iff, Function.comp_apply, (h.listing_eq visit hvisit).1, Bool.not_eq_true',
    ← Bool.not_eq_true, hmarks visit hvisit, bne_iff_ne]

/-- A wrapper is dropped from the front of the listings if there are others. -/
theorem withoutWrappers_cons_of_wrapper {first : Listing} {others : List Listing}
    (hfirst : isWrapperName first.name = true) (hne : others ≠ [])
    (hothers : ∀ listing ∈ others, isWrapperName listing.name = false) :
    withoutWrappers (first :: others) = others := by
  have hseveral : 1 < (first :: others).length := by
    rw [List.length_cons]
    have hpos := List.length_pos_iff.2 hne
    omega
  unfold withoutWrappers
  rw [if_pos hseveral, List.filter_cons_of_neg (by simp [hfirst]), List.filter_eq_self]
  intro listing hlisting
  rw [hothers listing hlisting]
  rfl

/-- Methods that are listed alike have the same names, in the same order. -/
theorem map_name_eq_of_forall₂ {context : Context σ} {s : σ} {listings others : List Listing}
    (h : List.Forall₂ (context.ListedAlike s) listings others) :
    listings.map (·.name) = others.map (·.name) := by
  have hnames : List.Forall₂ (· = ·) (listings.map (·.name)) (others.map (·.name)) := by
    rw [List.forall₂_map_left_iff, List.forall₂_map_right_iff]
    exact h.imp fun _ _ halike => halike.sameButSource.name
  rwa [List.forall₂_eq_eq_eq] at hnames

/-- If a run from the wrapper makes the visits of a run from the entry, less those to the wrapper,
and lists every method alike, the listings that are left of both runs are alike. -/
theorem forall₂_withoutWrappers_of_drains {context : Context σ} {settings : Settings}
    {s s' s'' : σ} {wrapper entry : Method} {visits visits' : List Visit}
    {final final' : RunState} {first : Context.Outcome}
    (hdrains : context.Drains (entryState settings entry) s visits final s')
    (hdrains' : context.Drains (entryState settings wrapper) s (⟨⟨wrapper, 0⟩, first⟩ :: visits')
      final' s'')
    (hlistings : List.Forall₂ (context.ListedAlike s)
      ((visits.filter (·.item.identity != wrapper.identity)).map (·.outcome.listing))
      (visits'.map (·.outcome.listing)))
    (hwrapper : isWrapperName wrapper.displayName = true)
    (hentry : isWrapperName entry.displayName = false)
    (hmarks : ∀ visit ∈ visits, isWrapperName visit.item.method.displayName = true ↔
      visit.item.identity = wrapper.identity) :
    List.Forall₂ (context.ListedAlike s) (withoutWrappers (visits.map (·.outcome.listing)))
      (withoutWrappers ((⟨⟨wrapper, 0⟩, first⟩ :: visits').map (·.outcome.listing))) := by
  rw [← filter_listings_of_drains hdrains hmarks] at hlistings
  obtain ⟨outcome, others, t, rfl, -, -⟩ := visits_eq_cons_of_drains hdrains
  have hfirst : isWrapperName first.listing.name = true := by
    rw [(hdrains'.listing_eq _ List.mem_cons_self).1]
    exact hwrapper
  have hhead : isWrapperName outcome.listing.name = false := by
    rw [(hdrains.listing_eq _ List.mem_cons_self).1]
    exact hentry
  rw [List.map_cons, List.map_cons, withoutWrappers_cons _ hhead,
    withoutWrappers_cons_of_wrapper hfirst]
  · exact hlistings
  · intro hnil
    rw [hnil, List.forall₂_nil_right_iff, List.map_cons,
      List.filter_cons_of_pos (by simp [hhead])] at hlistings
    exact List.cons_ne_nil _ _ hlistings
  · -- Alike listings have one name, and none with the mark is left of the run from the entry.
    intro listing hlisting
    have hname := List.mem_map_of_mem (f := Listing.name) hlisting
    rw [← map_name_eq_of_forall₂ hlistings] at hname
    obtain ⟨other, hother, heq⟩ := List.mem_map.1 hname
    rw [← heq]
    simpa using (List.mem_filter.1 hother).2

/-- Over a snapshot whose methods have different code addresses, and in which only one method is
displayed with the mark of a wrapper, a run from this wrapper gives the errors and the listings of a
run from the entry that it wraps.  Only where the source lines of a method depend on what was asked
before, the source between the instructions may differ, and whether they are sorted by address. -/
theorem run_wrapper_eq_run_entry {index : SnapshotIndex}
    {disassembler disassembler' : Disassembler} {wrapper entry : Method}
    {sourceOf : Option (SourceLocator σ)} {context : Context σ} (s : σ)
    (hcontext : disassembler.context (index.provider σ) sourceOf = .ok (context, disassembler'))
    (hcodes : (index.snapshot.methods.map (·.nativeCode)).Nodup)
    (hwrapper : wrapper ∈ index.snapshot.methods)
    (hwraps : context.Wraps s wrapper entry)
    (hmarks : ∀ method ∈ index.snapshot.methods, method ≠ wrapper →
      isWrapperName method.displayName = false)
    (hdepth : disassembler.settings.maxDepth < 0xFFFFFFFE) :
    ∃ through direct,
      ((disassembler.run (index.provider σ) wrapper sourceOf).run s).1.1 = .ok through ∧
      ((disassembler.run (index.provider σ) entry sourceOf).run s).1.1 = .ok direct ∧
      List.Forall₂ Listing.SameButSource direct.listings through.listings ∧
      through.errors = direct.errors ∧
      (context.LinesFixed s → through.listings = direct.listings) := by
  have hsteady := standsStill_of_context hcontext
  have hfinds := mem_methods_of_context hcontext
  have hentry : entry ∈ index.snapshot.methods := by
    obtain ⟨address, hout⟩ := hwraps.refers
    exact of_identify_eq_method hfinds (hwraps.only.finding address hout)
  have hplain : isWrapperName entry.displayName = false :=
    hmarks entry hentry fun hsame => hwraps.other (congrArg Method.identity hsame)
  have hplain' : isWrapperName entry.signature = false := by
    rw [← Bool.not_eq_true] at hplain ⊢
    exact fun hmarked => hplain (isWrapperName_displayName hmarked)
  obtain ⟨visits, final, s', hdrains⟩ :=
    context.exists_drains (entryState disassembler.settings entry) s
  have hknown : ∀ visit ∈ visits, visit.item.method ∈ index.snapshot.methods := by
    refine hdrains.forall_item (P := fun item => item.method ∈ index.snapshot.methods) ?_ ?_
    · intro item hitem
      rw [List.mem_singleton.1 hitem]
      exact hentry
    · intro names item s _
      exact Context.forall_callee_listMethod hfinds names item s
  have honly : ∀ visit ∈ visits,
      (visit.item.identity = wrapper.identity → visit.item.method = wrapper) ∧
      (visit.item.identity = entry.identity → visit.item.method = entry) := fun visit hvisit =>
    ⟨List.inj_on_of_nodup_map hcodes (hknown visit hvisit) hwrapper,
      List.inj_on_of_nodup_map hcodes (hknown visit hvisit) hentry⟩
  have hmarked : ∀ visit ∈ visits, isWrapperName visit.item.method.displayName = true ↔
      visit.item.identity = wrapper.identity := by
    intro visit hvisit
    constructor
    · intro hmarked
      by_contra hother
      have hne : visit.item.method ≠ wrapper :=
        fun hsame => hother (congrArg Method.identity hsame)
      rw [hmarks _ (hknown visit hvisit) hne] at hmarked
      cases hmarked
    · intro hsame
      rw [(honly visit hvisit).1 hsame]
      exact isWrapperName_displayName hwraps.marked
  obtain ⟨first, visits', final', s'', hdrains', hlistings, herrors⟩ :=
    exists_drains_wrapper hwraps hsteady hdrains honly hplain' hdepth
  have halike := forall₂_withoutWrappers_of_drains hdrains hdrains' hlistings
    (isWrapperName_displayName hwraps.marked) hplain hmarked
  refine ⟨_, _, congrArg (·.1.1) (run_eq_of_drains hcontext hdrains'),
    congrArg (·.1.1) (run_eq_of_drains hcontext hdrains),
    halike.imp fun _ _ h => h.sameButSource, herrors, fun hfixed => ?_⟩
  have hequal := halike.imp fun _ _ h => h.eq_of_linesFixed hfixed
  rw [List.forall₂_eq_eq_eq] at hequal
  exact hequal.symm

/-- A wrapper at the lower address of two methods that call each other. -/
def callingWrapper : Method := MutualCalls.low "A.__ForDisassemblyDiagnoser__()" ""

/-- The lower method wraps the higher one. -/
theorem wraps_pong : (MutualCalls.contextOf 1 [] [callingWrapper, MutualCalls.pong]).Wraps ()
    callingWrapper MutualCalls.pong := by
  have hfound : SnapshotIndex.methodAt?
      (MutualCalls.index [callingWrapper, MutualCalls.pong]).snapshot 0x20000 =
        some MutualCalls.pong := rfl
  obtain ⟨hlisted, instruction, hmem, hrefers, -, hvalid, hfinding, hother⟩ :=
    MutualCalls.callsAt_low 1 [] _ "A.__ForDisassemblyDiagnoser__()" "" hfound (by decide)
  have honly : ∀ address,
      (MutualCalls.contextOf 1 [] [callingWrapper, MutualCalls.pong]).RefersOut () callingWrapper
        address → address = 0x20000 := by
    rintro address ⟨instruction, hmem, hrefers, -⟩
    exact (MutualCalls.refersTo_low 1 [] _ _ _).2 instruction hmem address hrefers
  refine ⟨by decide, hlisted, hother, ⟨0x20000, instruction, hmem, hrefers, rfl⟩, ?_, ?_, ?_⟩
  · intro address hout
    rw [honly address hout]
    rfl
  · intro address hout
    rw [honly address hout]
    exact hvalid
  · intro address hout
    rw [honly address hout]
    exact hfinding

/-- The entry calls the wrapper back, so that a run from the entry lists the wrapper and drops it.
-/
theorem run_wrapper_eq_of_mutual_calls :
    (MutualCalls.contextOf 1 [] [callingWrapper, MutualCalls.pong]).LinesFixed () ∧
    ∃ through direct,
      (((MutualCalls.disassemblerOf 1 []).run
        ((MutualCalls.index [callingWrapper, MutualCalls.pong]).provider Unit) callingWrapper
        none).run ()).1.1 = .ok through ∧
      (((MutualCalls.disassemblerOf 1 []).run
        ((MutualCalls.index [callingWrapper, MutualCalls.pong]).provider Unit) MutualCalls.pong
        none).run ()).1.1 = .ok direct ∧
      through.listings = direct.listings ∧ through.errors = direct.errors := by
  obtain ⟨disassembler', hcontext⟩ :=
    MutualCalls.contextOf_eq 1 [] [callingWrapper, MutualCalls.pong]
  have hfixed : (MutualCalls.contextOf 1 [] [callingWrapper, MutualCalls.pong]).LinesFixed () :=
    Context.linesFixed_of_sourceOf_eq_none rfl ()
  obtain ⟨through, direct, hthrough, hdirect, -, herrors, hlistings⟩ :=
    run_wrapper_eq_run_entry () hcontext (by decide) List.mem_cons_self wraps_pong (by decide)
      (by decide)
  exact ⟨hfixed, through, direct, hthrough, hdirect, hlistings hfixed, herrors⟩

end Disassembler

/-! ## A file named in two ways -/

namespace SharedFile

/-- A wrapper that calls the entry. -/
def wrapper : Method := MutualCalls.low "App.__ForDisassemblyDiagnoser__()" ""

/-- An entry with two ranges, of which the second one lies in the first one. -/
def entry : Method :=
  { MutualCalls.high "A.Pong()" "" with codeRanges := [⟨0x20000, 4⟩, ⟨0x20001, 2⟩] }

/-- The wrapper calls the entry and returns; the entry does nothing and returns. -/
def memory : List MemoryRegion :=
  [⟨0x10000, [0xE8, 0xFB, 0xFF, 0x00, 0x00, 0xC3]⟩, ⟨0x20000, [0x90, 0x90, 0x90, 0xC3]⟩]

/-- A snapshot of this memory in which the code of both methods comes from one file, which is named
like a directory for the wrapper. -/
def index : SnapshotIndex where
  snapshot := {
    (MutualCalls.index [wrapper, entry]).snapshot with
    memory := memory
    sources := [⟨0x10000, 0x10000, "P.cs/", 1, none, none, none⟩,
      ⟨0x20000, 0x20000, "P.cs", 1, none, none, none⟩] }
  regions := memory.toArray

/-- The text of the file, which cannot be read under the name of a directory. -/
def contents (path : String) : Option String :=
  if path == "root/P.cs" then some "one\n" else none

/-- The source lines of the snapshot. -/
def sourceOf : SourceLocator FileCache :=
  index.locator (some "root") contents

/-- A disassembler that prints source. -/
def disassembler : Disassembler where
  settings := { maxDepth := 1, printSource := true }
  decoders := .builtIn

/-- The context of a run over the snapshot. -/
def context : Context FileCache where
  settings := { maxDepth := 1, printSource := true }
  provider := index.provider FileCache
  isa := .x86 .bits64
  decoders := .builtIn
  templates := (Isa.x86 .bits64).stubTemplates 16384
  reusesStubs := true
  guard := 4096
  sourceOf := some sourceOf

/-- The context is that of runs of the disassembler. -/
theorem context_eq : ∃ disassembler', disassembler.context (index.provider FileCache)
    (some sourceOf) = .ok (context, disassembler') :=
  ⟨_, rfl⟩

/-- What is known of files once the wrapper was listed: its name for the file cannot be read. -/
def cacheAfter : FileCache :=
  ⟨[(Path.key "root/P.cs/", none)]⟩

/-- The names once the wrapper was listed. -/
def namesAfter : NameMap :=
  NameMap.empty.insert 0x20000 "A.Pong()"

/-- The wrapper refers to the entry and to nothing else. -/
theorem wraps : context.Wraps {} wrapper entry := by
  have hreferences : (context.decodedOf {} wrapper).map
      (fun instruction => (instruction.reference, instruction.isIndirect)) =
        [(some 0x20000, false), (none, false)] := by
    decide +kernel
  have habove : (0xFFFF : UInt64) < 0x20000 := by decide
  obtain ⟨⟨instruction, hmem, hrefers⟩, honly⟩ :=
    Context.refersTo_of_references hreferences habove
  have htarget : ∀ address, context.RefersOut {} wrapper address → address = 0x20000 := by
    rintro address ⟨instruction, hmem, hrefers, -⟩
    exact honly instruction hmem address hrefers
  refine ⟨by decide, by decide +kernel, by decide, ⟨0x20000, instruction, hmem, hrefers, rfl⟩,
    ?_, ?_, ?_⟩
  · intro address hout
    rw [htarget address hout]
    rfl
  · intro address hout
    rw [htarget address hout]
    rfl
  · intro address hout
    rw [htarget address hout]
    decide +kernel

/-- Listing the wrapper names the entry, queues it and reads the file by the wrapper's name. -/
theorem listMethod_wrapper :
    ((context.listMethod .empty ⟨wrapper, 0⟩).run {}).1.findings =
        ⟨namesAfter, [⟨entry, 1⟩]⟩ ∧
      ((context.listMethod .empty ⟨wrapper, 0⟩).run {}).2 = cacheAfter := by
  constructor
  · with_unfolding_all rfl
  · with_unfolding_all rfl

/-- Listed first, the entry has source, so its instructions are sorted. -/
theorem listMethod_entry :
    ((context.listMethod .empty ⟨entry, 0⟩).run {}).1.findings.callees = [] ∧
      ((context.listMethod .empty ⟨entry, 0⟩).run {}).1.listing.instructions.map (·.address) =
        [0x20000, 0x20001, 0x20001, 0x20002, 0x20002, 0x20003] := by
  constructor
  · simp only [Context.listMethod, Context.rangesOf, mergeSort_address_eq_insertionSort]
    decide +kernel
  · simp only [Context.listMethod, Context.rangesOf, Listing.groupsOf, Listing.sortedEntries,
      mergeSort_address_eq_insertionSort]
    decide +kernel

/-- Listed after the wrapper, the entry has no source, so its instructions are not sorted. -/
theorem listMethod_entry_after_wrapper :
    ((context.listMethod namesAfter ⟨entry, 1⟩).run cacheAfter).1.findings.callees = [] ∧
      ((context.listMethod namesAfter ⟨entry, 1⟩).run cacheAfter).1.listing.instructions.map
          (·.address) =
        [0x20000, 0x20001, 0x20002, 0x20003, 0x20001, 0x20002] := by
  constructor
  · simp only [Context.listMethod, Context.rangesOf, mergeSort_address_eq_insertionSort]
    decide +kernel
  · simp only [Context.listMethod, Context.rangesOf, mergeSort_address_eq_insertionSort]
    decide +kernel

end SharedFile

namespace Disassembler

/-- A run from the entry lists it with its instructions sorted. -/
theorem run_entry_of_shared_file :
    ∃ direct,
      ((SharedFile.disassembler.run (SharedFile.index.provider FileCache) SharedFile.entry
        (some SharedFile.sourceOf)).run {}).1.1 = .ok direct ∧
      direct.listings.map (fun listing => listing.instructions.map (·.address)) =
        [[0x20000, 0x20001, 0x20001, 0x20002, 0x20002, 0x20003]] := by
  obtain ⟨hcallees, haddresses⟩ := SharedFile.listMethod_entry
  obtain ⟨disassembler', hcontext⟩ := SharedFile.context_eq
  have hnew : (⟨SharedFile.entry, 0⟩ : WorkItem).identity ∉
      (entryState SharedFile.disassembler.settings SharedFile.entry).scheduler.seen :=
    List.not_mem_nil
  obtain ⟨final, s', hdrains⟩ := Context.exists_drains_single rfl hnew hcallees
  refine ⟨_, congrArg (·.1.1) (run_eq_of_drains hcontext hdrains), ?_⟩
  exact congrArg ([·]) haddresses

/-- A run from the wrapper lists the entry with its instructions in the order of its ranges. -/
theorem run_wrapper_of_shared_file :
    ∃ through,
      ((SharedFile.disassembler.run (SharedFile.index.provider FileCache) SharedFile.wrapper
        (some SharedFile.sourceOf)).run {}).1.1 = .ok through ∧
      through.listings.map (fun listing => listing.instructions.map (·.address)) =
        [[0x20000, 0x20001, 0x20002, 0x20003, 0x20001, 0x20002]] := by
  obtain ⟨hfindings, hcache⟩ := SharedFile.listMethod_wrapper
  obtain ⟨hcallees, haddresses⟩ := SharedFile.listMethod_entry_after_wrapper
  obtain ⟨disassembler', hcontext⟩ := SharedFile.context_eq
  set first := ((SharedFile.context.listMethod .empty ⟨SharedFile.wrapper, 0⟩).run {}).1
  have hlist : (SharedFile.context.listMethod .empty ⟨SharedFile.wrapper, 0⟩).run {} =
      (first, SharedFile.cacheAfter) := Prod.ext rfl hcache
  -- After the wrapper the entry is queued, and nothing else.
  let after := (entryState SharedFile.disassembler.settings SharedFile.wrapper).after
    ⟨SharedFile.wrapper, 0⟩ [] first
  have hqueue : after.scheduler.queue = [⟨SharedFile.entry, 1⟩] := by
    rw [RunState.queue_after, hfindings]
    decide
  have hnew : (⟨SharedFile.entry, 1⟩ : WorkItem).identity ∉ after.scheduler.seen := by
    rw [RunState.seen_after]
    decide
  have hnames : after.names = SharedFile.namesAfter := by
    rw [RunState.names_after, hfindings]
  rw [← hnames] at hcallees haddresses
  obtain ⟨final, s', hrest⟩ := Context.exists_drains_single hqueue hnew hcallees
  set second := ((SharedFile.context.listMethod after.names ⟨SharedFile.entry, 1⟩).run
    SharedFile.cacheAfter).1
  have hdrains : SharedFile.context.Drains
      (entryState SharedFile.disassembler.settings SharedFile.wrapper) {}
      [⟨⟨SharedFile.wrapper, 0⟩, first⟩, ⟨⟨SharedFile.entry, 1⟩, second⟩] final s' :=
    .visit rfl hlist hrest
  have hmarked : isWrapperName first.listing.name = true := by
    rw [(hdrains.listing_eq _ List.mem_cons_self).1]
    decide
  have hplain : isWrapperName second.listing.name = false := by
    rw [(hdrains.listing_eq _ (List.mem_cons_of_mem _ List.mem_cons_self)).1]
    decide
  have hleft : withoutWrappers [first.listing, second.listing] = [second.listing] :=
    withoutWrappers_cons_of_wrapper hmarked (List.cons_ne_nil _ _)
      (List.forall_mem_singleton.2 hplain)
  refine ⟨_, congrArg (·.1.1) (run_eq_of_drains hcontext hdrains), ?_⟩
  show (withoutWrappers [first.listing, second.listing]).map _ = _
  rw [hleft, List.map_singleton, haddresses]

/-- With valid settings and over a sound snapshot, a wrapper names the file of its entry as only a
directory can be named.  It keeps the entry from having source, so a run from the wrapper lists the
instructions of the entry in another order than a run from the entry. -/
theorem run_wrapper_differs_by_shared_file :
    SnapshotIndex.ofSnapshot SharedFile.index.snapshot = .ok SharedFile.index ∧
    SharedFile.disassembler.settings.validate = .ok () ∧
    (∃ disassembler', SharedFile.disassembler.context (SharedFile.index.provider FileCache)
      (some SharedFile.sourceOf) = .ok (SharedFile.context, disassembler')) ∧
    (SharedFile.index.snapshot.methods.map (·.nativeCode)).Nodup ∧
    SharedFile.wrapper ∈ SharedFile.index.snapshot.methods ∧
    SharedFile.context.Wraps {} SharedFile.wrapper SharedFile.entry ∧
    (∀ method ∈ SharedFile.index.snapshot.methods, method ≠ SharedFile.wrapper →
      isWrapperName method.displayName = false) ∧
    SharedFile.disassembler.settings.maxDepth < 0xFFFFFFFE ∧
    ∃ through direct,
      ((SharedFile.disassembler.run (SharedFile.index.provider FileCache) SharedFile.wrapper
        (some SharedFile.sourceOf)).run {}).1.1 = .ok through ∧
      ((SharedFile.disassembler.run (SharedFile.index.provider FileCache) SharedFile.entry
        (some SharedFile.sourceOf)).run {}).1.1 = .ok direct ∧
      through.listings.map (fun listing => listing.instructions.map (·.address)) =
        [[0x20000, 0x20001, 0x20002, 0x20003, 0x20001, 0x20002]] ∧
      direct.listings.map (fun listing => listing.instructions.map (·.address)) =
        [[0x20000, 0x20001, 0x20001, 0x20002, 0x20002, 0x20003]] := by
  obtain ⟨through, hthrough, haddresses⟩ := run_wrapper_of_shared_file
  obtain ⟨direct, hdirect, haddresses'⟩ := run_entry_of_shared_file
  have hsorted : SharedFile.memory.Pairwise fun a b => a.address ≤ b.address := by decide
  exact ⟨SnapshotIndex.ofSnapshot_eq_ok_of_pairwise hsorted rfl rfl, rfl, SharedFile.context_eq,
    by decide, List.mem_cons_self, SharedFile.wraps, by decide, by decide, through, direct,
    hthrough, hdirect, haddresses, haddresses'⟩

end Disassembler

end CodeListing
