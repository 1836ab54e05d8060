import CodeListing.Proofs.CallGraph
import CodeListing.Proofs.Visits

/-!
# What a run by patterns lists

A run by patterns is for the methods that match a pattern and can be listed, of each code address
only the first (`selection`).  It queues them before anything else, so they are listed first and in
order, and every method with code has its name before the first of them is listed
(`runFiltered_lists_selection_first`).

Nothing else should be listed, because the methods are queued at the depth of the settings and what
they call lies one call further.  The one depth for which this fails is the largest one, where one
call further is no deeper.  Then a call is followed if it goes to an address where no method starts,
such as the middle of a method or a pointer cell, since only the starts of methods have names in
advance.  `runFiltered_only_selected_iff` says exactly when this happens.
-/

set_option autoImplicit false

namespace CodeListing

variable {σ : Type}

namespace Disassembler

/-- A method is selected if it has code and a pattern matches its signature or its displayed name.
-/
theorem isSelected_iff {filters : List String} {method : Method} :
    isSelected filters method = true ↔
      (Glob.anyMatches filters method.signature = true ∨
        Glob.anyMatches filters method.displayName = true) ∧
      method.unavailableReason? = none := by
  simp [isSelected]

/-- The methods that match a pattern and can be listed, in order and of each code address only the
first one. -/
def selection (filters : List String) (methods : List Method) : List Method :=
  firstByKey Method.nativeCode (methods.filter (isSelected filters))

section Selection

variable {filters : List String} {methods : List Method} {method : Method}

/-- The methods of the selection are selected ones. -/
theorem mem_of_mem_selection (h : method ∈ selection filters methods) :
    method ∈ methods ∧ isSelected filters method = true :=
  List.mem_filter.1 (firstByKeyFrom_sublist.subset h)

/-- For every selected method one with the same code address is in the selection. -/
theorem exists_mem_selection (hmem : method ∈ methods)
    (hselected : isSelected filters method = true) :
    ∃ first ∈ selection filters methods, first.nativeCode = method.nativeCode :=
  exists_mem_firstByKeyFrom (List.mem_filter.2 ⟨hmem, hselected⟩) List.not_mem_nil

end Selection

/-! ## Before the first visit -/

/-- An address keeps the name that it has, or takes that of the first method which starts there. -/
theorem get?_foldl_insert (methods : List Method) (names : NameMap) {address : UInt64}
    (haddress : address ≠ 0) :
    (methods.foldl (fun names method => if method.nativeCode == 0 then names
        else names.insert method.nativeCode method.displayName) names).get? address =
      (names.get? address).or
        ((methods.find? (·.nativeCode == address)).map Method.displayName) := by
  induction methods generalizing names with
  | nil => simp
  | cons method rest ih =>
    rw [List.foldl_cons, ih, List.find?_cons]
    by_cases hzero : method.nativeCode = 0
    · have hother : (method.nativeCode == address) = false := by
        rw [hzero, beq_eq_false_iff_ne]
        exact haddress.symm
      simp only [hother]
      simp [hzero]
    · by_cases hsame : method.nativeCode = address
      · subst hsame
        simp [hzero, NameMap.get?_insert]
      · have hother : (method.nativeCode == address) = false := beq_eq_false_iff_ne.2 hsame
        have hother' : ¬ address = method.nativeCode := fun h => hsame h.symm
        simp [hzero, hother, hother', NameMap.get?_insert]

section Seed

variable (settings : Settings) (methods : List Method)

/-- No method was seen at the start. -/
@[simp] theorem seen_seed : (seed settings methods).scheduler.seen = [] :=
  Scheduler.seen_enqueueAll _ _

/-- The start has the depth of the settings. -/
@[simp] theorem maxDepth_seed :
    (seed settings methods).scheduler.maxDepth = settings.maxDepth :=
  Scheduler.maxDepth_enqueueAll _ _

/-- All selected methods are accepted. -/
theorem queue_seed : (seed settings methods).scheduler.queue =
    (methods.filter (isSelected settings.filters)).map fun method =>
      ⟨method, settings.maxDepth⟩ := by
  have haccepts : ∀ item ∈ (methods.filter (isSelected settings.filters)).map
      (fun method => (⟨method, settings.maxDepth⟩ : WorkItem)),
      (RunState.start settings.maxDepth).scheduler.accepts item = true := by
    intro item hitem
    obtain ⟨method, -, rfl⟩ := List.mem_map.1 hitem
    rw [Scheduler.accepts_iff]
    exact ⟨UInt32.le_refl _, List.not_mem_nil⟩
  unfold seed
  simp only [Scheduler.enqueueAll_eq]
  rw [List.filter_eq_self.2 haccepts]
  rfl

/-- At the start an address has the name of the first method there, if there is one. -/
theorem get?_names_seed {address : UInt64} (haddress : address ≠ 0) :
    (seed settings methods).names.get? address =
      (methods.find? (·.nativeCode == address)).map Method.displayName := by
  have hstart : (RunState.start settings.maxDepth).names.get? address = none := rfl
  have hnames := get?_foldl_insert methods (RunState.start settings.maxDepth).names haddress
  rw [hstart, Option.none_or] at hnames
  exact hnames

/-- An address has no name in advance exactly if no method starts there. -/
theorem get?_names_seed_eq_none_iff {address : UInt64} (haddress : address ≠ 0) :
    (seed settings methods).names.get? address = none ↔
      ∀ method ∈ methods, method.nativeCode ≠ address := by
  rw [get?_names_seed settings methods haddress, Option.map_eq_none_iff, List.find?_eq_none]
  simp

end Seed

/-! ## What is listed first -/

section Visits

variable {context : Context σ} {settings : Settings} {methods : List Method} {s s' : σ}
  {visits : List Visit} {final : RunState}

/-- A run by patterns takes the selected methods before any other. -/
theorem selection_prefix_visits (h : context.Drains (seed settings methods) s visits final s') :
    (selection settings.filters methods).map (⟨·, settings.maxDepth⟩) <+:
      visits.map (·.item) := by
  have hprefix := h.firstByKeyFrom_prefix
  rw [seen_seed, queue_seed, firstByKeyFrom_map] at hprefix
  exact hprefix

/-- Every method of the selection is visited, at the largest depth. -/
theorem exists_visit_of_mem_selection
    (h : context.Drains (seed settings methods) s visits final s') {method : Method}
    (hmethod : method ∈ selection settings.filters methods) :
    ∃ visit ∈ visits, visit.item = ⟨method, settings.maxDepth⟩ := by
  have hmem := (selection_prefix_visits h).subset (List.mem_map_of_mem hmethod)
  obtain ⟨visit, hvisit, heq⟩ := List.mem_map.1 hmem
  exact ⟨visit, hvisit, heq⟩

/-- The first listings are those of the selection, in its order. -/
theorem map_take_listings (h : context.Drains (seed settings methods) s visits final s') :
    ((visits.map (·.outcome.listing)).take (selection settings.filters methods).length).map
        (fun listing => (listing.name, listing.nativeCode)) =
      (selection settings.filters methods).map fun method =>
        (method.displayName, method.nativeCode) := by
  have hlistings : (visits.map (·.outcome.listing)).map
      (fun listing => (listing.name, listing.nativeCode)) =
      (visits.map (·.item)).map fun item => (item.method.displayName, item.method.nativeCode) := by
    rw [List.map_map, List.map_map]
    refine List.map_congr_left ?_
    intro visit hvisit
    obtain ⟨hname, hcode⟩ := h.listing_eq visit hvisit
    simp only [Function.comp_apply, hname, hcode]
  have htake := List.prefix_iff_eq_take.1 (selection_prefix_visits h)
  rw [List.length_map] at htake
  rw [List.map_take, hlistings, ← List.map_take, ← htake, List.map_map]
  rfl

/-! ## What else is listed -/

/-- A method of the selection calls another one at an address where no method starts, and no method
of the selection has the code address of the other one. -/
def CallsOut (context : Context σ) (s : σ) (filters : List String) (methods : List Method) : Prop :=
  ∃ caller ∈ selection filters methods, ∃ address callee,
    context.CallsAt s caller address callee ∧
    (∀ method ∈ methods, method.nativeCode ≠ address) ∧
    ∀ method ∈ selection filters methods, method.nativeCode ≠ callee.nativeCode

/-- No method is called at address zero. -/
theorem ne_zero_of_callsAt {caller callee : Method} {address : UInt64}
    (h : context.CallsAt s caller address callee) : address ≠ 0 := by
  obtain ⟨-, instruction, -, -, -, hvalid, -⟩ := h
  rintro rfl
  simp [isValidAddress] at hvalid

/-- The first visit behind the selection is that of a callee which the selection calls out to, and
the depth is the largest one. -/
theorem callsOut_of_visits (hsteady : context.provider.StandsStill)
    (h : context.Drains (seed settings methods) s visits final s')
    {earlier later : List Visit} {visit : Visit} (hvisits : visits = earlier ++ visit :: later)
    (hearlier : earlier.map (·.item) =
      (selection settings.filters methods).map (⟨·, settings.maxDepth⟩)) :
    settings.maxDepth = 0xFFFFFFFF ∧ CallsOut context s settings.filters methods := by
  have hnew : ∀ method ∈ selection settings.filters methods,
      method.nativeCode ≠ visit.item.identity := by
    intro method hmethod hsame
    have hmem : (⟨method, settings.maxDepth⟩ : WorkItem) ∈ earlier.map (·.item) := by
      rw [hearlier]
      exact List.mem_map_of_mem hmethod
    obtain ⟨other, hother, heq⟩ := List.mem_map.1 hmem
    have hnodup := h.identities.2
    rw [hvisits, List.map_append, List.nodup_append] at hnodup
    refine hnodup.2.2 other.item.identity (List.mem_map_of_mem hother) visit.item.identity
      (by simp) ?_
    rw [heq]
    exact hsame
  rcases h.queued_or_found hvisits with hqueued | ⟨caller, hcaller, hcallee, hdepth⟩
  · -- Every queued method has the code address of one in the selection.
    rw [queue_seed] at hqueued
    obtain ⟨method, hmethod, heq⟩ := List.mem_map.1 hqueued
    obtain ⟨hmem, hselected⟩ := List.mem_filter.1 hmethod
    obtain ⟨first, hfirst, hcode⟩ := exists_mem_selection hmem hselected
    refine absurd ?_ (hnew first hfirst)
    rw [hcode, ← heq]
    rfl
  · have hcallerItem : caller.item ∈ earlier.map (·.item) := List.mem_map_of_mem hcaller
    rw [hearlier] at hcallerItem
    obtain ⟨method, hmethod, hitem⟩ := List.mem_map.1 hcallerItem
    have hmem : caller ∈ visits := by
      rw [hvisits]
      exact List.mem_append_left _ hcaller
    obtain ⟨names, hnames, hfound, -⟩ := h.findings_eq hsteady s caller hmem
    rw [← hfound, ← hitem] at hcallee
    obtain ⟨address, hunnamed, hcalls⟩ := Context.callsAt_of_mem_callees hsteady hcallee
    constructor
    · rw [context.depth_of_mem_callees _ _ _ visit.item hcallee, maxDepth_seed] at hdepth
      exact nextDepth_le_self_iff.1 hdepth
    · have hstarts : ∀ method ∈ methods, method.nativeCode ≠ address :=
        (get?_names_seed_eq_none_iff settings methods (ne_zero_of_callsAt hcalls)).1
          (hnames.get?_eq_none hunnamed)
      exact ⟨method, hmethod, address, visit.item.method, hcalls, hstarts, hnew⟩

/-- Unless the depth is the largest one and the selection calls out, nothing else is visited. -/
theorem items_eq_selection (hsteady : context.provider.StandsStill)
    (h : context.Drains (seed settings methods) s visits final s')
    (hout : ¬ (settings.maxDepth = 0xFFFFFFFF ∧ CallsOut context s settings.filters methods)) :
    visits.map (·.item) = (selection settings.filters methods).map (⟨·, settings.maxDepth⟩) := by
  obtain ⟨more, hmore⟩ := selection_prefix_visits h
  obtain ⟨earlier, later, rfl, hearlier, hlater⟩ := List.map_eq_append_iff.1 hmore.symm
  cases later with
  | nil => rw [List.append_nil, hearlier]
  | cons visit later => exact absurd (callsOut_of_visits hsteady h rfl hearlier) hout

end Visits

end Disassembler

/-- At the largest depth every method is visited that lives at an address which got its name during
the run, unless it was taken before. -/
theorem Context.Drains.exists_visit_of_named {context : Context σ} {state final : RunState}
    {s t t' : σ} {visits : List Visit} (h : context.Drains state t visits final t')
    (hsteady : context.provider.StandsStill) (hmax : state.scheduler.maxDepth = 0xFFFFFFFF)
    {address : UInt64} {callee : Method} (hnamed : final.names.get? address ≠ none)
    (hfinding : context.findingAt s address = .method callee) :
    state.names.get? address ≠ none ∨ callee.identity ∈ state.scheduler.seen ∨
      ∃ visit ∈ visits, visit.item.identity = callee.identity := by
  induction h with
  | idle => exact Or.inl hnamed
  | @visit state final t t' t'' scheduler item outcome visits hnext hlist hrest ih =>
    obtain ⟨passed, rest, -, -, -, rfl⟩ := Scheduler.next_eq_some hnext
    have hmax' : (state.after item rest outcome).scheduler.maxDepth = 0xFFFFFFFF := by
      rw [RunState.maxDepth_after]
      exact hmax
    -- A callee whose method was taken by now is that of this visit or was taken before it.
    have htaken : callee.identity ∈ item.identity :: state.scheduler.seen →
        callee.identity ∈ state.scheduler.seen ∨
          ∃ visit ∈ (⟨item, outcome⟩ :: visits : List Visit),
            visit.item.identity = callee.identity := by
      intro hmem
      rcases List.mem_cons.1 hmem with hsame | hseen
      · exact Or.inr ⟨⟨item, outcome⟩, List.mem_cons_self, hsame.symm⟩
      · exact Or.inl hseen
    rcases ih hmax' hnamed with hbefore | hseen | ⟨visit, hvisit, hidentity⟩
    · have hfound : ((context.listMethod state.names item).run s).1.findings =
          outcome.findings := by
        rw [findings_listMethod_eq hsteady state.names item s t, hlist]
      have hnamed' : ((context.listMethod state.names item).run
          s).1.findings.names.get? address ≠ none := by
        rw [hfound]
        exact hbefore
      rcases named_before_or_mem_callees hsteady hnamed' hfinding with hstart | hcallee
      · exact Or.inl hstart
      · right
        by_cases hmem : callee.identity ∈ item.identity :: state.scheduler.seen
        · exact htaken hmem
        · have hdepth : nextDepth item.depth ≤ state.scheduler.maxDepth := by
            rw [hmax, UInt32.le_iff_toNat_le]
            have hlt := (nextDepth item.depth).toNat_lt
            show (nextDepth item.depth).toNat ≤ 4294967295
            omega
          rw [hfound] at hcallee
          have hqueued : (⟨callee, nextDepth item.depth⟩ : WorkItem) ∈
              (state.after item rest outcome).scheduler.queue :=
            RunState.mem_queue_after.2 (Or.inr ⟨hcallee, hdepth, hmem⟩)
          have hnew : (⟨callee, nextDepth item.depth⟩ : WorkItem).identity ∉
              (state.after item rest outcome).scheduler.seen := by
            rw [RunState.seen_after]
            exact hmem
          obtain ⟨visit, hvisit, hidentity⟩ := hrest.exists_visit_of_queued hqueued hnew
          exact Or.inr ⟨visit, List.mem_cons_of_mem _ hvisit, hidentity⟩
    · have hmem : callee.identity ∈ (state.after item rest outcome).scheduler.seen := hseen
      rw [RunState.seen_after] at hmem
      exact Or.inr (htaken hmem)
    · exact Or.inr (Or.inr ⟨visit, List.mem_cons_of_mem _ hvisit, hidentity⟩)

namespace Disassembler

/-- At the largest depth a selection that calls out brings a visit of a method with none of its code
addresses. -/
theorem exists_visit_of_callsOut {context : Context σ} {settings : Settings}
    {methods : List Method} {s s' : σ} {visits : List Visit} {final : RunState}
    (hsteady : context.provider.StandsStill)
    (h : context.Drains (seed settings methods) s visits final s')
    (hmax : settings.maxDepth = 0xFFFFFFFF)
    (hout : CallsOut context s settings.filters methods) :
    ∃ visit ∈ visits, ∀ method ∈ selection settings.filters methods,
      method.nativeCode ≠ visit.item.identity := by
  obtain ⟨caller, hcaller, address, callee, hcalls, hstarts, hother⟩ := hout
  obtain ⟨visit, hvisit, hitem⟩ := exists_visit_of_mem_selection h hcaller
  obtain ⟨names, -, hfound, hwithin⟩ := h.findings_eq hsteady s visit hvisit
  have hcalls' : context.CallsAt s visit.item.method address callee := by
    rw [hitem]
    exact hcalls
  have hnamed : ((context.listMethod names visit.item).run s).1.findings.names.get? address ≠
      none := Context.named_of_callsAt hsteady hcalls'
  rw [hfound] at hnamed
  have hfinal : final.names.get? address ≠ none := fun hnone =>
    hnamed (hwithin.get?_eq_none hnone)
  obtain ⟨-, instruction, -, -, -, -, hfinding, -⟩ := hcalls
  have hunnamed := (get?_names_seed_eq_none_iff settings methods
    (ne_zero_of_callsAt hcalls')).2 hstarts
  have hmax' : (seed settings methods).scheduler.maxDepth = 0xFFFFFFFF := by
    rw [maxDepth_seed]
    exact hmax
  rcases h.exists_visit_of_named hsteady hmax' hfinal hfinding with
    hbefore | hseen | ⟨other, hmem, hidentity⟩
  · exact absurd hunnamed hbefore
  · rw [seen_seed] at hseen
    cases hseen
  · refine ⟨other, hmem, ?_⟩
    rw [hidentity]
    exact hother

/-! ## Whole runs -/

/-- Every listing is of a method that matches a pattern, by its signature or by its displayed name,
and that can be listed. -/
def OnlySelected (filters : List String) (methods : List Method) (listings : List Listing) : Prop :=
  ∀ listing ∈ listings, ∃ method ∈ methods,
    (Glob.anyMatches filters method.signature = true ∨
      Glob.anyMatches filters method.displayName = true) ∧
    method.unavailableReason? = none ∧
    listing.name = method.displayName ∧ listing.nativeCode = method.nativeCode

/-- Only selected methods are listed, unless the depth is the largest one and one of them calls out.
-/
theorem onlySelected_visits_iff {context : Context σ} {settings : Settings}
    {methods : List Method} {s s' : σ} {visits : List Visit} {final : RunState}
    (hsteady : context.provider.StandsStill)
    (h : context.Drains (seed settings methods) s visits final s') :
    OnlySelected settings.filters methods (visits.map (·.outcome.listing)) ↔
      ¬ (settings.maxDepth = 0xFFFFFFFF ∧ CallsOut context s settings.filters methods) := by
  constructor
  · rintro honly ⟨hmax, hout⟩
    obtain ⟨visit, hvisit, hother⟩ := exists_visit_of_callsOut hsteady h hmax hout
    obtain ⟨method, hmethod, hmatches, havailable, -, hcode⟩ :=
      honly visit.outcome.listing (List.mem_map_of_mem hvisit)
    obtain ⟨first, hfirst, hfirstCode⟩ :=
      exists_mem_selection hmethod (isSelected_iff.2 ⟨hmatches, havailable⟩)
    rw [(h.listing_eq visit hvisit).2] at hcode
    exact hother first hfirst (hfirstCode.trans hcode.symm)
  · intro hout listing hlisting
    obtain ⟨visit, hvisit, rfl⟩ := List.mem_map.1 hlisting
    have hitem : visit.item ∈ visits.map (·.item) := List.mem_map_of_mem hvisit
    rw [items_eq_selection hsteady h hout] at hitem
    obtain ⟨method, hmethod, heq⟩ := List.mem_map.1 hitem
    obtain ⟨hmem, hselected⟩ := mem_of_mem_selection hmethod
    obtain ⟨hmatches, havailable⟩ := isSelected_iff.1 hselected
    obtain ⟨hname, hcode⟩ := h.listing_eq visit hvisit
    rw [← heq] at hname hcode
    exact ⟨method, hmem, hmatches, havailable, hname, hcode⟩

/-- Over a snapshot, a run by patterns lists first the methods of the selection in order, and in the
end every address where a method starts has the name of the first method that starts there.  It
gives no listings only if the architecture cannot be decoded. -/
theorem runFiltered_lists_selection_first (index : SnapshotIndex) (disassembler : Disassembler)
    (sourceOf : Option (SourceLocator σ)) (s : σ)
    (hfilters : disassembler.settings.filters ≠ []) :
    (∃ error, Isa.ofArchitecture disassembler.decoders index.snapshot.architecture = .error error ∧
      (disassembler.runFiltered (index.provider σ) sourceOf).run s =
        ((.error error, disassembler), s)) ∨
    ∃ disassembly disassembler' s',
      (disassembler.runFiltered (index.provider σ) sourceOf).run s =
        ((.ok disassembly, disassembler'), s') ∧
      (disassembly.listings.take
          (selection disassembler.settings.filters index.snapshot.methods).length).map
          (fun listing => (listing.name, listing.nativeCode)) =
        (selection disassembler.settings.filters index.snapshot.methods).map
          (fun method => (method.displayName, method.nativeCode)) ∧
      ∀ method ∈ index.snapshot.methods, method.nativeCode ≠ 0 → ∃ first,
        index.snapshot.methods.find? (·.nativeCode == method.nativeCode) = some first ∧
        disassembly.names.get? method.nativeCode = some first.displayName := by
  rcases context_cases disassembler (index.provider σ) sourceOf with
    ⟨error, herror⟩ | ⟨context, disassembler', hcontext, -, -⟩
  · exact Or.inl ⟨error, herror, runFiltered_eq_of_error hfilters herror⟩
  right
  obtain ⟨visits, final, s', hdrains⟩ :=
    context.exists_drains (seed disassembler.settings index.snapshot.methods) s
  refine ⟨_, disassembler', s', runFiltered_eq_of_drains hfilters hcontext hdrains,
    map_take_listings hdrains, ?_⟩
  intro method hmethod hcode
  have hfound :
      (index.snapshot.methods.find? (·.nativeCode == method.nativeCode)).isSome = true := by
    rw [List.find?_isSome]
    exact ⟨method, hmethod, by simp⟩
  obtain ⟨first, hfirst⟩ := Option.isSome_iff_exists.1 hfound
  refine ⟨first, hfirst, hdrains.keeps.1 _ _ ?_⟩
  rw [get?_names_seed disassembler.settings index.snapshot.methods hcode, hfirst]
  rfl

/-- Two methods at one address and a third one, all of which match: the second one is passed over
and gives no name. -/
theorem runFiltered_lists_first_of_alias :
    (MutualCalls.disassemblerOf 3 ["?.P?ng()", "a.alias()"]).settings.filters ≠ [] ∧
    ∃ disassembly disassembler' s',
      ((MutualCalls.disassemblerOf 3 ["?.P?ng()", "a.alias()"]).runFiltered
        ((MutualCalls.index [MutualCalls.ping, MutualCalls.low "A.Alias()" "",
          MutualCalls.pong]).provider Unit) none).run () =
        ((.ok disassembly, disassembler'), s') ∧
      (disassembly.listings.take 2).map (fun listing => (listing.name, listing.nativeCode)) =
        [("A.Ping()", 0x10000), ("A.Pong()", 0x20000)] ∧
      disassembly.names.get? 0x10000 = some "A.Ping()" := by
  have hfilters : (MutualCalls.disassemblerOf 3 ["?.P?ng()", "a.alias()"]).settings.filters ≠ [] :=
    List.cons_ne_nil _ _
  have hselection : selection ["?.P?ng()", "a.alias()"]
      [MutualCalls.ping, MutualCalls.low "A.Alias()" "", MutualCalls.pong] =
        [MutualCalls.ping, MutualCalls.pong] := by
    decide +kernel
  refine ⟨hfilters, ?_⟩
  rcases runFiltered_lists_selection_first (MutualCalls.index [MutualCalls.ping,
    MutualCalls.low "A.Alias()" "", MutualCalls.pong])
    (MutualCalls.disassemblerOf 3 ["?.P?ng()", "a.alias()"]) none () hfilters with
    ⟨error, herror, -⟩ | ⟨disassembly, disassembler', s', hrun, hlistings, hnames⟩
  · cases herror
  · have hselected : selection (MutualCalls.disassemblerOf 3 ["?.P?ng()",
        "a.alias()"]).settings.filters (MutualCalls.index [MutualCalls.ping,
          MutualCalls.low "A.Alias()" "", MutualCalls.pong]).snapshot.methods =
        [MutualCalls.ping, MutualCalls.pong] := hselection
    obtain ⟨first, hfirst, hname⟩ := hnames MutualCalls.ping List.mem_cons_self (by decide)
    cases hfirst
    rw [hselected] at hlistings
    exact ⟨disassembly, disassembler', s', hrun, hlistings, hname⟩

/-- Over a snapshot, a run by patterns lists only what is selected, unless its depth is the largest
one and a selected method calls another one, which has none of the selected code addresses, at an
address where no method starts.  It gives no listings only if the architecture cannot be decoded. -/
theorem runFiltered_only_selected_iff (index : SnapshotIndex) (disassembler : Disassembler)
    (sourceOf : Option (SourceLocator σ)) (s : σ)
    (hfilters : disassembler.settings.filters ≠ []) :
    (∃ error, Isa.ofArchitecture disassembler.decoders index.snapshot.architecture = .error error ∧
      (disassembler.runFiltered (index.provider σ) sourceOf).run s =
        ((.error error, disassembler), s)) ∨
    ∃ context disassembly disassembler' s',
      disassembler.context (index.provider σ) sourceOf = .ok (context, disassembler') ∧
      (disassembler.runFiltered (index.provider σ) sourceOf).run s =
        ((.ok disassembly, disassembler'), s') ∧
      (OnlySelected disassembler.settings.filters index.snapshot.methods disassembly.listings ↔
        ¬ (disassembler.settings.maxDepth = 0xFFFFFFFF ∧
          CallsOut context s disassembler.settings.filters index.snapshot.methods)) := by
  rcases context_cases disassembler (index.provider σ) sourceOf with
    ⟨error, herror⟩ | ⟨context, disassembler', hcontext, -, -⟩
  · exact Or.inl ⟨error, herror, runFiltered_eq_of_error hfilters herror⟩
  right
  obtain ⟨visits, final, s', hdrains⟩ :=
    context.exists_drains (seed disassembler.settings index.snapshot.methods) s
  have hsteady := standsStill_of_context hcontext
  exact ⟨context, _, disassembler', s', hcontext,
    runFiltered_eq_of_drains hfilters hcontext hdrains, onlySelected_visits_iff hsteady hdrains⟩

/-- Of two methods that call each other, a run of depth three by a pattern for one of them lists no
other. -/
theorem runFiltered_only_selected_of_mutual_calls :
    (MutualCalls.disassemblerOf 3 ["A.Ping()"]).settings.filters ≠ [] ∧
    ∃ disassembly,
      (((MutualCalls.disassemblerOf 3 ["A.Ping()"]).runFiltered
        ((MutualCalls.index [MutualCalls.ping, MutualCalls.pong]).provider Unit)
        none).run ()).1.1 = .ok disassembly ∧
      OnlySelected ["A.Ping()"] [MutualCalls.ping, MutualCalls.pong] disassembly.listings := by
  have hfilters : (MutualCalls.disassemblerOf 3 ["A.Ping()"]).settings.filters ≠ [] :=
    List.cons_ne_nil _ _
  refine ⟨hfilters, ?_⟩
  rcases runFiltered_only_selected_iff (MutualCalls.index [MutualCalls.ping, MutualCalls.pong])
    (MutualCalls.disassemblerOf 3 ["A.Ping()"]) none () hfilters with
    ⟨error, herror, -⟩ | ⟨context, disassembly, disassembler', s', -, hrun, honly⟩
  · cases herror
  · refine ⟨disassembly, congrArg (·.1.1) hrun, honly.2 ?_⟩
    rintro ⟨hmax, -⟩
    exact absurd hmax (by decide)

/-- A method whose code starts in front of its own code address. -/
def laterEntered : Method := { MutualCalls.pong with nativeCode := 0x20005 }

/-- With valid settings and over a sound snapshot, a run of the largest depth lists a method that
matches no pattern. -/
theorem runFiltered_expands_at_largest_depth :
    SnapshotIndex.ofSnapshot (MutualCalls.index [MutualCalls.ping, laterEntered]).snapshot =
      .ok (MutualCalls.index [MutualCalls.ping, laterEntered]) ∧
    (MutualCalls.disassemblerOf 0xFFFFFFFF ["A.Ping()"]).settings.validate = .ok () ∧
    ∃ disassembly,
      (((MutualCalls.disassemblerOf 0xFFFFFFFF ["A.Ping()"]).runFiltered
        ((MutualCalls.index [MutualCalls.ping, laterEntered]).provider Unit) none).run ()).1.1 =
          .ok disassembly ∧
      ¬ OnlySelected ["A.Ping()"] [MutualCalls.ping, laterEntered] disassembly.listings := by
  obtain ⟨disassembler', hcontext⟩ :=
    MutualCalls.contextOf_eq 0xFFFFFFFF ["A.Ping()"] [MutualCalls.ping, laterEntered]
  obtain ⟨visits, final, s', hdrains⟩ :=
    (MutualCalls.contextOf 0xFFFFFFFF ["A.Ping()"]
      [MutualCalls.ping, laterEntered]).exists_drains
      (seed { maxDepth := 0xFFFFFFFF, filters := ["A.Ping()"] }
        [MutualCalls.ping, laterEntered]) ()
  have hselection : selection ["A.Ping()"] [MutualCalls.ping, laterEntered] =
      [MutualCalls.ping] := by
    decide +kernel
  have hout : CallsOut (MutualCalls.contextOf 0xFFFFFFFF ["A.Ping()"]
      [MutualCalls.ping, laterEntered]) () ["A.Ping()"] [MutualCalls.ping, laterEntered] := by
    unfold CallsOut
    rw [hselection]
    have hcalls := MutualCalls.callsAt_low 0xFFFFFFFF ["A.Ping()"]
      [MutualCalls.ping, laterEntered] "A.Ping()" ""
      (rfl : SnapshotIndex.methodAt? _ 0x20000 = some laterEntered) (by decide)
    exact ⟨MutualCalls.ping, List.mem_cons_self, 0x20000, laterEntered, hcalls, by decide,
      by decide⟩
  have hsteady := standsStill_of_context hcontext
  have honly := (not_congr (onlySelected_visits_iff hsteady hdrains)).2
    fun hnot => hnot ⟨rfl, hout⟩
  have hrun := runFiltered_eq_of_drains (List.cons_ne_nil _ _) hcontext hdrains
  exact ⟨MutualCalls.ofSnapshot_index _, rfl, _, congrArg (·.1.1) hrun, honly⟩

end Disassembler

end CodeListing
