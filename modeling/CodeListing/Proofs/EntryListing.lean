import CodeListing.Proofs.CallGraph
import CodeListing.Proofs.Visits

/-!
# When the entry of a run is listed

A run from an entry should list something, and list the entry exactly once unless its signature
marks it as a wrapper (`EntryKept`).  The depth of a run goes by the signature, but the listings are
cleaned by the names that are displayed, which may start with the name of a type.  The two agree if
the displayed name of the entry has no mark.  Otherwise an entry with a plain signature can be
dropped, and nothing at all may be left.

What is proved here is exactly when a run keeps its entry, and that some run does not.
-/

set_option autoImplicit false

namespace CodeListing

variable {σ : Type}

/-- Something is listed, and the entry is listed exactly once unless its signature marks it as a
wrapper. -/
def EntryKept (entry : Method) (listings : List Listing) : Prop :=
  listings ≠ [] ∧ (isWrapperName entry.signature = false →
    listings.countP (fun listing => listing.nativeCode == entry.nativeCode) = 1)

namespace Disassembler

/-! ## Dropping wrappers -/

/-- Nothing is left of some listings only if there are several and all of them are of wrappers. -/
theorem withoutWrappers_eq_nil_iff {listings : List Listing} (h : listings ≠ []) :
    withoutWrappers listings = [] ↔
      1 < listings.length ∧ ∀ listing ∈ listings, isWrapperName listing.name = true := by
  unfold withoutWrappers
  by_cases hseveral : 1 < listings.length
  · rw [if_pos hseveral, List.filter_eq_nil_iff]
    simp [hseveral]
  · rw [if_neg hseveral]
    simp [hseveral, h]

/-- The first listing is dropped only if there are others and it is of a wrapper; else it is kept
and remains the only one with its address. -/
theorem countP_withoutWrappers {first : Listing} {others : List Listing}
    (hcodes : ((first :: others).map (·.nativeCode)).Nodup) :
    (withoutWrappers (first :: others)).countP
        (fun listing => listing.nativeCode == first.nativeCode) =
      if 1 < (first :: others).length ∧ isWrapperName first.name = true then 0 else 1 := by
  obtain ⟨hfirst, -⟩ := List.nodup_cons.1 hcodes
  have hzero : ∀ kept ⊆ others,
      kept.countP (fun listing => listing.nativeCode == first.nativeCode) = 0 := by
    intro kept hkept
    rw [List.countP_eq_zero]
    intro listing hlisting hsame
    exact hfirst (List.mem_map.2 ⟨listing, hkept hlisting, beq_iff_eq.1 hsame⟩)
  have hone : ∀ kept ⊆ others,
      (first :: kept).countP (fun listing => listing.nativeCode == first.nativeCode) = 1 := by
    intro kept hkept
    rw [List.countP_cons_of_pos (by simp), hzero kept hkept]
  unfold withoutWrappers
  by_cases hseveral : 1 < (first :: others).length
  · rw [if_pos hseveral]
    cases hwrapper : isWrapperName first.name with
    | true =>
      rw [if_pos ⟨hseveral, rfl⟩, List.filter_cons_of_neg (by simp [hwrapper])]
      exact hzero _ List.filter_sublist.subset
    | false =>
      rw [if_neg (by simp), List.filter_cons_of_pos (by simp [hwrapper])]
      exact hone _ List.filter_sublist.subset
  · rw [if_neg hseveral, if_neg fun h => hseveral h.1]
    exact hone others (List.Subset.refl _)

/-! ## Runs with several visits -/

section Visits

variable {context : Context σ} {settings : Settings} {entry : Method} {s s' : σ}
  {visits : List Visit} {final : RunState}

/-- A run makes more than one visit if its depth is not zero and the entry has a callee. -/
theorem one_lt_length_visits_iff (hsteady : context.provider.StandsStill)
    (h : context.Drains (entryState settings entry) s visits final s') :
    1 < visits.length ↔
      0 < entryDepth settings entry ∧ ∃ callee, context.Calls s entry callee := by
  obtain ⟨outcome, others, t, rfl, hlist, hrest⟩ := visits_eq_cons_of_drains h
  have houtcome : ((context.listMethod .empty ⟨entry, 0⟩).run s).1 = outcome := by rw [hlist]
  rw [List.length_cons, Nat.lt_add_left_iff_pos, List.length_pos_iff, hrest.ne_nil_iff]
  simp only [RunState.mem_queue_after, RunState.seen_after]
  constructor
  · rintro ⟨item, hitem | ⟨hitem, hdepth, -⟩, -⟩
    · cases hitem
    · rw [← houtcome] at hitem
      rw [context.depth_of_mem_callees _ _ _ item hitem] at hdepth
      have hcalls := Context.calls_of_mem_callees hsteady hitem
      exact ⟨nextDepth_zero_le_iff.1 hdepth, item.method, hcalls⟩
  · rintro ⟨hdepth, callee, hcalls⟩
    have hmem : ⟨callee, nextDepth 0⟩ ∈ outcome.findings.callees := by
      rw [← houtcome]
      exact (Context.mem_callees_iff_calls hsteady).2 hcalls
    obtain ⟨-, instruction, -, address, -, -, -, -, -, hother⟩ := hcalls
    have hnew : callee.identity ∉ [entry.identity] := by
      rw [List.mem_singleton]
      exact hother
    exact ⟨_, Or.inr ⟨hmem, nextDepth_zero_le_iff.2 hdepth, hnew⟩, hnew⟩

/-- Nothing is listed exactly if several methods are visited and all of them are wrappers. -/
theorem withoutWrappers_visits_eq_nil_iff
    (h : context.Drains (entryState settings entry) s visits final s') :
    withoutWrappers (visits.map (·.outcome.listing)) = [] ↔
      1 < visits.length ∧
        ∀ visit ∈ visits, isWrapperName visit.item.method.displayName = true := by
  have hne : visits.map (·.outcome.listing) ≠ [] := by
    obtain ⟨outcome, others, t, rfl, -, -⟩ := visits_eq_cons_of_drains h
    exact List.cons_ne_nil _ _
  rw [withoutWrappers_eq_nil_iff hne, List.length_map, List.forall_mem_map]
  refine and_congr_right fun _ => forall_congr' fun visit => forall_congr' fun hvisit => ?_
  rw [(h.listing_eq visit hvisit).1]

/-- The entry is dropped exactly if several methods are visited and its displayed name marks it as a
wrapper. -/
theorem countP_withoutWrappers_visits
    (h : context.Drains (entryState settings entry) s visits final s') :
    (withoutWrappers (visits.map (·.outcome.listing))).countP
        (fun listing => listing.nativeCode == entry.nativeCode) =
      if 1 < visits.length ∧ isWrapperName entry.displayName = true then 0 else 1 := by
  obtain ⟨outcome, others, t, rfl, -, -⟩ := visits_eq_cons_of_drains h
  obtain ⟨hname, hcode⟩ := h.listing_eq _ List.mem_cons_self
  have hcount := countP_withoutWrappers h.nodup_nativeCode
  rw [hname, hcode, List.length_cons, List.length_map] at hcount
  exact hcount

/-- A run fails to keep its entry exactly if it makes several visits and either the displayed name
of the entry is that of a wrapper and its signature is not, or all methods visited are wrappers. -/
theorem not_entryKept_withoutWrappers_iff
    (h : context.Drains (entryState settings entry) s visits final s') :
    ¬ EntryKept entry (withoutWrappers (visits.map (·.outcome.listing))) ↔
      1 < visits.length ∧
        (isWrapperName entry.displayName = true ∧ isWrapperName entry.signature = false ∨
          ∀ visit ∈ visits, isWrapperName visit.item.method.displayName = true) := by
  unfold EntryKept
  rw [Ne, withoutWrappers_visits_eq_nil_iff h, countP_withoutWrappers_visits h]
  by_cases hseveral : 1 < visits.length
  · simp only [hseveral, true_and]
    by_cases hall : ∀ visit ∈ visits, isWrapperName visit.item.method.displayName = true
    · exact ⟨fun _ => Or.inr hall, fun _ hkept => hkept.1 hall⟩
    · cases isWrapperName entry.displayName with
      | true => simp [hall]
      | false => simp [hall]
  · simp [hseveral]

end Visits

/-! ## Whole runs -/

/-- Over a snapshot, a run fails to keep its entry exactly if it goes to a callee of the entry and
either the displayed name of the entry is that of a wrapper and its signature is not, or all methods
visited are wrappers.  So an entry that is displayed without the mark is always kept. -/
theorem run_keeps_entry_iff (index : SnapshotIndex) (disassembler : Disassembler) (entry : Method)
    (sourceOf : Option (SourceLocator σ)) (s : σ) :
    (∃ error, Isa.ofArchitecture disassembler.decoders index.snapshot.architecture = .error error ∧
      (disassembler.run (index.provider σ) entry sourceOf).run s =
        ((.error error, disassembler), s)) ∨
    ∃ context disassembler' visits final s' disassembly,
      disassembler.context (index.provider σ) sourceOf = .ok (context, disassembler') ∧
      context.Drains (entryState disassembler.settings entry) s visits final s' ∧
      (disassembler.run (index.provider σ) entry sourceOf).run s =
        ((.ok disassembly, disassembler'), s') ∧
      (¬ EntryKept entry disassembly.listings ↔
        (0 < entryDepth disassembler.settings entry ∧ ∃ callee, context.Calls s entry callee) ∧
        (isWrapperName entry.displayName = true ∧ isWrapperName entry.signature = false ∨
          ∀ visit ∈ visits, isWrapperName visit.item.method.displayName = true)) ∧
      (isWrapperName entry.displayName = false → EntryKept entry disassembly.listings) := by
  rcases context_cases disassembler (index.provider σ) sourceOf with
    ⟨error, herror⟩ | ⟨context, disassembler', hcontext, -, -⟩
  · exact Or.inl ⟨error, herror, run_eq_of_error herror⟩
  right
  obtain ⟨visits, final, s', hdrains⟩ :=
    context.exists_drains (entryState disassembler.settings entry) s
  have hsteady := standsStill_of_context hcontext
  have hkept := not_entryKept_withoutWrappers_iff hdrains
  refine ⟨context, disassembler', visits, final, s', _, hcontext, hdrains,
    run_eq_of_drains hcontext hdrains, ?_, ?_⟩
  · rw [← one_lt_length_visits_iff hsteady hdrains]
    exact hkept
  · intro hentry
    obtain ⟨outcome, others, t, rfl, -, -⟩ := visits_eq_cons_of_drains hdrains
    refine Classical.byContradiction fun hnot => ?_
    rcases (hkept.1 hnot).2 with ⟨hmarked, -⟩ | hall
    · rw [hentry] at hmarked
      cases hmarked
    · have hmarked := hall _ List.mem_cons_self
      rw [hentry] at hmarked
      cases hmarked

/-- An entry whose signature is plain but whose type has the mark of a wrapper in its name. -/
def markedEntry : Method := MutualCalls.low "Run()" "App.__ForDisassemblyDiagnoser__"

/-- A method whose signature has the mark. -/
def markedCallee : Method := MutualCalls.high "App.Program.__ForDisassemblyDiagnoser__()" ""

/-- With valid settings and over a sound snapshot, a run of depth one from an entry whose signature
is plain gives no listing at all. -/
theorem run_drops_entry_of_marked_type :
    SnapshotIndex.ofSnapshot (MutualCalls.index [markedEntry, markedCallee]).snapshot =
      .ok (MutualCalls.index [markedEntry, markedCallee]) ∧
    (MutualCalls.disassembler 1).settings.validate = .ok () ∧
    isWrapperName markedEntry.signature = false ∧
    ∃ disassembly,
      (((MutualCalls.disassembler 1).run
        ((MutualCalls.index [markedEntry, markedCallee]).provider Unit) markedEntry
        none).run ()).1.1 = .ok disassembly ∧
      disassembly.listings = [] ∧ ¬ EntryKept markedEntry disassembly.listings := by
  obtain ⟨disassembler', hcontext⟩ := MutualCalls.context_eq 1 [markedEntry, markedCallee]
  obtain ⟨visits, final, s', hdrains⟩ :=
    (MutualCalls.context 1 [markedEntry, markedCallee]).exists_drains
      (entryState { maxDepth := 1 } markedEntry) ()
  have hseveral : 1 < visits.length := by
    have hsteady := standsStill_of_context hcontext
    rw [one_lt_length_visits_iff hsteady hdrains]
    exact ⟨by decide, markedCallee, MutualCalls.calls_high _ _ _ _ _⟩
  -- Only the two methods of the snapshot can be visited, and both are displayed with the mark.
  have hmethods : ∀ visit ∈ visits, visit.item.method ∈ [markedEntry, markedCallee] := by
    refine hdrains.forall_item (P := fun item => item.method ∈ [markedEntry, markedCallee]) ?_ ?_
    · intro item hitem
      rw [List.mem_singleton.1 hitem]
      exact List.mem_cons_self
    · intro names item s _
      exact Context.forall_callee_listMethod
        (MutualCalls.index [markedEntry, markedCallee]).mem_methods_of_methodAt? names item s
  have hmarked : ∀ method ∈ [markedEntry, markedCallee],
      isWrapperName method.displayName = true := by decide
  have hnil : withoutWrappers (visits.map (·.outcome.listing)) = [] :=
    (withoutWrappers_visits_eq_nil_iff hdrains).2
      ⟨hseveral, fun visit hvisit => hmarked _ (hmethods visit hvisit)⟩
  have hrun := run_eq_of_drains hcontext hdrains
  refine ⟨MutualCalls.ofSnapshot_index _, rfl, by decide, _, congrArg (·.1.1) hrun, hnil, ?_⟩
  intro hkept
  exact hkept.1 hnil

end Disassembler

end CodeListing
