import CodeListing.Proofs.Steady
import CodeListing.Proofs.Visits
import Mathlib.Data.Finset.Card

/-!
# Every run ends

A method that is listed may queue any number of items, also ones that are queued already, and the
depth is no bound where it stops at its largest value.  What bounds a run is that every visit takes
a method with a new code address, and that over a snapshot all these addresses belong to the entry
or to methods of the snapshot.

So both kinds of run end, with listings at pairwise different addresses, of which there are at most
as many as there are addresses.
-/

set_option autoImplicit false

namespace CodeListing

variable {σ : Type}

/-- The number of different code addresses of methods. -/
def codeCount (methods : List Method) : Nat :=
  (methods.map (·.nativeCode)).toFinset.card

namespace Context

variable {context : Context σ} {state final : RunState} {s s' : σ} {visits : List Visit}

/-- A run whose items all have code addresses of some methods makes at most as many visits as these
methods have addresses. -/
theorem Drains.length_le_codeCount (h : context.Drains state s visits final s')
    {methods : List Method}
    (hqueue : ∀ item ∈ state.scheduler.queue, item.identity ∈ methods.map (·.nativeCode))
    (hfinds : ∀ address s method, ((context.provider.methodAt? address).run s).1 = some method →
      method.identity ∈ methods.map (·.nativeCode)) :
    visits.length ≤ codeCount methods := by
  have hitems : ∀ visit ∈ visits, visit.item.identity ∈ methods.map (·.nativeCode) := by
    refine h.forall_item (P := fun item => item.identity ∈ methods.map (·.nativeCode)) hqueue ?_
    intro names item s _ callee hcallee
    exact forall_callee_listMethod hfinds names item s callee hcallee
  have hsubset :
      (visits.map (·.item.identity)).toFinset ⊆ (methods.map (·.nativeCode)).toFinset := by
    intro identity hidentity
    obtain ⟨visit, hvisit, rfl⟩ := List.mem_map.1 (List.mem_toFinset.1 hidentity)
    exact List.mem_toFinset.2 (hitems visit hvisit)
  have hcard := Finset.card_le_card hsubset
  rw [List.toFinset_card_of_nodup h.identities.2, List.length_map] at hcard
  exact hcard

end Context

namespace Disassembler

/-- The listings that are kept stay in their order. -/
theorem withoutWrappers_sublist (listings : List Listing) :
    (withoutWrappers listings).Sublist listings := by
  unfold withoutWrappers
  split
  · exact List.filter_sublist
  · exact List.Sublist.refl _

/-- What is queued before a run by patterns are methods of the runtime. -/
theorem mem_of_mem_queue_seed {settings : Settings} {methods : List Method} {item : WorkItem}
    (h : item ∈ (seed settings methods).scheduler.queue) : item.method ∈ methods := by
  rcases Scheduler.mem_queue_enqueueAll.1 h with h | ⟨h, -⟩
  · simp [RunState.start] at h
  · obtain ⟨method, hmethod, rfl⟩ := List.mem_map.1 h
    exact (List.mem_filter.1 hmethod).1

/-- The loop from a state ends within `bound` visits, and the listings of the disassembly have
pairwise different addresses and are at most `bound` many. -/
structure EndsWithin (context : Context σ) (state : RunState) (s : σ) (bound : Nat)
    (disassembly : Disassembly) (s' : σ) : Prop where
  drains : ∃ visits final, context.Drains state s visits final s' ∧ visits.length ≤ bound
  nodup : (disassembly.listings.map (·.nativeCode)).Nodup
  length_le : disassembly.listings.length ≤ bound

/-- Some of the listings of a run that ends within `bound` visits. -/
theorem endsWithin_of_sublist {context : Context σ} {state final : RunState} {s s' : σ}
    {visits : List Visit} {bound : Nat} {disassembly : Disassembly}
    (h : context.Drains state s visits final s') (hbound : visits.length ≤ bound)
    (hsub : disassembly.listings.Sublist (visits.map (·.outcome.listing))) :
    EndsWithin context state s bound disassembly s' := by
  refine ⟨⟨visits, final, h, hbound⟩, h.nodup_nativeCode.sublist (hsub.map _), ?_⟩
  calc disassembly.listings.length ≤ (visits.map (·.outcome.listing)).length := hsub.length_le
    _ = visits.length := List.length_map _
    _ ≤ bound := hbound

/-- Over a snapshot the loop of every run ends, in listings with pairwise different addresses, of
which there are no more than the entry and the methods of the snapshot have.  A run has no loop only
if its architecture cannot be decoded or if it has no patterns to go by. -/
theorem run_and_runFiltered_end (index : SnapshotIndex) (disassembler : Disassembler)
    (entry : Method) (sourceOf : Option (SourceLocator σ)) (s : σ) :
    (∃ error, Isa.ofArchitecture disassembler.decoders index.snapshot.architecture = .error error ∧
      (disassembler.run (index.provider σ) entry sourceOf).run s =
        ((.error error, disassembler), s)) ∨
    ∃ context disassembler',
      disassembler.context (index.provider σ) sourceOf = .ok (context, disassembler') ∧
      (∃ disassembly s',
        (disassembler.run (index.provider σ) entry sourceOf).run s =
          ((.ok disassembly, disassembler'), s') ∧
        EndsWithin context (entryState disassembler.settings entry) s
          (codeCount (entry :: index.snapshot.methods)) disassembly s') ∧
      (disassembler.settings.filters = [] ∨ ∃ disassembly s',
        (disassembler.runFiltered (index.provider σ) sourceOf).run s =
          ((.ok disassembly, disassembler'), s') ∧
        EndsWithin context (seed disassembler.settings index.snapshot.methods) s
          (codeCount index.snapshot.methods) disassembly s') := by
  rcases context_cases disassembler (index.provider σ) sourceOf with
    ⟨error, herror⟩ | ⟨context, disassembler', hcontext, hprovider, -⟩
  · exact Or.inl ⟨error, herror, run_eq_of_error herror⟩
  refine Or.inr ⟨context, disassembler', hcontext, ?_, ?_⟩
  · obtain ⟨visits, final, s', h⟩ :=
      context.exists_drains (entryState disassembler.settings entry) s
    refine ⟨_, s', run_eq_of_drains hcontext h, ?_⟩
    refine endsWithin_of_sublist h (h.length_le_codeCount ?_ ?_) (withoutWrappers_sublist _)
    · intro item hitem
      rw [List.mem_singleton.1 hitem]
      exact List.mem_map_of_mem List.mem_cons_self
    · intro address s method hmethod
      rw [hprovider] at hmethod
      have hmem := index.mem_methods_of_methodAt? address s method hmethod
      exact List.mem_map_of_mem (List.mem_cons_of_mem _ hmem)
  · by_cases hfilters : disassembler.settings.filters = []
    · exact Or.inl hfilters
    · obtain ⟨visits, final, s', h⟩ :=
        context.exists_drains (seed disassembler.settings index.snapshot.methods) s
      refine Or.inr ⟨_, s', runFiltered_eq_of_drains hfilters hcontext h, ?_⟩
      refine endsWithin_of_sublist h (h.length_le_codeCount ?_ ?_) (List.Sublist.refl _)
      · intro item hitem
        exact List.mem_map_of_mem (mem_of_mem_queue_seed hitem)
      · intro address s method hmethod
        rw [hprovider] at hmethod
        exact List.mem_map_of_mem (index.mem_methods_of_methodAt? address s method hmethod)

end Disassembler

end CodeListing
