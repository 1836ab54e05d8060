import CodeListing.Proofs.EntryGroups
import CodeListing.Proofs.EqualPaths
import CodeListing.Proofs.ListingOrProblem
import CodeListing.Proofs.Steady

/-!
# Source lines that depend on what was asked before

While the runtime stands still, the state of a run changes only when source lines are asked for
(`Context.Asked`), and only source lines depend on it.  So what a method is listed with at two such
states is the same but for the source (`Context.ListedAlike`), and it is the same in every respect
if the lines of a method never depend on what was asked before (`Context.LinesFixed`).

They do not if no source is printed.  Nor do they if a table finds them in files, as long as equal
paths have equal texts (`SnapshotIndex.linesFixed_locator`).
-/

set_option autoImplicit false

namespace CodeListing

variable {σ : Type}

namespace Listing

/-- The instructions in the order of their addresses; those with one address stay in order. -/
def sortedInstructions (listing : Listing) : List Instruction :=
  listing.instructions.mergeSort fun a b => a.address ≤ b.address

/-- The listings show the same method with the same problem and the same instructions, though one of
them may show these in the order of their addresses where the other one does not. -/
structure SameButSource (listing other : Listing) : Prop where
  name : listing.name = other.name
  nativeCode : listing.nativeCode = other.nativeCode
  problem : listing.problem = other.problem
  instructions : listing.instructions = other.instructions ∨
    listing.instructions = other.sortedInstructions ∨
    other.instructions = listing.sortedInstructions

/-- A listing is the same as itself. -/
theorem SameButSource.refl (listing : Listing) : listing.SameButSource listing :=
  ⟨rfl, rfl, rfl, Or.inl rfl⟩

/-- With source lines a listing shows its instructions in the order of their addresses. -/
theorem instructions_of_groups_eq_of_ne_nil {listing : Listing} {instructions : List Instruction}
    {lines : List SourceLine} (hlines : lines ≠ [])
    (h : listing.groups = groupsOf instructions lines) :
    listing.instructions = instructions.mergeSort fun a b => a.address ≤ b.address := by
  unfold Listing.instructions Listing.entries
  rw [h, entries_groupsOf hlines, filterMap_instruction?_sortedEntries]

end Listing

namespace Context

/-- Two listings of one method with the same instructions are the same but for the source. -/
theorem sameButSource_listingOf (method : Method) (instructions : List Instruction)
    (lines lines' : List SourceLine) :
    (listingOf method instructions lines).SameButSource
      (listingOf method instructions lines') := by
  refine ⟨rfl, rfl, rfl, ?_⟩
  by_cases hlines : lines = []
  · have hplain : (listingOf method instructions lines).instructions = instructions :=
      Listing.instructions_of_groups_eq (by rw [hlines]; rfl)
    by_cases hlines' : lines' = []
    · rw [hlines, hlines']
      exact Or.inl rfl
    · right
      right
      unfold Listing.sortedInstructions
      rw [hplain]
      exact Listing.instructions_of_groups_eq_of_ne_nil hlines' rfl
  · have hsorted : (listingOf method instructions lines).instructions =
        instructions.mergeSort fun a b => a.address ≤ b.address :=
      Listing.instructions_of_groups_eq_of_ne_nil hlines rfl
    by_cases hlines' : lines' = []
    · right
      left
      have hplain : (listingOf method instructions lines').instructions = instructions :=
        Listing.instructions_of_groups_eq (by rw [hlines']; rfl)
      unfold Listing.sortedInstructions
      rw [hsorted, hplain]
    · left
      rw [hsorted]
      exact (Listing.instructions_of_groups_eq_of_ne_nil hlines' rfl).symm

/-! ## The states of a run -/

/-- The states that asking for source lines leads to. -/
inductive Asked (context : Context σ) (s : σ) : σ → Prop
  | start : Asked context s s
  | next {t : σ} (method : Method) (h : Asked context s t) :
      Asked context s ((context.sourceLines method).run t).2

/-- The source lines of every method are the same whatever was asked before. -/
def LinesFixed (context : Context σ) (s : σ) : Prop :=
  ∀ t, context.Asked s t → ∀ method,
    ((context.sourceLines method).run t).1 = ((context.sourceLines method).run s).1

/-- If no source is printed, the source lines are fixed: there are none. -/
theorem linesFixed_of_printSource_eq_false {context : Context σ}
    (h : context.settings.printSource = false) (s : σ) : context.LinesFixed s := by
  intro t _ method
  rw [sourceLines_of_printSource_eq_false h]
  rfl

/-- If nothing is known about source, the source lines are fixed: there are none. -/
theorem linesFixed_of_sourceOf_eq_none {context : Context σ} (h : context.sourceOf = none) (s : σ) :
    context.LinesFixed s := by
  intro t _ method
  unfold sourceLines
  rw [h]
  rfl

/-- While the runtime stands still, listing a method only asks for its source lines. -/
theorem Asked.listMethod {context : Context σ} {s t : σ} (h : context.Asked s t)
    (hsteady : context.provider.StandsStill) (names : NameMap) (item : WorkItem) :
    context.Asked s ((context.listMethod names item).run t).2 := by
  rcases listMethod_cases_of_standsStill hsteady names item t with
    ⟨outcome, -, hrun⟩ | ⟨instructions, findings, hrun⟩
  · rw [hrun]
    exact h
  · rw [hrun]
    exact h.next item.method

/-- The listings are the same but for the source, and the same in every respect if the source lines
are fixed. -/
structure ListedAlike (context : Context σ) (s : σ) (listing other : Listing) : Prop where
  sameButSource : listing.SameButSource other
  eq_of_linesFixed : context.LinesFixed s → listing = other

/-- A listing is listed like itself. -/
theorem ListedAlike.refl (context : Context σ) (s : σ) (listing : Listing) :
    context.ListedAlike s listing listing :=
  ⟨.refl listing, fun _ => rfl⟩

/-- A method with the same instructions is listed alike at any two states of runs. -/
theorem listedAlike_listingOf {context : Context σ} {s t t' : σ} (h : context.Asked s t)
    (h' : context.Asked s t') (method : Method) (instructions : List Instruction) :
    context.ListedAlike s
      (listingOf method instructions ((context.sourceLines method).run t).1)
      (listingOf method instructions ((context.sourceLines method).run t').1) := by
  refine ⟨sameButSource_listingOf method instructions _ _, fun hfixed => ?_⟩
  rw [hfixed t h method, hfixed t' h' method]

end Context

/-! ## Source lines from files -/

/-- If every path that is equal to that of a span has its text, it makes no difference which of them
is read first. -/
theorem SourceTable.linesWith_firstText {table : SourceTable} {contents : String → Option String}
    {paths : List String} {spans : List SourceMapping}
    (hread : ∀ span ∈ spans, table.resolve span.file ∈ paths)
    (hequal : ∀ span ∈ spans, ∀ path ∈ paths,
      Path.key path = Path.key (table.resolve span.file) →
        contents path = contents (table.resolve span.file)) :
    table.linesWith (firstText contents paths) spans = table.linesWith contents spans := by
  refine List.flatMap_congr fun span hspan => ?_
  have hmem := firstEqual_mem (hread span hspan)
  unfold firstText
  rw [hequal span hspan _ hmem (key_firstEqual paths _)]

namespace SnapshotIndex

variable {index : SnapshotIndex} {root : Option String} {contents : String → Option String}
  {context : Context FileCache}

/-- All that was read at a state of a run are files of spans. -/
theorem exists_holdsFirst_of_asked (hsource : context.sourceOf = some (index.locator root contents))
    {cache : FileCache} (h : context.Asked {} cache) :
    ∃ paths, cache.HoldsFirst contents paths ∧ ∀ path ∈ paths,
      ∃ span ∈ index.snapshot.sources, (index.sourceTable root).resolve span.file = path := by
  induction h with
  | start => exact ⟨[], FileCache.holdsFirst_empty contents, by simp⟩
  | @next cache method _ ih =>
    obtain ⟨paths, hholds, hspans⟩ := ih
    unfold Context.sourceLines
    rw [hsource]
    dsimp only
    split
    · obtain ⟨cache', hrun, hholds'⟩ :=
        (index.sourceTable root).run_readLines hholds method.nativeCode
      refine ⟨_, by rw [locator, hrun]; exact hholds', fun path hpath => ?_⟩
      rcases List.mem_append.1 hpath with hpath | hpath
      · exact hspans path hpath
      · obtain ⟨span, hspan, rfl⟩ := List.mem_map.1 hpath
        exact ⟨span, (SourceTable.mem_spansOf.1 hspan).1, rfl⟩
    · exact ⟨paths, hholds, hspans⟩

/-- If files of spans with equal paths have equal texts, the source lines are fixed. -/
theorem linesFixed_locator (hsource : context.sourceOf = some (index.locator root contents))
    (hequal : ∀ span ∈ index.snapshot.sources, ∀ other ∈ index.snapshot.sources,
      let table := index.sourceTable root
      Path.key (table.resolve span.file) = Path.key (table.resolve other.file) →
        contents (table.resolve span.file) = contents (table.resolve other.file)) :
    context.LinesFixed {} := by
  -- Whatever was read before, each span gets the text of its own file.
  have hlines : ∀ cache, context.Asked {} cache → ∀ nativeCode,
      (((index.sourceTable root).readLines contents nativeCode).run cache).1 =
        (firstByKey SourceTable.place ((index.sourceTable root).linesWith contents
          ((index.sourceTable root).spansOf nativeCode))).map Prod.snd := by
    intro cache hasked nativeCode
    obtain ⟨paths, hholds, hspans⟩ := exists_holdsFirst_of_asked hsource hasked
    obtain ⟨cache', hrun, -⟩ := (index.sourceTable root).run_readLines hholds nativeCode
    rw [hrun, SourceTable.linesWith_firstText]
    · intro span hspan
      exact List.mem_append_right _ (List.mem_map_of_mem hspan)
    · intro span hspan path hpath hkey
      have hspan' := (SourceTable.mem_spansOf.1 hspan).1
      rcases List.mem_append.1 hpath with hpath | hpath
      · obtain ⟨other, hother, rfl⟩ := hspans path hpath
        exact hequal other hother span hspan' hkey
      · obtain ⟨other, hother, rfl⟩ := List.mem_map.1 hpath
        exact hequal other (SourceTable.mem_spansOf.1 hother).1 span hspan' hkey
  intro cache hasked method
  unfold Context.sourceLines
  rw [hsource]
  dsimp only
  split
  · exact (hlines cache hasked _).trans (hlines {} .start _).symm
  · rfl

end SnapshotIndex

end CodeListing
