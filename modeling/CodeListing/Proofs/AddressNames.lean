import CodeListing.Proofs.CallGraph
import CodeListing.Proofs.Visits
import Mathlib.Data.List.SplitBy

/-!
# Names are true and symbols agree with them

Names are given at one place only: when an instruction refers to an address above the threshold that
lies outside of the method being listed, has no name yet and may be asked about.  The name is then
what the runtime says about the address (`Context.TrueName`).  So every map of names that a run has
is `Truthful`, from the empty one on.

A symbol is copied to its instruction when the instruction is annotated.  It is a label, or the name
that the address has from then on.  Since names stay, it is the name that the address has in the
end, and two references to one address from outside never disagree.
-/

set_option autoImplicit false

namespace CodeListing

variable {σ : Type}

/-! ## Names -/

namespace Context

/-- The name that the runtime has for an address: that of a helper, else of the compiled method
there or behind the pointer cell there, else of the method whose descriptor lies there, else of the
method table there. -/
inductive TrueName (context : Context σ) (s : σ) (address : UInt64) : String → Prop
  | helper {name : String}
      (hhelper : nonEmpty? ((context.provider.helperName? address).run s).1 = some name) :
      TrueName context s address name
  | method {method : Method}
      (hhelper : nonEmpty? ((context.provider.helperName? address).run s).1 = none)
      (hmethod : ((methodThrough? context.provider context.guard address).run s).1 = some method) :
      TrueName context s address method.displayName
  | descriptor {method : Method} {start : String}
      (hhelper : nonEmpty? ((context.provider.helperName? address).run s).1 = none)
      (hmethod : ((methodThrough? context.provider context.guard address).run s).1 = none)
      (hdescriptor : ((context.provider.methodOfDescriptor? address).run s).1 = some method)
      (hstart : start = "MD_" ∨ start = "Precode of ") :
      TrueName context s address (start ++ method.signature)
  | table {name : String}
      (hhelper : nonEmpty? ((context.provider.helperName? address).run s).1 = none)
      (hmethod : ((methodThrough? context.provider context.guard address).run s).1 = none)
      (hdescriptor : ((context.provider.methodOfDescriptor? address).run s).1 = none)
      (htable : nonEmpty? ((context.provider.tableName? address).run s).1 = some name) :
      TrueName context s address ("MT_" ++ name)

/-- All names are true and of addresses that may be asked about and are no small numbers. -/
def Truthful (context : Context σ) (s : σ) (names : NameMap) : Prop :=
  ∀ address name, names.get? address = some name →
    context.settings.referenceThreshold < address ∧
    isValidAddress context.guard address = true ∧ context.TrueName s address name

variable {context : Context σ} {s : σ}

/-- The name that a finding gives is a true name of its address. -/
theorem trueName_of_findingAt (hsteady : context.provider.StandsStill) {current : Current}
    {isPrecode : Bool} {address : UInt64} {name : String}
    (h : (context.findingAt s address).name? current isPrecode = some name) :
    context.TrueName s address name := by
  rcases findingAt_cases (s := s) hsteady address with
    ⟨helper, hhelper, heq⟩ | ⟨hhelper, ⟨found, hmethod, heq⟩ | ⟨hmethod,
      ⟨found, hdescriptor, heq⟩ | ⟨hdescriptor, ⟨table, htable, heq⟩ | heq⟩⟩⟩
  · rw [heq] at h
    cases h
    exact .helper hhelper
  · rw [heq] at h
    simp only [Finding.name?] at h
    split at h
    · cases h
    · cases h
      exact .method hhelper hmethod
  · rw [heq] at h
    cases h
    refine .descriptor hhelper hmethod hdescriptor ?_
    cases isPrecode with
    | true => exact Or.inr rfl
    | false => exact Or.inl rfl
  · rw [heq] at h
    cases h
    exact .table hhelper hmethod hdescriptor htable
  · rw [heq] at h
    cases h

/-- What the runtime says about an address is a true name for it. -/
theorem truthful_add (hsteady : context.provider.StandsStill) (current : Current)
    (isPrecode : Bool) {address : UInt64} {findings : Findings}
    (h : context.Truthful s findings.names)
    (habove : context.settings.referenceThreshold < address)
    (hvalid : isValidAddress context.guard address = true) :
    context.Truthful s
      (findings.add current isPrecode address (context.findingAt s address)).2.names := by
  unfold Findings.add
  cases hname : (context.findingAt s address).name? current isPrecode with
  | none => exact h
  | some name =>
    intro other name' hother
    simp only [NameMap.get?_insert] at hother
    cases hbefore : findings.names.get? other with
    | some earlier =>
      -- The first name that an address gets is never replaced.
      rw [hbefore, Option.some_or] at hother
      cases hother
      exact h other name' hbefore
    | none =>
      rw [hbefore, Option.none_or] at hother
      split at hother
      · rename_i heq
        cases hother
        rw [heq]
        exact ⟨habove, hvalid, trueName_of_findingAt hsteady hname⟩
      · cases hother

/-- Listing a method adds true names only. -/
theorem truthful_listMethod (hsteady : context.provider.StandsStill) {names : NameMap}
    (item : WorkItem) (t : σ) (h : context.Truthful s names) :
    context.Truthful s ((context.listMethod names item).run t).1.findings.names := by
  rw [findings_listMethod_eq hsteady names item t s]
  rcases findings_listMethod hsteady with ⟨-, heq⟩ | ⟨-, heq⟩
  · rw [heq]
    exact h
  · rw [heq]
    refine annotateAll_preserves_at (I := fun findings => context.Truthful s findings.names)
      hsteady ?_ h
    rintro instruction - findings isPrecode address ⟨-, -, -, -, habove⟩ - - hvalid htruthful
    exact truthful_add hsteady _ isPrecode htruthful habove hvalid

/-- A run that starts with true names ends with true names. -/
theorem Drains.truthful {state final : RunState} {t t' : σ} {visits : List Visit}
    (hdrains : context.Drains state t visits final t') (hsteady : context.provider.StandsStill)
    (h : context.Truthful s state.names) : context.Truthful s final.names := by
  induction hdrains with
  | idle => exact h
  | @visit state final t t' t'' scheduler item outcome visits _ hlist _ ih =>
    have hafter := truthful_listMethod hsteady item t h
    rw [hlist] at hafter
    exact ih hafter

end Context

/-! ## Symbols -/

namespace Listing

/-- Grouping entries by address and sorting them neither loses nor adds an instruction. -/
theorem mem_instructions_groupsOf {listing : Listing} {instructions : List Instruction}
    {source : List SourceLine} (h : listing.groups = groupsOf instructions source)
    {instruction : Instruction} :
    instruction ∈ listing.instructions ↔ instruction ∈ instructions := by
  have hentry : Entry.instruction instruction ∈ listing.entries ↔ instruction ∈ instructions := by
    unfold Listing.entries
    rw [h]
    unfold groupsOf
    split
    · simp
    · have hflat : (((sortedEntries instructions source).splitBy fun a b =>
          a.address == b.address).map EntryGroup.mk).flatMap (·.entries) =
          sortedEntries instructions source := by
        rw [List.flatMap_map]
        exact List.flatMap_id'.trans (List.flatten_splitBy _ _)
      rw [hflat]
      unfold sortedEntries
      simp
  unfold Listing.instructions
  rw [← hentry, List.mem_filterMap]
  constructor
  · rintro ⟨entry, hmem, heq⟩
    cases entry with
    | source line => cases heq
    | instruction other =>
      cases heq
      exact hmem
  · intro hmem
    exact ⟨_, hmem, rfl⟩

end Listing

/-- The symbol of a reference is a label if the address lies in the method's own code, and else the
name of the address. -/
def Instruction.Agrees (current : Current) (names : NameMap) (instruction : Instruction) : Prop :=
  ∀ address symbol, instruction.reference = some address → instruction.symbol = some symbol →
    (current.contains address = true ∧ symbol = localLabel (address - current.labelBase)) ∨
    (current.contains address = false ∧ names.get? address = some symbol)

/-- An instruction that agrees with names agrees with more names. -/
theorem Instruction.Agrees.within {current : Current} {names names' : NameMap}
    {instruction : Instruction} (h : instruction.Agrees current names)
    (hwithin : names.Within names') : instruction.Agrees current names' := by
  intro address symbol hreference hsymbol
  rcases h address symbol hreference hsymbol with hlocal | ⟨houtside, hname⟩
  · exact Or.inl hlocal
  · exact Or.inr ⟨houtside, hwithin address symbol hname⟩

/-- A name that is given to an address without one is the name of the address. -/
theorem Findings.get?_add {findings : Findings} {current : Current} {isPrecode : Bool}
    {address : UInt64} {finding : Finding} {symbol : String}
    (hunnamed : findings.names.get? address = none)
    (h : (findings.add current isPrecode address finding).1 = some symbol) :
    (findings.add current isPrecode address finding).2.names.get? address = some symbol := by
  unfold Findings.add at h ⊢
  cases hname : finding.name? current isPrecode with
  | none =>
    rw [hname] at h
    cases h
  | some name =>
    rw [hname] at h
    cases h
    simp [NameMap.get?_insert, hunnamed]

/-- A symbol that is resolved is a label, or the name of the address from then on. -/
theorem resolve_agrees {provider : Provider σ} {guard : UInt64} {current : Current}
    {isPrecode : Bool} {address : UInt64} {findings findings' : Findings} {symbol : String}
    {s s' : σ} (h : (resolve provider guard current isPrecode address findings).run s =
      ((some symbol, findings'), s')) :
    (current.contains address = true ∧ symbol = localLabel (address - current.labelBase)) ∨
    (current.contains address = false ∧ findings'.names.get? address = some symbol) := by
  rcases resolve_cases provider guard current isPrecode address findings s with
    ⟨hlocal, hrun⟩ | ⟨houtside, name, hname, hrun⟩ | ⟨-, -, -, hrun⟩ |
    ⟨houtside, hunnamed, -, hrun⟩
  · rw [h] at hrun
    cases hrun
    exact Or.inl ⟨hlocal, rfl⟩
  · rw [h] at hrun
    cases hrun
    exact Or.inr ⟨houtside, hname⟩
  · rw [h] at hrun
    cases hrun
  · rw [h] at hrun
    obtain ⟨hadd, -⟩ := Prod.mk.inj hrun
    have hsymbol := congrArg (·.1) hadd
    have hfindings := congrArg (·.2) hadd
    dsimp only at hsymbol hfindings
    refine Or.inr ⟨houtside, ?_⟩
    rw [hfindings]
    exact Findings.get?_add hunnamed hsymbol.symm

namespace Context

variable (context : Context σ)

/-- An instruction agrees with the names that are known once its reference is named. -/
theorem agrees_annotate (current : Current) (instruction : Instruction) (findings : Findings)
    (s : σ) :
    ((context.annotate current instruction findings).run s).1.1.Agrees current
      ((context.annotate current instruction findings).run s).1.2.names := by
  rcases context.annotate_cases current instruction findings s with
    ⟨hnone, hrun⟩ | ⟨candidate, -, -, hrun⟩ |
    ⟨candidate, destination, found, findings', s', -, -, -, hresolve, hrun⟩
  · rw [hrun]
    intro address symbol hreference
    rw [hnone] at hreference
    cases hreference
  · rw [hrun]
    intro address symbol hreference
    cases hreference
  · rw [hrun]
    intro address symbol hreference hsymbol
    cases hreference
    dsimp only at hsymbol
    rw [hsymbol] at hresolve
    exact resolve_agrees hresolve

/-- Naming references keeps the names that were known. -/
theorem within_annotateAll (current : Current) (instructions : List Instruction)
    (findings : Findings) (s : σ) :
    findings.names.Within
      ((context.annotateAll current instructions findings).run s).1.2.names := by
  refine (annotateAll_preserves (I := fun after => Findings.Grows current.depth findings after) ?_
    instructions s (.refl _ _)).names
  intro after isPrecode address s h
  exact h.trans (after.grows_add current _ _ _)

/-- All instructions agree with the names that are known once their references are named. -/
theorem agrees_annotateAll (current : Current) (instructions : List Instruction)
    (findings : Findings) (s : σ) :
    ∀ instruction ∈ ((context.annotateAll current instructions findings).run s).1.1,
      instruction.Agrees current
        ((context.annotateAll current instructions findings).run s).1.2.names := by
  induction instructions generalizing findings s with
  | nil =>
    intro instruction hmem
    cases hmem
  | cons head rest ih =>
    rw [run_annotateAll_cons]
    intro instruction hmem
    rcases List.mem_cons.1 hmem with rfl | hmem
    · -- The instructions behind it only add names, so its symbol stays right.
      exact (context.agrees_annotate current head findings s).within
        (context.within_annotateAll current rest _ _)
    · exact ih _ _ instruction hmem

/-- The instructions of a listing agree with the names that are known once it is made. -/
theorem agrees_listMethod (names : NameMap) (item : WorkItem) (s : σ) :
    ∀ instruction ∈ ((context.listMethod names item).run s).1.listing.instructions,
      instruction.Agrees (context.currentOf item)
        ((context.listMethod names item).run s).1.findings.names := by
  rcases context.listMethod_cases names item s with
    ⟨reason, -, h⟩ | ⟨-, -, h⟩ | ⟨error, s', -, -, -, h⟩ |
    ⟨code, s', instructions, findings, s'', -, -, -, hannotate, h⟩
  · rw [h]
    intro instruction hmem
    cases hmem
  · rw [h]
    intro instruction hmem
    cases hmem
  · rw [h]
    intro instruction hmem
    cases hmem
  · have hagrees := context.agrees_annotateAll (context.currentOf item)
      (context.decodeAll code) { names } s'
    rw [hannotate] at hagrees
    rw [h]
    intro instruction hmem
    exact hagrees instruction ((Listing.mem_instructions_groupsOf rfl).1 hmem)

end Context

/-- An instruction of the visit's listing refers to the address and carries the symbol. -/
def Visit.Attaches (visit : Visit) (address : UInt64) (symbol : String) : Prop :=
  ∃ instruction ∈ visit.outcome.listing.instructions,
    instruction.reference = some address ∧ instruction.symbol = some symbol

/-- Every symbol of a run is a label of the method that it stands in, or the name that its address
has in the end. -/
theorem Context.Drains.symbols {context : Context σ} {state final : RunState} {s s' : σ}
    {visits : List Visit} (h : context.Drains state s visits final s') {visit : Visit}
    (hvisit : visit ∈ visits)
    {address : UInt64} {symbol : String} (hsymbol : visit.Attaches address symbol) :
    ((context.provider.codeRanges visit.item.method).any (·.contains address) = true ∧
      symbol = localLabel (address - (context.currentOf visit.item).labelBase)) ∨
    ((context.provider.codeRanges visit.item.method).any (·.contains address) = false ∧
      final.names.get? address = some symbol) := by
  obtain ⟨names, t, -, houtcome, hwithin⟩ := h.outcome_eq visit hvisit
  obtain ⟨instruction, hmem, hreference, hsymbol⟩ := hsymbol
  rw [← houtcome] at hmem hwithin
  have hagrees := (context.agrees_listMethod names visit.item t instruction hmem).within hwithin
  have hlocal : (context.currentOf visit.item).contains address =
      (context.provider.codeRanges visit.item.method).any (·.contains address) :=
    context.any_contains_rangesOf visit.item.method address
  rw [← hlocal]
  exact hagrees address symbol hreference hsymbol

namespace Disassembler

/-- Over a snapshot, every name that a run from an entry gives is true and of an address above the
threshold that may be asked about.  Every symbol in its listings is the label of its address if that
lies in the code of the method listed, and else the name of its address, so that two references to
one address from outside carry the same symbol if they carry one.  The run gives no listings only if
the architecture cannot be decoded. -/
theorem run_names_true_and_symbols_agree (index : SnapshotIndex) (disassembler : Disassembler)
    (entry : Method) (sourceOf : Option (SourceLocator σ)) (s : σ) :
    (∃ error, Isa.ofArchitecture disassembler.decoders index.snapshot.architecture = .error error ∧
      (disassembler.run (index.provider σ) entry sourceOf).run s =
        ((.error error, disassembler), s)) ∨
    ∃ context disassembler' visits final s' disassembly,
      disassembler.context (index.provider σ) sourceOf = .ok (context, disassembler') ∧
      context.Drains (entryState disassembler.settings entry) s visits final s' ∧
      (disassembler.run (index.provider σ) entry sourceOf).run s =
        ((.ok disassembly, disassembler'), s') ∧
      disassembly.listings = withoutWrappers (visits.map (·.outcome.listing)) ∧
      (∀ named ∈ disassembly.names.entries,
        disassembler.settings.referenceThreshold < named.1 ∧
        isValidAddress context.guard named.1 = true ∧ context.TrueName s named.1 named.2) ∧
      (∀ visit ∈ visits, ∀ address symbol, visit.Attaches address symbol →
        if (context.provider.codeRanges visit.item.method).any (·.contains address) then
          symbol = localLabel (address - (context.currentOf visit.item).labelBase)
        else disassembly.names.get? address = some symbol) ∧
      (∀ visit ∈ visits, ∀ visit' ∈ visits, ∀ address symbol symbol',
        visit.Attaches address symbol → visit'.Attaches address symbol' →
        (context.provider.codeRanges visit.item.method).any (·.contains address) = false →
        (context.provider.codeRanges visit'.item.method).any (·.contains address) = false →
        symbol = symbol') := by
  rcases context_cases disassembler (index.provider σ) sourceOf with
    ⟨error, herror⟩ | ⟨context, disassembler', hcontext, -, hsettings⟩
  · exact Or.inl ⟨error, herror, run_eq_of_error herror⟩
  right
  obtain ⟨visits, final, s', hdrains⟩ :=
    context.exists_drains (entryState disassembler.settings entry) s
  have hsteady := standsStill_of_context hcontext
  have hstart : context.Truthful s (entryState disassembler.settings entry).names := by
    intro address name hname
    cases hname
  have htruthful := hdrains.truthful hsteady hstart
  have hsymbols := fun visit (hvisit : visit ∈ visits) address symbol
    (hsymbol : visit.Attaches address symbol) => hdrains.symbols hvisit hsymbol
  refine ⟨context, disassembler', visits, final, s', _, hcontext, hdrains,
    run_eq_of_drains hcontext hdrains, rfl, ?_, ?_, ?_⟩
  · rintro ⟨address, name⟩ hmem
    rw [← hsettings]
    exact htruthful address name (NameMap.mem_entries_iff.1 hmem)
  · intro visit hvisit address symbol hsymbol
    rcases hsymbols visit hvisit address symbol hsymbol with ⟨hinside, hlabel⟩ | ⟨houtside, hname⟩
    · rw [if_pos hinside]
      exact hlabel
    · rw [if_neg (by rw [houtside]; exact Bool.false_ne_true)]
      exact hname
  · intro visit hvisit visit' hvisit' address symbol symbol' hsymbol hsymbol' houtside houtside'
    rcases hsymbols visit hvisit address symbol hsymbol with ⟨hinside, -⟩ | ⟨-, hname⟩
    · rw [houtside] at hinside
      cases hinside
    rcases hsymbols visit' hvisit' address symbol' hsymbol' with ⟨hinside, -⟩ | ⟨-, hname'⟩
    · rw [houtside'] at hinside
      cases hinside
    rw [hname] at hname'
    exact Option.some.inj hname'

end Disassembler

end CodeListing
