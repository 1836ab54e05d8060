import CodeListing.Proofs.Steady

/-!
# The call graph of a runtime

`Context.Calls` says when one method is a callee of another: the caller can be listed, and one of
its instructions leads to an address outside of its own code at which the runtime finds the callee
and no helper.  Nothing in it depends on names that are known already, on a queue or on a depth.

The main lemmas compare this with what listing a method brings to light at a steady runtime.  Every
callee found is a callee in the graph (`calls_of_mem_callees`).  After the listing the address of
every callee in the graph has a name (`exists_named_of_calls`), and a method at an address that has
a name is found now or was named before (`named_before_or_mem_callees`).  So a name that is known
already never hides a callee that was not found with it.
-/

set_option autoImplicit false

namespace CodeListing

variable {σ : Type}

/-! ## Ranges -/

/-- Adding nothing leaves an address as it is. -/
theorem saturatingAdd_zero (address : UInt64) : saturatingAdd address 0 = address := by
  unfold saturatingAdd
  rw [if_pos]
  · exact UInt64.add_zero address
  · exact address.toNat_lt

/-- No address lies in a range without bytes. -/
theorem CodeRange.contains_eq_false_of_isEmpty {range : CodeRange} (h : range.isEmpty = true)
    (address : UInt64) : range.contains address = false := by
  have hlength : range.length = 0 := by simpa [CodeRange.isEmpty] using h
  have hstop : range.stop = range.start := by
    unfold CodeRange.stop
    rw [hlength]
    exact saturatingAdd_zero range.start
  unfold CodeRange.contains
  rw [hstop, Bool.and_eq_false_iff]
  by_cases hle : range.start ≤ address
  · right
    rw [decide_eq_false_iff_not]
    exact UInt64.not_lt.2 hle
  · exact Or.inl (decide_eq_false hle)

namespace Context

/-- Leaving out repetitions loses no range. -/
theorem mem_dropRepeats {ranges : List CodeRange} {range : CodeRange} :
    range ∈ dropRepeats ranges ↔ range ∈ ranges := by
  fun_induction dropRepeats ranges with
  | case1 first rest ih =>
    rw [ih]
    simp
  | case2 first second rest _ ih =>
    rw [List.mem_cons, ih]
    exact List.mem_cons.symm
  | case3 => rfl

/-- Sorting the ranges of a method and dropping empty ones and repetitions changes no address. -/
theorem any_contains_rangesOf (context : Context σ) (method : Method) (address : UInt64) :
    (context.rangesOf method).any (·.contains address) =
      (context.provider.codeRanges method).any (·.contains address) := by
  rw [Bool.eq_iff_iff, List.any_eq_true, List.any_eq_true]
  constructor
  · rintro ⟨range, hrange, hcontains⟩
    have hmem := List.mem_mergeSort.1 (mem_dropRepeats.1 hrange)
    exact ⟨range, (List.mem_filter.1 hmem).1, hcontains⟩
  · rintro ⟨range, hrange, hcontains⟩
    refine ⟨range, mem_dropRepeats.2 (List.mem_mergeSort.2 ?_), hcontains⟩
    refine List.mem_filter.2 ⟨hrange, ?_⟩
    cases hempty : range.isEmpty with
    | true =>
      rw [CodeRange.contains_eq_false_of_isEmpty hempty] at hcontains
      cases hcontains
    | false => rfl

/-! ## Callees -/

/-- The instructions decoded from the code of a method; none if the code cannot be read. -/
def decodedOf (context : Context σ) (s : σ) (method : Method) : List Instruction :=
  match ((context.readAll (context.rangesOf method)).run s).1 with
  | .ok code => context.decodeAll code
  | .error _ => []

/-- The instruction refers to the address in the end: by itself, or through cells and stubs if it is
indirect, and the address is no small number. -/
def RefersTo (context : Context σ) (s : σ) (instruction : Instruction) (address : UInt64) : Prop :=
  ∃ candidate isPrecode, instruction.reference = some candidate ∧
    ((context.destination? instruction candidate).run s).1 = some ⟨address, isPrecode⟩ ∧
    context.settings.referenceThreshold < address

/-- The caller can be listed, and one of its instructions refers to an address outside of its own
code at which the runtime finds the callee, another method, and no helper. -/
def Calls (context : Context σ) (s : σ) (caller callee : Method) : Prop :=
  ((context.listMethod .empty ⟨caller, 0⟩).run s).1.listing.problem = none ∧
  ∃ instruction ∈ context.decodedOf s caller, ∃ address,
    context.RefersTo s instruction address ∧
    (context.provider.codeRanges caller).any (·.contains address) = false ∧
    isValidAddress context.guard address = true ∧
    nonEmpty? ((context.provider.helperName? address).run s).1 = none ∧
    ((methodThrough? context.provider context.guard address).run s).1 = some callee ∧
    callee.identity ≠ caller.identity

/-- There is a chain of so many calls from the entry to the method. -/
inductive CallPath (context : Context σ) (s : σ) (entry : Method) : Nat → Method → Prop
  | entry : CallPath context s entry 0 entry
  | call {n : Nat} {caller callee : Method} (hpath : CallPath context s entry n caller)
      (hcall : context.Calls s caller callee) : CallPath context s entry (n + 1) callee

/-- The shortest chain of calls from the entry to the method has so many calls. -/
structure CallDistance (context : Context σ) (s : σ) (entry method : Method) (n : Nat) : Prop where
  path : context.CallPath s entry n method
  least : ∀ m, context.CallPath s entry m method → n ≤ m

/-- What the runtime says about an address. -/
def findingAt (context : Context σ) (s : σ) (address : UInt64) : Finding :=
  ((identify context.provider context.guard address).run s).1

variable {context : Context σ} {s : σ}

/-- The five answers of the runtime about an address, each given only where the ones before it are
not. -/
theorem findingAt_cases (hsteady : context.provider.StandsStill) (address : UInt64) :
    (∃ name, nonEmpty? ((context.provider.helperName? address).run s).1 = some name ∧
      context.findingAt s address = .helper name) ∨
    (nonEmpty? ((context.provider.helperName? address).run s).1 = none ∧
      ((∃ method, ((methodThrough? context.provider context.guard address).run s).1 = some method ∧
        context.findingAt s address = .method method) ∨
      (((methodThrough? context.provider context.guard address).run s).1 = none ∧
        ((∃ method, ((context.provider.methodOfDescriptor? address).run s).1 = some method ∧
          context.findingAt s address = .descriptor method) ∨
        (((context.provider.methodOfDescriptor? address).run s).1 = none ∧
          ((∃ name, nonEmpty? ((context.provider.tableName? address).run s).1 = some name ∧
            context.findingAt s address = .table name) ∨
          context.findingAt s address = .nothing)))))) := by
  unfold findingAt identify
  rw [(hsteady.helperName? address).run_bind]
  cases nonEmpty? ((context.provider.helperName? address).run s).1 with
  | some name => exact Or.inl ⟨name, rfl, rfl⟩
  | none =>
    refine Or.inr ⟨rfl, ?_⟩
    dsimp only
    rw [(hsteady.methodThrough? context.guard address).run_bind]
    cases ((methodThrough? context.provider context.guard address).run s).1 with
    | some method => exact Or.inl ⟨method, rfl, rfl⟩
    | none =>
      refine Or.inr ⟨rfl, ?_⟩
      unfold structureAt
      dsimp only
      rw [(hsteady.methodOfDescriptor? address).run_bind]
      cases ((context.provider.methodOfDescriptor? address).run s).1 with
      | some method => exact Or.inl ⟨method, rfl, rfl⟩
      | none =>
        refine Or.inr ⟨rfl, ?_⟩
        dsimp only
        rw [(hsteady.tableName? address).run_bind]
        cases nonEmpty? ((context.provider.tableName? address).run s).1 with
        | some name => exact Or.inl ⟨name, rfl, rfl⟩
        | none => exact Or.inr rfl

/-- The runtime finds a method where there is no helper and a method lives there or behind the
pointer cell there. -/
theorem findingAt_eq_method_iff (hsteady : context.provider.StandsStill) {address : UInt64}
    {method : Method} :
    context.findingAt s address = .method method ↔
      nonEmpty? ((context.provider.helperName? address).run s).1 = none ∧
      ((methodThrough? context.provider context.guard address).run s).1 = some method := by
  rcases findingAt_cases (s := s) hsteady address with
    ⟨name, hhelper, heq⟩ | ⟨hhelper, ⟨found, hmethod, heq⟩ | ⟨hmethod, ⟨found, -, heq⟩ |
      ⟨-, ⟨name, -, heq⟩ | heq⟩⟩⟩
  all_goals simp [hhelper, heq]
  all_goals simp [hmethod]

/-! ## What a listing finds of them -/

/-- The instruction makes the method at an address known as a callee of the method being listed. -/
def Leads (context : Context σ) (s : σ) (current : Current) (instruction : Instruction)
    (address : UInt64) (callee : Method) : Prop :=
  context.RefersTo s instruction address ∧ current.contains address = false ∧
    isValidAddress context.guard address = true ∧
    context.findingAt s address = .method callee ∧
    callee.identity ≠ current.method.identity

/-- The caller can be listed, and one of its instructions makes the callee known at the address. -/
def CallsAt (context : Context σ) (s : σ) (caller : Method) (address : UInt64)
    (callee : Method) : Prop :=
  ((context.listMethod .empty ⟨caller, 0⟩).run s).1.listing.problem = none ∧
  ∃ instruction ∈ context.decodedOf s caller,
    context.Leads s (context.currentOf ⟨caller, 0⟩) instruction address callee

/-- Every address that has a name and at which the runtime finds a method had a name at the start,
or the method is among the callees. -/
def Accounts (context : Context σ) (s : σ) (current : Current) (start : NameMap)
    (findings : Findings) : Prop :=
  ∀ address callee, findings.names.get? address ≠ none →
    context.findingAt s address = .method callee →
    start.get? address ≠ none ∨ ⟨callee, nextDepth current.depth⟩ ∈ findings.callees

/-- Adding what lies at an address keeps every named method accounted for. -/
theorem accounts_add {current : Current} {start : NameMap} {findings : Findings}
    (h : context.Accounts s current start findings) (isPrecode : Bool) (address : UInt64) :
    context.Accounts s current start
      (findings.add current isPrecode address (context.findingAt s address)).2 := by
  intro other callee hnamed hfinding
  unfold Findings.add at hnamed ⊢
  cases hname : (context.findingAt s address).name? current isPrecode with
  | none =>
    rw [hname] at hnamed
    exact h other callee hnamed hfinding
  | some name =>
    rw [hname] at hnamed
    simp only at hnamed ⊢
    by_cases hother : findings.names.get? other = none
    · -- The name is new, so it belongs to the address that was just identified.
      have heq : other = address := by
        rw [NameMap.get?_insert, hother] at hnamed
        by_cases heq : other = address
        · exact heq
        · simp [heq] at hnamed
      subst heq
      right
      rw [hfinding] at hname ⊢
      have hne : (callee.identity == current.method.identity) = false := by
        cases hsame : callee.identity == current.method.identity with
        | true => simp [Finding.name?, hsame] at hname
        | false => rfl
      rw [List.mem_append]
      right
      simp [Finding.callee?, hne]
    · rcases h other callee hother hfinding with hstart | hmem
      · exact Or.inl hstart
      · exact Or.inr (List.mem_append_left _ hmem)

/-- An instruction refers to one address at most. -/
theorem RefersTo.unique {instruction : Instruction} {address other : UInt64}
    (h : context.RefersTo s instruction address) (h' : context.RefersTo s instruction other) :
    address = other := by
  obtain ⟨candidate, isPrecode, hreference, hdestination, -⟩ := h
  obtain ⟨candidate', isPrecode', hreference', hdestination', -⟩ := h'
  rw [hreference] at hreference'
  cases hreference'
  rw [hdestination] at hdestination'
  cases hdestination'
  rfl

/-- A direct instruction refers to its reference, unless that is a small number. -/
theorem refersTo_iff_of_direct {instruction : Instruction} (h : instruction.isIndirect = false)
    (address : UInt64) :
    context.RefersTo s instruction address ↔
      instruction.reference = some address ∧ context.settings.referenceThreshold < address := by
  have hdestination : ∀ candidate,
      ((context.destination? instruction candidate).run s).1 = some ⟨candidate, false⟩ := by
    intro candidate
    unfold destination?
    rw [h]
    rfl
  constructor
  · rintro ⟨candidate, isPrecode, hreference, hcandidate, habove⟩
    rw [hdestination] at hcandidate
    cases hcandidate
    exact ⟨hreference, habove⟩
  · rintro ⟨hreference, habove⟩
    exact ⟨address, false, hreference, hdestination address, habove⟩

/-- A method with one direct reference refers to that address and to nothing else. -/
theorem refersTo_of_references {method : Method} {target : UInt64}
    (hreferences : (context.decodedOf s method).map
      (fun instruction => (instruction.reference, instruction.isIndirect)) =
        [(some target, false), (none, false)])
    (habove : context.settings.referenceThreshold < target) :
    (∃ instruction ∈ context.decodedOf s method, context.RefersTo s instruction target) ∧
      ∀ instruction ∈ context.decodedOf s method, ∀ address,
        context.RefersTo s instruction address → address = target := by
  constructor
  · have hmem : (some target, false) ∈ (context.decodedOf s method).map
        fun instruction => (instruction.reference, instruction.isIndirect) := by
      rw [hreferences]
      exact List.mem_cons_self
    obtain ⟨instruction, hmem, hpair⟩ := List.mem_map.1 hmem
    obtain ⟨hreference, hdirect⟩ := Prod.mk.inj hpair
    exact ⟨instruction, hmem, (refersTo_iff_of_direct hdirect target).2 ⟨hreference, habove⟩⟩
  · intro instruction hmem address hrefers
    have hpair := List.mem_map_of_mem
      (f := fun instruction : Instruction => (instruction.reference, instruction.isIndirect)) hmem
    rw [hreferences] at hpair
    have hdirect : instruction.isIndirect = false ∧
        (instruction.reference = some target ∨ instruction.reference = none) := by
      simp only [List.mem_cons, Prod.mk.injEq, List.not_mem_nil, or_false] at hpair
      rcases hpair with ⟨hreference, hdirect⟩ | ⟨hreference, hdirect⟩
      · exact ⟨hdirect, Or.inl hreference⟩
      · exact ⟨hdirect, Or.inr hreference⟩
    obtain ⟨hreference, -⟩ := (refersTo_iff_of_direct hdirect.1 address).1 hrefers
    rw [hreference] at hdirect
    rcases hdirect.2 with hsame | hnone
    · exact Option.some.inj hsame
    · cases hnone

/-- Annotating an instruction brings nothing to light, because every address that it refers to is
local, has a name or cannot be asked about, or it adds what the runtime says about an address. -/
theorem annotate_findings (hsteady : context.provider.StandsStill) (current : Current)
    (instruction : Instruction) (findings : Findings) :
    (((context.annotate current instruction findings).run s).1.2 = findings ∧
      ∀ address, context.RefersTo s instruction address → current.contains address = true ∨
        findings.names.get? address ≠ none ∨ isValidAddress context.guard address = false) ∨
    (∃ address isPrecode, context.RefersTo s instruction address ∧
      current.contains address = false ∧ findings.names.get? address = none ∧
      isValidAddress context.guard address = true ∧
      ((context.annotate current instruction findings).run s).1.2 =
        (findings.add current isPrecode address (context.findingAt s address)).2) := by
  rcases context.annotate_cases current instruction findings s with
    ⟨hnone, hrun⟩ | ⟨candidate, hcandidate, hbelow, hrun⟩ |
    ⟨candidate, destination, _, findings', _, hcandidate, hdestination, habove, hresolve, hrun⟩
  · refine Or.inl ⟨by rw [hrun], ?_⟩
    rintro address ⟨candidate, isPrecode, hreference, -, -⟩
    rw [hnone] at hreference
    cases hreference
  · refine Or.inl ⟨by rw [hrun], ?_⟩
    rintro address ⟨candidate', isPrecode, hreference, hleads, habove⟩
    rw [hcandidate] at hreference
    cases hreference
    exact absurd habove (hbelow _ hleads)
  · have hrefers : context.RefersTo s instruction destination.address :=
      ⟨candidate, destination.isPrecode, hcandidate, hdestination, habove⟩
    rw [(steady_destination? hsteady instruction candidate).snd_run] at hresolve
    rw [hrun]
    show (findings' = findings ∧ _) ∨ _
    rcases resolve_cases context.provider context.guard current destination.isPrecode
      destination.address findings s with
      ⟨hlocal, hcase⟩ | ⟨-, name, hname, hcase⟩ | ⟨-, -, hinvalid, hcase⟩ |
      ⟨hlocal, hunnamed, hvalid, hcase⟩
    · rw [hresolve] at hcase
      cases hcase
      refine Or.inl ⟨rfl, fun address h => ?_⟩
      rw [h.unique hrefers]
      exact Or.inl hlocal
    · rw [hresolve] at hcase
      cases hcase
      refine Or.inl ⟨rfl, fun address h => ?_⟩
      rw [h.unique hrefers]
      exact Or.inr (Or.inl (by rw [hname]; simp))
    · rw [hresolve] at hcase
      cases hcase
      refine Or.inl ⟨rfl, fun address h => ?_⟩
      rw [h.unique hrefers]
      exact Or.inr (Or.inr hinvalid)
    · rw [hresolve] at hcase
      refine Or.inr ⟨destination.address, destination.isPrecode, hrefers, hlocal, hunnamed, hvalid,
        ?_⟩
      exact congrArg (·.1.2) hcase

/-- An address that has a name keeps one. -/
theorem get?_annotateAll_ne_none {current : Current} (instructions : List Instruction)
    {findings : Findings} {address : UInt64} (s : σ) (h : findings.names.get? address ≠ none) :
    ((context.annotateAll current instructions findings).run s).1.2.names.get? address ≠ none := by
  refine annotateAll_preserves (I := fun findings => findings.names.get? address ≠ none) ?_
    instructions s h
  intro findings isPrecode other s hnamed
  obtain ⟨name, hname⟩ := Option.ne_none_iff_exists'.1 hnamed
  rw [(findings.grows_add current isPrecode other _).names address name hname]
  simp

/-- Once another method is found at an address, the address has a name. -/
theorem get?_add_method_ne_none (findings : Findings) {current : Current} {isPrecode : Bool}
    {address : UInt64} {callee : Method} (hne : callee.identity ≠ current.method.identity) :
    (findings.add current isPrecode address (.method callee)).2.names.get? address ≠ none := by
  unfold Findings.add
  rw [Finding.name?_method_of_ne isPrecode hne]
  simp only [NameMap.get?_insert, if_true]
  cases findings.names.get? address <;> simp

section Annotating

variable (hsteady : context.provider.StandsStill) {current : Current}

include hsteady

/-- The findings of instructions are those of the rest after those of the first one. -/
theorem findings_annotateAll_cons (instruction : Instruction) (rest : List Instruction)
    (findings : Findings) :
    ((context.annotateAll current (instruction :: rest) findings).run s).1.2 =
      ((context.annotateAll current rest
        ((context.annotate current instruction findings).run s).1.2).run s).1.2 := by
  rw [run_annotateAll_cons]
  dsimp only
  rw [(steady_annotate hsteady current instruction findings).snd_run]

/-- What is preserved when the runtime answers about an address without name, to which one of the
instructions refers, annotating the instructions preserves. -/
theorem annotateAll_preserves_at {I : Findings → Prop} {instructions : List Instruction}
    (hadd : ∀ instruction ∈ instructions, ∀ findings isPrecode address,
      context.RefersTo s instruction address → current.contains address = false →
      findings.names.get? address = none → isValidAddress context.guard address = true →
      I findings → I (findings.add current isPrecode address (context.findingAt s address)).2)
    {findings : Findings} (h : I findings) :
    I ((context.annotateAll current instructions findings).run s).1.2 := by
  induction instructions generalizing findings with
  | nil => exact h
  | cons instruction rest ih =>
    rw [findings_annotateAll_cons hsteady]
    apply ih fun other hother => hadd other (List.mem_cons_of_mem _ hother)
    rcases annotate_findings hsteady current instruction findings with
      ⟨heq, -⟩ | ⟨address, isPrecode, hrefers, hlocal, hunnamed, hvalid, heq⟩
    · rw [heq]
      exact h
    · rw [heq]
      exact hadd instruction List.mem_cons_self findings isPrecode address hrefers hlocal hunnamed
        hvalid h

/-- Naming the references of instructions keeps every named method accounted for. -/
theorem accounts_annotateAll {start : NameMap} (instructions : List Instruction)
    {findings : Findings} (h : context.Accounts s current start findings) :
    context.Accounts s current start
      ((context.annotateAll current instructions findings).run s).1.2 := by
  refine annotateAll_preserves_at hsteady ?_ h
  intro _ _ findings isPrecode address _ _ _ _ h
  exact accounts_add h isPrecode address

/-- Every callee that is found was found before, or one of the instructions leads to it at an
address that had no name. -/
theorem leads_of_mem_annotateAll (instructions : List Instruction) {findings : Findings}
    {item : WorkItem}
    (h : item ∈ ((context.annotateAll current instructions findings).run s).1.2.callees) :
    item ∈ findings.callees ∨ ∃ instruction ∈ instructions, ∃ address,
      findings.names.get? address = none ∧
      context.Leads s current instruction address item.method := by
  refine (annotateAll_preserves_at (I := fun after => findings.names.Within after.names ∧
    ∀ item ∈ after.callees, item ∈ findings.callees ∨ ∃ instruction ∈ instructions, ∃ address,
      findings.names.get? address = none ∧ context.Leads s current instruction address item.method)
    hsteady ?_ ⟨NameMap.Within.refl _, fun _ hitem => Or.inl hitem⟩).2 item h
  rintro instruction hmem after isPrecode address hrefers hlocal hunnamed hvalid ⟨hwithin, hitems⟩
  refine ⟨hwithin.trans (after.grows_add current isPrecode address _).names, ?_⟩
  intro other hother
  rcases Findings.mem_callees_add hother with hother | hcallee
  · exact hitems other hother
  · obtain ⟨hfinding, hne⟩ := Finding.eq_method_of_callee? hcallee
    have hbefore : findings.names.get? address = none := hwithin.get?_eq_none hunnamed
    exact Or.inr ⟨instruction, hmem, address, hbefore, hrefers, hlocal, hvalid, hfinding, hne⟩

/-- An address at which an instruction leads to a callee has a name afterwards. -/
theorem named_of_leads_annotateAll {instructions : List Instruction} {findings : Findings}
    {instruction : Instruction} (hmem : instruction ∈ instructions) {address : UInt64}
    {callee : Method} (h : context.Leads s current instruction address callee) :
    ((context.annotateAll current instructions findings).run s).1.2.names.get? address ≠ none := by
  obtain ⟨hrefers, hlocal, hvalid, hfinding, hne⟩ := h
  induction instructions generalizing findings with
  | nil => cases hmem
  | cons head rest ih =>
    rw [findings_annotateAll_cons hsteady]
    rcases List.mem_cons.1 hmem with rfl | hmem
    · apply get?_annotateAll_ne_none
      rcases annotate_findings hsteady current instruction findings with
        ⟨heq, hwhy⟩ | ⟨other, isPrecode, hrefers', -, -, -, heq⟩
      · -- Nothing was added.  The address is neither local nor invalid, so it had a name.
        rw [heq]
        rcases hwhy address hrefers with hcontains | hnamed | hinvalid
        · rw [hlocal] at hcontains
          cases hcontains
        · exact hnamed
        · rw [hvalid] at hinvalid
          cases hinvalid
      · rw [heq, ← hrefers.unique hrefers', hfinding]
        exact get?_add_method_ne_none findings hne
    · exact ih hmem

end Annotating

/-! ## Listing a method of the graph -/

variable {names : NameMap} {item : WorkItem}

/-- A callee is what is called at some address. -/
theorem calls_iff_callsAt (hsteady : context.provider.StandsStill) {caller callee : Method} :
    context.Calls s caller callee ↔ ∃ address, context.CallsAt s caller address callee := by
  have hlocal : ∀ address, (context.currentOf ⟨caller, 0⟩).contains address =
      (context.provider.codeRanges caller).any (·.contains address) :=
    context.any_contains_rangesOf caller
  unfold Calls CallsAt Leads
  simp only [hlocal, findingAt_eq_method_iff hsteady, and_assoc]
  constructor
  · rintro ⟨hproblem, instruction, hmem, address, hleads⟩
    exact ⟨address, hproblem, instruction, hmem, hleads⟩
  · rintro ⟨address, hproblem, instruction, hmem, hleads⟩
    exact ⟨hproblem, instruction, hmem, address, hleads⟩

/-- Whether a method can be listed does not depend on its depth or on the names that are known. -/
theorem problem_listMethod_empty_iff (names : NameMap) (item : WorkItem) :
    ((context.listMethod .empty ⟨item.method, 0⟩).run s).1.listing.problem = none ↔
      ((context.listMethod names item).run s).1.listing.problem = none := by
  rw [problem_listMethod_eq_none_iff, problem_listMethod_eq_none_iff]

/-- A method without problem is listed by annotating its decoded instructions. -/
theorem findings_listMethod (hsteady : context.provider.StandsStill) :
    (((context.listMethod names item).run s).1.listing.problem ≠ none ∧
      ((context.listMethod names item).run s).1.findings = { names }) ∨
    (((context.listMethod names item).run s).1.listing.problem = none ∧
      ((context.listMethod names item).run s).1.findings =
        ((context.annotateAll (context.currentOf item) (context.decodedOf s item.method)
          { names }).run s).1.2) := by
  rcases context.listMethod_cases names item s with
    ⟨reason, -, h⟩ | ⟨-, -, h⟩ | ⟨error, s', -, -, -, h⟩ |
    ⟨code, s', instructions, findings, s'', -, -, hread, hannotate, h⟩
  · rw [h]
    exact Or.inl ⟨Option.some_ne_none _, rfl⟩
  · rw [h]
    exact Or.inl ⟨Option.some_ne_none _, rfl⟩
  · rw [h]
    exact Or.inl ⟨Option.some_ne_none _, rfl⟩
  · have hs : s' = s := by
      have hs := (steady_readAll hsteady (context.rangesOf item.method)).snd_run s
      rw [hread] at hs
      exact hs
    have hdecoded : context.decodedOf s item.method = context.decodeAll code := by
      unfold decodedOf
      rw [hread]
    rw [hs] at hannotate
    rw [h, hdecoded, hannotate]
    exact Or.inr ⟨rfl, rfl⟩

/-- Every callee that a listing finds is called at an address that had no name. -/
theorem callsAt_of_mem_callees (hsteady : context.provider.StandsStill) {callee : WorkItem}
    (h : callee ∈ ((context.listMethod names item).run s).1.findings.callees) :
    ∃ address, names.get? address = none ∧
      context.CallsAt s item.method address callee.method := by
  rcases findings_listMethod hsteady with ⟨-, heq⟩ | ⟨hproblem, heq⟩
  · rw [heq] at h
    cases h
  · rw [heq] at h
    rcases leads_of_mem_annotateAll hsteady _ h with
      hmem | ⟨instruction, hmem, address, hunnamed, hleads⟩
    · cases hmem
    · exact ⟨address, hunnamed, (problem_listMethod_empty_iff names item).2 hproblem, instruction,
        hmem, hleads⟩

/-- Every callee that a listing finds is a callee in the graph. -/
theorem calls_of_mem_callees (hsteady : context.provider.StandsStill) {callee : WorkItem}
    (h : callee ∈ ((context.listMethod names item).run s).1.findings.callees) :
    context.Calls s item.method callee.method := by
  obtain ⟨address, -, hcalls⟩ := callsAt_of_mem_callees hsteady h
  exact (calls_iff_callsAt hsteady).2 ⟨address, hcalls⟩

/-- The address at which a method is called has a name after the listing of the caller. -/
theorem named_of_callsAt (hsteady : context.provider.StandsStill) {address : UInt64}
    {callee : Method} (h : context.CallsAt s item.method address callee) :
    ((context.listMethod names item).run s).1.findings.names.get? address ≠ none := by
  obtain ⟨hproblem, instruction, hmem, hleads⟩ := h
  rcases findings_listMethod hsteady with ⟨hne, -⟩ | ⟨-, heq⟩
  · exact absurd ((problem_listMethod_empty_iff names item).1 hproblem) hne
  · have hleads' : context.Leads s (context.currentOf item) instruction address callee := hleads
    rw [heq]
    exact named_of_leads_annotateAll hsteady hmem hleads'

/-- The address at which a callee in the graph is found has a name after the listing. -/
theorem exists_named_of_calls (hsteady : context.provider.StandsStill) {callee : Method}
    (h : context.Calls s item.method callee) :
    ∃ address, ((context.listMethod names item).run s).1.findings.names.get? address ≠ none ∧
      context.findingAt s address = .method callee := by
  obtain ⟨address, hcalls⟩ := (calls_iff_callsAt hsteady).1 h
  obtain ⟨-, instruction, -, -, -, -, hfinding, -⟩ := id hcalls
  exact ⟨address, named_of_callsAt hsteady hcalls, hfinding⟩

/-- A method at an address that has a name after the listing is a callee found in it, unless the
address had a name before. -/
theorem named_before_or_mem_callees (hsteady : context.provider.StandsStill) {address : UInt64}
    {callee : Method}
    (hnamed : ((context.listMethod names item).run s).1.findings.names.get? address ≠ none)
    (hfinding : context.findingAt s address = .method callee) :
    names.get? address ≠ none ∨
      ⟨callee, nextDepth item.depth⟩ ∈
        ((context.listMethod names item).run s).1.findings.callees := by
  rcases findings_listMethod hsteady with ⟨-, heq⟩ | ⟨-, heq⟩
  · rw [heq] at hnamed
    exact Or.inl hnamed
  · rw [heq] at hnamed ⊢
    have hstart : context.Accounts s (context.currentOf item) names { names } :=
      fun _ _ h _ => Or.inl h
    exact accounts_annotateAll hsteady _ hstart address callee hnamed hfinding

/-- As long as no address has a name, a listing finds all callees in the graph. -/
theorem mem_callees_iff_calls (hsteady : context.provider.StandsStill) {callee : Method} :
    ⟨callee, nextDepth item.depth⟩ ∈
        ((context.listMethod .empty item).run s).1.findings.callees ↔
      context.Calls s item.method callee := by
  constructor
  · intro h
    exact calls_of_mem_callees hsteady h
  · intro h
    obtain ⟨address, hnamed, hfinding⟩ : ∃ address,
        ((context.listMethod .empty item).run s).1.findings.names.get? address ≠ none ∧
          context.findingAt s address = .method callee := exists_named_of_calls hsteady h
    rcases named_before_or_mem_callees hsteady hnamed hfinding with hbefore | hmem
    · exact absurd rfl hbefore
    · exact hmem

end Context

/-! ## Two methods that call each other -/

namespace MutualCalls

/-- A method at the lower address, of which only the name is open. -/
def low (signature typeName : String) : Method where
  signature := signature
  typeName := typeName
  nativeCode := 0x10000
  descriptor := 0
  compilation := .jitted
  isPInvoke := false
  hasIl := true
  codeRanges := [⟨0x10000, 6⟩]

/-- A method at the higher address, of which only the name is open. -/
def high (signature typeName : String) : Method where
  signature := signature
  typeName := typeName
  nativeCode := 0x20000
  descriptor := 0
  compilation := .jitted
  isPInvoke := false
  hasIl := true
  codeRanges := [⟨0x20000, 6⟩]

/-- The lower method under a plain name. -/
def ping : Method := low "A.Ping()" ""

/-- The higher method under a plain name. -/
def pong : Method := high "A.Pong()" ""

/-- The code of both methods: each calls the other one and returns. -/
def memory : List MemoryRegion :=
  [⟨0x10000, [0xE8, 0xFB, 0xFF, 0x00, 0x00, 0xC3]⟩,
    ⟨0x20000, [0xE8, 0xFB, 0xFF, 0xFE, 0xFF, 0xC3]⟩]

/-- A snapshot of this memory with methods whose code may lie there. -/
def index (methods : List Method) : SnapshotIndex where
  snapshot := {
    architecture := .x64
    os := .linux
    pageSize := 4096
    version := ⟨8, 0, 0⟩
    methods := methods
    helpers := []
    tables := []
    memory := memory
    sources := [] }
  regions := memory.toArray

/-- The snapshot is accepted as it is. -/
theorem ofSnapshot_index (methods : List Method) :
    SnapshotIndex.ofSnapshot (index methods).snapshot = .ok (index methods) := by
  have hsorted : memory.Pairwise fun a b => a.address ≤ b.address := by decide
  exact SnapshotIndex.ofSnapshot_eq_ok_of_pairwise hsorted rfl rfl

/-- A disassembler with default settings but for the depth. -/
def disassembler (maxDepth : UInt32) : Disassembler where
  settings := { maxDepth }
  decoders := .builtIn

/-- The context of a run over the snapshot. -/
def context (maxDepth : UInt32) (methods : List Method) : Context Unit where
  settings := { maxDepth }
  provider := (index methods).provider Unit
  isa := .x86 .bits64
  decoders := .builtIn
  templates := (Isa.x86 .bits64).stubTemplates 16384
  reusesStubs := true
  guard := 4096
  sourceOf := none

/-- The context is that of runs of the disassembler. -/
theorem context_eq (maxDepth : UInt32) (methods : List Method) :
    ∃ disassembler', (disassembler maxDepth).context ((index methods).provider Unit) none =
      .ok (context maxDepth methods, disassembler') :=
  ⟨_, rfl⟩

/-- The context of a run over the snapshot with patterns. -/
def contextOf (maxDepth : UInt32) (filters : List String) (methods : List Method) :
    Context Unit :=
  { context maxDepth methods with settings := { maxDepth, filters } }

/-- A disassembler with default settings but for the depth and the patterns. -/
def disassemblerOf (maxDepth : UInt32) (filters : List String) : Disassembler where
  settings := { maxDepth, filters }
  decoders := .builtIn

/-- The context is that of runs of the disassembler with patterns. -/
theorem contextOf_eq (maxDepth : UInt32) (filters : List String) (methods : List Method) :
    ∃ disassembler', (disassemblerOf maxDepth filters).context ((index methods).provider Unit)
      none = .ok (contextOf maxDepth filters methods, disassembler') :=
  ⟨_, rfl⟩

/-- The code at the lower address has a direct reference to the higher one and no other. -/
theorem references_low :
    ((Isa.x86 .bits64).decode .builtIn 0xFFFF 0x10000 [0xE8, 0xFB, 0xFF, 0x00, 0x00, 0xC3]).map
      (fun instruction => (instruction.reference, instruction.isIndirect)) =
        [(some 0x20000, false), (none, false)] := by
  decide +kernel

section Low

variable (maxDepth : UInt32) (filters : List String) (methods : List Method)
  (signature typeName : String)

/-- The lower method has one range. -/
theorem rangesOf_low :
    (contextOf maxDepth filters methods).rangesOf (low signature typeName) = [⟨0x10000, 6⟩] := by
  with_unfolding_all rfl

/-- The range of the lower method can be read. -/
theorem readAll_low : (((contextOf maxDepth filters methods).readAll [⟨0x10000, 6⟩]).run ()).1 =
    .ok [(⟨0x10000, 6⟩, [0xE8, 0xFB, 0xFF, 0x00, 0x00, 0xC3])] := by
  -- The memory is the same whatever the methods are, so that one case can be evaluated for all.
  have hread : (contextOf maxDepth filters methods).provider.read =
      (contextOf 0 [] []).provider.read := rfl
  rw [Context.readAll_congr hread]
  with_unfolding_all rfl

/-- The instructions of the lower method are those of its code. -/
theorem decodedOf_low :
    (contextOf maxDepth filters methods).decodedOf () (low signature typeName) =
      (Isa.x86 .bits64).decode .builtIn 0xFFFF 0x10000 [0xE8, 0xFB, 0xFF, 0x00, 0x00, 0xC3] := by
  unfold Context.decodedOf
  rw [rangesOf_low, readAll_low]
  exact List.append_nil _

/-- The lower method can be listed. -/
theorem problem_low : (((contextOf maxDepth filters methods).listMethod .empty
    ⟨low signature typeName, 0⟩).run ()).1.listing.problem = none := by
  rw [Context.problem_listMethod_eq_none_iff, rangesOf_low]
  exact ⟨rfl, List.cons_ne_nil _ _, _, readAll_low maxDepth filters methods⟩

/-- The lower method refers to the higher address and to nothing else. -/
theorem refersTo_low :
    (∃ instruction ∈ (contextOf maxDepth filters methods).decodedOf () (low signature typeName),
      (contextOf maxDepth filters methods).RefersTo () instruction 0x20000) ∧
    ∀ instruction ∈ (contextOf maxDepth filters methods).decodedOf () (low signature typeName),
      ∀ address, (contextOf maxDepth filters methods).RefersTo () instruction address →
        address = 0x20000 := by
  have habove : (0xFFFF : UInt64) < 0x20000 := by decide
  refine Context.refersTo_of_references ?_ habove
  rw [decodedOf_low]
  exact references_low

/-- The lower method calls what has code at the higher address. -/
theorem callsAt_low {callee : Method}
    (hfound : SnapshotIndex.methodAt? (index methods).snapshot 0x20000 = some callee)
    (hother : callee.nativeCode ≠ 0x10000) :
    (contextOf maxDepth filters methods).CallsAt () (low signature typeName) 0x20000 callee := by
  obtain ⟨instruction, hmem, hrefers⟩ :=
    (refersTo_low maxDepth filters methods signature typeName).1
  have hlocal : ((contextOf maxDepth filters methods).currentOf
      ⟨low signature typeName, 0⟩).contains 0x20000 = false := by
    unfold Context.currentOf Current.contains
    rw [rangesOf_low]
    show ([⟨0x10000, 6⟩] : List CodeRange).any (·.contains 0x20000) = false
    decide
  have hfinding : (contextOf maxDepth filters methods).findingAt () 0x20000 = .method callee := by
    rw [Context.findingAt_eq_method_iff (index methods).standsStill_provider]
    refine ⟨rfl, ?_⟩
    unfold methodThrough?
    rw [run_bind]
    have hanswer : (((contextOf maxDepth filters methods).provider.methodAt? 0x20000).run ()).1 =
        some callee := hfound
    rw [hanswer]
    rfl
  exact ⟨problem_low maxDepth filters methods signature typeName, instruction, hmem, hrefers,
    hlocal, rfl, hfinding, hother⟩

end Low

/-- The first method calls the second one, whatever their names are. -/
theorem calls_high (maxDepth : UInt32) (signature typeName signature' typeName' : String) :
    (context maxDepth [low signature typeName, high signature' typeName']).Calls ()
      (low signature typeName) (high signature' typeName') := by
  have hsteady : (context maxDepth [low signature typeName,
      high signature' typeName']).provider.StandsStill := SnapshotIndex.standsStill_provider _
  have hfound : SnapshotIndex.methodAt? (index [low signature typeName,
      high signature' typeName']).snapshot 0x20000 = some (high signature' typeName') := rfl
  have hother : (high signature' typeName').nativeCode ≠ 0x10000 := by
    simp [high]
  have hcalls := callsAt_low maxDepth [] _ signature typeName hfound hother
  exact (Context.calls_iff_callsAt hsteady).2 ⟨0x20000, hcalls⟩

end MutualCalls

end CodeListing
