import CodeListing.Proofs.Findings
import CodeListing.Snapshot.Index

/-!
# Runtimes that stand still

A computation is steady if its answer is the same at all states and it leaves every state as it is.
A provider stands still if all of its questions are steady.  Everything that is computed with such a
provider is steady too, so no answer depends on when it is asked for.  A snapshot stands still.

The source lines of a method are found by a locator, which may well depend on the state and change
it.  So listing a method is not steady, but all that depends on the state are its source lines
(`Context.listMethod_cases_of_standsStill`).
-/

set_option autoImplicit false

namespace CodeListing

variable {σ : Type}

/-- The computation gives the same answer at all states and leaves the state as it is. -/
def Steady {α : Type} (computation : StateM σ α) : Prop :=
  ∀ s t, computation.run s = ((computation.run t).1, s)

namespace Steady

variable {α β : Type}

/-- A computation that only returns is steady. -/
theorem pure (a : α) : Steady (Pure.pure a : StateM σ α) := fun _ _ => rfl

/-- A steady computation leaves the state as it is. -/
theorem snd_run {computation : StateM σ α} (h : Steady computation) (s : σ) :
    (computation.run s).2 = s := by
  rw [h s s]

/-- The answer of a steady computation is the same at any two states. -/
theorem fst_run_eq {computation : StateM σ α} (h : Steady computation) (s t : σ) :
    (computation.run s).1 = (computation.run t).1 := by
  rw [h s t]

/-- After a steady computation, the next one starts in the same state. -/
theorem run_bind {first : StateM σ α} (h : Steady first) (next : α → StateM σ β) (s : σ) :
    (first >>= next).run s = (next (first.run s).1).run s := by
  rw [CodeListing.run_bind, h.snd_run]

/-- Two steady computations one after the other are steady. -/
theorem bind {first : StateM σ α} {next : α → StateM σ β} (h : Steady first)
    (hnext : ∀ a, Steady (next a)) : Steady (first >>= next) := by
  intro s t
  rw [h.run_bind, h.run_bind, h.fst_run_eq s t]
  exact hnext _ s t

/-- A choice between steady computations is steady. -/
theorem ite {condition : Prop} [Decidable condition] {yes no : StateM σ α} (hyes : Steady yes)
    (hno : Steady no) : Steady (if condition then yes else no) := by
  split
  · exact hyes
  · exact hno

end Steady

namespace Provider

/-- No answer of the provider depends on the state, and no question changes it. -/
structure StandsStill (provider : Provider σ) : Prop where
  read : ∀ address count, Steady (provider.read address count)
  flush : Steady provider.flush
  helperName? : ∀ address, Steady (provider.helperName? address)
  methodAt? : ∀ address, Steady (provider.methodAt? address)
  methodOfDescriptor? : ∀ address, Steady (provider.methodOfDescriptor? address)
  tableName? : ∀ address, Steady (provider.tableName? address)

variable {provider : Provider σ}

/-! ## Reading -/

/-- While the runtime stands still, exact reads are steady. -/
theorem StandsStill.readExact (h : provider.StandsStill) (address : UInt64) (length : Nat) :
    Steady (provider.readExact address length) :=
  .bind (h.read address length) fun _ => .pure _

/-- While the runtime stands still, reading a pointer is steady. -/
theorem StandsStill.readPointer (h : provider.StandsStill) (address : UInt64) :
    Steady (provider.readPointer address) :=
  .bind (h.readExact address provider.pointerSize) fun _ => .pure _

/-- While the runtime stands still, reading a window is steady. -/
theorem StandsStill.readWindow (h : provider.StandsStill) (address : UInt64) (length : Nat) :
    Steady (provider.readWindow address length) := by
  unfold Provider.readWindow
  refine .bind (h.read address length) fun _ => .ite ?_ (.pure _)
  exact .bind h.flush fun _ => h.readExact address length

/-- While the runtime stands still, reading on in pieces is steady. -/
theorem StandsStill.readOn (h : provider.StandsStill) (start : UInt64) (offset missing : Nat) :
    Steady (provider.readOn start offset missing) := by
  induction missing using Nat.strongRecOn generalizing offset with
  | _ missing ih =>
    rw [Provider.readOn]
    split
    · exact .pure _
    · refine .bind (h.read _ _) fun answer => ?_
      dsimp only
      split
      · exact .pure _
      · rename_i hmissing hpiece
        refine .bind (ih _ ?_ _) fun _ => .pure _
        omega

/-- While the runtime stands still, reading a range is steady. -/
theorem StandsStill.readRange (h : provider.StandsStill) (range : CodeRange) :
    Steady (provider.readRange range) :=
  .bind (h.readOn _ _ _) fun _ => .ite (.pure _) (.pure _)

/-! ## Following and identifying -/

/-- While the runtime stands still, the search for a template is steady. -/
theorem StandsStill.templateAt? (h : provider.StandsStill) (address : UInt64) (mayFlush : Bool)
    (templates : List StubTemplate) :
    Steady (Stub.templateAt? provider address mayFlush templates) := by
  induction templates generalizing mayFlush with
  | nil => exact .pure _
  | cons template others ih =>
    unfold Stub.templateAt?
    refine .ite ?_ ?_
    · exact .bind (h.readWindow _ _) fun _ => .ite (.pure _) (ih false)
    · exact .bind (h.readExact _ _) fun _ => .ite (.pure _) (ih false)

/-- While the runtime stands still, following a cell is steady. -/
theorem StandsStill.follow (h : provider.StandsStill) (templates : List StubTemplate)
    (reusesStubs : Bool) (cell : UInt64) :
    Steady (Stub.follow provider templates reusesStubs cell) := by
  unfold Stub.follow
  refine .bind (h.readPointer cell) fun candidate => ?_
  cases candidate with
  | none => exact .pure _
  | some candidate =>
    refine .ite (.pure _) (.bind (h.templateAt? candidate true templates) fun template => ?_)
    cases template with
    | none => exact .pure _
    | some template => exact .bind (h.readPointer _) fun _ => .pure _

/-- While the runtime stands still, the search for a method is steady. -/
theorem StandsStill.methodThrough? (h : provider.StandsStill) (guard address : UInt64) :
    Steady (methodThrough? provider guard address) := by
  unfold CodeListing.methodThrough?
  refine .bind (h.methodAt? address) fun found => ?_
  cases found with
  | some method => exact .pure _
  | none =>
    refine .ite (.pure _) (.bind (h.readPointer address) fun target => ?_)
    cases target with
    | none => exact .pure _
    | some target => exact .ite (h.methodAt? target) (.pure _)

/-- While the runtime stands still, the search for a descriptor or a table is steady. -/
theorem StandsStill.structureAt (h : provider.StandsStill) (address : UInt64) :
    Steady (structureAt provider address) := by
  unfold CodeListing.structureAt
  refine .bind (h.methodOfDescriptor? address) fun found => ?_
  cases found with
  | some method => exact .pure _
  | none =>
    refine .bind (h.tableName? address) fun name => ?_
    cases nonEmpty? name with
    | some name => exact .pure _
    | none => exact .pure _

/-- While the runtime stands still, the search for what lies at an address is steady. -/
theorem StandsStill.identify (h : provider.StandsStill) (guard address : UInt64) :
    Steady (identify provider guard address) := by
  unfold CodeListing.identify
  refine .bind (h.helperName? address) fun name => ?_
  cases nonEmpty? name with
  | some name => exact .pure _
  | none =>
    refine .bind (h.methodThrough? guard address) fun found => ?_
    cases found with
    | some method => exact .pure _
    | none => exact h.structureAt address

/-- While the runtime stands still, resolving an address is steady. -/
theorem StandsStill.resolve (h : provider.StandsStill) (guard : UInt64) (current : Current)
    (isPrecode : Bool) (address : UInt64) (findings : Findings) :
    Steady (resolve provider guard current isPrecode address findings) := by
  unfold CodeListing.resolve
  refine .ite (.pure _) ?_
  cases findings.names.get? address with
  | some name => exact .pure _
  | none => exact .ite (.bind (h.identify guard address) fun _ => .pure _) (.pure _)

end Provider

/-! ## Listing -/

namespace Context

variable {context : Context σ}

/-- While the runtime stands still, finding where an instruction leads to is steady. -/
theorem steady_destination? (h : context.provider.StandsStill) (instruction : Instruction)
    (candidate : UInt64) : Steady (context.destination? instruction candidate) :=
  .ite (h.follow _ _ _) (.pure _)

/-- While the runtime stands still, naming the reference of an instruction is steady. -/
theorem steady_annotate (h : context.provider.StandsStill) (current : Current)
    (instruction : Instruction) (findings : Findings) :
    Steady (context.annotate current instruction findings) := by
  unfold annotate
  cases instruction.reference with
  | none => exact .pure _
  | some candidate =>
    refine .bind (steady_destination? h instruction candidate) fun destination => ?_
    cases destination.filter fun d => context.settings.referenceThreshold < d.address with
    | none => exact .pure _
    | some destination => exact .bind (h.resolve _ _ _ _ _) fun _ => .pure _

/-- While the runtime stands still, naming references is steady. -/
theorem steady_annotateAll (h : context.provider.StandsStill) (current : Current)
    (instructions : List Instruction) (findings : Findings) :
    Steady (context.annotateAll current instructions findings) := by
  induction instructions generalizing findings with
  | nil => exact .pure _
  | cons instruction rest ih =>
    unfold annotateAll
    refine .bind (steady_annotate h current instruction findings) fun _ => ?_
    exact .bind (ih _) fun _ => .pure _

/-- While the runtime stands still, reading all ranges is steady. -/
theorem steady_readAll (h : context.provider.StandsStill) (ranges : List CodeRange) :
    Steady (context.readAll ranges) := by
  induction ranges with
  | nil => exact .pure _
  | cons range rest ih =>
    unfold readAll
    refine .bind (h.readRange range) fun bytes => ?_
    cases bytes with
    | error e => exact .pure _
    | ok bytes =>
      refine .bind ih fun others => ?_
      cases others with
      | error e => exact .pure _
      | ok others => exact .pure _

/-- While the runtime stands still, a method is left out with the same problem at all states, which
are left as they are, or the same instructions are annotated with the same findings at all states,
and then its source lines are asked for. -/
theorem listMethod_cases_of_standsStill (h : context.provider.StandsStill) (names : NameMap)
    (item : WorkItem) (t : σ) :
    (∃ outcome, outcome.listing.problem ≠ none ∧
      ∀ s, (context.listMethod names item).run s = (outcome, s)) ∨
    (∃ instructions findings, ∀ s, (context.listMethod names item).run s =
      ({ listing := listingOf item.method instructions
          ((context.sourceLines item.method).run s).1, findings },
        ((context.sourceLines item.method).run s).2)) := by
  cases hreason : item.method.unavailableReason? with
  | some reason =>
    exact Or.inl ⟨_, Option.some_ne_none _, fun s => run_listMethod_of_unavailable hreason⟩
  | none =>
    by_cases hranges : context.rangesOf item.method = []
    · exact Or.inl ⟨_, Option.some_ne_none _,
        fun s => run_listMethod_of_ranges_eq_nil hreason hranges⟩
    · have hread := fun s => steady_readAll h (context.rangesOf item.method) s t
      cases hresult : ((context.readAll (context.rangesOf item.method)).run t).1 with
      | error error =>
        rw [hresult] at hread
        exact Or.inl ⟨_, Option.some_ne_none _,
          fun s => run_listMethod_of_readAll_eq_error hreason hranges (hread s)⟩
      | ok code =>
        rw [hresult] at hread
        have hannotate := fun s =>
          steady_annotateAll h (context.currentOf item) (context.decodeAll code) { names } s t
        rcases hannotated : ((context.annotateAll (context.currentOf item)
          (context.decodeAll code) { names }).run t).1 with ⟨instructions, findings⟩
        rw [hannotated] at hannotate
        refine Or.inr ⟨instructions, findings, fun s => ?_⟩
        rw [run_listMethod_of_readAll_eq_ok hreason hranges (hread s), hannotate s]

/-- While the runtime stands still, the findings of a listing do not depend on the state. -/
theorem findings_listMethod_eq (h : context.provider.StandsStill) (names : NameMap)
    (item : WorkItem) (s t : σ) :
    ((context.listMethod names item).run s).1.findings =
      ((context.listMethod names item).run t).1.findings := by
  rcases listMethod_cases_of_standsStill h names item s with
    ⟨outcome, -, hrun⟩ | ⟨instructions, findings, hrun⟩
  · rw [hrun, hrun]
  · rw [hrun, hrun]

/-- While the runtime stands still, the problem of a listing does not depend on the state. -/
theorem problem_listMethod_eq (h : context.provider.StandsStill) (names : NameMap)
    (item : WorkItem) (s t : σ) :
    ((context.listMethod names item).run s).1.listing.problem =
      ((context.listMethod names item).run t).1.listing.problem := by
  rcases listMethod_cases_of_standsStill h names item s with
    ⟨outcome, -, hrun⟩ | ⟨instructions, findings, hrun⟩
  · rw [hrun, hrun]
  · rw [hrun, hrun]
    rfl

end Context

/-! ## Snapshots -/

/-- A snapshot stands still. -/
theorem SnapshotIndex.standsStill_provider (index : SnapshotIndex) :
    (index.provider σ).StandsStill where
  read _ _ := .pure _
  flush := .pure _
  helperName? _ := .pure _
  methodAt? _ := .pure _
  methodOfDescriptor? _ := .pure _
  tableName? _ := .pure _

/-- A snapshot finds only methods of its own. -/
theorem SnapshotIndex.mem_methods_of_methodAt? (index : SnapshotIndex) (address : UInt64) (s : σ)
    (method : Method) (h : (((index.provider σ).methodAt? address).run s).1 = some method) :
    method ∈ index.snapshot.methods :=
  List.mem_of_find?_eq_some h

end CodeListing
