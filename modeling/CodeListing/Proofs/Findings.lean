import CodeListing.Proofs.Queue
import CodeListing.Run

/-!
# What listing a method brings to light

Resolving a reference ends in one of four ways: a local label, a name that is known, nothing, or a
question to the runtime whose answer is added to the findings.  The lemmas named `_cases` say this
once for each operation, for every provider and whatever its state does.

From them follows what holds of every listing: names are only added and none is replaced, and every
callee lies one call further than the method it was found in.
-/

set_option autoImplicit false

namespace CodeListing

variable {σ : Type}

/-- A computation after another one starts in the state that the other one leaves. -/
theorem run_bind {α β : Type} (first : StateM σ α) (next : α → StateM σ β) (s : σ) :
    (first >>= next).run s = (next (first.run s).1).run (first.run s).2 := rfl

/-- Reading on in pieces depends on a provider by its reads only. -/
theorem Provider.readOn_congr {provider other : Provider σ} (h : provider.read = other.read)
    (start : UInt64) (offset missing : Nat) :
    provider.readOn start offset missing = other.readOn start offset missing := by
  induction missing using Nat.strongRecOn generalizing offset with
  | _ missing ih =>
    rw [readOn, readOn, h]
    split
    · rfl
    · refine bind_congr fun answer => ?_
      dsimp only
      split
      · rfl
      · rw [ih _ (by omega)]

/-- Every name of the first map is in the second one. -/
def NameMap.Within (before after : NameMap) : Prop :=
  ∀ address name, before.get? address = some name → after.get? address = some name

namespace NameMap

/-- Names lie within themselves. -/
theorem Within.refl (names : NameMap) : names.Within names :=
  fun _ _ h => h

/-- Names that lie within names that lie within others lie within these. -/
theorem Within.trans {first second third : NameMap} (h : first.Within second)
    (h' : second.Within third) : first.Within third :=
  fun address name hname => h' address name (h address name hname)

/-- An address without name had none before. -/
theorem Within.get?_eq_none {before after : NameMap} (h : before.Within after) {address : UInt64}
    (hnone : after.get? address = none) : before.get? address = none := by
  cases hname : before.get? address with
  | none => rfl
  | some name =>
    rw [h address name hname] at hnone
    cases hnone

/-- An insertion keeps the names that were there. -/
theorem within_insert (names : NameMap) (address : UInt64) (name : String) :
    names.Within (names.insert address name) := by
  intro other name' hname
  rw [get?_insert, hname, Option.some_or]

/-- The entries of a map are the names that it gives. -/
theorem mem_entries_iff {names : NameMap} {address : UInt64} {name : String} :
    (address, name) ∈ names.entries ↔ names.get? address = some name := by
  obtain ⟨entries, hascending⟩ := names
  show (address, name) ∈ entries ↔ entries.lookup address = some name
  induction entries with
  | nil => simp
  | cons head rest ih =>
    obtain ⟨other, name'⟩ := head
    obtain ⟨habove, hrest⟩ := List.pairwise_cons.1 hascending
    rw [List.mem_cons, List.lookup_cons]
    by_cases heq : address = other
    · subst heq
      -- The addresses ascend, so no entry further on is for this address.
      have hnot : (address, name) ∉ rest := fun hmem =>
        UInt64.ne_of_lt (habove _ hmem) rfl
      simp [hnot, eq_comm]
    · have hne : (address == other) = false := beq_eq_false_iff_ne.2 heq
      rw [hne, ← ih hrest]
      simp [heq]

/-- Names that lie within others have no entries of their own. -/
theorem Within.entries_subset {before after : NameMap} (h : before.Within after) :
    before.entries ⊆ after.entries := by
  rintro ⟨address, name⟩ hmem
  exact mem_entries_iff.2 (h address name (mem_entries_iff.1 hmem))

end NameMap

/-! ## One reference -/

section Resolve

variable {provider : Provider σ} {guard : UInt64} {current : Current} {isPrecode : Bool}
  {address : UInt64} {findings : Findings} {s : σ}

/-- An address in the method's own code gets a label. -/
theorem run_resolve_of_contains (h : current.contains address = true) :
    (resolve provider guard current isPrecode address findings).run s =
      ((some (localLabel (address - current.labelBase)), findings), s) := by
  unfold resolve
  rw [if_pos h]
  rfl

/-- An address outside that has a name keeps it. -/
theorem run_resolve_of_named {name : String} (hlocal : current.contains address = false)
    (hname : findings.names.get? address = some name) :
    (resolve provider guard current isPrecode address findings).run s =
      ((some name, findings), s) := by
  unfold resolve
  rw [hlocal, hname]
  rfl

/-- An address outside without name that does not pass the guard gets none. -/
theorem run_resolve_of_invalid (hlocal : current.contains address = false)
    (hunnamed : findings.names.get? address = none)
    (hinvalid : isValidAddress guard address = false) :
    (resolve provider guard current isPrecode address findings).run s = ((none, findings), s) := by
  unfold resolve
  rw [hlocal, hunnamed, hinvalid]
  rfl

/-- For any other address the runtime is asked, and what it says is added. -/
theorem run_resolve_of_unnamed (hlocal : current.contains address = false)
    (hunnamed : findings.names.get? address = none)
    (hvalid : isValidAddress guard address = true) :
    (resolve provider guard current isPrecode address findings).run s =
      (findings.add current isPrecode address ((identify provider guard address).run s).1,
        ((identify provider guard address).run s).2) := by
  unfold resolve
  rw [hlocal, hunnamed, hvalid]
  rfl

end Resolve

/-- The four ways in which a reference is resolved. -/
theorem resolve_cases (provider : Provider σ) (guard : UInt64) (current : Current)
    (isPrecode : Bool) (address : UInt64) (findings : Findings) (s : σ) :
    (current.contains address = true ∧
      (resolve provider guard current isPrecode address findings).run s =
        ((some (localLabel (address - current.labelBase)), findings), s)) ∨
    (current.contains address = false ∧ ∃ name, findings.names.get? address = some name ∧
      (resolve provider guard current isPrecode address findings).run s =
        ((some name, findings), s)) ∨
    (current.contains address = false ∧ findings.names.get? address = none ∧
      isValidAddress guard address = false ∧
      (resolve provider guard current isPrecode address findings).run s =
        ((none, findings), s)) ∨
    (current.contains address = false ∧ findings.names.get? address = none ∧
      isValidAddress guard address = true ∧
      (resolve provider guard current isPrecode address findings).run s =
        (findings.add current isPrecode address ((identify provider guard address).run s).1,
          ((identify provider guard address).run s).2)) := by
  cases hlocal : current.contains address with
  | true => exact Or.inl ⟨rfl, run_resolve_of_contains hlocal⟩
  | false =>
    right
    cases hname : findings.names.get? address with
    | some name => exact Or.inl ⟨rfl, name, rfl, run_resolve_of_named hlocal hname⟩
    | none =>
      right
      cases hvalid : isValidAddress guard address with
      | false => exact Or.inl ⟨rfl, rfl, rfl, run_resolve_of_invalid hlocal hname hvalid⟩
      | true => exact Or.inr ⟨rfl, rfl, rfl, run_resolve_of_unnamed hlocal hname hvalid⟩

namespace Context

/-- The three ways in which an instruction is annotated: it has no reference, its reference leads
nowhere above the threshold, or it is resolved where it leads. -/
theorem annotate_cases (context : Context σ) (current : Current) (instruction : Instruction)
    (findings : Findings) (s : σ) :
    (instruction.reference = none ∧
      (context.annotate current instruction findings).run s = ((instruction, findings), s)) ∨
    (∃ candidate, instruction.reference = some candidate ∧
      (∀ destination, ((context.destination? instruction candidate).run s).1 = some destination →
        ¬ context.settings.referenceThreshold < destination.address) ∧
      (context.annotate current instruction findings).run s =
        (({ instruction with reference := none }, findings),
          ((context.destination? instruction candidate).run s).2)) ∨
    (∃ candidate destination symbol findings' s',
      instruction.reference = some candidate ∧
      ((context.destination? instruction candidate).run s).1 = some destination ∧
      context.settings.referenceThreshold < destination.address ∧
      (resolve context.provider context.guard current destination.isPrecode destination.address
        findings).run ((context.destination? instruction candidate).run s).2 =
          ((symbol, findings'), s') ∧
      (context.annotate current instruction findings).run s =
        (({ instruction with reference := some destination.address, symbol }, findings'), s')) := by
  unfold annotate
  cases hreference : instruction.reference with
  | none => exact Or.inl ⟨rfl, rfl⟩
  | some candidate =>
    right
    rcases hfound : (context.destination? instruction candidate).run s with ⟨found, s'⟩
    simp only [run_bind, hfound]
    cases found with
    | none =>
      refine Or.inl ⟨candidate, rfl, ?_, ?_⟩
      · intro destination h
        rw [hfound] at h
        cases h
      · rw [hfound]
        rfl
    | some destination =>
      rw [Option.filter_some]
      by_cases habove : context.settings.referenceThreshold < destination.address
      · refine Or.inr ⟨candidate, destination, _, _, _, rfl, by rw [hfound], habove, rfl, ?_⟩
        rw [hfound, if_pos (decide_eq_true habove)]
        rfl
      · refine Or.inl ⟨candidate, rfl, ?_, ?_⟩
        · intro other h
          rw [hfound] at h
          cases h
          exact habove
        · rw [hfound, if_neg (by simpa using habove)]
          rfl

end Context

/-! ## Growing findings -/

/-- The findings keep their names and callees, and new callees lie one call beyond the depth. -/
structure Findings.Grows (depth : UInt32) (before after : Findings) : Prop where
  names : before.names.Within after.names
  callees : ∃ found, after.callees = before.callees ++ found ∧
    ∀ item ∈ found, item.depth = nextDepth depth

namespace Findings

/-- Findings grow into themselves. -/
theorem Grows.refl (depth : UInt32) (findings : Findings) : Grows depth findings findings :=
  ⟨NameMap.Within.refl _, [], by simp, by simp⟩

/-- Findings that grow twice grow. -/
theorem Grows.trans {depth : UInt32} {first second third : Findings}
    (h : Grows depth first second) (h' : Grows depth second third) : Grows depth first third := by
  obtain ⟨found, hfound, hdepth⟩ := h.callees
  obtain ⟨found', hfound', hdepth'⟩ := h'.callees
  refine ⟨h.names.trans h'.names, found ++ found', ?_, ?_⟩
  · rw [hfound', hfound, List.append_assoc]
  · intro item hitem
    rcases List.mem_append.1 hitem with hitem | hitem
    · exact hdepth item hitem
    · exact hdepth' item hitem

end Findings

/-- A callee lies one call further than the method it was found in. -/
theorem Finding.depth_of_callee? {current : Current} {finding : Finding} {item : WorkItem}
    (h : finding.callee? current = some item) : item.depth = nextDepth current.depth := by
  cases finding with
  | method found =>
    simp only [Finding.callee?] at h
    split at h
    · simp at h
    · simp only [Option.some.injEq] at h
      rw [← h]
  | helper | descriptor | table | nothing => simp [Finding.callee?] at h

/-- Only a method that is not the one being listed is a callee. -/
theorem Finding.eq_method_of_callee? {current : Current} {finding : Finding} {item : WorkItem}
    (h : finding.callee? current = some item) :
    finding = .method item.method ∧ item.method.identity ≠ current.method.identity := by
  cases finding with
  | method found =>
    simp only [Finding.callee?] at h
    split at h
    · simp at h
    · rename_i hne
      simp only [Option.some.injEq] at h
      subst h
      exact ⟨rfl, by simpa using hne⟩
  | helper | descriptor | table | nothing => simp [Finding.callee?] at h

/-- A method other than the one being listed is named. -/
theorem Finding.name?_method_of_ne {current : Current} {found : Method} (isPrecode : Bool)
    (h : found.identity ≠ current.method.identity) :
    (Finding.method found).name? current isPrecode = some found.displayName :=
  if_neg (by simpa using h)

/-- The callees after an addition were there before, or the finding gives them. -/
theorem Findings.mem_callees_add {findings : Findings} {current : Current} {isPrecode : Bool}
    {address : UInt64} {finding : Finding} {item : WorkItem}
    (h : item ∈ (findings.add current isPrecode address finding).2.callees) :
    item ∈ findings.callees ∨ finding.callee? current = some item := by
  unfold Findings.add at h
  cases hname : finding.name? current isPrecode with
  | none =>
    rw [hname] at h
    exact Or.inl h
  | some name =>
    rw [hname] at h
    rcases List.mem_append.1 h with h | h
    · exact Or.inl h
    · exact Or.inr (Option.mem_toList.1 h)

/-- A method that lives at an address was found there or through the pointer cell there. -/
theorem of_methodThrough?_eq_some {provider : Provider σ} {P : Method → Prop}
    (hfinds : ∀ address s method, ((provider.methodAt? address).run s).1 = some method → P method)
    {guard address : UInt64} {s : σ} {method : Method}
    (h : ((methodThrough? provider guard address).run s).1 = some method) : P method := by
  unfold methodThrough? at h
  rw [run_bind] at h
  cases hfound : ((provider.methodAt? address).run s).1 with
  | some found =>
    rw [hfound] at h
    cases h
    exact hfinds address s _ hfound
  | none =>
    rw [hfound] at h
    dsimp only at h
    split at h
    · cases h
    · rw [run_bind] at h
      split at h
      · split at h
        · exact hfinds _ _ _ h
        · cases h
      · cases h

/-- Every method that is identified has the property of all that the runtime finds. -/
theorem of_identify_eq_method {provider : Provider σ} {P : Method → Prop}
    (hfinds : ∀ address s method, ((provider.methodAt? address).run s).1 = some method → P method)
    {guard address : UInt64} {s : σ} {method : Method}
    (h : ((identify provider guard address).run s).1 = .method method) : P method := by
  unfold identify at h
  rw [run_bind] at h
  split at h
  · cases h
  · rw [run_bind] at h
    split at h
    · rename_i found hfound
      cases h
      exact of_methodThrough?_eq_some hfinds hfound
    · unfold structureAt at h
      rw [run_bind] at h
      split at h
      · cases h
      · rw [run_bind] at h
        split at h <;> cases h

/-- Findings grow by an addition. -/
theorem Findings.grows_add (findings : Findings) (current : Current) (isPrecode : Bool)
    (address : UInt64) (finding : Finding) :
    Grows current.depth findings (findings.add current isPrecode address finding).2 := by
  unfold Findings.add
  cases finding.name? current isPrecode with
  | none => exact Grows.refl _ _
  | some name =>
    refine ⟨NameMap.within_insert _ _ _, (finding.callee? current).toList, rfl, ?_⟩
    intro item hitem
    exact Finding.depth_of_callee? (Option.mem_toList.1 hitem)

/-! ## All instructions of a method -/

namespace Context

/-- Naming the references of instructions names that of the first one and then those of the rest. -/
theorem run_annotateAll_cons (context : Context σ) (current : Current) (instruction : Instruction)
    (rest : List Instruction) (findings : Findings) (s : σ) :
    (context.annotateAll current (instruction :: rest) findings).run s =
      let first := (context.annotate current instruction findings).run s
      let others := (context.annotateAll current rest first.1.2).run first.2
      ((first.1.1 :: others.1.1, others.1.2), others.2) := rfl

section Preserved

variable {context : Context σ} {current : Current} {I : Findings → Prop}
  (hadd : ∀ findings isPrecode address s, I findings →
    I (findings.add current isPrecode address
      ((identify context.provider context.guard address).run s).1).2)

include hadd

/-- What every addition keeps is kept when an address is resolved. -/
theorem resolve_preserves (isPrecode : Bool) (address : UInt64) {findings : Findings} (s : σ)
    (h : I findings) :
    I ((resolve context.provider context.guard current isPrecode address findings).run s).1.2 := by
  rcases resolve_cases context.provider context.guard current isPrecode address findings s with
    ⟨-, hrun⟩ | ⟨-, name, -, hrun⟩ | ⟨-, -, -, hrun⟩ | ⟨-, -, -, hrun⟩
  · rw [hrun]
    exact h
  · rw [hrun]
    exact h
  · rw [hrun]
    exact h
  · rw [hrun]
    exact hadd findings isPrecode address s h

/-- What every addition keeps is kept when the reference of an instruction is named. -/
theorem annotate_preserves (instruction : Instruction) {findings : Findings} (s : σ)
    (h : I findings) : I ((context.annotate current instruction findings).run s).1.2 := by
  rcases context.annotate_cases current instruction findings s with
    ⟨-, hrun⟩ | ⟨candidate, -, -, hrun⟩ | ⟨candidate, destination, _, _, _, -, -, -, hresolve, hrun⟩
  · rw [hrun]
    exact h
  · rw [hrun]
    exact h
  · have hafter := resolve_preserves hadd destination.isPrecode destination.address
      ((context.destination? instruction candidate).run s).2 h
    rw [hresolve] at hafter
    rw [hrun]
    exact hafter

/-- What every answer of the runtime preserves, annotating any instructions preserves. -/
theorem annotateAll_preserves (instructions : List Instruction) {findings : Findings} (s : σ)
    (h : I findings) : I ((context.annotateAll current instructions findings).run s).1.2 := by
  induction instructions generalizing findings s with
  | nil => exact h
  | cons instruction rest ih =>
    rw [run_annotateAll_cons]
    exact ih _ (annotate_preserves hadd instruction s h)

end Preserved

/-! ## The code that is read -/

/-- How ranges are read depends on a context by the reads of its provider only. -/
theorem readAll_congr {context other : Context σ}
    (h : context.provider.read = other.provider.read) (ranges : List CodeRange) :
    context.readAll ranges = other.readAll ranges := by
  induction ranges with
  | nil => rfl
  | cons range rest ih =>
    have hread : context.provider.readRange range = other.provider.readRange range := by
      simp only [Provider.readRange, Provider.readOn_congr h]
    simp only [readAll, ih, hread]

/-! ## One method -/

/-- The method of an item as the one that is being listed. -/
def currentOf (context : Context σ) (item : WorkItem) : Current :=
  ⟨item.method, context.rangesOf item.method, item.depth⟩

/-- The instructions of the code that was read, range by range. -/
def decodeAll (context : Context σ) (code : List (CodeRange × List UInt8)) : List Instruction :=
  code.flatMap fun (range, bytes) =>
    context.isa.decode context.decoders context.settings.referenceThreshold range.start bytes

/-- The listing of a method whose annotated instructions and source lines are known. -/
def listingOf (method : Method) (instructions : List Instruction) (lines : List SourceLine) :
    Listing where
  name := method.displayName
  nativeCode := method.nativeCode
  groups := Listing.groupsOf instructions lines
  problem := none

section ListMethod

variable {context : Context σ} {names : NameMap} {item : WorkItem} {s s' : σ}

/-- A method without code is not listed, for the reason why it has none. -/
theorem run_listMethod_of_unavailable {reason : String}
    (h : item.method.unavailableReason? = some reason) :
    (context.listMethod names item).run s = (problemOutcome item.method reason names, s) := by
  simp only [listMethod, h]
  rfl

/-- A method without valid ranges is not listed. -/
theorem run_listMethod_of_ranges_eq_nil (havailable : item.method.unavailableReason? = none)
    (hranges : context.rangesOf item.method = []) :
    (context.listMethod names item).run s =
      (problemOutcome item.method "No valid code ranges" names, s) := by
  simp only [listMethod, havailable, hranges]
  rfl

/-- A method whose code cannot be read is not listed, and the error is noted. -/
theorem run_listMethod_of_readAll_eq_error {error : Error}
    (havailable : item.method.unavailableReason? = none)
    (hranges : context.rangesOf item.method ≠ [])
    (hread : (context.readAll (context.rangesOf item.method)).run s = (.error error, s')) :
    (context.listMethod names item).run s =
      (problemOutcome item.method (readProblem item.method.displayName error) names
        (some (readProblem item.method.displayName error)), s') := by
  have hnonempty : ((context.rangesOf item.method).isEmpty = true) = False := by
    simpa using hranges
  simp only [listMethod, havailable, hnonempty, if_false, run_bind, hread]
  rfl

/-- A method whose code is read is listed with its decoded instructions and their names. -/
theorem run_listMethod_of_readAll_eq_ok {code : List (CodeRange × List UInt8)}
    (havailable : item.method.unavailableReason? = none)
    (hranges : context.rangesOf item.method ≠ [])
    (hread : (context.readAll (context.rangesOf item.method)).run s = (.ok code, s')) :
    (context.listMethod names item).run s =
      let annotated :=
        (context.annotateAll (context.currentOf item) (context.decodeAll code) { names }).run s'
      let lines := (context.sourceLines item.method).run annotated.2
      ({ listing := listingOf item.method annotated.1.1 lines.1, findings := annotated.1.2 },
        lines.2) := by
  have hnonempty : ((context.rangesOf item.method).isEmpty = true) = False := by
    simpa using hranges
  simp only [listMethod, havailable, hnonempty, if_false, run_bind, hread]
  rfl

end ListMethod

/-- The four ways in which a method is listed: the runtime has no code for it, its ranges are all
empty, a range cannot be read, or all its instructions are annotated, starting from the names known
before, and then its source lines are asked for. -/
theorem listMethod_cases (context : Context σ) (names : NameMap) (item : WorkItem) (s : σ) :
    (∃ reason, item.method.unavailableReason? = some reason ∧
      (context.listMethod names item).run s = (problemOutcome item.method reason names, s)) ∨
    (item.method.unavailableReason? = none ∧ context.rangesOf item.method = [] ∧
      (context.listMethod names item).run s =
        (problemOutcome item.method "No valid code ranges" names, s)) ∨
    (∃ error s', item.method.unavailableReason? = none ∧ context.rangesOf item.method ≠ [] ∧
      (context.readAll (context.rangesOf item.method)).run s = (.error error, s') ∧
      (context.listMethod names item).run s =
        (problemOutcome item.method (readProblem item.method.displayName error) names
          (some (readProblem item.method.displayName error)), s')) ∨
    (∃ code s' instructions findings s'',
      item.method.unavailableReason? = none ∧ context.rangesOf item.method ≠ [] ∧
      (context.readAll (context.rangesOf item.method)).run s = (.ok code, s') ∧
      (context.annotateAll (context.currentOf item) (context.decodeAll code) { names }).run s' =
        ((instructions, findings), s'') ∧
      (context.listMethod names item).run s =
        ({ listing := listingOf item.method instructions
            ((context.sourceLines item.method).run s'').1, findings },
          ((context.sourceLines item.method).run s'').2)) := by
  cases hreason : item.method.unavailableReason? with
  | some reason => exact Or.inl ⟨reason, rfl, run_listMethod_of_unavailable hreason⟩
  | none =>
    right
    by_cases hempty : context.rangesOf item.method = []
    · exact Or.inl ⟨rfl, hempty, run_listMethod_of_ranges_eq_nil hreason hempty⟩
    · right
      rcases hread : (context.readAll (context.rangesOf item.method)).run s with ⟨result, s'⟩
      cases result with
      | error error =>
        exact Or.inl ⟨error, s', rfl, hempty, rfl,
          run_listMethod_of_readAll_eq_error hreason hempty hread⟩
      | ok code =>
        exact Or.inr ⟨code, s', _, _, _, rfl, hempty, rfl, rfl,
          run_listMethod_of_readAll_eq_ok hreason hempty hread⟩

/-- Whether a method is listed without problem does not depend on its depth or on known names. -/
theorem problem_listMethod_eq_none_iff (context : Context σ) (names : NameMap) (item : WorkItem)
    (s : σ) :
    ((context.listMethod names item).run s).1.listing.problem = none ↔
      item.method.unavailableReason? = none ∧ context.rangesOf item.method ≠ [] ∧
        ∃ code, ((context.readAll (context.rangesOf item.method)).run s).1 = .ok code := by
  rcases context.listMethod_cases names item s with
    ⟨reason, hreason, h⟩ | ⟨-, hranges, h⟩ | ⟨error, s', -, -, hread, h⟩ |
    ⟨code, s', instructions, findings, s'', hreason, hranges, hread, -, h⟩
  · simp [h, hreason, problemOutcome, Listing.ofProblem]
  · simp [h, hranges, problemOutcome, Listing.ofProblem]
  · simp [h, hread, problemOutcome, Listing.ofProblem]
  · simp [h, hreason, hranges, hread, listingOf]

/-- Every error of a listing is its problem. -/
theorem error_listMethod_eq_none (context : Context σ) {names : NameMap} {item : WorkItem} {s : σ}
    (h : ((context.listMethod names item).run s).1.listing.problem = none) :
    ((context.listMethod names item).run s).1.error = none := by
  rcases context.listMethod_cases names item s with
    ⟨reason, -, hrun⟩ | ⟨-, -, hrun⟩ | ⟨error, s', -, -, -, hrun⟩ |
    ⟨code, s', instructions, findings, s'', -, -, -, -, hrun⟩
  · rw [hrun]
    rfl
  · rw [hrun]
    rfl
  · rw [hrun] at h
    cases h
  · rw [hrun]

/-- A listing carries the name and the address of its method. -/
theorem listing_listMethod (context : Context σ) (names : NameMap) (item : WorkItem) (s : σ) :
    ((context.listMethod names item).run s).1.listing.name = item.method.displayName ∧
      ((context.listMethod names item).run s).1.listing.nativeCode = item.method.nativeCode := by
  rcases context.listMethod_cases names item s with
    ⟨reason, -, h⟩ | ⟨-, -, h⟩ | ⟨error, s', -, -, -, h⟩ |
    ⟨code, s', instructions, findings, s'', -, -, -, -, h⟩
  all_goals
    rw [h]
    exact ⟨rfl, rfl⟩

/-- What holds of the names known before, and is preserved by every answer of the runtime, holds of
the findings of a listing. -/
theorem listMethod_preserves {context : Context σ} {item : WorkItem} {I : Findings → Prop}
    (hadd : ∀ findings isPrecode address s, I findings →
      I (findings.add (context.currentOf item) isPrecode address
        ((identify context.provider context.guard address).run s).1).2)
    {names : NameMap} (s : σ) (h : I { names }) :
    I ((context.listMethod names item).run s).1.findings := by
  rcases context.listMethod_cases names item s with
    ⟨reason, -, hrun⟩ | ⟨-, -, hrun⟩ | ⟨error, s', -, -, -, hrun⟩ |
    ⟨code, s', instructions, findings, s'', -, -, -, hannotate, hrun⟩
  · rw [hrun]
    exact h
  · rw [hrun]
    exact h
  · rw [hrun]
    exact h
  · have hafter := annotateAll_preserves hadd (context.decodeAll code) s' h
    rw [hannotate] at hafter
    rw [hrun]
    exact hafter

/-- Listing a method keeps the names known before and finds callees one call further. -/
theorem grows_listMethod (context : Context σ) (names : NameMap) (item : WorkItem) (s : σ) :
    Findings.Grows item.depth { names } ((context.listMethod names item).run s).1.findings := by
  refine listMethod_preserves ?_ s (.refl _ _)
  intro findings isPrecode address s h
  exact h.trans (findings.grows_add (context.currentOf item) _ _ _)

/-- Every callee that a listing finds lies one call further. -/
theorem depth_of_mem_callees (context : Context σ) (names : NameMap) (item : WorkItem) (s : σ) :
    ∀ callee ∈ ((context.listMethod names item).run s).1.findings.callees,
      callee.depth = nextDepth item.depth := by
  obtain ⟨found, hfound, hdepth⟩ := (context.grows_listMethod names item s).callees
  rw [hfound]
  exact hdepth

/-- If the runtime finds only methods with a property, all callees have it. -/
theorem forall_callee_listMethod {context : Context σ} {P : Method → Prop}
    (hfinds : ∀ address s method, ((context.provider.methodAt? address).run s).1 = some method →
      P method) (names : NameMap) (item : WorkItem) (s : σ) :
    ∀ callee ∈ ((context.listMethod names item).run s).1.findings.callees, P callee.method := by
  refine listMethod_preserves
    (I := fun findings => ∀ callee ∈ findings.callees, P callee.method) ?_ s (by simp)
  intro findings isPrecode address s h callee hcallee
  rcases Findings.mem_callees_add hcallee with hcallee | hcallee
  · exact h callee hcallee
  · exact of_identify_eq_method hfinds (Finding.eq_method_of_callee? hcallee).1

end Context

end CodeListing
