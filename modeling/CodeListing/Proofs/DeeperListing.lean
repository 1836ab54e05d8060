import CodeListing.Proofs.CallGraph
import CodeListing.Proofs.Queue
import CodeListing.Proofs.SourceStates

/-!
# Listing a method one call deeper

A method is listed alike one call deeper and with more names known, as long as these are names that
the runtime would give in any case.  `NameMap.Ahead` says of two maps that the second one knows one
name more, for chosen addresses at all of which the runtime finds one method (`Context.Finds`).
Listing any method then gives the same listing, but for source lines that depend on what was asked
before, the same error, and the same callees one call deeper, but for that one method, which need
not be found again (`Context.alike_listMethod`).
-/

set_option autoImplicit false

namespace CodeListing

variable {σ : Type}

/-! ## One call deeper -/

/-- The item one call deeper. -/
def WorkItem.deeper (item : WorkItem) : WorkItem :=
  { item with depth := nextDepth item.depth }

/-- An item one call deeper stands for the same method. -/
@[simp] theorem WorkItem.identity_deeper (item : WorkItem) :
    item.deeper.identity = item.identity := rfl

/-- The method being listed one call deeper. -/
def Current.deeper (current : Current) : Current :=
  { current with depth := nextDepth current.depth }

namespace Finding

/-- The name that a finding gives does not depend on the depth. -/
theorem name?_deeper (finding : Finding) (current : Current) (isPrecode : Bool) :
    finding.name? current.deeper isPrecode = finding.name? current isPrecode := by
  cases finding <;> rfl

/-- The callee of a finding lies one call deeper if the method that is listed does. -/
theorem callee?_deeper (finding : Finding) (current : Current) :
    finding.callee? current.deeper = (finding.callee? current).map WorkItem.deeper := by
  cases finding with
  | method found =>
    by_cases hsame : (found.identity == current.method.identity) = true
    · simp [callee?, Current.deeper, hsame]
    · simp [callee?, Current.deeper, WorkItem.deeper, hsame]
  | helper | descriptor | table | nothing => rfl

end Finding

/-! ## The same listings -/

/-- The second map gives one name to all chosen addresses, where the first one has that name or
none, and agrees with the first one on all others. -/
structure NameMap.Ahead (chosen : UInt64 → Prop) (name : String) (names ahead : NameMap) :
    Prop where
  onChosen : ∀ address, chosen address → ahead.get? address = some name ∧
    (names.get? address = none ∨ names.get? address = some name)
  elsewhere : ∀ address, ¬ chosen address → ahead.get? address = names.get? address

namespace NameMap.Ahead

variable {chosen : UInt64 → Prop} {name : String} {names ahead : NameMap} {address : UInt64}

/-- The first map may learn the name at chosen addresses. -/
theorem learn (h : Ahead chosen name names ahead) {more : NameMap}
    (hmore : ∀ address, more.get? address = names.get? address ∨
      chosen address ∧ more.get? address = some name) :
    Ahead chosen name more ahead := by
  constructor
  · intro address hchosen
    obtain ⟨hahead, hnames⟩ := h.onChosen address hchosen
    refine ⟨hahead, ?_⟩
    rcases hmore address with hsame | ⟨-, hlearned⟩
    · rw [hsame]
      exact hnames
    · exact Or.inr hlearned
  · intro address hother
    rcases hmore address with hsame | ⟨hchosen, -⟩
    · rw [hsame]
      exact h.elsewhere address hother
    · exact absurd hchosen hother

/-- The map stays ahead if a chosen address gets a name in the other one only. -/
theorem insert_chosen (h : Ahead chosen name names ahead) (haddress : chosen address)
    (hunnamed : names.get? address = none) :
    Ahead chosen name (names.insert address name) ahead := by
  refine h.learn fun other => ?_
  rw [get?_insert]
  by_cases hsame : other = address
  · subst hsame
    exact Or.inr ⟨haddress, by simp [hunnamed]⟩
  · simp [hsame]

/-- The map stays ahead if both get the same name for an address that is not chosen. -/
theorem insert_other (h : Ahead chosen name names ahead) (haddress : ¬ chosen address)
    (name' : String) :
    Ahead chosen name (names.insert address name') (ahead.insert address name') := by
  constructor
  · intro other hother
    obtain ⟨hahead, hnames⟩ := h.onChosen other hother
    have hdifferent : other ≠ address := fun hsame => haddress (hsame ▸ hother)
    rw [get?_insert, get?_insert, if_neg hdifferent, Option.or_none, Option.or_none]
    exact ⟨hahead, hnames⟩
  · intro other hother
    rw [get?_insert, get?_insert, h.elsewhere other hother]

end NameMap.Ahead

/-- The second findings know one name more for the chosen addresses, and have the same callees one
call deeper, but for the entry. -/
structure Findings.Alike (chosen : UInt64 → Prop) (entry : Method) (direct through : Findings) :
    Prop where
  names : NameMap.Ahead chosen entry.displayName direct.names through.names
  callees : through.callees.filter (·.identity != entry.identity) =
    (direct.callees.filter (·.identity != entry.identity)).map WorkItem.deeper

/-- Adding what the runtime says about an address that is not chosen. -/
theorem Findings.Alike.add {chosen : UInt64 → Prop} {entry : Method} {direct through : Findings}
    (h : Alike chosen entry direct through) (current : Current) (isPrecode : Bool)
    {address : UInt64} (haddress : ¬ chosen address) (finding : Finding) :
    (direct.add current isPrecode address finding).1 =
        (through.add current.deeper isPrecode address finding).1 ∧
      Alike chosen entry (direct.add current isPrecode address finding).2
        (through.add current.deeper isPrecode address finding).2 := by
  unfold Findings.add
  rw [Finding.name?_deeper, Finding.callee?_deeper]
  cases finding.name? current isPrecode with
  | none => exact ⟨rfl, h⟩
  | some name =>
    refine ⟨rfl, h.names.insert_other haddress name, ?_⟩
    simp only [List.filter_append, List.map_append, h.callees, Option.toList_map]
    rw [List.filter_map]
    rfl

/-- At every chosen address the runtime finds the entry. -/
structure Context.Finds (context : Context σ) (s : σ) (chosen : UInt64 → Prop) (entry : Method) :
    Prop where
  within : ∀ address, chosen address →
    (context.provider.codeRanges entry).any (·.contains address) = true
  valid : ∀ address, chosen address → isValidAddress context.guard address = true
  finding : ∀ address, chosen address → context.findingAt s address = .method entry

namespace Context

section Alike

variable {context : Context σ} {s : σ} {chosen : UInt64 → Prop} {entry : Method}
  {direct through : Findings} {current : Current}
  (hsteady : context.provider.StandsStill) (hfinds : context.Finds s chosen entry)
  (hself : ∀ address, chosen address → current.contains address = false →
    entry.identity ≠ current.method.identity)

include hfinds hself

/-- Resolving an address one call deeper gives the same name and findings that are alike. -/
theorem alike_resolve (isPrecode : Bool) (address : UInt64)
    (h : Findings.Alike chosen entry direct through) :
    ((resolve context.provider context.guard current isPrecode address direct).run s).1.1 =
        ((resolve context.provider context.guard current.deeper isPrecode address
          through).run s).1.1 ∧
      Findings.Alike chosen entry
        ((resolve context.provider context.guard current isPrecode address direct).run s).1.2
        ((resolve context.provider context.guard current.deeper isPrecode address
          through).run s).1.2 := by
  cases hlocal : current.contains address with
  | true =>
    have hlocal' : current.deeper.contains address = true := hlocal
    rw [run_resolve_of_contains hlocal, run_resolve_of_contains hlocal']
    exact ⟨rfl, h⟩
  | false =>
    have hlocal' : current.deeper.contains address = false := hlocal
    by_cases hchosen : chosen address
    · -- One run knows the name.  The other one knows it too or is told the same.
      obtain ⟨hahead, hnames⟩ := h.names.onChosen address hchosen
      rw [run_resolve_of_named hlocal' hahead]
      rcases hnames with hunnamed | hnamed
      · rw [run_resolve_of_unnamed hlocal hunnamed (hfinds.valid address hchosen)]
        have hfinding : ((identify context.provider context.guard address).run s).1 =
            .method entry := hfinds.finding address hchosen
        have hother := hself address hchosen hlocal
        have hcallee : (Finding.method entry).callee? current =
            some ⟨entry, nextDepth current.depth⟩ := if_neg (by simpa using hother)
        rw [hfinding]
        unfold Findings.add
        rw [Finding.name?_method_of_ne isPrecode hother, hcallee]
        refine ⟨rfl, h.names.insert_chosen hchosen hunnamed, ?_⟩
        rw [List.filter_append, h.callees]
        simp [WorkItem.identity]
      · rw [run_resolve_of_named hlocal hnamed]
        exact ⟨rfl, h⟩
    · have hsame := h.names.elsewhere address hchosen
      cases hname : direct.names.get? address with
      | some name =>
        rw [run_resolve_of_named hlocal hname, run_resolve_of_named hlocal' (hsame.trans hname)]
        exact ⟨rfl, h⟩
      | none =>
        have hname' := hsame.trans hname
        cases hvalid : isValidAddress context.guard address with
        | false =>
          rw [run_resolve_of_invalid hlocal hname hvalid,
            run_resolve_of_invalid hlocal' hname' hvalid]
          exact ⟨rfl, h⟩
        | true =>
          rw [run_resolve_of_unnamed hlocal hname hvalid,
            run_resolve_of_unnamed hlocal' hname' hvalid]
          exact h.add current isPrecode hchosen _

include hsteady

/-- Naming the reference of an instruction one call deeper gives the same instruction and findings
that are alike. -/
theorem alike_annotate (instruction : Instruction)
    (h : Findings.Alike chosen entry direct through) :
    ((context.annotate current instruction direct).run s).1.1 =
        ((context.annotate current.deeper instruction through).run s).1.1 ∧
      Findings.Alike chosen entry ((context.annotate current instruction direct).run s).1.2
        ((context.annotate current.deeper instruction through).run s).1.2 := by
  unfold annotate
  cases instruction.reference with
  | none => exact ⟨rfl, h⟩
  | some candidate =>
    dsimp only
    rw [(steady_destination? hsteady instruction candidate).run_bind,
      (steady_destination? hsteady instruction candidate).run_bind]
    cases (((context.destination? instruction candidate).run s).1.filter fun destination =>
      context.settings.referenceThreshold < destination.address) with
    | none => exact ⟨rfl, h⟩
    | some destination =>
      obtain ⟨hsymbol, halike⟩ :=
        alike_resolve hfinds hself destination.isPrecode destination.address h
      dsimp only
      rw [run_bind, run_bind]
      refine ⟨?_, halike⟩
      show ({ instruction with reference := _, symbol := _ } : Instruction) = _
      rw [hsymbol]
      rfl

/-- Naming the references of instructions one call deeper gives the same instructions and findings
that are alike. -/
theorem alike_annotateAll (instructions : List Instruction)
    (h : Findings.Alike chosen entry direct through) :
    ((context.annotateAll current instructions direct).run s).1.1 =
        ((context.annotateAll current.deeper instructions through).run s).1.1 ∧
      Findings.Alike chosen entry ((context.annotateAll current instructions direct).run s).1.2
        ((context.annotateAll current.deeper instructions through).run s).1.2 := by
  induction instructions generalizing direct through with
  | nil => exact ⟨rfl, h⟩
  | cons instruction rest ih =>
    obtain ⟨hfirst, halike⟩ := alike_annotate hsteady hfinds hself instruction h
    obtain ⟨hrest, halike'⟩ := ih halike
    have hs : ((context.annotate current instruction direct).run s).2 = s :=
      (steady_annotate hsteady current instruction direct).snd_run s
    have hs' : ((context.annotate current.deeper instruction through).run s).2 = s :=
      (steady_annotate hsteady current.deeper instruction through).snd_run s
    rw [run_annotateAll_cons, run_annotateAll_cons]
    dsimp only
    rw [hs, hs', hfirst, hrest]
    exact ⟨rfl, halike'⟩

end Alike

/-- A method is listed alike in both runs, whatever source lines they have asked for before, and
brings alike findings. -/
theorem alike_listMethod {context : Context σ} {s t t' : σ} {chosen : UInt64 → Prop}
    {entry : Method} (hsteady : context.provider.StandsStill)
    (hfinds : context.Finds s chosen entry) {item : WorkItem}
    (hself : item.method ≠ entry → entry.identity ≠ item.method.identity)
    {names ahead : NameMap} (h : NameMap.Ahead chosen entry.displayName names ahead)
    (ht : context.Asked s t) (ht' : context.Asked s t') :
    context.ListedAlike s ((context.listMethod names item).run t).1.listing
        ((context.listMethod ahead item.deeper).run t').1.listing ∧
      ((context.listMethod names item).run t).1.error =
        ((context.listMethod ahead item.deeper).run t').1.error ∧
      Findings.Alike chosen entry ((context.listMethod names item).run t).1.findings
        ((context.listMethod ahead item.deeper).run t').1.findings := by
  have hstart : Findings.Alike chosen entry { names } { names := ahead } := ⟨h, rfl⟩
  -- A chosen address lies in the entry's code, so it is local where the entry is listed.
  have hself' : ∀ address, chosen address →
      (context.currentOf item).contains address = false →
      entry.identity ≠ (context.currentOf item).method.identity := by
    intro address hchosen houtside
    refine hself ?_
    intro hentry
    have hlocal : (context.currentOf item).contains address =
        (context.provider.codeRanges item.method).any (·.contains address) :=
      context.any_contains_rangesOf item.method address
    rw [hlocal, hentry, hfinds.within address hchosen] at houtside
    cases houtside
  -- All but the source lines is the same at all states, so it is compared at the state `s`.
  have hreads := steady_readAll hsteady (context.rangesOf item.method)
  rcases context.listMethod_cases names item s with
    ⟨reason, hreason, -⟩ | ⟨havailable, hranges, -⟩ |
    ⟨error, s', havailable, hranges, hread, -⟩ |
    ⟨code, s', _, _, _, havailable, hranges, hread, -, -⟩
  · have hreason' : item.deeper.method.unavailableReason? = some reason := hreason
    rw [run_listMethod_of_unavailable hreason, run_listMethod_of_unavailable hreason']
    exact ⟨.refl _ _ _, rfl, hstart⟩
  · have havailable' : item.deeper.method.unavailableReason? = none := havailable
    rw [run_listMethod_of_ranges_eq_nil havailable hranges,
      run_listMethod_of_ranges_eq_nil havailable' hranges]
    exact ⟨.refl _ _ _, rfl, hstart⟩
  · have havailable' : item.deeper.method.unavailableReason? = none := havailable
    have hread' : ∀ r, (context.readAll (context.rangesOf item.method)).run r =
        (.error error, r) := fun r => by rw [hreads r s, hread]
    rw [run_listMethod_of_readAll_eq_error havailable hranges (hread' t),
      run_listMethod_of_readAll_eq_error havailable' hranges (hread' t')]
    exact ⟨.refl _ _ _, rfl, hstart⟩
  · have havailable' : item.deeper.method.unavailableReason? = none := havailable
    have hread' : ∀ r, (context.readAll (context.rangesOf item.method)).run r =
        (.ok code, r) := fun r => by rw [hreads r s, hread]
    obtain ⟨hinstructions, halike⟩ :=
      alike_annotateAll hsteady hfinds hself' (context.decodeAll code) hstart
    have hannotate := steady_annotateAll hsteady (context.currentOf item)
      (context.decodeAll code) { names } t s
    have hannotate' : (context.annotateAll (context.currentOf item.deeper)
        (context.decodeAll code) { names := ahead }).run t' =
        (((context.annotateAll (context.currentOf item).deeper
          (context.decodeAll code) { names := ahead }).run s).1, t') :=
      steady_annotateAll hsteady _ _ _ t' s
    rw [run_listMethod_of_readAll_eq_ok havailable hranges (hread' t), hannotate,
      run_listMethod_of_readAll_eq_ok havailable' hranges (hread' t'), hannotate']
    dsimp only
    rw [hinstructions]
    exact ⟨listedAlike_listingOf ht ht' item.method _, rfl, halike⟩

end Context

end CodeListing
