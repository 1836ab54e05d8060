import CodeListing.Proofs.CallGraph
import CodeListing.Proofs.Visits
import CodeListing.Provider.Instrument

/-!
# References are resolved once

Resolving a reference either changes nothing, or it gives a name to one address and queues at most
one callee.  A listing gathers what its references bring to light and hands it to the run at its
end.  That is as good as to name and queue at once (`RunState.run_annotateAll`), so one reference
can be looked at by itself, in any state of a run.

Names are never replaced, whatever happens in a run, so an address that was resolved once keeps its
name.  From then on it is answered from the names alone, for every method that it lies outside of.
-/

set_option autoImplicit false

namespace CodeListing

variable {σ τ : Type}

/-! ## One reference in a run -/

/-- Callees that were found before stay in front, and nothing else depends on them. -/
theorem run_resolve_callees (provider : Provider σ) (guard : UInt64) (current : Current)
    (isPrecode : Bool) (address : UInt64) (findings : Findings) (s : σ) :
    (resolve provider guard current isPrecode address findings).run s =
      let found :=
        (resolve provider guard current isPrecode address { names := findings.names }).run s
      ((found.1.1, ⟨found.1.2.names, findings.callees ++ found.1.2.callees⟩), found.2) := by
  obtain ⟨names, callees⟩ := findings
  rcases resolve_cases provider guard current isPrecode address { names } s with
    ⟨hlocal, hrun⟩ | ⟨houtside, name, hname, hrun⟩ | ⟨houtside, hunnamed, hinvalid, hrun⟩ |
    ⟨houtside, hunnamed, hvalid, hrun⟩
  · have hafter : (resolve provider guard current isPrecode address ⟨names, callees⟩).run s =
        ((some (localLabel (address - current.labelBase)), ⟨names, callees⟩), s) :=
      run_resolve_of_contains hlocal
    rw [hrun, hafter]
    simp
  · have hafter : (resolve provider guard current isPrecode address ⟨names, callees⟩).run s =
        ((some name, ⟨names, callees⟩), s) := run_resolve_of_named houtside hname
    rw [hrun, hafter]
    simp
  · have hafter : (resolve provider guard current isPrecode address ⟨names, callees⟩).run s =
        ((none, ⟨names, callees⟩), s) := run_resolve_of_invalid houtside hunnamed hinvalid
    rw [hrun, hafter]
    simp
  · have hafter : (resolve provider guard current isPrecode address ⟨names, callees⟩).run s =
        (Findings.add ⟨names, callees⟩ current isPrecode address
            ((identify provider guard address).run s).1,
          ((identify provider guard address).run s).2) :=
      run_resolve_of_unnamed houtside hunnamed hvalid
    rw [hrun, hafter]
    unfold Findings.add
    cases ((identify provider guard address).run s).1.name? current isPrecode <;> simp

namespace RunState

/-- The state in which the findings are known and their callees queued. -/
def learn (state : RunState) (findings : Findings) : RunState :=
  { state with
    names := findings.names
    scheduler := state.scheduler.enqueueAll findings.callees }

/-- Resolves a reference in the middle of a run: what comes to light is known and queued at once. -/
def resolve (state : RunState) (provider : Provider σ) (guard : UInt64) (current : Current)
    (isPrecode : Bool) (address : UInt64) : StateM σ (Option String × RunState) := do
  let (name, findings) ←
    CodeListing.resolve provider guard current isPrecode address { names := state.names }
  return (name, state.learn findings)

/-- Annotates an instruction in the middle of a run. -/
def annotate (state : RunState) (context : Context σ) (current : Current)
    (instruction : Instruction) : StateM σ (Instruction × RunState) := do
  match instruction.reference with
  | none => return (instruction, state)
  | some candidate =>
    let destination ← context.destination? instruction candidate
    match destination.filter fun d => context.settings.referenceThreshold < d.address with
    | none => return ({ instruction with reference := none }, state)
    | some ⟨address, isPrecode⟩ =>
      let (symbol, state') ←
        state.resolve context.provider context.guard current isPrecode address
      return ({ instruction with reference := some address, symbol }, state')

/-- Annotates instructions in the middle of a run, one after the other. -/
def annotateAll (state : RunState) (context : Context σ) (current : Current) :
    List Instruction → StateM σ (List Instruction × RunState)
  | [] => return ([], state)
  | instruction :: rest => do
    let (annotated, state') ← state.annotate context current instruction
    let (others, state'') ← state'.annotateAll context current rest
    return (annotated :: others, state'')

/-- Learning names and callees twice is learning the later names and all callees. -/
theorem learn_learn (state : RunState) (findings : Findings) (names : NameMap)
    (callees : List WorkItem) :
    (state.learn findings).learn ⟨names, callees⟩ =
      state.learn ⟨names, findings.callees ++ callees⟩ := by
  unfold learn Scheduler.enqueueAll
  rw [List.foldl_append]

/-- To learn what a reference brings to light together with what was found before it, or after
that, is the same. -/
theorem run_resolve_learn (state : RunState) (provider : Provider σ) (guard : UInt64)
    (current : Current) (isPrecode : Bool) (address : UInt64) (findings : Findings) (s : σ) :
    ((state.learn findings).resolve provider guard current isPrecode address).run s =
      let found := (CodeListing.resolve provider guard current isPrecode address findings).run s
      ((found.1.1, state.learn found.1.2), found.2) := by
  rw [run_resolve_callees]
  dsimp only
  rw [← learn_learn]
  rfl

/-- A reference brings the same to light whether it is learned at once or together with what was
found before. -/
theorem run_annotate_learn (state : RunState) (context : Context σ) (current : Current)
    (instruction : Instruction) (findings : Findings) (s : σ) :
    ((state.learn findings).annotate context current instruction).run s =
      let found := (context.annotate current instruction findings).run s
      ((found.1.1, state.learn found.1.2), found.2) := by
  unfold annotate Context.annotate
  cases instruction.reference with
  | none => rfl
  | some candidate =>
    simp only [run_bind]
    cases ((context.destination? instruction candidate).run s).1.filter
        fun d => context.settings.referenceThreshold < d.address with
    | none => rfl
    | some destination =>
      simp only [run_bind, run_resolve_learn]
      rfl

/-- The references of a method bring the same to light whether each is learned at once or all are
at the end. -/
theorem run_annotateAll (state : RunState) (context : Context σ) (current : Current)
    (instructions : List Instruction) (findings : Findings) (s : σ) :
    ((state.learn findings).annotateAll context current instructions).run s =
      let found := (context.annotateAll current instructions findings).run s
      ((found.1.1, state.learn found.1.2), found.2) := by
  induction instructions generalizing findings s with
  | nil => rfl
  | cons instruction rest ih =>
    unfold annotateAll
    rw [run_bind, run_annotate_learn]
    dsimp only
    rw [run_bind, ih]
    rfl

/-- A method that is listed leaves the state that its references leave, resolved one after the
other. -/
theorem run_step_of_readAll_eq_ok {context : Context σ} {item : WorkItem}
    {code : List (CodeRange × List UInt8)} {s s' : σ} (state : RunState)
    (havailable : item.method.unavailableReason? = none)
    (hranges : context.rangesOf item.method ≠ [])
    (hread : (context.readAll (context.rangesOf item.method)).run s = (.ok code, s')) :
    (context.step state item).run s =
      let annotated := (state.annotateAll context (context.currentOf item)
        (context.decodeAll code)).run s'
      let lines := (context.sourceLines item.method).run annotated.2
      ((Context.listingOf item.method annotated.1.1 lines.1, annotated.1.2), lines.2) := by
  have hlearn : state.learn { names := state.names } = state := rfl
  rw [← hlearn, run_annotateAll]
  unfold Context.step
  rw [run_bind, hlearn, Context.run_listMethod_of_readAll_eq_ok havailable hranges hread]
  show ((_, state.absorb _), _) = ((_, state.learn _), _)
  unfold absorb
  rw [Option.toList_none, List.append_nil]
  rfl

/-! ## What may happen -/

/-- Something that happens to the names and the queue, in one run or in several that share them. -/
inductive Event (σ : Type) where
  | resolve (provider : Provider σ) (guard : UInt64) (current : Current) (isPrecode : Bool)
      (address : UInt64)
  | name (address : UInt64) (name : String)
  | enqueue (item : WorkItem)
  | next
  | list (context : Context σ) (item : WorkItem)
  | drain (context : Context σ)

/-- The state after the event. -/
def perform (state : RunState) : Event σ → StateM σ RunState
  | .resolve provider guard current isPrecode address => do
    let (_, state') ← state.resolve provider guard current isPrecode address
    return state'
  | .name address name => return { state with names := state.names.insert address name }
  | .enqueue item => return { state with scheduler := state.scheduler.enqueue item }
  | .next => return { state with scheduler := state.scheduler.next.2 }
  | .list context item => do
    let (_, state') ← context.step state item
    return state'
  | .drain context => do
    let (_, state') ← context.drain state
    return state'

/-- The state after several events. -/
def performAll (state : RunState) : List (Event σ) → StateM σ RunState
  | [] => return state
  | event :: rest => do
    let state' ← state.perform event
    state'.performAll rest

/-- Resolving an address keeps the names that were known. -/
theorem within_resolve (state : RunState) (provider : Provider σ) (guard : UInt64)
    (current : Current) (isPrecode : Bool) (address : UInt64) (s : σ) :
    state.names.Within
      ((state.resolve provider guard current isPrecode address).run s).1.2.names := by
  show state.names.Within (CodeListing.resolve provider guard current isPrecode address
    { names := state.names } |>.run s).1.2.names
  rcases resolve_cases provider guard current isPrecode address { names := state.names } s with
    ⟨-, hrun⟩ | ⟨-, name, -, hrun⟩ | ⟨-, -, -, hrun⟩ | ⟨-, -, -, hrun⟩
  · rw [hrun]
    exact NameMap.Within.refl _
  · rw [hrun]
    exact NameMap.Within.refl _
  · rw [hrun]
    exact NameMap.Within.refl _
  · rw [hrun]
    exact (Findings.grows_add { names := state.names } current isPrecode address _).names

/-- No event takes a name away or replaces it. -/
theorem within_perform (state : RunState) (event : Event σ) (s : σ) :
    state.names.Within ((state.perform event).run s).1.names := by
  cases event with
  | resolve provider guard current isPrecode address =>
    exact state.within_resolve provider guard current isPrecode address s
  | name address name => exact NameMap.within_insert _ _ _
  | enqueue item => exact NameMap.Within.refl _
  | next => exact NameMap.Within.refl _
  | list context item => exact (context.grows_listMethod state.names item s).names
  | drain context =>
    obtain ⟨visits, final, s', hdrains⟩ := context.exists_drains state s
    unfold perform
    rw [run_bind, hdrains.run_drain_eq]
    exact hdrains.keeps.1

/-- All events keep the names that were known. -/
theorem within_performAll (state : RunState) (events : List (Event σ)) (s : σ) :
    state.names.Within ((state.performAll events).run s).1.names := by
  induction events generalizing state s with
  | nil => exact NameMap.Within.refl _
  | cons event rest ih =>
    unfold performAll
    rw [run_bind]
    exact (state.within_perform event s).trans (ih _ _)

/-! ## The first time and every later one -/

/-- An address that has a name is answered from the names, without a word to the provider. -/
theorem resolve_eq_pure_of_named {state : RunState} {current : Current} {address : UInt64}
    {name : String} (provider : Provider σ) (guard : UInt64) (isPrecode : Bool)
    (houtside : current.contains address = false)
    (hname : state.names.get? address = some name) :
    state.resolve provider guard current isPrecode address = pure (some name, state) := by
  funext s
  have hrun : (CodeListing.resolve provider guard current isPrecode address
      { names := state.names }).run s = ((some name, { names := state.names }), s) :=
    run_resolve_of_named houtside hname
  show (state.resolve provider guard current isPrecode address).run s = _
  unfold resolve
  rw [run_bind, hrun]
  rfl

/-- From one state to another the address got the name and no other name changed, and at most one
callee was queued: a method other than the one being listed that was not taken yet, one call further
than it and not too deep. -/
structure Gains (current : Current) (address : UInt64) (name : String)
    (before after : RunState) : Prop where
  names : ∀ other, after.names.get? other =
    if other = address then some name else before.names.get? other
  errors : after.errors = before.errors
  queued : ∃ items, items.length ≤ 1 ∧
    after.scheduler = { before.scheduler with queue := before.scheduler.queue ++ items } ∧
    ∀ item ∈ items, item.identity ≠ current.method.identity ∧
      item.identity ∉ before.scheduler.seen ∧
      item.depth.toNat = min (current.depth.toNat + 1) 4294967295 ∧
      item.depth ≤ before.scheduler.maxDepth

/-- What is found at an address that had no name is all that is gained. -/
theorem gains_of_add {state : RunState} {current : Current} {isPrecode : Bool}
    {address : UInt64} {finding : Finding} {name : String}
    (hunnamed : state.names.get? address = none)
    (hname : finding.name? current isPrecode = some name) :
    Gains current address name state (state.learn
      (Findings.add { names := state.names } current isPrecode address finding).2) := by
  unfold Findings.add
  rw [hname]
  refine ⟨?_, rfl, (finding.callee? current).toList.filter state.scheduler.accepts, ?_, ?_, ?_⟩
  · intro other
    show (state.names.insert address name).get? other = _
    rw [NameMap.get?_insert]
    split
    · rename_i heq
      rw [heq, hunnamed, Option.none_or]
    · rw [Option.or_none]
  · refine Nat.le_trans (List.length_filter_le _ _) ?_
    cases finding.callee? current <;> simp
  · show state.scheduler.enqueueAll ([] ++ (finding.callee? current).toList) = _
    rw [List.nil_append, Scheduler.enqueueAll_eq]
  · intro item hitem
    obtain ⟨hcallee, haccepts⟩ := List.mem_filter.1 hitem
    rw [Option.mem_toList] at hcallee
    obtain ⟨hdepth, hnew⟩ := Scheduler.accepts_iff.1 haccepts
    refine ⟨(Finding.eq_method_of_callee? hcallee).2, hnew, ?_, hdepth⟩
    rw [Finding.depth_of_callee? hcallee, toNat_nextDepth_eq_min]

/-- Where an address has a name already, nothing is gained by resolving it. -/
theorem gains_of_named {state : RunState} {address : UInt64} {name : String} (current : Current)
    (hname : state.names.get? address = some name) : Gains current address name state state := by
  refine ⟨?_, rfl, [], by simp, by simp, by simp⟩
  intro other
  split
  · rename_i heq
    rw [heq, hname]
  · rfl

/-- The three ways in which a reference is resolved in a run: it leads into the method being listed,
it gets no name, or it gets one and what it brings to light is gained. -/
theorem resolve_cases {state after : RunState} {provider : Provider σ} {guard : UInt64}
    {current : Current} {isPrecode : Bool} {address : UInt64} {result : Option String} {s s' : σ}
    (h : (state.resolve provider guard current isPrecode address).run s = ((result, after), s')) :
    (current.contains address = true ∧ after = state ∧ s' = s) ∨
    (current.contains address = false ∧ result = none ∧ after = state) ∨
    (current.contains address = false ∧ ∃ name, result = some name ∧
      Gains current address name state after) := by
  unfold resolve at h
  rw [run_bind] at h
  rcases CodeListing.resolve_cases provider guard current isPrecode address
      { names := state.names } s with
    ⟨hlocal, hrun⟩ | ⟨houtside, known, hknown, hrun⟩ | ⟨houtside, -, -, hrun⟩ |
    ⟨houtside, hunnamed, -, hrun⟩
  · rw [hrun] at h
    cases h
    exact Or.inl ⟨hlocal, rfl, rfl⟩
  · rw [hrun] at h
    cases h
    exact Or.inr (Or.inr ⟨houtside, known, rfl, gains_of_named current hknown⟩)
  · rw [hrun] at h
    cases h
    exact Or.inr (Or.inl ⟨houtside, rfl, rfl⟩)
  · rw [hrun] at h
    cases hname : ((identify provider guard address).run s).1.name? current isPrecode with
    | none =>
      simp only [Findings.add, hname] at h
      cases h
      exact Or.inr (Or.inl ⟨houtside, rfl, rfl⟩)
    | some name =>
      have hgains := gains_of_add hunnamed hname
      simp only [Findings.add, hname] at h hgains
      cases h
      exact Or.inr (Or.inr ⟨houtside, name, rfl, hgains⟩)

/-- A reference that gets no name changes nothing, and neither does one into the method being
listed.  One that leads out of the method and gets a name gives this name to its address and may
queue one callee, and that is all.  From then on, whatever happens, a reference to the address gets
this name from every method that it lies outside of, whichever the provider is, without asking it
anything and without changing anything. -/
theorem resolve_gains_once {state after : RunState} {provider : Provider σ} {guard : UInt64}
    {current : Current} {isPrecode : Bool} {address : UInt64} {result : Option String} {s s' : σ}
    (h : (state.resolve provider guard current isPrecode address).run s = ((result, after), s')) :
    (result = none → after = state) ∧
    (current.contains address = true → after = state ∧ s' = s) ∧
    ∀ name, result = some name → current.contains address = false →
      Gains current address name state after ∧
      ∀ (events : List (Event σ)) (t : σ) (later : RunState),
        ((after.performAll events).run t).1 = later →
        ∀ {τ : Type} (provider' : Provider τ) (guard' : UInt64) (current' : Current)
          (isPrecode' : Bool), current'.contains address = false →
          later.resolve provider' guard' current' isPrecode' address =
            pure (some name, later) := by
  rcases resolve_cases h with
    ⟨hlocal, rfl, rfl⟩ | ⟨houtside, rfl, rfl⟩ | ⟨houtside, name, rfl, hgains⟩
  · refine ⟨fun _ => rfl, fun _ => ⟨rfl, rfl⟩, ?_⟩
    intro name _ houtside
    rw [hlocal] at houtside
    cases houtside
  · refine ⟨fun _ => rfl, ?_, ?_⟩
    · intro hlocal
      rw [hlocal] at houtside
      cases houtside
    · intro name hname
      cases hname
  · refine ⟨?_, ?_, ?_⟩
    · intro hnone
      cases hnone
    · intro hlocal
      rw [hlocal] at houtside
      cases houtside
    · rintro _ ⟨⟩ -
      refine ⟨hgains, ?_⟩
      rintro events t later rfl τ provider' guard' current' isPrecode' houtside'
      apply resolve_eq_pure_of_named provider' guard' isPrecode' houtside'
      apply after.within_performAll events t
      rw [hgains.names, if_pos rfl]

/-! ## A call that is named once -/

namespace CalledOnce

open MutualCalls

/-- The runtime with two methods that call each other. -/
def runtime : Provider Unit := (index [ping, pong]).provider Unit

/-- The lower method while it is listed as the entry. -/
def listingPing : Current := ⟨ping, ping.codeRanges, 0⟩

/-- The state after the first call of the higher method was resolved. -/
def called : RunState where
  scheduler := { queue := [⟨pong, 1⟩], maxDepth := 5 }
  names := NameMap.empty.insert 0x20000 "A.Pong()"

/-- Another name is offered for the address, the higher method is taken and listed, and a run goes
on from there. -/
def events : List (Event Unit) :=
  [.name 0x20000 "A.Other()", .next, .list (context 5 [ping, pong]) ⟨pong, 1⟩,
    .drain (context 5 [ping, pong])]

/-- Resolving the call of the higher method names and queues it. -/
theorem run_resolve_call :
    ((start 5).resolve runtime 4096 listingPing false 0x20000).run () =
      ((some "A.Pong()", called), ()) := by
  with_unfolding_all rfl

end CalledOnce

open CalledOnce in
/-- The call of the other method is named and queued, and after a run that was offered another name
it still has its name, and a provider that writes all questions down has nothing to write. -/
theorem resolve_gains_once_of_mutual_calls :
    Gains listingPing 0x20000 "A.Pong()" (start 5) called ∧
      ∃ later, ((called.performAll events).run ()).1 = later ∧
        later.resolve runtime.logged 0 listingPing true 0x20000 =
          pure (some "A.Pong()", later) := by
  have houtside : listingPing.contains 0x20000 = false := by decide
  obtain ⟨hgains, hlater⟩ := (resolve_gains_once run_resolve_call).2.2 _ rfl houtside
  exact ⟨hgains, _, rfl, hlater events () _ rfl runtime.logged 0 listingPing true houtside⟩

end RunState

end CodeListing
