import CodeListing.Proofs.AddressNames
import CodeListing.Proofs.InstructionStream

/-!
# A method is listed as a whole or not at all

Listing a method goes through three phases: its ranges are read, the bytes are decoded, and the
instructions are annotated.  Only the last one changes anything, and it cannot fail.  So a method
that has a problem leaves names and queue as they were, whichever of its ranges cannot be read
(`Context.LeftOut`), and a method without problem is listed with every instruction of every range
(`Context.ListedWhole`).

Annotating an instruction changes its reference and its symbol and nothing else.
-/

set_option autoImplicit false

namespace CodeListing

variable {σ : Type}

namespace Context

/-! ## Reading the ranges of a method -/

/-- The ranges are read in order, all of them completely, which gives these bytes. -/
inductive Reads (context : Context σ) :
    List CodeRange → σ → List (CodeRange × List UInt8) → σ → Prop
  | nil {s : σ} : Reads context [] s [] s
  | cons {range : CodeRange} {rest : List CodeRange} {bytes : List UInt8}
      {others : List (CodeRange × List UInt8)} {s s' s'' : σ}
      (hread : (context.provider.readRange range).run s = (.ok bytes, s'))
      (hrest : Reads context rest s' others s'') :
      Reads context (range :: rest) s ((range, bytes) :: others) s''

/-- One of the ranges cannot be read, after all ranges in front of it were. -/
def ReadFails (context : Context σ) (ranges : List CodeRange) (s : σ) : Prop :=
  ∃ earlier range later code t error t', ranges = earlier ++ range :: later ∧
    context.Reads earlier s code t ∧
    (context.provider.readRange range).run t = (.error error, t')

variable {context : Context σ} {ranges : List CodeRange} {code : List (CodeRange × List UInt8)}
  {s s' : σ}

/-- The first range is read first, and the others only if it can be read. -/
theorem run_readAll_cons (range : CodeRange) (rest : List CodeRange) (s : σ) :
    (context.readAll (range :: rest)).run s =
      match (context.provider.readRange range).run s with
      | (.error error, s') => (.error error, s')
      | (.ok bytes, s') =>
        match (context.readAll rest).run s' with
        | (.error error, s'') => (.error error, s'')
        | (.ok others, s'') => (.ok ((range, bytes) :: others), s'') := by
  rw [readAll, run_bind]
  rcases (context.provider.readRange range).run s with ⟨result, s'⟩
  cases result with
  | error error => rfl
  | ok bytes =>
    dsimp only
    rw [run_bind]
    rcases (context.readAll rest).run s' with ⟨result, s''⟩
    cases result with
    | error error => rfl
    | ok others => rfl

/-- If all ranges are read, each of them is read in turn. -/
theorem reads_of_run_readAll (h : (context.readAll ranges).run s = (.ok code, s')) :
    context.Reads ranges s code s' := by
  induction ranges generalizing s code with
  | nil =>
    cases h
    exact .nil
  | cons range rest ih =>
    rw [run_readAll_cons] at h
    rcases hread : (context.provider.readRange range).run s with ⟨result, t⟩
    rw [hread] at h
    cases result with
    | error error => cases h
    | ok bytes =>
      dsimp only at h
      rcases hrest : (context.readAll rest).run t with ⟨result, t'⟩
      rw [hrest] at h
      cases result with
      | error error => cases h
      | ok others =>
        cases h
        exact .cons hread (ih hrest)

/-- If an error is given, one of the ranges cannot be read. -/
theorem readFails_of_run_readAll {error : Error}
    (h : (context.readAll ranges).run s = (.error error, s')) : context.ReadFails ranges s := by
  induction ranges generalizing s with
  | nil => cases h
  | cons range rest ih =>
    rw [run_readAll_cons] at h
    rcases hread : (context.provider.readRange range).run s with ⟨result, t⟩
    rw [hread] at h
    cases result with
    | error first =>
      cases h
      exact ⟨[], range, rest, [], s, _, _, rfl, .nil, hread⟩
    | ok bytes =>
      dsimp only at h
      rcases hrest : (context.readAll rest).run t with ⟨result, t'⟩
      rw [hrest] at h
      cases result with
      | ok others => cases h
      | error later =>
        cases h
        obtain ⟨earlier, range', later, code, u, error, u', hsplit, hearlier, hfails⟩ := ih hrest
        refine ⟨range :: earlier, range', later, (range, bytes) :: code, u, error, u', ?_,
          .cons hread hearlier, hfails⟩
        rw [hsplit, List.cons_append]

/-- Ranges of which one cannot be read are not all read. -/
theorem Reads.not_readFails (h : context.Reads ranges s code s') :
    ¬ context.ReadFails ranges s := by
  rintro ⟨earlier, range, later, code', t, error, t', hsplit, hearlier, hfails⟩
  induction hearlier generalizing ranges code with
  | nil =>
    subst hsplit
    cases h with
    | cons hread _ =>
      rw [hfails] at hread
      cases hread
  | cons hread' _ ih =>
    subst hsplit
    cases h with
    | cons hread hrest =>
      rw [hread'] at hread
      cases hread
      exact ih hrest rfl hfails

end Context

/-! ## Annotating keeps the instruction -/

/-- The instruction as its bytes make it, whatever it refers to. -/
def Instruction.withoutReference (instruction : Instruction) : Instruction :=
  { instruction with reference := none, symbol := none }

/-- What a listing says about the references of an instruction: they are above the threshold, and
an invalid instruction has neither reference nor symbol. -/
structure Instruction.RefersAbove (threshold : UInt64) (instruction : Instruction) : Prop where
  above : ∀ address, instruction.reference = some address → threshold < address
  of_invalid : instruction.isInvalid = true →
    instruction.reference = none ∧ instruction.symbol = none

namespace Context

variable (context : Context σ) (current : Current)

/-- Naming the reference of an instruction changes nothing else of it. -/
theorem withoutReference_annotate (instruction : Instruction) (findings : Findings) (s : σ) :
    ((context.annotate current instruction findings).run s).1.1.withoutReference =
      instruction.withoutReference := by
  rcases context.annotate_cases current instruction findings s with
    ⟨-, hrun⟩ | ⟨candidate, -, -, hrun⟩ | ⟨candidate, destination, symbol, findings', s', -, -, -,
      -, hrun⟩
  · rw [hrun]
  · rw [hrun]
    rfl
  · rw [hrun]
    rfl

/-- The reference that is named lies above the threshold. -/
theorem refersAbove_annotate {instruction : Instruction}
    (h : instruction.Plain context.settings.referenceThreshold) (findings : Findings) (s : σ) :
    ((context.annotate current instruction findings).run s).1.1.RefersAbove
      context.settings.referenceThreshold := by
  rcases context.annotate_cases current instruction findings s with
    ⟨hnone, hrun⟩ | ⟨candidate, -, -, hrun⟩ |
    ⟨candidate, destination, symbol, findings', s', hcandidate, -, habove, -, hrun⟩
  · rw [hrun]
    exact ⟨h.above, fun _ => ⟨hnone, h.symbol_eq⟩⟩
  · rw [hrun]
    refine ⟨?_, fun _ => ⟨rfl, h.symbol_eq⟩⟩
    intro address haddress
    cases haddress
  · rw [hrun]
    refine ⟨?_, ?_⟩
    · intro address haddress
      cases haddress
      exact habove
    · -- An instruction with a candidate is not an invalid one.
      intro hinvalid
      have hreference := h.reference_of_invalid hinvalid
      rw [hcandidate] at hreference
      cases hreference

/-- Annotated instructions correspond to the decoded ones one by one and in order. -/
theorem map_withoutReference_annotateAll (instructions : List Instruction) (findings : Findings)
    (s : σ) :
    ((context.annotateAll current instructions findings).run s).1.1.map
      Instruction.withoutReference = instructions.map Instruction.withoutReference := by
  induction instructions generalizing findings s with
  | nil => rfl
  | cons instruction rest ih =>
    rw [run_annotateAll_cons]
    dsimp only
    rw [List.map_cons, List.map_cons, withoutReference_annotate, ih]

/-- All references that are named lie above the threshold. -/
theorem refersAbove_annotateAll {instructions : List Instruction}
    (h : ∀ instruction ∈ instructions,
      instruction.Plain context.settings.referenceThreshold) (findings : Findings) (s : σ) :
    ∀ instruction ∈ ((context.annotateAll current instructions findings).run s).1.1,
      instruction.RefersAbove context.settings.referenceThreshold := by
  induction instructions generalizing findings s with
  | nil =>
    intro instruction hmem
    cases hmem
  | cons first rest ih =>
    rw [run_annotateAll_cons]
    intro instruction hmem
    rcases List.mem_cons.1 hmem with rfl | hmem
    · exact context.refersAbove_annotate current (h first List.mem_cons_self) findings s
    · refine ih ?_ _ _ instruction hmem
      intro other hother
      exact h other (List.mem_cons_of_mem _ hother)

/-- All decoded instructions are plain. -/
theorem plain_of_mem_decodeAll {code : List (CodeRange × List UInt8)} {instruction : Instruction}
    (h : instruction ∈ context.decodeAll code) :
    instruction.Plain context.settings.referenceThreshold := by
  obtain ⟨⟨range, bytes⟩, -, hmem⟩ := List.mem_flatMap.1 h
  obtain ⟨-, -, -, hplain⟩ := Isa.exists_offset_of_mem_decode hmem
  exact hplain

end Context

/-! ## Listing -/

/-- Without source lines a listing shows its instructions in the order given. -/
theorem Listing.instructions_of_groups_eq {listing : Listing} {instructions : List Instruction}
    (h : listing.groups = groupsOf instructions []) : listing.instructions = instructions := by
  unfold Listing.instructions Listing.entries
  rw [h]
  show (([⟨instructions.map Entry.instruction⟩] : List EntryGroup).flatMap (·.entries)).filterMap
    (·.instruction?) = instructions
  rw [List.flatMap_singleton, List.filterMap_map]
  exact List.filterMap_some

namespace Context

/-- The code of the method was to be read and one of its ranges could not be. -/
def CodeUnread (context : Context σ) (s : σ) (method : Method) : Prop :=
  method.unavailableReason? = none ∧ context.ReadFails (context.rangesOf method) s

/-- The method was left out for a problem.  Nothing of it is listed, names and queue are as before,
and the problem is noted among the errors exactly if code could not be read. -/
structure LeftOut (context : Context σ) (s : σ) (item : WorkItem) (before : RunState)
    (listing : Listing) (after : RunState) (problem : String) : Prop where
  problem_eq : listing.problem = some problem
  groups_eq : listing.groups = []
  names_eq : after.names = before.names
  scheduler_eq : after.scheduler = before.scheduler
  errors_of_unread : context.CodeUnread s item.method → after.errors = before.errors ++ [problem]
  errors_of_not_unread : ¬ context.CodeUnread s item.method → after.errors = before.errors

/-- The method was listed as a whole.  All its ranges were read and no error is noted; without
source lines the instructions are, one by one and in order, those decoded from the bytes of the
ranges, but for their references and symbols. -/
structure ListedWhole (context : Context σ) (s : σ) (item : WorkItem) (before : RunState)
    (listing : Listing) (after : RunState) : Prop where
  problem_eq : listing.problem = none
  errors_eq : after.errors = before.errors
  decoded : ∃ code s', context.Reads (context.rangesOf item.method) s code s' ∧
    (context.settings.printSource = false →
      listing.instructions.map Instruction.withoutReference =
        (code.flatMap fun (range, bytes) =>
          context.isa.decode context.decoders context.settings.referenceThreshold range.start
            bytes).map
            Instruction.withoutReference)
  refersAbove : ∀ instruction ∈ listing.instructions,
    instruction.RefersAbove context.settings.referenceThreshold

/-- A method that is not listed adds its error to the state and nothing else. -/
theorem absorb_problemOutcome (state : RunState) (method : Method) (problem : String)
    (error : Option String) :
    state.absorb (problemOutcome method problem state.names error) =
      { state with errors := state.errors ++ error.toList } := rfl

/-- A method whose code is missing is left out without an error. -/
theorem leftOut_of_available {context : Context σ} {s : σ} {item : WorkItem} (state : RunState)
    (problem : String) (h : ¬ context.CodeUnread s item.method) :
    context.LeftOut s item state (problemOutcome item.method problem state.names).listing
      (state.absorb (problemOutcome item.method problem state.names)) problem := by
  refine ⟨rfl, rfl, rfl, rfl, fun hunread => absurd hunread h, fun _ => ?_⟩
  rw [absorb_problemOutcome]
  exact List.append_nil _

/-- Where source is not printed, no source lines are asked for. -/
theorem sourceLines_of_printSource_eq_false {context : Context σ}
    (h : context.settings.printSource = false) (method : Method) :
    context.sourceLines method = pure [] := by
  unfold sourceLines
  rw [h]
  cases context.sourceOf with
  | none => rfl
  | some sourceOf => rfl

/-- Whatever the runtime does, a method that is taken is either left out, and then nothing but an
error for unread code is left behind, or listed with all instructions of all its ranges. -/
theorem step_leftOut_or_listedWhole (context : Context σ) (state : RunState) (item : WorkItem)
    (s : σ) :
    ∃ listing state' s', (context.step state item).run s = ((listing, state'), s') ∧
      ((∃ problem, context.LeftOut s item state listing state' problem) ∨
        context.ListedWhole s item state listing state') := by
  have hstep : ∀ {outcome : Outcome} {s' : σ},
      (context.listMethod state.names item).run s = (outcome, s') →
      (context.step state item).run s = ((outcome.listing, state.absorb outcome), s') := by
    intro outcome s' hlist
    unfold step
    rw [run_bind, hlist]
    rfl
  rcases context.listMethod_cases state.names item s with
    ⟨reason, hreason, hlist⟩ | ⟨-, hranges, hlist⟩ | ⟨error, s', hreason, -, hread, hlist⟩ |
    ⟨code, s', instructions, findings, s'', -, -, hread, hannotate, hlist⟩
  · refine ⟨_, _, _, hstep hlist, Or.inl ⟨reason, leftOut_of_available state reason ?_⟩⟩
    rintro ⟨havailable, -⟩
    rw [hreason] at havailable
    cases havailable
  · refine ⟨_, _, _, hstep hlist, Or.inl ⟨_, leftOut_of_available state _ ?_⟩⟩
    rintro ⟨-, hfails⟩
    rw [hranges] at hfails
    exact Reads.nil.not_readFails hfails
  · have hunread : context.CodeUnread s item.method :=
      ⟨hreason, readFails_of_run_readAll hread⟩
    refine ⟨_, _, _, hstep hlist, Or.inl ⟨_, rfl, rfl, rfl, rfl, fun _ => rfl, ?_⟩⟩
    intro hnot
    exact absurd hunread hnot
  · have hmap := context.map_withoutReference_annotateAll (context.currentOf item)
      (context.decodeAll code) { names := state.names } s'
    have hplain : ∀ instruction ∈ context.decodeAll code,
        instruction.Plain context.settings.referenceThreshold :=
      fun _ hmem => context.plain_of_mem_decodeAll hmem
    have habove := context.refersAbove_annotateAll (context.currentOf item) hplain
      { names := state.names } s'
    rw [hannotate] at hmap habove
    refine ⟨_, _, _, hstep hlist, Or.inr ⟨rfl, List.append_nil _, ?_, ?_⟩⟩
    · refine ⟨code, s', reads_of_run_readAll hread, fun hsource => ?_⟩
      rw [sourceLines_of_printSource_eq_false hsource]
      have hgroups : (listingOf item.method instructions []).groups =
          Listing.groupsOf instructions [] := rfl
      show (listingOf item.method instructions []).instructions.map _ = _
      rw [Listing.instructions_of_groups_eq hgroups]
      exact hmap
    · intro instruction hmem
      exact habove instruction ((Listing.mem_instructions_groupsOf rfl).1 hmem)

end Context

end CodeListing
