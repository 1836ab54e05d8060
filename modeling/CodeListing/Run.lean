import CodeListing.Glob
import CodeListing.Listing.Groups
import CodeListing.Resolver
import CodeListing.Settings
import CodeListing.Stub.Cache
import CodeListing.Stub.Follow

/-!
# Runs

A run lists a method and the methods it calls, level by level, or all methods whose names match a
pattern.  Every method that is listed may bring names and callees to light.
-/

set_option autoImplicit false

namespace CodeListing

variable {σ : Type}

/-- All that stays fixed during a run. -/
structure Context (σ : Type) where
  settings : Settings
  provider : Provider σ
  isa : Isa
  decoders : Isa.Decoders
  templates : List StubTemplate
  reusesStubs : Bool
  /-- Nothing is asked about addresses below this one. -/
  guard : UInt64
  /-- How the source lines of a method are found, where source is known. -/
  sourceOf : Option (SourceLocator σ)

namespace Context

/-- Where the reference of an instruction leads, through cells and stubs if it is indirect. -/
def destination? (context : Context σ) (instruction : Instruction) (candidate : UInt64) :
    StateM σ (Option Stub.Destination) :=
  if instruction.isIndirect then
    Stub.follow context.provider context.templates context.reusesStubs candidate
  else return some ⟨candidate, false⟩

/-- The instruction with the address it really refers to and the name of what lives there. -/
def annotate (context : Context σ) (current : Current) (instruction : Instruction)
    (findings : Findings) : StateM σ (Instruction × Findings) := do
  match instruction.reference with
  | none => return (instruction, findings)
  | some candidate =>
    let destination ← context.destination? instruction candidate
    match destination.filter fun d => context.settings.referenceThreshold < d.address with
    | none => return ({ instruction with reference := none }, findings)
    | some ⟨address, isPrecode⟩ =>
      let (symbol, findings') ←
        resolve context.provider context.guard current isPrecode address findings
      return ({ instruction with reference := some address, symbol }, findings')

/-- All instructions with their references, in order. -/
def annotateAll (context : Context σ) (current : Current) :
    List Instruction → Findings → StateM σ (List Instruction × Findings)
  | [], findings => return ([], findings)
  | instruction :: rest, findings => do
    let (annotated, findings') ← context.annotate current instruction findings
    let (others, findings'') ← context.annotateAll current rest findings'
    return (annotated :: others, findings'')

/-- The bytes of all ranges, or the error of the first one that cannot be read. -/
def readAll (context : Context σ) :
    List CodeRange → StateM σ (Except Error (List (CodeRange × List UInt8)))
  | [] => return .ok []
  | range :: rest => do
    match ← context.provider.readRange range with
    | .error e => return .error e
    | .ok bytes =>
      match ← context.readAll rest with
      | .error e => return .error e
      | .ok others => return .ok ((range, bytes) :: others)

/-- The list without items that equal their left neighbour. -/
def dropRepeats : List CodeRange → List CodeRange
  | first :: second :: rest =>
    if first = second then dropRepeats (second :: rest) else first :: dropRepeats (second :: rest)
  | ranges => ranges

/-- The ranges of a method that have code, by their start, without repetitions. -/
def rangesOf (context : Context σ) (method : Method) : List CodeRange :=
  let ranges := (context.provider.codeRanges method).filter fun range => !range.isEmpty
  dropRepeats (ranges.mergeSort fun a b => a.start ≤ b.start)

/-- The text of an error that kept code from being read. -/
def readProblem (name : String) : Error → String
  | .shortRead _ expected actual =>
    "Tried to read " ++ Text.decimal expected ++ " bytes for " ++ name ++ ", got only " ++
      Text.decimal actual
  | other => other.message

/-- What the listing of one method brings. -/
structure Outcome where
  listing : Listing
  findings : Findings
  /-- The problem, if code could not be read. -/
  error : Option String := none

/-- The outcome for a method without listing. -/
def problemOutcome (method : Method) (problem : String) (names : NameMap)
    (error : Option String := none) : Outcome where
  listing := .ofProblem method.displayName method.nativeCode problem
  findings := { names }
  error := error

/-- The source lines of a method, if they are wanted and known. -/
def sourceLines (context : Context σ) (method : Method) : StateM σ (List SourceLine) :=
  match context.sourceOf with
  | some sourceOf => if context.settings.printSource then sourceOf method else return []
  | none => return []

/-- Lists one method.  All of its code is read before any of it is decoded, so a failed read leaves
nothing behind. -/
def listMethod (context : Context σ) (names : NameMap) (item : WorkItem) : StateM σ Outcome := do
  let method := item.method
  match method.unavailableReason? with
  | some reason => return problemOutcome method reason names
  | none =>
    let ranges := context.rangesOf method
    if ranges.isEmpty then return problemOutcome method "No valid code ranges" names
    else
      match ← context.readAll ranges with
      | .error e =>
        let problem := readProblem method.displayName e
        return problemOutcome method problem names (some problem)
      | .ok code =>
        let decoded := code.flatMap fun (range, bytes) =>
          context.isa.decode context.decoders context.settings.referenceThreshold range.start bytes
        let current : Current := ⟨method, ranges, item.depth⟩
        let (instructions, findings) ← context.annotateAll current decoded { names }
        let lines ← context.sourceLines method
        return {
          listing := {
            name := method.displayName
            nativeCode := method.nativeCode
            groups := Listing.groupsOf instructions lines
            problem := none }
          findings }

end Context

/-- What changes during a run. -/
structure RunState where
  scheduler : Scheduler
  names : NameMap := .empty
  errors : List String := []

namespace RunState

/-- The state at the start of a run. -/
def start (maxDepth : UInt32) : RunState :=
  { scheduler := { maxDepth } }

/-- The state after a method was listed: its callees are queued, its names known, its error noted.
-/
def absorb (state : RunState) (outcome : Context.Outcome) : RunState where
  scheduler := state.scheduler.enqueueAll outcome.findings.callees
  names := outcome.findings.names
  errors := state.errors ++ outcome.error.toList

/-- What a listed method brings does not make any method seen. -/
@[simp] theorem unseen_absorb (state : RunState) (outcome : Context.Outcome) :
    (state.absorb outcome).scheduler.unseen = state.scheduler.unseen := by
  simp [absorb, Scheduler.unseen]

end RunState

namespace Context

/-- Lists one method and queues its callees. -/
def step (context : Context σ) (state : RunState) (item : WorkItem) :
    StateM σ (Listing × RunState) := do
  let outcome ← context.listMethod state.names item
  return (outcome.listing, state.absorb outcome)

/-- Lists queued methods until none is left.  Every method that is taken is a new one, so this
ends. -/
def drain (context : Context σ) (state : RunState) : StateM σ (List Listing × RunState) :=
  match _h : state.scheduler.next with
  | (none, scheduler) => return ([], { state with scheduler })
  | (some item, scheduler) => do
    let outcome ← context.listMethod state.names item
    let state' := { state with scheduler }.absorb outcome
    let (others, final) ← context.drain state'
    return (outcome.listing :: others, final)
termination_by state.scheduler.unseen
decreasing_by
  rw [RunState.unseen_absorb]
  exact Scheduler.unseen_lt_of_next_eq _h

/-- The disassembly of finished listings. -/
def finish (context : Context σ) (listings : List Listing) (state : RunState) : Disassembly where
  listings := listings
  names := state.names
  errors := state.errors
  pointerSize := UInt32.ofNat context.isa.pointerSize

end Context

/-- The name fragment of the wrapper that is generated around an entry to have it compiled. -/
def wrapperMark : String := "__ForDisassemblyDiagnoser__"

/-- The name belongs to a generated wrapper. -/
def isWrapperName (name : String) : Bool :=
  Text.containsText name wrapperMark

/-- Settings that were checked, the decoders of single instructions, and the stub templates that
earlier runs have built. -/
structure Disassembler where
  settings : Settings
  decoders : Isa.Decoders
  cache : Stub.Cache := {}

namespace Disassembler

/-- A disassembler for valid settings. -/
def ofSettings (decoders : Isa.Decoders) (settings : Settings) : Except Error Disassembler := do
  settings.validate
  return { settings, decoders }

/-- The context of a run; it fails only if the architecture cannot be decoded. -/
def context (disassembler : Disassembler) (provider : Provider σ)
    (sourceOf : Option (SourceLocator σ)) : Except Error (Context σ × Disassembler) := do
  let settings := disassembler.settings
  let isa ← Isa.ofArchitecture disassembler.decoders provider.architecture
  let stride := settings.stubPageStride provider.version provider.pageSize
  let (templates, cache) := disassembler.cache.getOrBuild
    ⟨provider.architecture, provider.version, provider.pageSize⟩ fun _ => isa.stubTemplates stride
  let context : Context σ := {
    settings, provider, isa, templates, sourceOf
    decoders := disassembler.decoders
    reusesStubs := settings.reusesStubs provider.version
    guard := settings.guardAddress provider.os provider.architecture provider.pageSize }
  return (context, { disassembler with cache })

/-- The depth of a run from an entry; a wrapper does not count as a level. -/
def entryDepth (settings : Settings) (entry : Method) : UInt32 :=
  if isWrapperName entry.signature then nextDepth settings.maxDepth else settings.maxDepth

/-- The listings without wrappers, unless there is only one listing. -/
def withoutWrappers (listings : List Listing) : List Listing :=
  if 1 < listings.length then listings.filter fun listing => !isWrapperName listing.name
  else listings

/-- Lists an entry and all it reaches within the depth of the settings. -/
def run (disassembler : Disassembler) (provider : Provider σ) (entry : Method)
    (sourceOf : Option (SourceLocator σ)) :
    StateM σ (Except Error Disassembly × Disassembler) := do
  match disassembler.context provider sourceOf with
  | .error e => return (.error e, disassembler)
  | .ok (context, disassembler') =>
    let start := RunState.start (entryDepth disassembler.settings entry)
    let state := { start with scheduler := start.scheduler.enqueue ⟨entry, 0⟩ }
    let (listings, final) ← context.drain state
    return (.ok (context.finish (withoutWrappers listings) final), disassembler')

/-- The method is selected by the patterns and can be listed. -/
def isSelected (filters : List String) (method : Method) : Bool :=
  (Glob.anyMatches filters method.signature || Glob.anyMatches filters method.displayName) &&
    method.unavailableReason?.isNone

/-- The state before a run by patterns: every method with code is named, and the selected ones are
queued so deep that none of their callees is. -/
def seed (settings : Settings) (methods : List Method) : RunState :=
  let start := RunState.start settings.maxDepth
  { start with
    names := methods.foldl
      (fun names method =>
        if method.nativeCode == 0 then names else names.insert method.nativeCode method.displayName)
      start.names
    scheduler := start.scheduler.enqueueAll
      ((methods.filter (isSelected settings.filters)).map fun method =>
        ⟨method, settings.maxDepth⟩) }

/-- Lists every method that matches a pattern, without its callees. -/
def runFiltered (disassembler : Disassembler) (provider : Provider σ)
    (sourceOf : Option (SourceLocator σ)) :
    StateM σ (Except Error Disassembly × Disassembler) := do
  if disassembler.settings.filters.isEmpty then
    return (.error (.invalidConfiguration .noFilter), disassembler)
  else
    match disassembler.context provider sourceOf with
    | .error e => return (.error e, disassembler)
    | .ok (context, disassembler') =>
      let (listings, final) ← context.drain (seed disassembler.settings provider.methods)
      return (.ok (context.finish listings final), disassembler')

end Disassembler

end CodeListing
