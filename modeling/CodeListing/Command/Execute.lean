import CodeListing.Command.Arguments
import CodeListing.Files.Load
import CodeListing.Json.Printer
import CodeListing.Report.Basic
import CodeListing.Run
import CodeListing.Snapshot.Index

/-!
# The commands

Each command asks its machine for files, does its work and gives what the program prints.
-/

set_option autoImplicit false

namespace CodeListing

/-- Why a command fails: what could not be done and, behind it, why. -/
structure Failure where
  message : String
  cause : Option String := none
  deriving DecidableEq, Repr

namespace Failure

/-- The failure for an error of the library. -/
def ofError (error : Error) : Failure := ⟨error.message, none⟩

/-- The failure for a file that could not be loaded. -/
def ofLoadError (error : LoadError) : Failure := ⟨error.task, some error.cause.message⟩

/-- The text of the failure as the program prints it. -/
def text (failure : Failure) : String :=
  let causeText (cause : String) : String :=
    "\n\nCaused by:\n    " ++ Text.replaceText cause "\n" "\n    "
  "Error: " ++ failure.message ++ (failure.cause.map causeText).getD "" ++ "\n"

end Failure

/-- What the program leaves behind. -/
structure ProgramResult where
  exitCode : UInt32
  output : String := ""
  errors : String := ""
  deriving DecidableEq, Repr

/-- The version of the program. -/
def programVersion : String := "0.1.0"

/-- A short guide to the command line. -/
def helpText : String :=
  "Usage: " ++ Report.toolName ++ " [-v] <COMMAND>\n\n" ++
    "Commands:\n" ++
    "  disassemble     --snapshot FILE (--entry KEY | --filter PATTERN ...) [--max-depth N]\n" ++
    "                  [--print-source] [--print-addresses] [--config FILE] [--json]\n" ++
    "                  [--output FILE]\n" ++
    "  list-functions  --snapshot FILE [--json]\n" ++
    "  stub-templates  --arch NAME --runtime-version VERSION [--page-size N] [--json]\n"

/-- What is printed when the command line is not well formed. -/
def usageText : String :=
  "error: invalid command line\n\n" ++ helpText

namespace DisassembleOptions

/-- Settings with the options of the command line on top. -/
def override (options : DisassembleOptions) (settings : Settings) : Except Error Settings := do
  let maxDepth ← match options.maxDepth with
    | some depth => Settings.depthOfInt depth
    | none => .ok settings.maxDepth
  let merged : Settings := { settings with
    maxDepth
    printSource := options.printSource || settings.printSource
    printAddresses := options.printAddresses || settings.printAddresses
    filters := if options.filters.isEmpty then settings.filters else options.filters }
  merged.validate
  return merged

end DisassembleOptions

namespace Command

/-- Why settings could not be made. -/
inductive SettingsError where
  | load (error : LoadError)
  | invalid (error : Error)
  deriving DecidableEq, Repr

variable {m : Type → Type} [Monad m]

/-- The settings of a file, or the defaults, with the options of the command line on top. -/
def effectiveSettings (host : Host m) (options : DisassembleOptions) :
    m (Except SettingsError Settings) := do
  let loaded ← match options.config with
    | some path => host.loadSettings path
    | none => pure (.ok {})
  match loaded with
  | .error e => return .error (.load e)
  | .ok settings =>
    match options.override settings with
    | .error e => return .error (.invalid e)
    | .ok merged => return .ok merged

/-- A step of a command that may fail. -/
abbrev Step (m : Type → Type) := ExceptT Failure m

/-- A result of the library as a step. -/
def check {α : Type} : Except Error α → Step m α
  | .ok a => pure a
  | .error e => throw (.ofError e)

/-- A result of the library as a step that says what it was for. -/
def checkFor {α : Type} (task : String) : Except Error α → Step m α
  | .ok a => pure a
  | .error e => throw ⟨task, some e.message⟩

/-- Loading as a step. -/
def loaded {α : Type} (result : m (Except LoadError α)) : Step m α := do
  match ← result with
  | .ok a => pure a
  | .error e => throw (.ofLoadError e)

/-- The entry that the options name. -/
def entryOf (options : DisassembleOptions) (settings : Settings) (snapshot : Snapshot) :
    Except Failure (Option Method) :=
  match options.entry with
  | some key =>
    match snapshot.find? key with
    | some method => .ok (some method)
    | none => .error ⟨"No function matching '" ++ key ++ "' in snapshot", none⟩
  | none =>
    if settings.filters.isEmpty then
      .error ⟨"Either --entry or at least one --filter is required", none⟩
    else .ok none

/-- Runs a disassembly of a snapshot, with one cache of source files for all of it. -/
def disassembly (index : SnapshotIndex) (settings : Settings) (entry : Option Method)
    (sourceOf : SourceLocator FileCache) : Except Error Disassembly := do
  let disassembler ← Disassembler.ofSettings .builtIn settings
  let provider := index.provider FileCache
  match entry with
  | some method => ((disassembler.run provider method (some sourceOf)).run {}).1.1
  | none => ((disassembler.runFiltered provider (some sourceOf)).run {}).1.1

/-- Disassembles an entry, or all methods that match patterns. -/
def runDisassemble (host : Host m) (options : DisassembleOptions) : Step m String := do
  let settings ← match ← (effectiveSettings host options : m _) with
    | .ok settings => pure settings
    | .error (.load e) => throw (.ofLoadError e)
    | .error (.invalid e) => throw (.ofError e)
  let path ← host.locate options.snapshot
  let snapshot ← loaded (host.loadSnapshot path)
  let digest ← loaded (host.digest path)
  let entry ← match entryOf options settings snapshot with
    | .ok entry => pure entry
    | .error failure => throw failure
  let index ← checkFor ("Invalid snapshot: " ++ path) (SnapshotIndex.ofSnapshot snapshot)
  let root := some (Path.parent path)
  let texts ← host.readTexts (index.sourceTable root).files
  let result ← check (disassembly index settings entry (index.locator root (texts.lookup ·)))
  let report : Report := {
    toolVersion := programVersion
    snapshot := path
    digest
    generatedAt := ← host.now
    settings
    disassembly := result }
  let rendered := if options.json then Json.pretty report.toDocument else report.text
  match options.output with
  | none => return rendered ++ (if options.json then "\n" else "")
  | some output =>
    match ← host.writeText output rendered with
    | .ok _ =>
      return "Wrote " ++ Text.decimal result.listings.length ++ " functions to " ++ output ++ "\n"
    | .error fault => throw ⟨"Failed to write report to " ++ output, some fault.message⟩

/-- The state of a method in a list of methods. -/
def stateLabel (method : Method) : String :=
  if method.isPInvoke then "pinvoke"
  else if !method.hasIl then "extern"
  else
    match method.compilation with
    | .none => "not-jitted"
    | .jitted => "jitted"
    | .readyToRun => "ready-to-run"

/-- A row of a list of methods. -/
def methodRow (method : Method) : String :=
  let address := (Text.upperHexLiteral method.nativeCode.toNat).toList
  "  " ++ String.ofList (Text.padLeft 18 ' ' address) ++ "  " ++
    String.ofList (Text.padRight 12 ' ' (stateLabel method).toList) ++ "  " ++
    method.displayName ++ "\n"

/-- A method in a list of methods as a document. -/
def methodDocument (method : Method) : Document :=
  .object [
    ("name", .string method.displayName),
    ("native_code", .string (Text.upperHexLiteral method.nativeCode.toNat)),
    ("state", .string (stateLabel method)),
    ("ranges", .ofNat method.codeRanges.length)]

/-- Lists the methods of a snapshot. -/
def runListFunctions (host : Host m) (path : String) (json : Bool) : Step m String := do
  let path ← host.locate path
  let snapshot ← loaded (host.loadSnapshot path)
  if json then return Json.pretty (.ofList methodDocument snapshot.methods) ++ "\n"
  else
    return "Functions (" ++ Text.decimal snapshot.methods.length ++ "):\n" ++
      String.join (snapshot.methods.map methodRow)

/-- A row of a list of stub templates. -/
def templateRow (template : StubTemplate) : String :=
  let length := (Text.decimal template.pattern.length).toList
  "  " ++ template.kind.name ++ " len=" ++ String.ofList (Text.padRight 2 ' ' length) ++
    " slot=+" ++ Text.decimal template.slotOffset.toNat ++ " " ++ template.patternText ++ "\n"

/-- The stub templates of a target as text. -/
def templateText (architecture : Architecture) (version : RuntimeVersion) (stride : UInt64)
    (reusesStubs : Bool) (templates : List StubTemplate) : String :=
  "Stub templates for " ++ architecture.name ++ " runtime " ++ version.text ++ " (stub page " ++
    Text.upperHexLiteral stride.toNat ++ "):\n" ++
    (if reusesStubs then ""
      else "  note: runtime " ++ version.text ++
        " predates stub reuse; templates are not consulted\n") ++
    (if templates.isEmpty then "  (none)\n" else "") ++
    String.join (templates.map templateRow)

/-- Shows the stub templates of a target. -/
def runStubTemplates (architecture version : String) (pageSize : UInt64) (json : Bool) :
    Step m String := do
  let architecture ← checkFor "Invalid architecture" (Architecture.ofText architecture)
  let version ← checkFor "Invalid runtime version" (RuntimeVersion.ofText version)
  let settings : Settings := {}
  let isa ← check (Isa.ofArchitecture .builtIn architecture)
  let stride := settings.stubPageStride version pageSize
  let templates := isa.stubTemplates stride
  if json then return Json.pretty (.ofList StubTemplate.toDocument templates) ++ "\n"
  else
    return templateText architecture version stride (settings.reusesStubs version) templates

/-- What a command prints, or why it fails. -/
def execute (host : Host m) : Command → Step m String
  | .showVersion => return Report.toolName ++ " " ++ programVersion ++ "\n"
  | .showHelp => return helpText
  | .disassemble options => runDisassemble host options
  | .listFunctions snapshot json => runListFunctions host snapshot json
  | .stubTemplates architecture version pageSize json =>
    runStubTemplates architecture version pageSize json

/-- What the program leaves behind for its command line. -/
def runProgram (host : Host m) (arguments : List String) : m ProgramResult := do
  match parse? arguments with
  | none => return { exitCode := 2, errors := usageText }
  | some command =>
    match ← (execute host command).run with
    | .ok output => return { exitCode := 0, output }
    | .error failure => return { exitCode := 1, errors := failure.text }

end Command

end CodeListing
