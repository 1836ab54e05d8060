import CodeListing.Text.Numeral
import CodeListing.Text.Search

/-!
# Command lines

A command line names a command and its options.  An option is `--name value` or `--name=value`, a
flag is `--name`, and the verbosity may be raised anywhere.
-/

set_option autoImplicit false

namespace CodeListing

/-- The options of a disassembly. -/
structure DisassembleOptions where
  snapshot : String
  entry : Option String := none
  filters : List String := []
  maxDepth : Option Int := none
  printSource : Bool := false
  printAddresses : Bool := false
  config : Option String := none
  json : Bool := false
  output : Option String := none
  deriving DecidableEq, Repr

/-- What the program is asked to do. -/
inductive Command where
  | showVersion
  | showHelp
  | disassemble (options : DisassembleOptions)
  | listFunctions (snapshot : String) (json : Bool)
  | stubTemplates (architecture version : String) (pageSize : UInt64) (json : Bool)
  deriving DecidableEq, Repr

namespace Command

/-- How an option is used. -/
structure OptionType where
  name : String
  takesValue : Bool := true
  repeats : Bool := false
  /-- A negative number may follow the option. -/
  allowsNegative : Bool := false

/-- A flag. -/
def flag (name : String) : OptionType := { name, takesValue := false }

/-- Options as they were given, in order. -/
abbrev Given := List (String × String)

/-- The argument raises the verbosity: `--verbose`, or a dash and letters `v`. -/
def isVerbosity (argument : String) : Bool :=
  argument == "--verbose" ||
    (match argument.toList with
    | '-' :: c :: rest => (c :: rest).all (· == 'v')
    | _ => false)

/-- The text is a minus sign and decimal digits. -/
def isNegativeNumber : List Char → Bool
  | '-' :: c :: rest => (c :: rest).all Char.isDigit
  | _ => false

/-- The argument can be the value of an option: it does not look like an option itself. -/
def isValue (type : OptionType) (argument : String) : Bool :=
  match argument.toList with
  | ['-'] => true
  | '-' :: rest => type.allowsNegative && isNegativeNumber ('-' :: rest)
  | _ => true

/-- The name of a long option, and the value behind an equals sign. -/
def longOption? (argument : String) : Option (String × Option String) :=
  match argument.toList with
  | '-' :: '-' :: rest =>
    let name := String.ofList (rest.takeWhile (· != '='))
    match rest.dropWhile (· != '=') with
    | _ :: value => some (name, some (String.ofList value))
    | [] => some (name, none)
  | _ => none

/-- The options that arguments give, if all are known and complete.  Two dashes alone end the
options, and nothing may follow them. -/
def scan (types : List OptionType) : List String → Option Given
  | [] => some []
  | argument :: rest =>
    if argument == "--" then (if rest.isEmpty then some [] else none)
    else if isVerbosity argument then scan types rest
    else do
      let (name, attached) ← longOption? argument
      let type ← types.find? (·.name == name)
      match type.takesValue, attached with
      | true, some value => return (name, value) :: (← scan types rest)
      | true, none =>
        match rest with
        | value :: rest' =>
          if isValue type value then return (name, value) :: (← scan types rest') else none
        | [] => none
      | false, none => return (name, "") :: (← scan types rest)
      | false, some _ => none

/-- No option that may be given once is given twice. -/
def isOnce (types : List OptionType) (given : Given) : Bool :=
  types.all fun type => type.repeats || (given.map Prod.fst).count type.name ≤ 1

/-- The options that arguments give, each as often as it may be. -/
def given? (types : List OptionType) (arguments : List String) : Option Given :=
  (scan types arguments).filter (isOnce types)

/-- All values of an option. -/
def values (given : Given) (name : String) : List String :=
  (given.filter (·.1 == name)).map Prod.snd

/-- A flag is given. -/
def hasFlag (given : Given) (name : String) : Bool :=
  given.any (·.1 == name)

/-- The path that an option gives, which must not be empty. -/
def path? (given : Given) (name : String) : Option (Option String) :=
  match given.lookup name with
  | none => some none
  | some path => if path.isEmpty then none else some (some path)

/-- The signed number of 64 bits that a text stands for. -/
def signedNumber? (text : String) : Option Int :=
  match text.toList with
  | '-' :: digits =>
    ((Text.readDigits? 10 digits).filter (· ≤ 0x8000000000000000)).map fun n => -Int.ofNat n
  | chars => (Text.readUnsigned? 10 0x8000000000000000 chars).map Int.ofNat

/-- The depth that an option gives. -/
def depth? (given : Given) : Option (Option Int) :=
  match given.lookup "max-depth" with
  | none => some none
  | some text => (signedNumber? text).map some

/-- The options of a disassembly. -/
def disassembleTypes : List OptionType :=
  [{ name := "snapshot" }, { name := "entry" }, { name := "filter", repeats := true },
    { name := "max-depth", allowsNegative := true }, flag "print-source", flag "print-addresses",
    { name := "config" }, flag "json", { name := "output" }]

/-- A disassembly, which takes an entry or patterns but not both. -/
def disassemble? (arguments : List String) : Option Command := do
  let given ← given? disassembleTypes arguments
  let snapshot ← given.lookup "snapshot"
  let entry := given.lookup "entry"
  let filters := values given "filter"
  let maxDepth ← depth? given
  let config ← path? given "config"
  let output ← path? given "output"
  if entry.isSome && !filters.isEmpty then none
  else
    return .disassemble {
      snapshot, entry, filters, maxDepth, config, output
      printSource := hasFlag given "print-source"
      printAddresses := hasFlag given "print-addresses"
      json := hasFlag given "json" }

/-- A list of the methods of a snapshot. -/
def listFunctions? (arguments : List String) : Option Command := do
  let given ← given? [{ name := "snapshot" }, flag "json"] arguments
  let snapshot ← given.lookup "snapshot"
  return .listFunctions snapshot (hasFlag given "json")

/-- The stub templates of a target. -/
def stubTemplates? (arguments : List String) : Option Command := do
  let given ← given? [{ name := "arch" }, { name := "runtime-version" }, { name := "page-size" },
    flag "json"] arguments
  let architecture ← given.lookup "arch"
  let version ← given.lookup "runtime-version"
  let pageSize ← Text.readUnsigned? 10 UInt64.size ((given.lookup "page-size").getD "4096").toList
  return .stubTemplates architecture version (UInt64.ofNat pageSize) (hasFlag given "json")

/-- The first letter behind a dash that does not raise the verbosity; letters behind it do not
count. -/
def clusterLetter? (argument : String) : Option Char :=
  match argument.toList with
  | '-' :: rest => (rest.dropWhile (· == 'v')).head?
  | _ => none

/-- The command that a command line asks for, if it is well formed. -/
def parse? : List String → Option Command
  | [] => none
  | argument :: rest =>
    if isVerbosity argument then parse? rest
    else if argument == "--version" || clusterLetter? argument == some 'V' then some .showVersion
    else if argument == "help" || argument == "--help" || clusterLetter? argument == some 'h' then
      some .showHelp
    else
      match argument with
      | "disassemble" => disassemble? rest
      | "list-functions" => listFunctions? rest
      | "stub-templates" => stubTemplates? rest
      | _ => none

end Command

end CodeListing
