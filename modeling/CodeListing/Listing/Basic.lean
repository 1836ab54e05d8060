import CodeListing.Instruction
import CodeListing.NameMap
import CodeListing.Source.Line

/-!
# Listings

The listing of a method is rows of instructions, with the source lines they came from between them,
or the problem that kept it from being listed.  A disassembly holds the listings of a run and the
names it found.
-/

set_option autoImplicit false

namespace CodeListing

/-- One entry of a listing. -/
inductive Entry where
  | source (line : SourceLine)
  | instruction (instruction : Instruction)
  deriving DecidableEq, Repr

namespace Entry

/-- The address of the code that the entry belongs to. -/
def address : Entry → UInt64
  | .source line => line.address
  | .instruction i => i.address

/-- The instruction, if the entry is one. -/
def instruction? : Entry → Option Instruction
  | .source _ => none
  | .instruction i => some i

/-- The source line, if the entry is one. -/
def source? : Entry → Option SourceLine
  | .source line => some line
  | .instruction _ => none

/-- The entry as a document that says which kind it is. -/
def toDocument : Entry → Document
  | .source line => .object (("type", .string "source") :: line.members)
  | .instruction i => .object (("type", .string "asm") :: i.members)

/-- The two kinds of entries and how they are read off the members beside the kind. -/
def kinds : List (String × Document.Decoder Entry) :=
  [("source", SourceLine.decoder.map .source), ("asm", Instruction.decoder.map .instruction)]

/-- The kind of entry that a document names. -/
def kind? : Document → Document.Decoded (Document.Decoder Entry)
  | .string name => Document.named? kinds name
  | other => .error (.wrongKind other.describe "variant identifier")

/-- The kind of an entry and what is set aside for it: an entry is an object with the kind among its
members, or a list with the kind in front. -/
def parts? : Document → Document.Decoded (Document.Decoder Entry × Document)
  | .object members =>
    match members.lookup "type" with
    | none => .error (.missingField "type")
    | some tag => do
      let kind ← kind? tag
      return (kind, .object (members.filter (·.1 != "type")))
  | .array (tag :: fields) => do
    let kind ← kind? tag
    return (kind, .array fields)
  | .array [] => .error (.missingField "type")
  | other => .error (.wrongKind other.describe "internally tagged enum CodeEntry")

/-- How entries are read off documents. -/
def decoder : Document.Decoder Entry where
  shape := .custom fun document => do
    let (kind, rest) ← parts? document
    kind.shape.check true rest
  decode document := do
    let (kind, rest) ← parts? document
    kind.decode rest

/-- The entry that a document gives. -/
def ofDocument? : Document → Document.Decoded Entry := decoder.read

end Entry

/-- Entries that are printed together. -/
structure EntryGroup where
  entries : List Entry
  deriving DecidableEq, Repr

namespace EntryGroup

/-- The group as a document. -/
def toDocument (group : EntryGroup) : Document :=
  .object [("entries", .ofList Entry.toDocument group.entries)]

/-- How groups are read off documents. -/
def decoder : Document.Decoder EntryGroup :=
  .record "InstructionMap" <| mk <$> .required "entries" (.list Entry.decoder)

/-- The group that a document gives. -/
def ofDocument? : Document → Document.Decoded EntryGroup := decoder.read

end EntryGroup

/-- The listing of one method, or the problem that kept it from being listed. -/
structure Listing where
  name : String
  nativeCode : UInt64
  groups : List EntryGroup
  problem : Option String
  deriving DecidableEq, Repr

namespace Listing

/-- A method that could not be listed. -/
def ofProblem (name : String) (nativeCode : UInt64) (problem : String) : Listing :=
  ⟨name, nativeCode, [], some problem⟩

/-- All entries in order. -/
def entries (listing : Listing) : List Entry :=
  listing.groups.flatMap (·.entries)

/-- All instructions in order. -/
def instructions (listing : Listing) : List Instruction :=
  listing.entries.filterMap (·.instruction?)

/-- The lowest address of an instruction, from which labels count. -/
def labelBase (listing : Listing) : UInt64 :=
  (listing.instructions.map (·.address)).min?.getD listing.nativeCode

/-- The listing as a document. -/
def toDocument (listing : Listing) : Document :=
  .object ([
    ("name", .string listing.name),
    ("native_code_address", .ofAddress listing.nativeCode),
    ("instruction_maps", .ofList EntryGroup.toDocument listing.groups)] ++
    Document.memberOfOption "problem" .string listing.problem)

/-- How listings are read off documents. -/
def decoder : Document.Decoder Listing :=
  .record "DisassembledFunction" <|
    mk <$> .required "name" .text
      <*> .required "native_code_address" .address
      <*> .required "instruction_maps" (.list EntryGroup.decoder)
      <*> .optional "problem" .text

/-- The listing that a document gives. -/
def ofDocument? : Document → Document.Decoded Listing := decoder.read

end Listing

/-- All that a run produces. -/
structure Disassembly where
  listings : List Listing
  names : NameMap
  errors : List String
  pointerSize : UInt32

namespace Disassembly

/-- The disassembly as a document. -/
def toDocument (disassembly : Disassembly) : Document :=
  .object [
    ("functions", .ofList Listing.toDocument disassembly.listings),
    ("address_names", disassembly.names.toDocument),
    ("errors", .ofList .string disassembly.errors),
    ("pointer_size", .ofWord disassembly.pointerSize)]

/-- How disassemblies are read off documents. -/
def decoder : Document.Decoder Disassembly :=
  .record "DisassemblyResult" <|
    mk <$> .required "functions" (.list Listing.decoder)
      <*> .required "address_names" NameMap.decoder
      <*> .withDefault "errors" [] (.list .text)
      <*> .required "pointer_size" .word

/-- The disassembly that a document gives. -/
def ofDocument? : Document → Document.Decoded Disassembly := decoder.read

end Disassembly

end CodeListing
