import CodeListing.Method
import CodeListing.Snapshot.MemoryRegion
import CodeListing.Source.Mapping
import CodeListing.Target.Os
import CodeListing.Target.RuntimeVersion

/-!
# Snapshots

A snapshot records all that is ever asked of an inspected runtime: its target, its methods, its
named structures, its memory and the source of its code.
-/

set_option autoImplicit false

namespace CodeListing

/-- The name of what lies at an address. -/
structure NamedAddress where
  address : UInt64
  name : String
  deriving DecidableEq, Repr

namespace NamedAddress

/-- The named address as a document. -/
def toDocument (named : NamedAddress) : Document :=
  .object [("address", .ofAddress named.address), ("name", .string named.name)]

/-- How named addresses are read off documents. -/
def decoder : Document.Decoder NamedAddress :=
  .record "NamedAddress" <| mk <$> .required "address" .address <*> .required "name" .text

/-- The named address that a document gives. -/
def ofDocument? : Document → Document.Decoded NamedAddress := decoder.read

end NamedAddress

/-- What was recorded of an inspected runtime. -/
structure Snapshot where
  architecture : Architecture
  os : Os
  pageSize : UInt64
  version : RuntimeVersion
  methods : List Method
  helpers : List NamedAddress
  tables : List NamedAddress
  memory : List MemoryRegion
  sources : List SourceMapping
  deriving DecidableEq, Repr

namespace Snapshot

/-- The characters behind `0x` or `0X`. -/
def behindHexMark? : List Char → Option (List Char)
  | '0' :: 'x' :: rest => some rest
  | '0' :: 'X' :: rest => some rest
  | _ => none

/-- The first method with this code address, if the key is an address behind `0x`, and else the
first method with this signature or display name. -/
def find? (snapshot : Snapshot) (key : String) : Option Method :=
  let chars := Text.trimChars key.toList
  match behindHexMark? chars with
  | some digits => do
    let address ← Text.readHexAddress? digits
    snapshot.methods.find? fun method => method.nativeCode == address
  | none =>
    let name := String.ofList chars
    snapshot.methods.find? fun method => method.signature == name || method.displayName == name

/-- The snapshot as a document. -/
def toDocument (snapshot : Snapshot) : Document :=
  .object [
    ("architecture", snapshot.architecture.toDocument),
    ("os", snapshot.os.toDocument),
    ("page_size", .ofAddress snapshot.pageSize),
    ("runtime_version", snapshot.version.toDocument),
    ("functions", .ofList Method.toDocument snapshot.methods),
    ("helpers", .ofList NamedAddress.toDocument snapshot.helpers),
    ("method_tables", .ofList NamedAddress.toDocument snapshot.tables),
    ("memory", .ofList MemoryRegion.toDocument snapshot.memory),
    ("sources", .ofList SourceMapping.toDocument snapshot.sources)]

/-- How snapshots are read off documents. -/
def decoder : Document.Decoder Snapshot :=
  .record "Snapshot" <|
    mk <$> .required "architecture" Architecture.decoder
      <*> .withDefault "os" .linux Os.decoder
      <*> .withDefault "page_size" 4096 .address
      <*> .required "runtime_version" RuntimeVersion.decoder
      <*> .withDefault "functions" [] (.list Method.decoder)
      <*> .withDefault "helpers" [] (.list NamedAddress.decoder)
      <*> .withDefault "method_tables" [] (.list NamedAddress.decoder)
      <*> .withDefault "memory" [] (.list MemoryRegion.decoder)
      <*> .withDefault "sources" [] (.list SourceMapping.decoder)

/-- The snapshot that a document gives. -/
def ofDocument? : Document → Document.Decoded Snapshot := decoder.read

end Snapshot

end CodeListing
