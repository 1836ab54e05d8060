import CodeListing.Target.Os
import CodeListing.Target.RuntimeVersion

/-!
# Settings of a run

Every setting has a default, so that a partial document is enough.
-/

set_option autoImplicit false

namespace CodeListing

/-- What a user chooses for one run. -/
structure Settings where
  /-- How many call levels below the entry are followed. -/
  maxDepth : UInt32 := 0
  printSource : Bool := false
  printAddresses : Bool := false
  /-- Patterns that select methods by name. -/
  filters : List String := []
  /-- Values up to this one are small numbers and no addresses. -/
  referenceThreshold : UInt64 := 0xFFFF
  /-- Replaces the guard address of the operating system. -/
  minValidAddress : Option UInt64 := none
  /-- The first major version that shares stubs through interleaved code and data pages. -/
  stubReuseMajor : UInt32 := 7
  /-- The first major version whose stub pages have the large size. -/
  largeStubPageMajor : UInt32 := 8
  deriving DecidableEq, Repr

namespace Settings

/-- The depth that a user typed, which has to be a natural number of 32 bits. -/
def depthOfInt (depth : Int) : Except Error UInt32 :=
  if depth < 0 then .error (.invalidConfiguration (.negativeDepth depth))
  else if depth < Int.ofNat UInt32.size then .ok (UInt32.ofNat depth.toNat)
  else .error (.invalidConfiguration (.depthTooLarge depth))

/-- The first reason to refuse the settings. -/
def fault? (settings : Settings) : Option Misconfiguration :=
  if settings.referenceThreshold == 0 then some .zeroReferenceThreshold
  else if settings.minValidAddress == some 0 then some .zeroMinimumAddress
  else if settings.filters.any fun filter => (Text.trim filter).isEmpty then some .blankFilter
  else if settings.largeStubPageMajor < settings.stubReuseMajor then
    some (.largePageBeforeReuse settings.largeStubPageMajor settings.stubReuseMajor)
  else none

/-- Refuses settings that would make a run meaningless. -/
def validate (settings : Settings) : Except Error Unit :=
  match settings.fault? with
  | some fault => .error (.invalidConfiguration fault)
  | none => .ok ()

/-- The guard address of a run: the chosen one, or that of the operating system. -/
def guardAddress (settings : Settings) (os : Os) (architecture : Architecture)
    (pageSize : UInt64) : UInt64 :=
  settings.minValidAddress.getD (os.minValidAddress architecture pageSize)

/-- The size of a large stub page. -/
def largeStubPageSize : UInt64 := 16384

/-- The distance from a stub's code to its data. -/
def stubPageStride (settings : Settings) (version : RuntimeVersion) (pageSize : UInt64) : UInt64 :=
  if settings.largeStubPageMajor ≤ version.major then largeStubPageSize else pageSize

/-- Stubs of this runtime version can be recognised. -/
def reusesStubs (settings : Settings) (version : RuntimeVersion) : Bool :=
  settings.stubReuseMajor ≤ version.major

/-- The settings as a document; a guard address that is not chosen is left out. -/
def toDocument (settings : Settings) : Document :=
  .object ([
    ("max_depth", .ofWord settings.maxDepth),
    ("print_source", .bool settings.printSource),
    ("print_instruction_addresses", .bool settings.printAddresses),
    ("filters", .ofList .string settings.filters),
    ("reference_threshold", .ofAddress settings.referenceThreshold)] ++
    Document.memberOfOption "min_valid_address" .ofAddress settings.minValidAddress ++ [
    ("stub_reuse_major", .ofWord settings.stubReuseMajor),
    ("large_stub_page_major", .ofWord settings.largeStubPageMajor)])

/-- How settings are read off documents; what is left out has its default. -/
def decoder : Document.Decoder Settings :=
  let default : Settings := {}
  .record "DisassemblySettings" <|
    mk <$> .withDefault "max_depth" default.maxDepth .word
      <*> .withDefault "print_source" default.printSource .flag
      <*> .withDefault "print_instruction_addresses" default.printAddresses .flag
      <*> .withDefault "filters" default.filters (.list .text)
      <*> .withDefault "reference_threshold" default.referenceThreshold .address
      <*> .optional "min_valid_address" .address
      <*> .withDefault "stub_reuse_major" default.stubReuseMajor .word
      <*> .withDefault "large_stub_page_major" default.largeStubPageMajor .word

/-- The settings that a document gives. -/
def ofDocument? : Document → Document.Decoded Settings := decoder.read

end Settings

end CodeListing
