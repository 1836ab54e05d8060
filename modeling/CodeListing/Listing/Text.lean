import CodeListing.Listing.Basic
import CodeListing.Text.Search

/-!
# Listings as text

One line per instruction: a label that counts from the lowest address of the method, the mnemonic
and the operands.  The name of a direct reference replaces its number in the operands; any other
name follows behind a semicolon.
-/

set_option autoImplicit false

namespace CodeListing

/-- The label of a place so many bytes into a method. -/
def localLabel (offset : UInt64) : String :=
  String.ofList ('L' :: Text.padLeft 4 '0' (Text.hexDigits offset.toNat))

/-- How instructions are written. -/
structure LineFormat where
  /-- Every line starts with the address of its instruction. -/
  printAddresses : Bool := false
  /-- The width of a pointer in bytes. -/
  pointerSize : UInt32 := 8

namespace LineFormat

/-- The address in front of a line, in as many digits as a pointer has. -/
def addressColumn (format : LineFormat) (address : UInt64) : String :=
  let width := if format.pointerSize == 4 then 8 else 16
  String.ofList (Text.padLeft width '0' (Text.upperHexDigits address.toNat) ++ [' '])

/-- The reference of an instruction with its name: the symbol of the instruction, or else the name
of the address. -/
def namedReference? (instruction : Instruction) (names : NameMap) : Option (UInt64 × String) := do
  let address ← instruction.reference
  let name ← instruction.symbol <|> names.get? address
  return (address, name)

/-- The operands with the name of a direct reference in place of its number, if the number occurs.
-/
def namedOperands? (instruction : Instruction) (address : UInt64) (name : String) :
    Option String :=
  let number := Text.hexLiteral address.toNat
  if !instruction.isIndirect && Text.containsText instruction.operands number then
    some (Text.replaceText instruction.operands number name)
  else none

/-- The operands and what follows them. -/
def operandsAndTrailer (instruction : Instruction) (names : NameMap) : String × Option String :=
  match namedReference? instruction names with
  | none => (instruction.operands, none)
  | some (address, name) =>
    match namedOperands? instruction address name with
    | some operands => (operands, none)
    | none => (instruction.operands, some name)

/-- The line of an instruction in a method whose labels count from the base. -/
def line (format : LineFormat) (instruction : Instruction) (labelBase : UInt64)
    (names : NameMap) : String :=
  let column := if format.printAddresses then format.addressColumn instruction.address else ""
  let start := column ++ localLabel (instruction.address - labelBase) ++ ": "
  if instruction.isInvalid then start ++ Instruction.badMnemonic
  else
    let (operands, trailer) := operandsAndTrailer instruction names
    start ++ instruction.mnemonic ++ (if operands.isEmpty then "" else " " ++ operands) ++
      (trailer.map fun name => "; " ++ name).getD ""

/-- The lines of an entry, indented. -/
def entryLines (format : LineFormat) (labelBase : UInt64) (names : NameMap) :
    Entry → List String
  | .source source => (Text.lines source.text).map fun text => "    ; " ++ text
  | .instruction instruction => ["    " ++ format.line instruction labelBase names]

/-- The lines of a listing, with an empty line at the end. -/
def listingLines (format : LineFormat) (names : NameMap) (listing : Listing) : List String :=
  let rows :=
    match listing.problem with
    | some problem => ["    ; " ++ problem]
    | none => listing.entries.flatMap (format.entryLines listing.labelBase names)
  ["; " ++ listing.name] ++ rows ++ [""]

/-- The text of all listings. -/
def text (format : LineFormat) (disassembly : Disassembly) : String :=
  let lines := disassembly.listings.flatMap (format.listingLines disassembly.names)
  String.join (lines.map (· ++ "\n"))

end LineFormat

end CodeListing
