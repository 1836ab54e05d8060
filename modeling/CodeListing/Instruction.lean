import CodeListing.Document.Decoder

/-!
# Instructions

One machine instruction as the decoder hands it out, with the address it refers to and, once that is
known, the name of what lives there.
-/

set_option autoImplicit false

namespace CodeListing

/-- Whether the bytes make an instruction. -/
inductive Validity where
  | valid
  | invalid
  deriving DecidableEq, Repr

namespace Validity

/-- The names of the verdicts in documents. -/
def variants : List (String × Validity) := [("valid", .valid), ("invalid", .invalid)]

/-- The name of the verdict. -/
def name : Validity → String
  | .valid => "valid"
  | .invalid => "invalid"

end Validity

/-- One machine instruction in program order. -/
structure Instruction where
  address : UInt64
  length : UInt32
  validity : Validity
  bytes : List UInt8
  mnemonic : String
  operands : String
  /-- The address that the operands refer to. -/
  reference : Option UInt64
  /-- The reference goes through a register or a memory cell. -/
  isIndirect : Bool
  /-- The name of what lives at the reference. -/
  symbol : Option String
  deriving DecidableEq, Repr

namespace Instruction

/-- How bytes that make no instruction are shown. -/
def badMnemonic : String := "(bad)"

/-- Bytes that make no instruction. -/
def invalid (address : UInt64) (bytes : List UInt8) : Instruction where
  address := address
  length := UInt32.ofNat bytes.length
  validity := .invalid
  bytes := bytes
  mnemonic := badMnemonic
  operands := ""
  reference := none
  isIndirect := false
  symbol := none

/-- The bytes make no instruction. -/
def isInvalid (instruction : Instruction) : Bool :=
  instruction.validity == .invalid

/-- The members of the instruction in a document; what is not known is left out. -/
def members (instruction : Instruction) : List (String × Document) :=
  [("instruction_pointer", .ofAddress instruction.address),
    ("length", .ofWord instruction.length),
    ("kind", .string instruction.validity.name),
    ("bytes", .ofList (fun b => .ofNat b.toNat) instruction.bytes),
    ("mnemonic", .string instruction.mnemonic),
    ("operands", .string instruction.operands)] ++
    Document.memberOfOption "referenced_address" .ofAddress instruction.reference ++
    [("is_referenced_address_indirect", .bool instruction.isIndirect)] ++
    Document.memberOfOption "symbol" .string instruction.symbol

/-- The instruction as a document. -/
def toDocument (instruction : Instruction) : Document :=
  .object instruction.members

/-- How instructions are read off documents. -/
def decoder : Document.Decoder Instruction :=
  .record "DecodedInstruction" <|
    mk <$> .required "instruction_pointer" .address
      <*> .required "length" .word
      <*> .required "kind" (.variant Validity.variants)
      <*> .required "bytes" (.list .byte)
      <*> .required "mnemonic" .text
      <*> .required "operands" .text
      <*> .optional "referenced_address" .address
      <*> .withDefault "is_referenced_address_indirect" false .flag
      <*> .optional "symbol" .text

/-- The instruction that a document gives. -/
def ofDocument? : Document → Document.Decoded Instruction := decoder.read

end Instruction

end CodeListing
