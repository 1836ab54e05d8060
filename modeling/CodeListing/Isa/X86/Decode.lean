import CodeListing.Isa.X86.Operand

/-!
# Decoding one x86 instruction

An instruction is modifiers, an opcode, an operand byte where the opcode has one, a displacement and
an immediate value.  Decoding reads them in this order and fails where the bytes end too early or
the opcode is not known.
-/

set_option autoImplicit false

namespace CodeListing.Isa.X86

/-- A reader of bytes that may fail. -/
abbrev Scan := StateT (List UInt8) Option

/-- The next byte. -/
def Scan.byte : Scan Nat := fun bytes =>
  match bytes with
  | [] => none
  | b :: rest => some (b.toNat, rest)

/-- The next bytes as a number, the lowest byte first. -/
def Scan.number (count : Nat) : Scan Nat := fun bytes =>
  if bytes.length < count then none
  else some (littleEndian (bytes.take count), bytes.drop count)

/-- The next bytes as a signed number, extended to a word. -/
def Scan.signed (count : Nat) : Scan UInt64 := do
  let n ← Scan.number count
  return signExtend (8 * count) n

/-- What stands in front of an opcode. -/
structure Modifiers where
  /-- Operands have 16 bits. -/
  narrowOperand : Bool := false
  /-- Addresses are cut to 32 bits. -/
  narrowAddress : Bool := false
  segment : Option Segment := none
  /-- The byte that extends registers and operands in 64-bit mode. -/
  extension : Option Nat := none
  deriving Repr

namespace Modifiers

/-- The byte is one of the modifiers that may come in any order. -/
def add? (modifiers : Modifiers) (b : UInt8) : Option Modifiers :=
  if b == 0x66 then some { modifiers with narrowOperand := true }
  else if b == 0x67 then some { modifiers with narrowAddress := true }
  else if b == 0x64 then some { modifiers with segment := some .fs }
  else if b == 0x65 then some { modifiers with segment := some .gs }
  else none

/-- The modifiers at the start of the bytes, and the bytes behind them. -/
def scan (modifiers : Modifiers) : List UInt8 → Modifiers × List UInt8
  | [] => (modifiers, [])
  | b :: rest =>
    match modifiers.add? b with
    | some modifiers' => modifiers'.scan rest
    | none => (modifiers, b :: rest)

/-- The extension bytes at the start of the bytes, of which the last one counts, and the bytes
behind them. -/
def scanExtensions (modifiers : Modifiers) : List UInt8 → Modifiers × List UInt8
  | [] => (modifiers, [])
  | b :: rest =>
    if 0x40 ≤ b && b ≤ 0x4F then
      { modifiers with extension := some b.toNat }.scanExtensions rest
    else (modifiers, b :: rest)

/-- The modifiers with the extension bytes that may follow them in 64-bit mode. -/
def scanAll (mode : Mode) (bytes : List UInt8) : Modifiers × List UInt8 :=
  let (modifiers, rest) := scan {} bytes
  if mode == .bits64 then modifiers.scanExtensions rest else (modifiers, rest)

/-- A bit of the extension byte. -/
def bit (modifiers : Modifiers) (k : Nat) : Bool :=
  (modifiers.extension.getD 0).testBit k

/-- The size of operands: 64 bits on request, else 16 on request, else 32. -/
def width (modifiers : Modifiers) : Width :=
  if modifiers.bit 3 then .qword else if modifiers.narrowOperand then .word else .dword

/-- The number of a register with the bit that extends it. -/
def extend (modifiers : Modifiers) (k number : Nat) : Nat :=
  if modifiers.bit k then number + 8 else number

end Modifiers

/-- The register with this number at some size; without extension byte, the byte registers four to
seven are the second bytes of the first four registers. -/
def register (modifiers : Modifiers) (number : Nat) (width : Width) : Register :=
  if width == .byte && modifiers.extension.isNone && 4 ≤ number && number < 8 then
    .highByte number
  else .general number width

/-- The place that an operand byte names. -/
inductive Place where
  | register (number : Nat)
  | memory (memory : Memory)
  deriving Repr

/-- The two operands that an operand byte names: a register number or an extension of the opcode,
and a place. -/
structure OperandByte where
  /-- The middle bits without extension. -/
  digit : Nat
  /-- The middle bits as a register number. -/
  register : Nat
  place : Place
  deriving Repr

/-- The size of address registers. -/
def addressWidth (mode : Mode) (modifiers : Modifiers) : Width :=
  if mode == .bits64 && !modifiers.narrowAddress then .qword else .dword

/-- The base, index and scale behind an operand byte whose low bits are four. -/
def scaledIndex (modifiers : Modifiers) (width : Width) (mod : Nat) :
    Scan (Base × Option Register × Nat) := do
  let b ← Scan.byte
  let index := modifiers.extend 1 (b / 8 % 8)
  let base : Base :=
    if b % 8 == 5 && mod == 0 then .none
    else .register (.general (modifiers.extend 0 (b % 8)) width)
  if index == 4 then return (base, none, 1)
  else return (base, some (.general index width), 1 <<< (b / 64))

/-- The displacement that belongs to a memory operand. -/
def displacement (mod : Nat) (base : Base) : Scan UInt64 :=
  if mod == 1 then Scan.signed 1
  else if mod == 2 then Scan.signed 4
  else
    match base with
    | .register _ => return 0
    | _ => Scan.signed 4

/-- The operand byte and the bytes that belong to its place. -/
def operandByte (mode : Mode) (modifiers : Modifiers) : Scan OperandByte := do
  let b ← Scan.byte
  let mod := b / 64
  let digit := b / 8 % 8
  let low := b % 8
  let reg := modifiers.extend 2 digit
  if mod == 3 then return ⟨digit, reg, .register (modifiers.extend 0 low)⟩
  else
    let width := addressWidth mode modifiers
    let (base, index, scale) ←
      if low == 4 then scaledIndex modifiers width mod
      else if low == 5 && mod == 0 then
        let base : Base :=
          if mode == .bits32 then .none else if modifiers.narrowAddress then .eip else .rip
        pure (base, none, 1)
      else pure (.register (.general (modifiers.extend 0 low) width), none, 1)
    let displacement ← displacement mod base
    return ⟨digit, reg, .memory ⟨modifiers.segment, base, index, scale, displacement⟩⟩

/-- The place as an operand of a size. -/
def Place.operand (modifiers : Modifiers) (width : Width) : Place → Operand
  | .register number => .register (X86.register modifiers number width)
  | .memory m => .memory m (some width)

/-- An instruction without its address. -/
structure Body where
  mnemonic : String
  operands : List Operand
  /-- A call or a jump. -/
  isBranch : Bool := false
  /-- The distance from the next instruction to the target of the branch. -/
  distance : Option UInt64 := none
  deriving Repr

/-- The eight arithmetic operations in the order of their numbers. -/
def arithmetic (number : Nat) : String :=
  ["add", "or", "adc", "sbb", "and", "sub", "xor", "cmp"].getD number ""

/-- The operation writes a narrow immediate value with its sign. -/
def isSignedArithmetic (number : Nat) : Bool :=
  !(number == 1 || number == 4 || number == 6)

/-- The sixteen conditions in the order of their numbers. -/
def condition (number : Nat) : String :=
  ["o", "no", "b", "ae", "e", "ne", "be", "a", "s", "ns", "p", "np", "l", "ge", "le",
    "g"].getD number ""

/-- An immediate value of `count` bytes for an operand of a size: extended by its sign if it is
narrower, and then written with a sign if the operation asks for it. -/
def immediate (count : Nat) (width : Width) (signed : Bool) : Scan Operand := do
  let n ← Scan.number count
  if count < width.bytes then return .immediate (signExtend (8 * count) n) width signed
  else return .immediate (UInt64.ofNat n) width false

/-- The size of a full immediate value: two bytes for 16-bit operands and four bytes otherwise. -/
def fullImmediate (width : Width) : Nat := min width.bytes 4

/-- A branch over a distance of `count` bytes. -/
def relativeBranch (mnemonic : String) (count : Nat) : Scan Body := do
  let distance ← Scan.signed count
  return { mnemonic, operands := [], isBranch := true, distance := some distance }

/-- The instructions whose opcode is two bytes. -/
def longOpcode (mode : Mode) (modifiers : Modifiers) : Scan Body := do
  let opcode ← Scan.byte
  let width := modifiers.width
  if opcode == 0x1F then
    let o ← operandByte mode modifiers
    if o.digit == 0 then return { mnemonic := "nop", operands := [o.place.operand modifiers width] }
    else failure
  else if 0x80 ≤ opcode && opcode ≤ 0x8F then
    relativeBranch ("j" ++ condition (opcode - 0x80)) 4
  else if opcode == 0xB6 || opcode == 0xB7 then
    let o ← operandByte mode modifiers
    let source := o.place.operand modifiers (if opcode == 0xB6 then .byte else .word)
    return {
      mnemonic := "movzx"
      operands := [.register (register modifiers o.register width), source] }
  else failure

/-- The instructions of opcode `FF`, told apart by the operand byte. -/
def transferGroup (mode : Mode) (modifiers : Modifiers) : Scan Body := do
  let o ← operandByte mode modifiers
  let sized := o.place.operand modifiers modifiers.width
  let pointer := o.place.operand modifiers mode.pointerWidth
  match o.digit with
  | 0 => return { mnemonic := "inc", operands := [sized] }
  | 1 => return { mnemonic := "dec", operands := [sized] }
  | 2 => return { mnemonic := "call", operands := [pointer], isBranch := true }
  | 4 => return { mnemonic := "jmp", operands := [pointer], isBranch := true }
  | 6 => return { mnemonic := "push", operands := [pointer] }
  | _ => failure

/-- The instructions with an operand byte and one-byte opcodes from `63` on. -/
def operandOpcode (mode : Mode) (modifiers : Modifiers) (opcode : Nat) : Scan Body := do
  let o ← operandByte mode modifiers
  let width := modifiers.width
  let place := o.place.operand modifiers width
  let reg : Operand := .register (register modifiers o.register width)
  match opcode with
  | 0x63 =>
    if mode == .bits64 then
      return { mnemonic := "movsxd", operands := [reg, o.place.operand modifiers .dword] }
    else failure
  | 0x80 =>
    if o.digit == 7 then
      let value ← immediate 1 .byte false
      return { mnemonic := "cmp", operands := [o.place.operand modifiers .byte, value] }
    else failure
  | 0x81 =>
    let value ← immediate (fullImmediate width) width (isSignedArithmetic o.digit)
    return { mnemonic := arithmetic o.digit, operands := [place, value] }
  | 0x83 =>
    let value ← immediate 1 width (isSignedArithmetic o.digit)
    return { mnemonic := arithmetic o.digit, operands := [place, value] }
  | 0x85 => return { mnemonic := "test", operands := [place, reg] }
  | 0x89 => return { mnemonic := "mov", operands := [place, reg] }
  | 0x8B => return { mnemonic := "mov", operands := [reg, place] }
  | 0x8D =>
    match o.place with
    | .memory m => return { mnemonic := "lea", operands := [reg, .memory m none] }
    | .register _ => failure
  | 0xC7 =>
    if o.digit == 0 then
      let value ← immediate (fullImmediate width) width false
      return { mnemonic := "mov", operands := [place, value] }
    else failure
  | _ => failure

/-- The arithmetic instructions with opcodes below `40`. -/
def arithmeticOpcode (mode : Mode) (modifiers : Modifiers) (opcode : Nat) : Scan Body := do
  let number := opcode / 8
  let width := modifiers.width
  let mnemonic := arithmetic number
  match opcode % 8 with
  | 0 =>
    if number == 0 then
      let o ← operandByte mode modifiers
      return {
        mnemonic
        operands := [o.place.operand modifiers .byte,
          .register (register modifiers o.register .byte)] }
    else failure
  | 1 =>
    let o ← operandByte mode modifiers
    return {
      mnemonic
      operands := [o.place.operand modifiers width,
        .register (register modifiers o.register width)] }
  | 3 =>
    let o ← operandByte mode modifiers
    return {
      mnemonic
      operands := [.register (register modifiers o.register width),
        o.place.operand modifiers width] }
  | 5 =>
    let value ← immediate (fullImmediate width) width (isSignedArithmetic number)
    return { mnemonic, operands := [.register (.general 0 width), value] }
  | _ => failure

/-- The accumulator and the memory cell at an offset that is as wide as a pointer. -/
def offsetMove (mode : Mode) (modifiers : Modifiers) (store : Bool) : Scan Body := do
  let offset ← Scan.number mode.pointerWidth.bytes
  let cell : Memory := ⟨modifiers.segment, .none, none, 1, UInt64.ofNat offset⟩
  let accumulator : Operand := .register (.general 0 modifiers.width)
  let place : Operand := .memory cell (some modifiers.width)
  return {
    mnemonic := if mode == .bits64 then "movabs" else "mov"
    operands := if store then [place, accumulator] else [accumulator, place] }

/-- The instructions without operand byte whose opcodes are `40` and above. -/
def shortOpcode (mode : Mode) (modifiers : Modifiers) (opcode : Nat) : Scan Body := do
  let width := modifiers.width
  let numbered (width : Width) : Operand :=
    .register (.general (modifiers.extend 0 (opcode % 8)) width)
  if 0x40 ≤ opcode && opcode ≤ 0x47 then return { mnemonic := "inc", operands := [numbered width] }
  else if 0x48 ≤ opcode && opcode ≤ 0x4F then
    return { mnemonic := "dec", operands := [numbered width] }
  else if 0x50 ≤ opcode && opcode ≤ 0x57 then
    return { mnemonic := "push", operands := [numbered mode.pointerWidth] }
  else if 0x58 ≤ opcode && opcode ≤ 0x5F then
    return { mnemonic := "pop", operands := [numbered mode.pointerWidth] }
  else if 0x70 ≤ opcode && opcode ≤ 0x7F then
    relativeBranch ("j" ++ condition (opcode - 0x70)) 1
  else if 0xB8 ≤ opcode && opcode ≤ 0xBF then
    let value ← immediate width.bytes width false
    return {
      mnemonic := if width == .qword then "movabs" else "mov"
      operands := [numbered width, value] }
  else
    match opcode with
    | 0x68 =>
      let value ← immediate 4 mode.pointerWidth true
      return { mnemonic := "push", operands := [value] }
    | 0x6A =>
      let value ← immediate 1 mode.pointerWidth true
      return { mnemonic := "push", operands := [value] }
    | 0x90 => return { mnemonic := "nop", operands := [] }
    | 0x99 => return { mnemonic := if width == .qword then "cqo" else "cdq", operands := [] }
    | 0xA1 => offsetMove mode modifiers false
    | 0xA3 => offsetMove mode modifiers true
    | 0xC2 =>
      let value ← immediate 2 .word false
      return { mnemonic := "ret", operands := [value] }
    | 0xC3 => return { mnemonic := "ret", operands := [] }
    | 0xC9 => return { mnemonic := "leave", operands := [] }
    | 0xCC => return { mnemonic := "int3", operands := [] }
    | 0xE0 => relativeBranch "loopne" 1
    | 0xE1 => relativeBranch "loope" 1
    | 0xE2 => relativeBranch "loop" 1
    | 0xE3 =>
      relativeBranch (if mode == .bits32 || modifiers.narrowAddress then "jecxz" else "jrcxz") 1
    | 0xE8 => relativeBranch "call" 4
    | 0xE9 => relativeBranch "jmp" 4
    | 0xEB => relativeBranch "jmp" 1
    | _ => failure

/-- The opcodes from `63` on that are followed by an operand byte. -/
def hasOperandByte (opcode : Nat) : Bool :=
  [0x63, 0x80, 0x81, 0x83, 0x85, 0x89, 0x8B, 0x8D, 0xC7].contains opcode

/-- The opcode and all that follows it. -/
def body (mode : Mode) (modifiers : Modifiers) : Scan Body := do
  let opcode ← Scan.byte
  if opcode == 0x0F then longOpcode mode modifiers
  else if opcode < 0x40 then arithmeticOpcode mode modifiers opcode
  else if opcode == 0xFF then transferGroup mode modifiers
  else if hasOperandByte opcode then operandOpcode mode modifiers opcode
  else shortOpcode mode modifiers opcode

/-- One instruction at an address. -/
structure Insn where
  address : UInt64
  /-- The number of bytes. -/
  length : Nat
  mnemonic : String
  operands : List Operand
  /-- A call or a jump. -/
  isBranch : Bool
  deriving Repr

/-- The address behind the instruction. -/
def Insn.next (insn : Insn) : UInt64 :=
  insn.address + UInt64.ofNat insn.length

/-- No instruction is longer than this many bytes. -/
def maxLength : Nat := 15

/-- The instruction at the start of the bytes at an address. -/
def decode (mode : Mode) (address : UInt64) (bytes : List UInt8) : Option Insn := do
  let window := bytes.take maxLength
  let (modifiers, rest) := Modifiers.scanAll mode window
  let (found, behind) ← (body mode modifiers).run rest
  let length := window.length - behind.length
  let target (distance : UInt64) : Operand :=
    .immediate (mode.truncate (address + UInt64.ofNat length + distance)) mode.pointerWidth false
  return {
    address, length
    mnemonic := found.mnemonic
    operands := (found.distance.map fun d => [target d]).getD found.operands
    isBranch := found.isBranch }

end CodeListing.Isa.X86
