import CodeListing.Isa.Arm64.Insn

/-!
# Decoding one Arm64 instruction

An instruction is a word of 32 bits.  Each family of instructions is recognised by fixed bits and
read by a function of its own.
-/

set_option autoImplicit false

namespace CodeListing.Isa.Arm64

/-- The field of `count` bits from bit `low` on. -/
def field (word low count : Nat) : Nat :=
  (word >>> low) % (1 <<< count)

/-- One bit. -/
def bit (word k : Nat) : Bool :=
  field word k 1 == 1

/-- The signed field of `count` bits from bit `low` on, times `scale`, as a word. -/
def signedField (word low count scale : Nat) : UInt64 :=
  wordOfInt (signedOfBits count (field word low count) * scale)

/-- The register in the lowest five bits, the zero register being number 31. -/
def target (wide : Bool) (word : Nat) : Operand :=
  .register (.ofNumber wide (field word 0 5))

/-- The register in the five bits from bit 5 on, the zero register being number 31. -/
def source (wide : Bool) (word : Nat) : Operand :=
  .register (.ofNumber wide (field word 5 5))

/-- The register in the five bits from bit 16 on, the zero register being number 31. -/
def secondSource (wide : Bool) (word : Nat) : Operand :=
  .register (.ofNumber wide (field word 16 5))

/-- The register that an address starts from. -/
def baseRegister (word : Nat) : Register :=
  .ofNumberOrSp true (field word 5 5)

/-- The sixteen conditions in the order of their numbers. -/
def condition (number : Nat) : String :=
  ["eq", "ne", "hs", "lo", "mi", "pl", "vs", "vc", "hi", "ls", "ge", "lt", "gt", "le", "al",
    "nv"].getD number ""

/-- Branches to a fixed distance. -/
def branch? (address : UInt64) (word : Nat) : Option Insn :=
  let toward (low count : Nat) : Operand :=
    .immediate (address + signedField word low count 4) false
  if field word 26 6 == 0b000101 then some ⟨.b, [toward 0 26], none⟩
  else if field word 26 6 == 0b100101 then some ⟨.bl, [toward 0 26], none⟩
  else if field word 24 8 == 0b01010100 && !bit word 4 then
    some ⟨.bCond (condition (field word 0 4)), [toward 5 19], none⟩
  else if field word 25 6 == 0b011010 then
    some ⟨if bit word 24 then .cbnz else .cbz, [target (bit word 31) word, toward 5 19], none⟩
  else if field word 25 6 == 0b011011 then
    let position := 32 * field word 31 1 + field word 19 5
    some ⟨if bit word 24 then .tbnz else .tbz,
      [target (bit word 31) word, .immediate (UInt64.ofNat position) false, toward 5 14], none⟩
  else none

/-- Branches through a register. -/
def registerBranch? (word : Nat) : Option Insn :=
  let fixed := field word 10 22
  if field word 0 5 != 0 then none
  else if fixed == 0xD61F0000 / 1024 then some ⟨.br, [source true word], none⟩
  else if fixed == 0xD63F0000 / 1024 then some ⟨.blr, [source true word], none⟩
  else if fixed == 0xD65F0000 / 1024 then
    some ⟨.ret, if field word 5 5 == 30 then [] else [source true word], none⟩
  else none

/-- Addresses relative to the instruction, or to its page of 4 KiB. -/
def relativeAddress? (address : UInt64) (word : Nat) : Option Insn :=
  if field word 24 5 != 0b10000 then none
  else
    let distance := signedOfBits 21 (4 * field word 5 19 + field word 29 2)
    if bit word 31 then
      let page := (address &&& 0xFFFFFFFFFFFFF000) + wordOfInt (distance * 4096)
      some ⟨.adrp, [target true word, .immediate page false], none⟩
    else some ⟨.adr, [target true word, .immediate (address + wordOfInt distance) false], none⟩

/-- Addition and subtraction of a number. -/
def addNumber? (word : Nat) : Option Insn :=
  if field word 23 6 != 0b100010 then none
  else
    let wide := bit word 31
    let subtracts := bit word 30
    let setsFlags := bit word 29
    let n := field word 10 12
    let shift := if bit word 22 then some 12 else none
    let value : Operand := .immediate (UInt64.ofNat n) false
    let augend : Operand := .register (.ofNumberOrSp wide (field word 5 5))
    let plainTarget : Operand := .register (.ofNumberOrSp wide (field word 0 5))
    if setsFlags then
      if field word 0 5 == 31 then
        some ⟨if subtracts then .cmp else .cmn, [augend, value], shift⟩
      else some ⟨if subtracts then .subs else .adds, [target wide word, augend, value], shift⟩
    else if !subtracts && n == 0 && !bit word 22 &&
        (field word 0 5 == 31 || field word 5 5 == 31) then
      some ⟨.mov, [plainTarget, augend], none⟩
    else some ⟨if subtracts then .sub else .add, [plainTarget, augend, value], shift⟩

/-- Addition and subtraction of a register that may be shifted to the left. -/
def addRegister? (word : Nat) : Option Insn :=
  if field word 24 5 != 0b01011 || field word 21 3 != 0 then none
  else
    let wide := bit word 31
    let subtracts := bit word 30
    let amount := field word 10 6
    let shift := if amount == 0 then none else some amount
    let sources := [source wide word, secondSource wide word]
    if bit word 29 then
      if field word 0 5 == 31 then some ⟨if subtracts then .cmp else .cmn, sources, shift⟩
      else some ⟨if subtracts then .subs else .adds, target wide word :: sources, shift⟩
    else some ⟨if subtracts then .sub else .add, target wide word :: sources, shift⟩

/-- Copies of a register, tests of bits and conditional selection. -/
def registerMove? (word : Nat) : Option Insn :=
  let wide := bit word 31
  if field word 21 10 == 0b0101010000 && field word 10 6 == 0 && field word 5 5 == 31 then
    some ⟨.mov, [target wide word, secondSource wide word], none⟩
  else if field word 21 10 == 0b1101010000 && field word 10 6 == 0 && field word 0 5 == 31 then
    some ⟨.tst, [source wide word, secondSource wide word], none⟩
  else if field word 21 10 == 0b0011010100 && field word 10 2 == 0 then
    some ⟨.csel,
      [target wide word, source wide word, secondSource wide word,
        .condition (condition (field word 12 4))], none⟩
  else none

/-- At most one of the 16-bit parts of the number is not zero. -/
def isOnePart (value : Nat) : Bool :=
  (List.range 4).any fun k => value == field value (16 * k) 16 <<< (16 * k)

/-- Numbers of 16 bits moved into a part of a register.  Such an instruction is written as a move of
the whole value, except where the value does not tell the instruction: a zero that is shifted, and a
complement that could also be moved without complement. -/
def wideMove? (word : Nat) : Option Insn :=
  if field word 23 6 != 0b100101 then none
  else
    let wide := bit word 31
    let width := if wide then 64 else 32
    let n := field word 5 16
    let amount := 16 * field word 21 2
    let shift := if amount == 0 then none else some amount
    let part : Operand := .immediate (UInt64.ofNat n) false
    let shiftedZero := n == 0 && amount != 0
    let whole (value : Int) : Operand :=
      .immediate (wordOfInt (signedOfBits width (value % Int.ofNat (1 <<< width)).toNat)) true
    match field word 29 2 with
    | 0b00 =>
      let complement := -Int.ofNat (n <<< amount) - 1
      if shiftedZero || isOnePart (complement % Int.ofNat (1 <<< width)).toNat then
        some ⟨.movn, [target wide word, part], shift⟩
      else some ⟨.mov, [target wide word, whole complement], none⟩
    | 0b10 =>
      if shiftedZero then some ⟨.movz, [target wide word, part], shift⟩
      else some ⟨.mov, [target wide word, whole (Int.ofNat (n <<< amount))], none⟩
    | 0b11 => some ⟨.movk, [target wide word, part], shift⟩
    | _ => none

/-- Loads from a fixed distance. -/
def literalLoad? (address : UInt64) (word : Nat) : Option Insn :=
  if field word 24 6 != 0b011000 then none
  else
    let place : Operand := .immediate (address + signedField word 5 19 4) false
    match field word 30 2 with
    | 0b00 => some ⟨.ldr, [target false word, place], none⟩
    | 0b01 => some ⟨.ldr, [target true word, place], none⟩
    | 0b10 => some ⟨.ldrsw, [target true word, place], none⟩
    | _ => none

/-- The operation and the width of the register for the size and the kind of an access. -/
def access? (word : Nat) (load store : Op) : Option (Op × Bool) :=
  match field word 30 2, field word 22 2 with
  | 0b11, 0b01 => some (load, true)
  | 0b11, 0b00 => some (store, true)
  | 0b10, 0b01 => some (load, false)
  | 0b10, 0b00 => some (store, false)
  | _, _ => none

/-- Loads and stores at a distance that is a multiple of the size of the access. -/
def offsetAccess? (word : Nat) : Option Insn :=
  if field word 24 6 != 0b111001 then none
  else
    let size := 1 <<< field word 30 2
    let place : Operand :=
      .memory (baseRegister word) none (UInt64.ofNat (field word 10 12 * size)) .none
    match field word 30 2, field word 22 2 with
    | 0b01, 0b01 => some ⟨.ldrh, [target false word, place], none⟩
    | 0b00, 0b01 => some ⟨.ldrb, [target false word, place], none⟩
    | _, _ => (access? word .ldr .str).map fun (op, wide) => ⟨op, [target wide word, place], none⟩

/-- Loads and stores at a small distance, before or after the base register moves, and at an
index. -/
def indexedAccess? (word : Nat) : Option Insn :=
  if field word 24 6 != 0b111000 then none
  else
    let base := baseRegister word
    let distance := signedField word 12 9 1
    match bit word 21, field word 10 2 with
    | false, 0b00 =>
      (access? word .ldur .stur).map fun (op, wide) =>
        ⟨op, [target wide word, .memory base none distance .none], none⟩
    | false, 0b01 =>
      (access? word .ldr .str).map fun (op, wide) =>
        ⟨op, [target wide word, .memory base none 0 .after, .immediate distance true], none⟩
    | false, 0b11 =>
      (access? word .ldr .str).map fun (op, wide) =>
        ⟨op, [target wide word, .memory base none distance .before], none⟩
    | true, 0b10 =>
      if field word 13 3 == 0b011 then
        let amount := if bit word 12 then field word 30 2 else 0
        let index : Register := .ofNumber true (field word 16 5)
        (access? word .ldr .str).map fun (op, wide) =>
          ⟨op, [target wide word, .memory base (some (index, amount)) 0 .none], none⟩
      else none
    | _, _ => none

/-- Loads and stores of two registers. -/
def pairAccess? (word : Nat) : Option Insn :=
  if field word 26 4 != 0b1010 || field word 30 2 != 0b10 then none
  else
    let op : Op := if bit word 22 then .ldp else .stp
    let base := baseRegister word
    let distance := signedField word 15 7 8
    let registers := [target true word, .register (.ofNumber true (field word 10 5))]
    match field word 23 3 with
    | 0b001 =>
      some ⟨op, registers ++ [.memory base none 0 .after, .immediate distance true], none⟩
    | 0b010 => some ⟨op, registers ++ [.memory base none distance .none], none⟩
    | 0b011 => some ⟨op, registers ++ [.memory base none distance .before], none⟩
    | _ => none

/-- The instruction that a word at an address stands for. -/
def decodeWord (address : UInt64) (word : Nat) : Option Insn :=
  if word == 0xD503201F then some ⟨.nop, [], none⟩
  else
    branch? address word <|> registerBranch? word <|> relativeAddress? address word <|>
      addNumber? word <|> addRegister? word <|> registerMove? word <|> wideMove? word <|>
      literalLoad? address word <|> offsetAccess? word <|> indexedAccess? word <|> pairAccess? word

/-- The instruction at the start of the bytes at an address. -/
def decode (address : UInt64) (bytes : List UInt8) : Option Insn :=
  let word := bytes.take 4
  if word.length < 4 then none else decodeWord address (littleEndian word)

end CodeListing.Isa.Arm64
