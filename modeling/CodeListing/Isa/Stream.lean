import CodeListing.Instruction

/-!
# From bytes to a row of instructions

A one-instruction decoder is applied again and again.  Where it finds no instruction, bytes of the
shortest instruction length become an invalid marker and decoding goes on behind them.
-/

set_option autoImplicit false

namespace CodeListing.Isa

/-- The address that the operands of an instruction refer to, if they do. -/
structure Reference where
  address : Option UInt64
  /-- Control goes through a register or a memory cell. -/
  isIndirect : Bool
  deriving DecidableEq, Repr

namespace Reference

/-- No reference. -/
def none : Reference := ⟨Option.none, false⟩

/-- A reference to the address itself. -/
def direct (address : UInt64) : Reference := ⟨some address, false⟩

/-- A reference through the cell at the address. -/
def through (cell : UInt64) : Reference := ⟨some cell, true⟩

/-- Control goes to an unknown place. -/
def unknownTransfer : Reference := ⟨Option.none, true⟩

end Reference

/-- One instruction found at the start of some bytes. -/
structure Found where
  /-- How many bytes it takes. -/
  length : Nat
  mnemonic : String
  operands : String
  reference : Reference
  deriving Repr

/-- A one-instruction decoder that may remember facts from earlier instructions. -/
structure Decoder (τ : Type) where
  /-- The length of the shortest instruction, and of an invalid marker. -/
  minLength : Nat
  minLength_pos : 0 < minLength
  /-- What is remembered before the first instruction. -/
  start : τ
  /-- The instruction at an address with these bytes from there on, and what to remember. -/
  decode : τ → UInt64 → List UInt8 → Option (Found × τ)

/-- The instruction as it is listed; references up to the threshold are small numbers. -/
def Found.toInstruction (found : Found) (threshold address : UInt64) (bytes : List UInt8) :
    Instruction where
  address := address
  length := UInt32.ofNat found.length
  validity := .valid
  bytes := bytes.take found.length
  mnemonic := found.mnemonic
  operands := found.operands
  reference := found.reference.address.filter (threshold < ·)
  isIndirect := found.reference.isIndirect
  symbol := none

/-- The instructions of the bytes at an address, given what is remembered so far. -/
def Decoder.streamFrom {τ : Type} (decoder : Decoder τ) (threshold : UInt64) (memory : τ)
    (address : UInt64) (bytes : List UInt8) : List Instruction :=
  if _hlength : (bytes.take decoder.minLength).length < decoder.minLength then []
  else
    have _hmin := decoder.minLength_pos
    match decoder.decode memory address bytes with
    | some (found, memory') =>
      if _hpos : 0 < found.length then
        found.toInstruction threshold address bytes ::
          decoder.streamFrom threshold memory' (address + UInt64.ofNat found.length)
            (bytes.drop found.length)
      else
        .invalid address (bytes.take decoder.minLength) ::
          decoder.streamFrom threshold memory' (address + UInt64.ofNat decoder.minLength)
            (bytes.drop decoder.minLength)
    | none =>
      .invalid address (bytes.take decoder.minLength) ::
        decoder.streamFrom threshold memory (address + UInt64.ofNat decoder.minLength)
          (bytes.drop decoder.minLength)
termination_by bytes.length
decreasing_by
  all_goals
    rw [List.length_take] at _hlength
    rw [List.length_drop]
    omega

/-- The instructions of the bytes at an address. -/
def Decoder.stream {τ : Type} (decoder : Decoder τ) (threshold address : UInt64)
    (bytes : List UInt8) : List Instruction :=
  decoder.streamFrom threshold decoder.start address bytes

end CodeListing.Isa
