import CodeListing.Isa.Arm64.Facts
import CodeListing.Isa.X86.Reference
import CodeListing.Target.Architecture

/-!
# Instruction sets

The instruction sets that can be decoded, and the one for each architecture.  Single instructions
are found by decoders from outside, one for each instruction set; the ones that come with the
library know the instructions that compiled methods are mostly made of.
-/

set_option autoImplicit false

namespace CodeListing

/-- An instruction set that can be decoded. -/
inductive Isa where
  | x86 (mode : Isa.X86.Mode)
  | arm64
  deriving DecidableEq, Repr

namespace Isa

/-- The length of the shortest instruction in bytes. -/
def minLength : Isa → Nat
  | .x86 _ => 1
  | .arm64 => 4

/-- A decoder of single instructions for each instruction set. -/
structure Decoders where
  x86 : X86.Mode → Decoder Unit
  arm64 : Decoder Arm64.Facts
  x86_minLength : ∀ mode, (x86 mode).minLength = minLength (.x86 mode) := by intro; rfl
  arm64_minLength : arm64.minLength = minLength .arm64 := by rfl
  /-- Why the decoder of an instruction set cannot be set up, if it cannot. -/
  fault? : Isa → Option String := fun _ => none

namespace Decoders

/-- The decoders that come with the library. -/
def builtIn : Decoders where
  x86 := X86.decoder
  arm64 := Arm64.decoder

/-- The instruction set, if its decoder can be set up. -/
def ready (decoders : Decoders) (isa : Isa) : Except Error Isa :=
  match decoders.fault? isa with
  | some reason => .error (.decoder reason)
  | none => .ok isa

end Decoders

/-- The instruction set of x86 processors with addresses of this many bits. -/
def x86OfBits (decoders : Decoders) (bits : Nat) : Except Error Isa :=
  match bits with
  | 64 => decoders.ready (.x86 .bits64)
  | 32 => decoders.ready (.x86 .bits32)
  | other =>
    .error (.unsupportedArchitecture ("x86 with " ++ Text.decimal other ++ "-bit addressing"))

/-- The instruction set of an architecture. -/
def ofArchitecture (decoders : Decoders) : Architecture → Except Error Isa
  | .x64 => decoders.ready (.x86 .bits64)
  | .x86 => decoders.ready (.x86 .bits32)
  | .arm64 => decoders.ready .arm64
  | architecture => .error (.unsupportedArchitecture architecture.name)

/-- The architecture of the instruction set. -/
def architecture : Isa → Architecture
  | .x86 .bits64 => .x64
  | .x86 .bits32 => .x86
  | .arm64 => .arm64

/-- The width of a pointer in bytes. -/
def pointerSize (isa : Isa) : Nat :=
  isa.architecture.pointerSize

/-- The instructions of the bytes at an address, with references above the threshold. -/
def decode (isa : Isa) (decoders : Decoders) (threshold address : UInt64) (bytes : List UInt8) :
    List Instruction :=
  match isa with
  | .x86 mode => (decoders.x86 mode).stream threshold address bytes
  | .arm64 => decoders.arm64.stream threshold address bytes

end Isa

end CodeListing
