import CodeListing.Document.Decoder
import CodeListing.Error
import CodeListing.Text.Blank
import CodeListing.Text.LowerCase

/-!
# Architectures

The instruction-set family of the inspected process, read from the names under which it is known.
-/

set_option autoImplicit false

namespace CodeListing

/-- The instruction-set family of the inspected process. -/
inductive Architecture where
  | x86
  | x64
  | arm64
  | arm
  | other (name : String)
  deriving DecidableEq, Repr

namespace Architecture

/-- The name under which the architecture is shown. -/
def name : Architecture → String
  | .x86 => "x86"
  | .x64 => "x64"
  | .arm64 => "arm64"
  | .arm => "arm"
  | .other name => name

/-- The width of a pointer in bytes. -/
def pointerSize : Architecture → Nat
  | .x86 => 4
  | .arm => 4
  | _ => 8

/-- None of the known families. -/
def isOther : Architecture → Bool
  | .other _ => true
  | _ => false

/-- The architecture with this lower-case name. -/
def ofLowerName (name : String) : Architecture :=
  match name with
  | "x86" | "i386" | "i686" => .x86
  | "x64" | "x86_64" | "amd64" => .x64
  | "arm64" | "aarch64" => .arm64
  | "arm" | "armv7" => .arm
  | unknown => .other unknown

/-- The architecture that a text names, in any case and with white space around it. -/
def ofText (text : String) : Except Error Architecture :=
  let lowered := Text.lowerText (Text.trim text)
  if lowered.isEmpty then .error (.invalidConfiguration .emptyArchitecture)
  else .ok (ofLowerName lowered)

/-- The architecture as a document. -/
def toDocument (architecture : Architecture) : Document :=
  .string architecture.name

/-- How architectures are read off documents. -/
def decoder : Document.Decoder Architecture :=
  .ofText ofText fun e => e.message

/-- The architecture that a document names. -/
def ofDocument? : Document → Document.Decoded Architecture := decoder.read

end Architecture

end CodeListing
