import CodeListing.Target.Architecture

/-!
# Operating systems

The operating system of the inspected process decides below which address nothing is ever asked of
the runtime.
-/

set_option autoImplicit false

namespace CodeListing

/-- The operating system of the inspected process. -/
inductive Os where
  | windows
  | linux
  | macos
  | other
  deriving DecidableEq, Repr

namespace Os

/-- The names of the operating systems. -/
def variants : List (String × Os) :=
  [("windows", .windows), ("linux", .linux), ("macos", .macos), ("other", .other)]

/-- The name of the operating system. -/
def name : Os → String
  | .windows => "windows"
  | .linux => "linux"
  | .macos => "macos"
  | .other => "other"

/-- Reads go straight to the live process instead of through a cached view. -/
def readsLive : Os → Bool
  | .windows => true
  | _ => false

/-- The lowest address that may be dereferenced in the inspected process. -/
def minValidAddress (os : Os) (architecture : Architecture) (pageSize : UInt64) : UInt64 :=
  match os, architecture with
  | .windows, _ => 0x10000
  | .linux, _ => max pageSize 1
  | .other, _ => max pageSize 1
  | .macos, .arm64 => 0x100000000
  | .macos, _ => 4096

/-- The operating system as a document. -/
def toDocument (os : Os) : Document :=
  .string os.name

/-- How operating systems are read off documents. -/
def decoder : Document.Decoder Os := .variant variants

/-- The operating system that a document names. -/
def ofDocument? : Document → Document.Decoded Os := decoder.read

end Os

end CodeListing
