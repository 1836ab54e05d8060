import CodeListing.Method
import CodeListing.Source.Line
import CodeListing.Target.Os
import CodeListing.Target.RuntimeVersion

/-!
# The inspected runtime

A provider gives access to an inspected runtime: its memory, its compiled methods and the names of
its internal structures.  Its answers may depend on a state of its own and change it, and so may the
source lines that a locator finds for a method.
-/

set_option autoImplicit false

namespace CodeListing

/-- Access to an inspected runtime with a state of type `σ`. -/
structure Provider (σ : Type) where
  architecture : Architecture
  os : Os
  version : RuntimeVersion
  /-- The size of a memory page of the inspected process. -/
  pageSize : UInt64 := 4096
  /-- Every method the runtime knows about. -/
  methods : List Method := []
  /-- The blocks of compiled code of a method, in any order. -/
  codeRanges : Method → List CodeRange := Method.codeRanges
  /-- Reads up to so many bytes at an address; fewer, or none, may come back. -/
  read : UInt64 → Nat → StateM σ (List UInt8)
  /-- Drops a cached view of the memory. -/
  flush : StateM σ Unit := pure ()
  /-- The name of the helper routine at an address. -/
  helperName? : UInt64 → StateM σ (Option String)
  /-- The method whose compiled code holds an address. -/
  methodAt? : UInt64 → StateM σ (Option Method)
  /-- The method whose descriptor lies at an address. -/
  methodOfDescriptor? : UInt64 → StateM σ (Option Method)
  /-- The name of the method table at an address. -/
  tableName? : UInt64 → StateM σ (Option String)

/-- The width of a pointer of the inspected process in bytes. -/
def Provider.pointerSize {σ : Type} (provider : Provider σ) : Nat :=
  provider.architecture.pointerSize

/-- The source lines of a method, which may depend on what was asked before. -/
abbrev SourceLocator (σ : Type) : Type := Method → StateM σ (List SourceLine)

end CodeListing
