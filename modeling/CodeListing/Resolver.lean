import CodeListing.Listing.Text
import CodeListing.Provider.Reading
import CodeListing.Scheduler

/-!
# What lives at an address

An address that an instruction refers to gets a name: a label inside the method itself, a name that
is known already, or what the runtime says about the address.  A compiled method that is found on
the way is a callee of the method being listed.
-/

set_option autoImplicit false

namespace CodeListing

variable {σ : Type}

/-- The method that is being listed. -/
structure Current where
  method : Method
  ranges : List CodeRange
  depth : UInt32

namespace Current

/-- The lowest address of the method's code, from which its labels count. -/
def labelBase (current : Current) : UInt64 :=
  (current.ranges.map (·.start)).min?.getD current.method.nativeCode

/-- The address lies in the method's code. -/
def contains (current : Current) (address : UInt64) : Bool :=
  current.ranges.any (·.contains address)

end Current

/-- The runtime may be asked about the address. -/
def isValidAddress (guard address : UInt64) : Bool :=
  address != 0 && address != 0xFFFFFFFFFFFFFFFF && guard ≤ address

/-- What the runtime says about an address. -/
inductive Finding where
  | helper (name : String)
  | method (method : Method)
  | descriptor (method : Method)
  | table (name : String)
  | nothing
  deriving DecidableEq, Repr

/-- The compiled method that holds the address, or that holds the target of the pointer cell at the
address if it is aligned. -/
def methodThrough? (provider : Provider σ) (guard address : UInt64) :
    StateM σ (Option Method) := do
  match ← provider.methodAt? address with
  | some method => return some method
  | none =>
    if address.toNat % provider.pointerSize != 0 then return none
    else
      match ← provider.readPointer address with
      | some target =>
        if isValidAddress guard target then provider.methodAt? target else return none
      | none => return none

/-- A name that is not empty. -/
def nonEmpty? (name : Option String) : Option String :=
  name.filter fun text => !text.isEmpty

/-- The method whose descriptor lies at the address, or else the method table there. -/
def structureAt (provider : Provider σ) (address : UInt64) : StateM σ Finding := do
  match ← provider.methodOfDescriptor? address with
  | some method => return .descriptor method
  | none =>
    match nonEmpty? (← provider.tableName? address) with
    | some name => return .table name
    | none => return .nothing

/-- What the runtime says about an address: a helper routine comes before a compiled method, and
that before a method descriptor and a method table. -/
def identify (provider : Provider σ) (guard address : UInt64) : StateM σ Finding := do
  match nonEmpty? (← provider.helperName? address) with
  | some name => return .helper name
  | none =>
    match ← methodThrough? provider guard address with
    | some method => return .method method
    | none => structureAt provider address

/-- The depth one call further, up to the largest one. -/
def nextDepth (depth : UInt32) : UInt32 :=
  if depth == 0xFFFFFFFF then depth else depth + 1

/-- The name of a finding seen from the method being listed, which is not named in itself. -/
def Finding.name? (current : Current) (isPrecode : Bool) : Finding → Option String
  | .helper name => some name
  | .method found =>
    if found.identity == current.method.identity then none else some found.displayName
  | .descriptor found =>
    some ((if isPrecode then "Precode of " else "MD_") ++ found.signature)
  | .table name => some ("MT_" ++ name)
  | .nothing => none

/-- The callee that a finding is, one call further than the method being listed. -/
def Finding.callee? (current : Current) : Finding → Option WorkItem
  | .method found =>
    if found.identity == current.method.identity then none
    else some ⟨found, nextDepth current.depth⟩
  | _ => none

/-- What the references of a method have brought to light: names, and callees in order. -/
structure Findings where
  names : NameMap
  callees : List WorkItem := []

/-- Adds a finding about an address. -/
def Findings.add (findings : Findings) (current : Current) (isPrecode : Bool) (address : UInt64)
    (finding : Finding) : Option String × Findings :=
  match finding.name? current isPrecode with
  | none => (none, findings)
  | some name =>
    (some name,
      { names := findings.names.insert address name
        callees := findings.callees ++ (finding.callee? current).toList })

/-- The name of an address that the method being listed refers to, and what comes to light with it.
-/
def resolve (provider : Provider σ) (guard : UInt64) (current : Current) (isPrecode : Bool)
    (address : UInt64) (findings : Findings) : StateM σ (Option String × Findings) := do
  if current.contains address then
    return (some (localLabel (address - current.labelBase)), findings)
  else
    match findings.names.get? address with
    | some name => return (some name, findings)
    | none =>
      if isValidAddress guard address then
        let finding ← identify provider guard address
        return findings.add current isPrecode address finding
      else return (none, findings)

end CodeListing
