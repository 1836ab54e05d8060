import CodeListing.Provider.Reading
import CodeListing.Stub.Template

/-!
# Following an indirect transfer

An indirect transfer goes through a pointer cell and, if the pointer leads to the code of a stub, on
through the stub's data slot.
-/

set_option autoImplicit false

namespace CodeListing.Stub

variable {σ : Type}

/-- Where an indirect transfer leads. -/
structure Destination where
  address : UInt64
  /-- The address was found in the slot of a precode stub. -/
  isPrecode : Bool
  deriving DecidableEq, Repr

/-- The first template whose code lies at the address.  Only the first look may drop a cached view
of the memory. -/
def templateAt? (provider : Provider σ) (address : UInt64) (mayFlush : Bool) :
    List StubTemplate → StateM σ (Option StubTemplate)
  | [] => return none
  | template :: others => do
    let length := template.pattern.length
    let window ←
      if mayFlush then provider.readWindow address length else provider.readExact address length
    if window.any template.recognises then return some template
    else templateAt? provider address false others

/-- Where a transfer through the cell leads; none if a pointer on the way cannot be read. -/
def follow (provider : Provider σ) (templates : List StubTemplate) (reusesStubs : Bool)
    (cell : UInt64) : StateM σ (Option Destination) := do
  match ← provider.readPointer cell with
  | none => return none
  | some candidate =>
    if !reusesStubs then return some ⟨candidate, false⟩
    else
      match ← templateAt? provider candidate true templates with
      | none => return some ⟨candidate, false⟩
      | some template =>
        let target ← provider.readPointer (template.slotAddress candidate)
        return target.map fun address => ⟨address, template.isPrecode⟩

end CodeListing.Stub
