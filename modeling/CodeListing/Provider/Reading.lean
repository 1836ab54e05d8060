import CodeListing.Error
import CodeListing.Isa.Literal
import CodeListing.Provider.Basic

/-!
# Reading code and pointers

Whole ranges of code are read in pieces until nothing more comes.  Windows and pointers are read at
once or not at all.
-/

set_option autoImplicit false

namespace CodeListing.Provider

variable {σ : Type}

/-- The most bytes that are asked for at once. -/
def chunkSize : Nat := 65536

/-- Reads `missing` bytes from `start + offset` on, piece by piece, until nothing more comes. -/
def readOn (provider : Provider σ) (start : UInt64) (offset missing : Nat) :
    StateM σ (List UInt8) :=
  if _hmissing : missing = 0 then pure []
  else do
    let wanted := min missing chunkSize
    let answer ← provider.read (start + UInt64.ofNat offset) wanted
    let piece := answer.take wanted
    if _hpiece : piece.length = 0 then pure []
    else do
      let others ← provider.readOn start (offset + piece.length) (missing - piece.length)
      return piece ++ others
termination_by missing
decreasing_by
  have hpos : (List.take (min missing chunkSize) answer).length ≠ 0 := _hpiece
  omega

/-- Reads a whole range of code; a short read is an error. -/
def readRange (provider : Provider σ) (range : CodeRange) :
    StateM σ (Except Error (List UInt8)) := do
  let expected := range.length.toNat
  let bytes ← provider.readOn range.start 0 expected
  if bytes.length = expected then return .ok bytes
  else return .error (.shortRead range.start expected bytes.length)

/-- The bytes if there are as many as expected. -/
def complete? (expected : Nat) (bytes : List UInt8) : Option (List UInt8) :=
  if bytes.length = expected then some bytes else none

/-- Reads a window at once, without touching a cached view. -/
def readExact (provider : Provider σ) (address : UInt64) (length : Nat) :
    StateM σ (Option (List UInt8)) := do
  let bytes ← provider.read address length
  return complete? length bytes

/-- Reads a window at once; if nothing comes, a cached view is dropped and the read is tried once
more, because the runtime may have written new code since. -/
def readWindow (provider : Provider σ) (address : UInt64) (length : Nat) :
    StateM σ (Option (List UInt8)) := do
  let bytes ← provider.read address length
  if bytes.isEmpty && !provider.os.readsLive then
    provider.flush
    provider.readExact address length
  else return complete? length bytes

/-- Reads one pointer, the lowest byte first. -/
def readPointer (provider : Provider σ) (address : UInt64) : StateM σ (Option UInt64) := do
  let bytes ← provider.readExact address provider.pointerSize
  return bytes.map fun bytes => UInt64.ofNat (Isa.littleEndian bytes)

end CodeListing.Provider
