import CodeListing.Provider.Basic

/-!
# Providers around providers

Providers that behave like another one but cut its reads, answer from a stale cache until they are
flushed, write down what they are asked, or offer only what every provider has to.
-/

set_option autoImplicit false

namespace CodeListing.Provider

variable {σ : Type}

/-- A computation on one part of a state. -/
def onSecond {τ α : Type} (run : StateM σ α) : StateM (τ × σ) α := fun (first, second) =>
  let (a, second') := run second
  (a, (first, second'))

/-- The same provider with one more part of state. -/
def withState (τ : Type) (provider : Provider σ) : Provider (τ × σ) where
  architecture := provider.architecture
  os := provider.os
  version := provider.version
  pageSize := provider.pageSize
  methods := provider.methods
  codeRanges := provider.codeRanges
  read := fun address count => onSecond (provider.read address count)
  flush := onSecond provider.flush
  helperName? := fun address => onSecond (provider.helperName? address)
  methodAt? := fun address => onSecond (provider.methodAt? address)
  methodOfDescriptor? := fun address => onSecond (provider.methodOfDescriptor? address)
  tableName? := fun address => onSecond (provider.tableName? address)

/-- The same locator with one more part of state. -/
def locatorWithState (τ : Type) (locator : SourceLocator σ) : SourceLocator (τ × σ) :=
  fun method => onSecond (locator method)

/-- One read gives at most so many bytes. -/
def limitReads (limit : Option Nat) (provider : Provider σ) : Provider σ :=
  match limit with
  | none => provider
  | some n => { provider with read := fun address count => provider.read address (min count n) }

/-- A range of addresses. -/
structure AddressSpan where
  address : UInt64
  length : Nat
  deriving DecidableEq, Repr

/-- The address lies in the span. -/
def AddressSpan.contains (span : AddressSpan) (address : UInt64) : Bool :=
  span.address ≤ address && address.toNat < span.address.toNat + span.length

/-- Reads that start in a stale span give nothing until the first flush; flushes are counted. -/
def withStaleCache (stale : List AddressSpan) (provider : Provider σ) : Provider (Nat × σ) :=
  { provider.withState Nat with
    read := fun address count => do
      let (flushes, _) ← get
      if flushes == 0 && stale.any (·.contains address) then return []
      else onSecond (provider.read address count)
    flush := do
      modify fun (flushes, rest) => (flushes + 1, rest)
      onSecond provider.flush }

/-- What a provider was asked about an address. -/
inductive Query where
  | helper (address : UInt64)
  | method (address : UInt64)
  | descriptor (address : UInt64)
  | table (address : UInt64)
  deriving DecidableEq, Repr

/-- The address that was asked about. -/
def Query.address : Query → UInt64
  | .helper a => a
  | .method a => a
  | .descriptor a => a
  | .table a => a

/-- Every question about an address is written down, in order. -/
def logged (provider : Provider σ) : Provider (List Query × σ) :=
  let note (query : Query) : StateM (List Query × σ) Unit :=
    modify fun (log, rest) => (log ++ [query], rest)
  { provider.withState (List Query) with
    helperName? := fun address => do
      note (.helper address)
      onSecond (provider.helperName? address)
    methodAt? := fun address => do
      note (.method address)
      onSecond (provider.methodAt? address)
    methodOfDescriptor? := fun address => do
      note (.descriptor address)
      onSecond (provider.methodOfDescriptor? address)
    tableName? := fun address => do
      note (.table address)
      onSecond (provider.tableName? address) }

/-- Only what every provider has to offer; all else is as if nothing was known. -/
def bare (provider : Provider σ) : Provider σ where
  architecture := provider.architecture
  os := provider.os
  version := provider.version
  read := provider.read
  helperName? := provider.helperName?
  methodAt? := provider.methodAt?
  methodOfDescriptor? := provider.methodOfDescriptor?
  tableName? := provider.tableName?

end CodeListing.Provider
