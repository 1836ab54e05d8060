import CodeListing.Error
import CodeListing.Provider.Basic
import CodeListing.Snapshot.Basic
import CodeListing.Source.Table

/-!
# A snapshot as a provider

The memory of a snapshot is sorted by address, so that a read finds its region by binary search.
Overlapping regions, and source spans of unknown methods, are refused.
-/

set_option autoImplicit false

namespace CodeListing

/-- The number of items in front of the first one, between `low` and `high`, that is not `before`.
-/
def partitionPointFrom {α : Type} (items : Array α) (before : α → Bool) (low high : Nat)
    (h : high ≤ items.size) : Nat :=
  if hlt : low < high then
    let middle := (low + high) / 2
    have hmiddle : middle < items.size := by omega
    if before items[middle] then partitionPointFrom items before (middle + 1) high h
    else partitionPointFrom items before low middle (by omega)
  else low
termination_by high - low

/-- The number of items in front of the first one that is not `before`, where all that are come
first. -/
def partitionPoint {α : Type} (items : Array α) (before : α → Bool) : Nat :=
  partitionPointFrom items before 0 items.size (Nat.le_refl _)

/-- The first neighbours of which the second starts before the first ends. -/
def overlap? : List MemoryRegion → Option (UInt64 × UInt64)
  | first :: second :: rest =>
    if second.address < first.stop then some (first.address, second.address)
    else overlap? (second :: rest)
  | _ => none

/-- A snapshot whose memory is sorted by address. -/
structure SnapshotIndex where
  snapshot : Snapshot
  regions : Array MemoryRegion

namespace SnapshotIndex

/-- The regions by address; regions with one address stay in the order given. -/
def sortRegions (memory : List MemoryRegion) : List MemoryRegion :=
  memory.mergeSort fun a b => a.address ≤ b.address

/-- The first source span of a method that the snapshot does not have. -/
def strayMapping? (snapshot : Snapshot) : Option SourceMapping :=
  snapshot.sources.find? fun mapping =>
    !snapshot.methods.any fun method => method.nativeCode == mapping.nativeCode

/-- Sorts the memory of a snapshot and checks that it makes sense. -/
def ofSnapshot (snapshot : Snapshot) : Except Error SnapshotIndex :=
  let regions := sortRegions snapshot.memory
  match overlap? regions with
  | some (first, second) => .error (.snapshot (.overlappingRegions first second))
  | none =>
    match strayMapping? snapshot with
    | some mapping => .error (.snapshot (.unknownSourceMethod mapping.nativeCode))
    | none => .ok ⟨snapshot, regions.toArray⟩

/-- A snapshot is accepted if its sorted regions do not overlap and no source span is stray. -/
theorem ofSnapshot_eq_ok_iff {snapshot : Snapshot} {index : SnapshotIndex} :
    ofSnapshot snapshot = .ok index ↔
      overlap? (sortRegions snapshot.memory) = none ∧ strayMapping? snapshot = none ∧
        index = ⟨snapshot, (sortRegions snapshot.memory).toArray⟩ := by
  cases hoverlap : overlap? (sortRegions snapshot.memory) with
  | some pair => simp [ofSnapshot, hoverlap]
  | none =>
    cases hstray : strayMapping? snapshot with
    | some mapping => simp [ofSnapshot, hoverlap, hstray]
    | none => simp [ofSnapshot, hoverlap, hstray, eq_comm]

/-- Regions that are in order stay as they are. -/
theorem sortRegions_of_pairwise {memory : List MemoryRegion}
    (h : memory.Pairwise fun a b => a.address ≤ b.address) : sortRegions memory = memory :=
  List.mergeSort_of_pairwise (h.imp decide_eq_true)

/-- A snapshot with its regions in order is accepted as it is if they do not overlap and no source
span is stray. -/
theorem ofSnapshot_eq_ok_of_pairwise {snapshot : Snapshot}
    (h : snapshot.memory.Pairwise fun a b => a.address ≤ b.address)
    (hoverlap : overlap? snapshot.memory = none) (hstray : strayMapping? snapshot = none) :
    ofSnapshot snapshot = .ok ⟨snapshot, snapshot.memory.toArray⟩ := by
  rw [ofSnapshot_eq_ok_iff, sortRegions_of_pairwise h]
  exact ⟨hoverlap, hstray, rfl⟩

/-- The region that holds an address. -/
def regionAt? (index : SnapshotIndex) (address : UInt64) : Option MemoryRegion :=
  let point := partitionPoint index.regions fun region => region.address ≤ address
  if point == 0 then none else index.regions[point - 1]?.filter fun region => address < region.stop

/-- Up to `count` bytes at an address, from the one region that holds it. -/
def read (index : SnapshotIndex) (address : UInt64) (count : Nat) : List UInt8 :=
  match index.regionAt? address with
  | none => []
  | some region => (region.bytes.drop (address.toNat - region.address.toNat)).take count

/-- The name at an address; of several names the last one counts. -/
def nameAt? (names : List NamedAddress) (address : UInt64) : Option String :=
  (names.reverse.find? (·.address == address)).map (·.name)

/-- The first compiled method whose code holds the address. -/
def methodAt? (snapshot : Snapshot) (address : UInt64) : Option Method :=
  snapshot.methods.find? fun method => method.isCompiled && method.contains address

/-- The first method whose descriptor lies at the address, which is not zero. -/
def methodOfDescriptor? (snapshot : Snapshot) (address : UInt64) : Option Method :=
  if address == 0 then none
  else snapshot.methods.find? fun method => method.descriptor == address

/-- The snapshot as a provider, which leaves every state as it is. -/
def provider (σ : Type) (index : SnapshotIndex) : Provider σ where
  architecture := index.snapshot.architecture
  os := index.snapshot.os
  version := index.snapshot.version
  pageSize := index.snapshot.pageSize
  methods := index.snapshot.methods
  read := fun address count => return index.read address count
  helperName? := fun address => return nameAt? index.snapshot.helpers address
  methodAt? := fun address => return methodAt? index.snapshot address
  methodOfDescriptor? := fun address => return methodOfDescriptor? index.snapshot address
  tableName? := fun address => return nameAt? index.snapshot.tables address

/-- The source spans of the snapshot. -/
def sourceTable (index : SnapshotIndex) (root : Option String) : SourceTable :=
  ⟨index.snapshot.sources, root⟩

/-- The snapshot as a locator of source lines, given the texts of the files that can be read.  The
files that were read are its state. -/
def locator (index : SnapshotIndex) (root : Option String) (contents : String → Option String) :
    SourceLocator FileCache :=
  fun method => (index.sourceTable root).readLines contents method.nativeCode

end SnapshotIndex

end CodeListing
