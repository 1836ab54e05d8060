import CodeListing.Provider.Basic

/-!
# Memory and the providers that serve it

A memory map says which byte lies at which address.  What a read gets is another matter: fewer bytes
may come than were asked for, as a memory view says for each address and number of bytes.
-/

set_option autoImplicit false

namespace CodeListing

variable {σ : Type}

/-- The contents of a memory: a byte at each address that is mapped. -/
abbrev MemoryMap : Type := UInt64 → Option UInt8

namespace MemoryMap

/-- Only these bytes are mapped, from the address on. -/
def ofBytes (start : UInt64) (bytes : List UInt8) : MemoryMap :=
  fun address => bytes[(address - start).toNat]?

/-- The address is mapped. -/
def Maps (memory : MemoryMap) (address : UInt64) : Prop :=
  memory address ≠ none

instance (memory : MemoryMap) (address : UInt64) : Decidable (memory.Maps address) :=
  inferInstanceAs (Decidable (memory address ≠ none))

/-- The bytes lie in the memory from the address on; behind the largest address comes zero. -/
def Holds (memory : MemoryMap) (address : UInt64) (bytes : List UInt8) : Prop :=
  ∀ i b, bytes[i]? = some b → memory (address + UInt64.ofNat i) = some b

variable {memory : MemoryMap} {address : UInt64} {bytes others : List UInt8}

/-- The empty row of bytes is held everywhere. -/
theorem holds_nil : memory.Holds address [] := by
  intro i b h
  simp at h

/-- Bytes that are held one behind the other are held together. -/
theorem Holds.append (h : memory.Holds address bytes)
    (hothers : memory.Holds (address + UInt64.ofNat bytes.length) others) :
    memory.Holds address (bytes ++ others) := by
  intro i b hget
  by_cases hi : i < bytes.length
  · rw [List.getElem?_append_left hi] at hget
    exact h i b hget
  · have hle : bytes.length ≤ i := Nat.le_of_not_lt hi
    rw [List.getElem?_append_right hle] at hget
    have hadd : address + UInt64.ofNat i =
        address + UInt64.ofNat bytes.length + UInt64.ofNat (i - bytes.length) := by
      rw [UInt64.add_assoc, ← UInt64.ofNat_add, Nat.add_sub_cancel' hle]
    rw [hadd]
    exact hothers _ b hget

/-- The address of a byte that is held is mapped. -/
theorem Holds.maps (h : memory.Holds address bytes) {i : Nat} (hi : i < bytes.length) :
    memory.Maps (address + UInt64.ofNat i) := by
  intro hnone
  rw [h i _ (List.getElem?_eq_getElem hi)] at hnone
  cases hnone

end MemoryMap

/-- A view of a memory: what a read at an address gets if it asks for so many bytes. -/
abbrev MemoryView : Type := UInt64 → Nat → List UInt8

namespace MemoryView

/-- Reads get as many of these bytes as there are, from the address on. -/
def ofBytes (start : UInt64) (bytes : List UInt8) : MemoryView :=
  fun address count => (bytes.drop (address - start).toNat).take count

/-- All that reads get lies in the memory. -/
def IsOf (view : MemoryView) (memory : MemoryMap) : Prop :=
  ∀ address count, memory.Holds address (view address count)

/-- Reads that get these bytes are reads of the memory in which only they are mapped. -/
theorem isOf_ofBytes (start : UInt64) {bytes : List UInt8} (h : bytes.length ≤ UInt64.size) :
    (ofBytes start bytes).IsOf (.ofBytes start bytes) := by
  intro address count i b hget
  have hbyte : bytes[(address - start).toNat + i]? = some b := by
    rw [ofBytes, List.getElem?_take] at hget
    split at hget
    · rwa [List.getElem?_drop] at hget
    · cases hget
  have hlt : (address - start).toNat + i < UInt64.size :=
    Nat.lt_of_lt_of_le (List.getElem?_eq_some_iff.1 hbyte).1 h
  have hoffset : (address + UInt64.ofNat i - start).toNat = (address - start).toNat + i := by
    have hcomm : address + UInt64.ofNat i - start = address - start + UInt64.ofNat i := by grind
    rw [hcomm, UInt64.toNat_add, UInt64.toNat_ofNat', Nat.add_mod_mod, Nat.mod_eq_of_lt hlt]
  rw [MemoryMap.ofBytes, hoffset]
  exact hbyte

end MemoryView

namespace Provider

/-- Every read gets what the view gives, whatever was done before. -/
def Serves (provider : Provider σ) (view : MemoryView) : Prop :=
  ∀ s address count, ((provider.read address count).run s).1 = view address count

/-- A provider that knows nothing but its memory. -/
def serving (view : MemoryView) : Provider Unit where
  architecture := .x64
  os := .linux
  version := ⟨8, 0, 0⟩
  read := fun address count => pure (view address count)
  helperName? := fun _ => pure none
  methodAt? := fun _ => pure none
  methodOfDescriptor? := fun _ => pure none
  tableName? := fun _ => pure none

/-- The provider that serves a view serves it. -/
theorem serves_serving (view : MemoryView) : (serving view).Serves view :=
  fun _ _ _ => rfl

end Provider

end CodeListing
