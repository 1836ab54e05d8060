import CodeListing.Proofs.MemoryRegions
import CodeListing.Proofs.RangeReading

/-!
# Windows and pointers are read at once

A range of code is read on until nothing more comes, so only the memory decides what comes out.
Windows and pointers are read once.  If that one read is cut short, they count as unreadable,
though all their bytes are mapped and a second read would get the rest.  Over a snapshot this
happens where two regions meet: a pointer is seen if one region has all of its bytes.
-/

set_option autoImplicit false

namespace CodeListing

variable {σ : Type}

namespace MemoryMap

variable {memory : MemoryMap} {address : UInt64} {bytes : List UInt8}

/-- So many bytes from the address on; zero where nothing is mapped. -/
def bytesAt (memory : MemoryMap) (address : UInt64) (count : Nat) : List UInt8 :=
  (List.range count).map fun i => (memory (address + UInt64.ofNat i)).getD 0

/-- Bytes that the memory holds are its bytes there. -/
theorem Holds.eq_bytesAt (h : memory.Holds address bytes) :
    bytes = memory.bytesAt address bytes.length := by
  apply List.ext_getElem
  · simp [bytesAt]
  · intro i hi _
    have hbyte := h i bytes[i] (List.getElem?_eq_getElem hi)
    simp [bytesAt, hbyte]

/-- The bytes of the regions; of several at one address, that of the first region. -/
def ofRegions (regions : List MemoryRegion) : MemoryMap := fun address =>
  (regions.find? (·.holds address)).bind fun region =>
    region.bytes[address.toNat - region.address.toNat]?

/-- An address is mapped if one of the regions holds it. -/
theorem maps_ofRegions_iff {regions : List MemoryRegion} :
    (ofRegions regions).Maps address ↔ ∃ region ∈ regions, region.holds address = true := by
  unfold Maps ofRegions
  cases hfind : regions.find? (·.holds address) with
  | none =>
    have hnone := List.find?_eq_none.1 hfind
    simpa using hnone
  | some region =>
    have hholds := List.find?_some hfind
    obtain ⟨hstart, hlt⟩ := MemoryRegion.holds_iff.1 hholds
    have hbyte : address.toNat - region.address.toNat < region.bytes.length := by omega
    constructor
    · intro _
      exact ⟨region, List.mem_of_find?_eq_some hfind, hholds⟩
    · intro _
      simp [List.getElem?_eq_getElem hbyte]

end MemoryMap

namespace Provider

variable {provider : Provider σ} {memory : MemoryMap} {address : UInt64} {count : Nat}

/-- One read of so many bytes at the address gets all of them. -/
def ReadsWhole (provider : Provider σ) (s : σ) (address : UInt64) (count : Nat) : Prop :=
  ((provider.read address count).run s).1.length = count

instance (provider : Provider σ) (s : σ) (address : UInt64) (count : Nat) :
    Decidable (provider.ReadsWhole s address count) :=
  inferInstanceAs (Decidable (_ = _))

/-- An exact read gives what one read gets, if that is complete. -/
theorem run_readExact (provider : Provider σ) (address : UInt64) (count : Nat) (s : σ) :
    ((provider.readExact address count).run s).1 =
      complete? count ((provider.read address count).run s).1 := rfl

/-- A read that gets some bytes is not repeated. -/
theorem run_readWindow_of_ne_nil {s : σ} (h : ((provider.read address count).run s).1 ≠ []) :
    ((provider.readWindow address count).run s).1 =
      ((provider.readExact address count).run s).1 := by
  have hnonempty : ((provider.read address count).run s).1.isEmpty = false := by
    simpa using h
  unfold readWindow
  rw [run_bind, hnonempty]
  rfl

/-- An exact read of mapped bytes gives them if one read gets all of them, and else nothing. -/
theorem ServesPieces.run_readExact_eq (h : provider.ServesPieces memory)
    (hnone : ∀ s address, ((provider.read address 0).run s).1 = [])
    (hmaps : ∀ i < count, memory.Maps (address + UInt64.ofNat i)) (s : σ) :
    ((provider.readExact address count).run s).1 =
      if provider.ReadsWhole s address count then some (memory.bytesAt address count)
      else none := by
  have hholds : memory.Holds address ((provider.read address count).run s).1 := by
    rcases Nat.eq_zero_or_pos count with rfl | hpos
    · rw [hnone]
      exact MemoryMap.holds_nil
    · have hfirst : memory.Maps address := by simpa using hmaps 0 hpos
      exact (h.read_maps s hpos hfirst).2.2
  rw [run_readExact, complete?]
  by_cases hwhole : provider.ReadsWhole s address count
  · have hlength : ((provider.read address count).run s).1.length = count := hwhole
    have hbytes := hholds.eq_bytesAt
    rw [hlength] at hbytes
    rw [if_pos hwhole, if_pos hlength, ← hbytes]
  · have hlength : ((provider.read address count).run s).1.length ≠ count := hwhole
    rw [if_neg hwhole, if_neg hlength]

/-- A window of mapped bytes is read like these bytes exactly. -/
theorem ServesPieces.run_readWindow_eq (h : provider.ServesPieces memory)
    (hnone : ∀ s address, ((provider.read address 0).run s).1 = [])
    (hmaps : ∀ i < count, memory.Maps (address + UInt64.ofNat i)) (s : σ) :
    ((provider.readWindow address count).run s).1 =
      ((provider.readExact address count).run s).1 := by
  rcases Nat.eq_zero_or_pos count with rfl | hpos
  · -- A window of no bytes is read twice on most systems, and comes back empty both times.
    rw [run_readExact, hnone]
    unfold readWindow
    rw [run_bind, hnone]
    split
    · rw [run_bind, run_readExact, hnone]
    · rfl
  · have hfirst : memory.Maps address := by simpa using hmaps 0 hpos
    exact run_readWindow_of_ne_nil (List.ne_nil_of_length_pos (h.read_maps s hpos hfirst).1)

end Provider

/-! ## Regions that meet -/

namespace SnapshotIndex

variable {snapshot : Snapshot} {index : SnapshotIndex} {address : UInt64} {count : Nat}
  {region : MemoryRegion}

/-- A snapshot is read as it is. -/
theorem run_read_provider (index : SnapshotIndex) (address : UInt64) (count : Nat) (s : σ) :
    (((index.provider σ).read address count).run s).1 = index.read address count := rfl

/-- A read of no bytes gets none. -/
theorem read_zero (index : SnapshotIndex) (address : UInt64) : index.read address 0 = [] := by
  unfold read
  split
  · rfl
  · exact List.take_zero

/-- Over an accepted snapshot one read gets all bytes exactly if one region has them. -/
theorem readsWhole_provider_iff (h : ofSnapshot snapshot = .ok index) (hcount : 0 < count)
    (s : σ) :
    (index.provider σ).ReadsWhole s address count ↔
      ∃ region ∈ snapshot.memory, region.contains address = true ∧
        address.toNat + count ≤ region.address.toNat + region.bytes.length := by
  unfold Provider.ReadsWhole
  rw [run_read_provider]
  constructor
  · intro hwhole
    cases hregion : index.regionAt? address with
    | none =>
      simp only [read, hregion, List.length_nil] at hwhole
      omega
    | some region =>
      obtain ⟨hmem, hcontains⟩ := (regionAt?_eq_some_iff h).1 hregion
      refine ⟨region, hmem, hcontains, ?_⟩
      rw [read_of_contains h hmem hcontains, List.length_take, List.length_drop] at hwhole
      have hstart := (MemoryRegion.holds_iff.1 (MemoryRegion.holds_of_contains hcontains)).1
      omega
  · rintro ⟨region, hmem, hcontains, hend⟩
    rw [read_of_contains h hmem hcontains, List.length_take, List.length_drop]
    have hstart := (MemoryRegion.holds_iff.1 (MemoryRegion.holds_of_contains hcontains)).1
    omega

/-- A region that ends before the largest address contains what it holds. -/
theorem contains_iff_holds_of_end
    (hend : region.address.toNat + region.bytes.length < UInt64.size) :
    region.contains address = true ↔ region.holds address = true := by
  rw [MemoryRegion.contains_iff_holds (by omega), and_iff_left_iff_imp]
  rintro hholds rfl
  have hbyte := (MemoryRegion.holds_iff.1 hholds).2
  have hlast : (0xFFFFFFFFFFFFFFFF : UInt64).toNat = UInt64.size - 1 := by decide
  omega

section

variable (h : ofSnapshot snapshot = .ok index)
  (hend : ∀ region ∈ snapshot.memory,
    region.address.toNat + region.bytes.length < UInt64.size)
include h hend

/-- An address in a region has the byte of this region. -/
theorem ofRegions_of_holds (hmem : region ∈ snapshot.memory)
    (hholds : region.holds address = true) :
    MemoryMap.ofRegions snapshot.memory address =
      region.bytes[address.toNat - region.address.toNat]? := by
  have hregion := (regionAt?_eq_some_iff h).2
    ⟨hmem, (contains_iff_holds_of_end (hend region hmem)).2 hholds⟩
  cases hfind : snapshot.memory.find? (·.holds address) with
  | none => exact absurd hholds (List.find?_eq_none.1 hfind region hmem)
  | some found =>
    have hfound := List.mem_of_find?_eq_some hfind
    have hholds' := List.find?_some hfind
    rw [(regionAt?_eq_some_iff h).2
      ⟨hfound, (contains_iff_holds_of_end (hend found hfound)).2 hholds'⟩] at hregion
    cases hregion
    rw [MemoryMap.ofRegions, hfind]
    rfl

/-- A snapshot is read as its regions are. -/
theorem holds_read (address : UInt64) (count : Nat) :
    (MemoryMap.ofRegions snapshot.memory).Holds address (index.read address count) := by
  intro i b hget
  cases hregion : index.regionAt? address with
  | none => simp [read, hregion] at hget
  | some region =>
    obtain ⟨hmem, hcontains⟩ := (regionAt?_eq_some_iff h).1 hregion
    rw [read_of_contains h hmem hcontains, List.getElem?_take] at hget
    split at hget
    · rw [List.getElem?_drop] at hget
      have hstart := (MemoryRegion.holds_iff.1 (MemoryRegion.holds_of_contains hcontains)).1
      have hlt := (List.getElem?_eq_some_iff.1 hget).1
      have hlast := hend region hmem
      have hsmall : address.toNat + i < UInt64.size := by omega
      have hsum : (address + UInt64.ofNat i).toNat = address.toNat + i := by
        rw [UInt64.toNat_add, UInt64.toNat_ofNat', Nat.add_mod_mod, Nat.mod_eq_of_lt hsmall]
      have hholds : region.holds (address + UInt64.ofNat i) = true := by
        rw [MemoryRegion.holds_iff, hsum]
        omega
      rw [ofRegions_of_holds h hend hmem hholds, hsum, ← hget]
      congr 1
      omega
    · cases hget

/-- An accepted snapshot whose regions end before the largest address serves its memory in
pieces. -/
theorem servesPieces_provider : (index.provider σ).ServesPieces (.ofRegions snapshot.memory) where
  read_maps := by
    intro address count s hcount hmaps
    obtain ⟨region, hmem, hholds⟩ := MemoryMap.maps_ofRegions_iff.1 hmaps
    have hcontains := (contains_iff_holds_of_end (hend region hmem)).2 hholds
    obtain ⟨hstart, hlt⟩ := MemoryRegion.holds_iff.1 hholds
    have hlength : (index.read address count).length =
        min count (region.bytes.length - (address.toNat - region.address.toNat)) := by
      rw [read_of_contains h hmem hcontains, List.length_take, List.length_drop]
    rw [run_read_provider]
    refine ⟨?_, ?_, holds_read h hend address count⟩
    · omega
    · omega
  read_not_maps := by
    intro address count s _ hnot
    rw [run_read_provider]
    apply read_of_not_contains h
    intro region hmem
    rw [Bool.eq_false_iff, ne_eq, contains_iff_holds_of_end (hend region hmem)]
    intro hholds
    exact hnot (MemoryMap.maps_ofRegions_iff.2 ⟨region, hmem, hholds⟩)

end

end SnapshotIndex

/-! ## The exact condition -/

namespace Provider

variable {provider : Provider σ} {memory : MemoryMap} {address : UInt64} {count : Nat}

/-- If all bytes of a window or a pointer are mapped, it is read exactly if one read gets all of
them; otherwise nothing is read, whatever a second read would get.  Over an accepted snapshot one
read gets all of them exactly if they lie in one region. -/
theorem single_reads_iff_whole (h : provider.ServesPieces memory)
    (hnone : ∀ s address, ((provider.read address 0).run s).1 = [])
    (hmaps : ∀ i < count, memory.Maps (address + UInt64.ofNat i)) (s : σ) :
    ((provider.readExact address count).run s).1 =
      (if provider.ReadsWhole s address count then some (memory.bytesAt address count)
        else none) ∧
    ((provider.readWindow address count).run s).1 =
      (if provider.ReadsWhole s address count then some (memory.bytesAt address count)
        else none) ∧
    (count = provider.pointerSize →
      ((provider.readPointer address).run s).1 =
        if provider.ReadsWhole s address count then
          some (UInt64.ofNat (Isa.littleEndian (memory.bytesAt address count)))
        else none) ∧
    ∀ {snapshot : Snapshot} {index : SnapshotIndex},
      SnapshotIndex.ofSnapshot snapshot = .ok index → provider = index.provider σ → 0 < count →
      (provider.ReadsWhole s address count ↔
        ∃ region ∈ snapshot.memory, region.contains address = true ∧
          address.toNat + count ≤ region.address.toNat + region.bytes.length) := by
  have hexact := h.run_readExact_eq hnone hmaps s
  refine ⟨hexact, ?_, ?_, ?_⟩
  · rw [h.run_readWindow_eq hnone hmaps s, hexact]
  · rintro rfl
    show (((provider.readExact address provider.pointerSize).run s).1.map _) = _
    rw [hexact]
    split
    · rfl
    · rfl
  · rintro snapshot index hindex rfl hcount
    exact SnapshotIndex.readsWhole_provider_iff hindex hcount s

end Provider

namespace SnapshotIndex

/-- Two regions that meet. -/
def meeting : List MemoryRegion :=
  [⟨0x10000, [0, 0, 2, 0]⟩, ⟨0x10004, [0, 0, 0, 0, 1, 2, 3, 4, 5, 6, 7, 8]⟩]

/-- The two regions as a snapshot. -/
def meetingIndex : SnapshotIndex := ⟨.ofMemory meeting, meeting.toArray⟩

/-- The two regions are accepted as they are. -/
theorem ofSnapshot_meeting : ofSnapshot (.ofMemory meeting) = .ok meetingIndex :=
  ofSnapshot_eq_ok_of_pairwise (by decide) rfl rfl

/-- The two regions are served in pieces. -/
theorem servesPieces_meeting :
    (meetingIndex.provider Unit).ServesPieces (.ofRegions meeting) :=
  servesPieces_provider ofSnapshot_meeting (by decide)

end SnapshotIndex

namespace Provider

open SnapshotIndex

/-- The pointer inside the second region is read; the one that begins in the first is not. -/
theorem readPointer_of_meeting_regions :
    (∀ i < 8, (MemoryMap.ofRegions meeting).Maps (0x10008 + UInt64.ofNat i)) ∧
    (∀ i < 8, (MemoryMap.ofRegions meeting).Maps (0x10000 + UInt64.ofNat i)) ∧
    ((readPointer (meetingIndex.provider Unit) 0x10008).run ()).1 = some 0x0807060504030201 ∧
    ((readPointer (meetingIndex.provider Unit) 0x10000).run ()).1 = none := by
  have hinside : ∀ i < 8, (MemoryMap.ofRegions meeting).Maps (0x10008 + UInt64.ofNat i) := by
    decide
  have hacross : ∀ i < 8, (MemoryMap.ofRegions meeting).Maps (0x10000 + UInt64.ofNat i) := by
    decide
  obtain ⟨-, -, hpointer, hwhole⟩ := single_reads_iff_whole servesPieces_meeting
    (fun _ address => meetingIndex.read_zero address) hinside ()
  obtain ⟨-, -, hpointer', hwhole'⟩ := single_reads_iff_whole servesPieces_meeting
    (fun _ address => meetingIndex.read_zero address) hacross ()
  refine ⟨hinside, hacross, ?_, ?_⟩
  · rw [hpointer rfl, if_pos ((hwhole ofSnapshot_meeting rfl (by decide)).2 (by decide))]
    decide
  · rw [hpointer' rfl, if_neg (mt (hwhole' ofSnapshot_meeting rfl (by decide)).1 (by decide))]

/-- Of a pointer over two regions all bytes are mapped and a range with them is read, but neither
the pointer nor a window is. -/
theorem pointer_lost_between_regions :
    ofSnapshot (.ofMemory meeting) = .ok meetingIndex ∧
    (meetingIndex.provider Unit).ServesPieces (.ofRegions meeting) ∧
    (∀ i < 8, (MemoryMap.ofRegions meeting).Maps (0x10000 + UInt64.ofNat i)) ∧
    ((readRange (meetingIndex.provider Unit) ⟨0x10000, 8⟩).run ()).1 =
      .ok [0, 0, 2, 0, 0, 0, 0, 0] ∧
    ((readPointer (meetingIndex.provider Unit) 0x10000).run ()).1 = none ∧
    ((readExact (meetingIndex.provider Unit) 0x10002 6).run ()).1 = none ∧
    ((readWindow (meetingIndex.provider Unit) 0x10002 6).run ()).1 = none := by
  exact ⟨ofSnapshot_meeting, servesPieces_meeting, by decide, by with_unfolding_all rfl,
    by decide +kernel, by decide +kernel, by decide +kernel⟩

end Provider

end CodeListing
