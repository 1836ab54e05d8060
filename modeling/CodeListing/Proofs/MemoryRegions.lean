import CodeListing.Snapshot.Index
import CodeListing.Proofs.SortedByAddress

/-!
# Regions of memory

The memory of a snapshot is a list of regions in any order.  They are sorted by address, and only
neighbours are compared, but what holds between neighbours here holds between any two: each region
stops before the next one starts, and none stops before it starts.  So the last region that starts
at or below an address is the only one that can hold it, and the binary search finds what a scan of
the whole memory would find.

That a snapshot is accepted does not quite mean that its regions have no address in common.  The
stop of a region that reaches the largest address is cut off there, so that address counts as held
by none; and a region without bytes, which holds no address, is refused inside another one.
-/

set_option autoImplicit false

namespace CodeListing

/-- A saturating sum is the sum or the largest number. -/
theorem toNat_saturatingAdd (a b : UInt64) :
    (saturatingAdd a b).toNat = min (a.toNat + b.toNat) (UInt64.size - 1) := by
  unfold saturatingAdd
  split
  · rename_i hlt
    rw [UInt64.toNat_add, Nat.mod_eq_of_lt hlt]
    omega
  · rename_i hge
    have hlast : (0xFFFFFFFFFFFFFFFF : UInt64).toNat = UInt64.size - 1 := by decide
    rw [hlast]
    omega

/-- At most one item meets a condition if no two of them do. -/
theorem countP_le_one_iff_pairwise {α : Type} {p : α → Bool} {items : List α} :
    items.countP p ≤ 1 ↔ items.Pairwise fun a b => p a = true → p b = false := by
  induction items with
  | nil => simp
  | cons first rest ih =>
    rw [List.pairwise_cons, ← ih]
    cases hfirst : p first with
    | true =>
      rw [List.countP_cons_of_pos hfirst]
      have hnone : rest.countP p = 0 ↔ ∀ a ∈ rest, p a = false := by
        simp [List.countP_eq_zero]
      constructor
      · intro h
        have hzero : rest.countP p = 0 := by omega
        exact ⟨fun a ha _ => hnone.1 hzero a ha, by omega⟩
      · rintro ⟨h, -⟩
        have hzero := hnone.2 fun a ha => h a ha rfl
        omega
    | false => simp [hfirst]

/-! ## Binary search -/

/-- If the items that are `before` come first, the point found has exactly these in front of it. -/
theorem lt_partitionPointFrom_iff {α : Type} {items : Array α} {before : α → Bool} {low high : Nat}
    {h : high ≤ items.size}
    (hmono : items.toList.Pairwise fun a b => before b = true → before a = true) (hle : low ≤ high)
    (hlow : ∀ i (hi : i < items.size), i < low → before items[i] = true)
    (hhigh : ∀ i (hi : i < items.size), high ≤ i → before items[i] = false) :
    partitionPointFrom items before low high h ≤ items.size ∧
      ∀ i (hi : i < items.size),
        i < partitionPointFrom items before low high h ↔ before items[i] = true := by
  have hdown : ∀ i j (hi : i < items.size) (hj : j < items.size), i ≤ j →
      before items[j] = true → before items[i] = true := by
    intro i j hi hj hij hbefore
    rcases Nat.lt_or_eq_of_le hij with hlt | rfl
    · exact List.pairwise_iff_getElem.1 hmono i j hi hj hlt hbefore
    · exact hbefore
  fun_induction partitionPointFrom items before low high h with
  | case1 low high h hlt middle hmiddle hbefore ih =>
    apply ih
    · omega
    · intro i hi hilt
      exact hdown i middle hi hmiddle (by omega) hbefore
    · exact hhigh
  | case2 low high h hlt middle hmiddle hbefore ih =>
    apply ih
    · omega
    · exact hlow
    · intro i hi hile
      by_contra hi'
      exact hbefore (hdown middle i hmiddle hi hile (by simpa using hi'))
  | case3 low high h hnot =>
    refine ⟨by omega, fun i hi => ⟨hlow i hi, fun hbefore => ?_⟩⟩
    by_contra hge
    rw [hhigh i hi (by omega)] at hbefore
    cases hbefore

/-- The partition point is the number of items in front, if all that are come first. -/
theorem lt_partitionPoint_iff {α : Type} {items : Array α} {before : α → Bool}
    (hmono : items.toList.Pairwise fun a b => before b = true → before a = true) :
    partitionPoint items before ≤ items.size ∧
      ∀ i (hi : i < items.size), i < partitionPoint items before ↔ before items[i] = true := by
  unfold partitionPoint
  apply lt_partitionPointFrom_iff hmono (Nat.zero_le _)
  · intro i _ hi
    omega
  · intro i hi hge
    omega

/-! ## Addresses of a region -/

namespace MemoryRegion

variable {region : MemoryRegion} {address : UInt64}

/-- The address lies between the start and the stop of the region. -/
def contains (region : MemoryRegion) (address : UInt64) : Bool :=
  region.address ≤ address && address < region.stop

/-- A byte of the region lies at the address. -/
def holds (region : MemoryRegion) (address : UInt64) : Bool :=
  region.address ≤ address && address.toNat < region.address.toNat + region.bytes.length

/-- A region contains the addresses from its start up to its end. -/
theorem contains_iff : region.contains address = true ↔
    region.address ≤ address ∧ address < region.stop := by
  simp [contains]

/-- A region holds the addresses of its bytes, counted without a bound. -/
theorem holds_iff : region.holds address = true ↔
    region.address.toNat ≤ address.toNat ∧
      address.toNat < region.address.toNat + region.bytes.length := by
  simp [holds, UInt64.le_iff_toNat_le]

/-- From its start on, a region contains the addresses in front of its end. -/
theorem stop_le_iff (hstart : region.address ≤ address) :
    region.stop ≤ address ↔ region.contains address = false := by
  rw [Bool.eq_false_iff, ne_eq, contains_iff, not_and, UInt64.not_lt]
  exact ⟨fun hstop _ => hstop, fun hstop => hstop hstart⟩

/-- A region without bytes holds no address. -/
theorem holds_eq_false_of_blank (h : region.bytes = []) (address : UInt64) :
    region.holds address = false := by
  rw [Bool.eq_false_iff, ne_eq, holds_iff, h, List.length_nil]
  omega

/-- A region does not end before it starts. -/
theorem address_le_stop (region : MemoryRegion) : region.address ≤ region.stop := by
  rw [UInt64.le_iff_toNat_le, stop, toNat_saturatingAdd]
  have hlt := region.address.toNat_lt_size
  omega

/-- What a region contains it holds. -/
theorem holds_of_contains (h : region.contains address = true) : region.holds address = true := by
  rw [contains_iff, UInt64.le_iff_toNat_le, UInt64.lt_iff_toNat_lt, stop,
    toNat_saturatingAdd] at h
  rw [holds_iff]
  have hmod : (UInt64.ofNat region.bytes.length).toNat ≤ region.bytes.length := by
    rw [UInt64.toNat_ofNat']
    exact Nat.mod_le _ _
  omega

/-- The largest address lies behind every stop; any other address of a region lies before it. -/
theorem contains_iff_holds (hlength : region.bytes.length < UInt64.size) :
    region.contains address = true ↔
      region.holds address = true ∧ address ≠ 0xFFFFFFFFFFFFFFFF := by
  have hlast : (0xFFFFFFFFFFFFFFFF : UInt64).toNat = UInt64.size - 1 := by decide
  have hlt := address.toNat_lt_size
  have hsmall : (UInt64.ofNat region.bytes.length).toNat = region.bytes.length :=
    UInt64.toNat_ofNat_of_lt' hlength
  rw [ne_eq, ← UInt64.toNat_inj, hlast, contains_iff, holds_iff, UInt64.le_iff_toNat_le,
    UInt64.lt_iff_toNat_lt, stop, toNat_saturatingAdd, hsmall]
  omega

end MemoryRegion

/-! ## Regions in their order -/

/-- No neighbours overlap if each region stops before the next one starts. -/
theorem overlap?_eq_none_iff_isChain (regions : List MemoryRegion) :
    overlap? regions = none ↔ regions.IsChain fun a b => a.stop ≤ b.address := by
  fun_induction overlap? regions with
  | case1 first second rest hlt =>
    simp [List.isChain_cons_cons, UInt64.not_le.2 hlt]
  | case2 first second rest hnot ih =>
    rw [List.isChain_cons_cons, ih]
    exact (and_iff_right (UInt64.not_lt.1 hnot)).symm
  | case3 regions hshort =>
    match regions with
    | [] => simp
    | [region] => simp
    | first :: second :: rest => exact absurd rfl (hshort first second rest)

/-- What is checked of neighbours holds of any two regions, because no region stops before it
starts. -/
theorem overlap?_eq_none_iff_pairwise (regions : List MemoryRegion) :
    overlap? regions = none ↔ regions.Pairwise fun a b => a.stop ≤ b.address := by
  have : Trans (fun a b : MemoryRegion => a.stop ≤ b.address)
      (fun a b : MemoryRegion => a.stop ≤ b.address)
      (fun a b : MemoryRegion => a.stop ≤ b.address) :=
    ⟨fun {a b c} hab hbc => UInt64.le_trans (UInt64.le_trans hab b.address_le_stop) hbc⟩
  rw [overlap?_eq_none_iff_isChain, List.isChain_iff_pairwise]

namespace SnapshotIndex

variable {snapshot : Snapshot} {index : SnapshotIndex} {address : UInt64} {region : MemoryRegion}

/-- The regions of an accepted snapshot are its memory in an order in which each stops before the
next one starts. -/
theorem regions_of_ofSnapshot (h : ofSnapshot snapshot = .ok index) :
    index.regions.toList.Perm snapshot.memory ∧
      index.regions.toList.Pairwise fun a b => a.stop ≤ b.address := by
  obtain ⟨hoverlap, -, rfl⟩ := ofSnapshot_eq_ok_iff.1 h
  exact ⟨List.mergeSort_perm _ _, (overlap?_eq_none_iff_pairwise _).1 hoverlap⟩

/-- At most one region of an accepted snapshot contains an address. -/
theorem countP_contains_le_one (h : ofSnapshot snapshot = .ok index) (address : UInt64) :
    snapshot.memory.countP (·.contains address) ≤ 1 := by
  obtain ⟨hperm, hapart⟩ := regions_of_ofSnapshot h
  rw [← hperm.countP_eq, countP_le_one_iff_pairwise]
  refine hapart.imp fun {first second} hstop hfirst => ?_
  rw [MemoryRegion.contains_iff] at hfirst
  rw [Bool.eq_false_iff, ne_eq, MemoryRegion.contains_iff]
  rintro ⟨hstart, -⟩
  have hlt := UInt64.lt_of_lt_of_le hfirst.2 (UInt64.le_trans hstop hstart)
  exact UInt64.lt_irrefl _ hlt

/-- The search counts the regions that start at or below the address. -/
theorem lt_partitionPoint_regions_iff (h : ofSnapshot snapshot = .ok index) (address : UInt64) :
    partitionPoint index.regions (fun region => region.address ≤ address) ≤ index.regions.size ∧
      ∀ i (hi : i < index.regions.size),
        i < partitionPoint index.regions (fun region => region.address ≤ address) ↔
          index.regions[i].address ≤ address := by
  have hmono : index.regions.toList.Pairwise fun a b =>
      decide (b.address ≤ address) = true → decide (a.address ≤ address) = true := by
    refine (regions_of_ofSnapshot h).2.imp fun {a b} hstop hb => decide_eq_true ?_
    have hstart := UInt64.le_trans a.address_le_stop hstop
    exact UInt64.le_trans hstart (of_decide_eq_true hb)
  have hpoint := lt_partitionPoint_iff hmono
  simpa only [decide_eq_true_iff] using hpoint

/-- The search finds the one region that contains the address. -/
theorem regionAt?_eq_some_iff (h : ofSnapshot snapshot = .ok index) :
    index.regionAt? address = some region ↔
      region ∈ snapshot.memory ∧ region.contains address = true := by
  obtain ⟨hperm, hapart⟩ := regions_of_ofSnapshot h
  obtain ⟨hsize, hpoint⟩ := lt_partitionPoint_regions_iff h address
  simp only [regionAt?, beq_iff_eq]
  generalize partitionPoint index.regions (fun region => region.address ≤ address) = point
    at hsize hpoint ⊢
  constructor
  · intro hsome
    split at hsome
    · cases hsome
    · rename_i hzero
      obtain ⟨hget, hstop⟩ := Option.filter_eq_some_iff.1 hsome
      obtain ⟨hlt, rfl⟩ := Array.getElem?_eq_some_iff.1 hget
      refine ⟨hperm.mem_iff.1 (Array.mem_toList_iff.2 (Array.getElem_mem hlt)), ?_⟩
      exact MemoryRegion.contains_iff.2 ⟨(hpoint _ hlt).1 (by omega), of_decide_eq_true hstop⟩
  · rintro ⟨hmem, hcontains⟩
    obtain ⟨hstart, hstop⟩ := MemoryRegion.contains_iff.1 hcontains
    obtain ⟨i, hi, rfl⟩ := Array.getElem_of_mem (Array.mem_toList_iff.1 (hperm.mem_iff.2 hmem))
    have hbefore := (hpoint i hi).2 hstart
    rw [if_neg (by omega), Option.filter_eq_some_iff]
    refine ⟨?_, decide_eq_true hstop⟩
    -- A later region that starts at or below the address would start behind the stop of this one.
    have hlast : point - 1 = i := by
      by_contra hne
      have hlt : point - 1 < index.regions.size := by omega
      have hnext := List.pairwise_iff_getElem.1 hapart i (point - 1) hi hlt (by omega)
      have hlater := (hpoint (point - 1) hlt).1 (by omega)
      exact UInt64.lt_irrefl _ (UInt64.lt_of_lt_of_le hstop (UInt64.le_trans hnext hlater))
    rw [hlast]
    exact Array.getElem?_eq_getElem hi

/-- The binary search finds what a search through all regions finds. -/
theorem regionAt?_eq_find? (h : ofSnapshot snapshot = .ok index) (address : UInt64) :
    index.regionAt? address = snapshot.memory.find? (·.contains address) := by
  cases hfind : snapshot.memory.find? (·.contains address) with
  | some region =>
    have hcontains := List.find?_some hfind
    exact (regionAt?_eq_some_iff h).2 ⟨List.mem_of_find?_eq_some hfind, hcontains⟩
  | none =>
    rw [Option.eq_none_iff_forall_ne_some]
    intro region hregion
    obtain ⟨hmem, hcontains⟩ := (regionAt?_eq_some_iff h).1 hregion
    exact List.find?_eq_none.1 hfind region hmem hcontains

/-! ## Reading -/

/-- A read in a region gives its bytes from the address on. -/
theorem read_of_contains (h : ofSnapshot snapshot = .ok index) (hmem : region ∈ snapshot.memory)
    (hcontains : region.contains address = true) (count : Nat) :
    index.read address count =
      (region.bytes.drop (address.toNat - region.address.toNat)).take count := by
  simp only [read, (regionAt?_eq_some_iff h).2 ⟨hmem, hcontains⟩]

/-- A read at an address that no region contains gives nothing. -/
theorem read_of_not_contains (h : ofSnapshot snapshot = .ok index)
    (hnone : ∀ region ∈ snapshot.memory, region.contains address = false) (count : Nat) :
    index.read address count = [] := by
  have hfind : snapshot.memory.find? (·.contains address) = none := by
    simpa [List.find?_eq_none] using hnone
  simp only [read, regionAt?_eq_find? h, hfind]

/-- Reads into a buffer: how many bytes come, and the buffer with these bytes at its front. -/
def readInto (index : SnapshotIndex) (address : UInt64) (buffer : List UInt8) :
    Nat × List UInt8 :=
  let bytes := index.read address buffer.length
  (bytes.length, bytes ++ buffer.drop bytes.length)

/-- Over an accepted snapshot at most one region contains an address, and the search finds it
without leaving the regions.  A read copies what this region has from the address on, as far as the
buffer goes, and without such a region it changes nothing. -/
theorem readInto_eq_scan (h : ofSnapshot snapshot = .ok index) (address : UInt64)
    (buffer : List UInt8) :
    snapshot.memory.countP (·.contains address) ≤ 1 ∧
    index.regionAt? address = snapshot.memory.find? (·.contains address) ∧
    partitionPoint index.regions (fun region => region.address ≤ address) ≤ index.regions.size ∧
    ((∀ region ∈ snapshot.memory, region.contains address = false) →
      index.readInto address buffer = (0, buffer)) ∧
    ∀ region ∈ snapshot.memory, region.contains address = true →
      ∃ offset < region.bytes.length, address.toNat = region.address.toNat + offset ∧
        index.readInto address buffer =
          (min buffer.length (region.bytes.length - offset),
            (region.bytes.drop offset).take (min buffer.length (region.bytes.length - offset)) ++
              buffer.drop (min buffer.length (region.bytes.length - offset))) := by
  refine ⟨countP_contains_le_one h address, regionAt?_eq_find? h address,
    (lt_partitionPoint_regions_iff h address).1, ?_, ?_⟩
  · intro hnone
    simp [readInto, read_of_not_contains h hnone]
  · intro region hmem hcontains
    obtain ⟨hstart, hlt⟩ := MemoryRegion.holds_iff.1 (MemoryRegion.holds_of_contains hcontains)
    refine ⟨address.toNat - region.address.toNat, by omega, by omega, ?_⟩
    have htake := List.take_eq_take_min (i := buffer.length)
      (l := region.bytes.drop (address.toNat - region.address.toNat))
    rw [List.length_drop] at htake
    simp only [readInto, read_of_contains h hmem hcontains, List.length_take, List.length_drop]
    rw [htake]

end SnapshotIndex

/-- A snapshot of nothing but memory. -/
def Snapshot.ofMemory (memory : List MemoryRegion) : Snapshot where
  architecture := .x64
  os := .linux
  pageSize := 4096
  version := ⟨8, 0, 0⟩
  methods := []
  helpers := []
  tables := []
  memory := memory
  sources := []

namespace SnapshotIndex

/-- Regions out of order: one without bytes shares its address with another, one lies at the largest
address. -/
def scattered : List MemoryRegion :=
  [⟨0x2000, [5, 6]⟩, ⟨0x1000, []⟩, ⟨0x1000, [1, 2, 3, 4]⟩, ⟨0xFFFFFFFFFFFFFFFF, [9]⟩,
    ⟨0x1004, [7]⟩]

/-- The scattered regions are accepted. -/
theorem ofSnapshot_scattered : ofSnapshot (.ofMemory scattered) =
    .ok ⟨.ofMemory scattered, (sortRegions scattered).toArray⟩ := by
  rw [ofSnapshot_eq_ok_iff]
  refine ⟨?_, rfl, rfl⟩
  rw [overlap?_eq_none_iff_pairwise, sortRegions, pairwise_mergeSort_iff]
  decide

/-- A read of three bytes gets the two that are left of the region and leaves the third as it is. -/
theorem readInto_of_scattered_regions :
    ∃ index, ofSnapshot (.ofMemory scattered) = .ok index ∧
      index.readInto 0x1002 [0xA, 0xB, 0xC] = (2, [3, 4, 0xC]) := by
  refine ⟨_, ofSnapshot_scattered, ?_⟩
  obtain ⟨offset, -, haddress, hread⟩ :=
    (readInto_eq_scan ofSnapshot_scattered 0x1002 [0xA, 0xB, 0xC]).2.2.2.2
      ⟨0x1000, [1, 2, 3, 4]⟩ (by decide) (by decide)
  have hoffset : offset = 2 := by
    simp only [UInt64.reduceToNat] at haddress
    omega
  subst hoffset
  exact hread

/-! ## Which snapshots are accepted -/

variable {snapshot : Snapshot}

/-- A snapshot without source spans is accepted if each region stops before any that starts higher,
or comes later at the same start. -/
theorem exists_ofSnapshot_eq_ok_iff (hsources : snapshot.sources = []) :
    (∃ index, ofSnapshot snapshot = .ok index) ↔
      (∀ a ∈ snapshot.memory, ∀ b ∈ snapshot.memory, a.address < b.address →
        a.stop ≤ b.address) ∧
      snapshot.memory.Pairwise fun a b => a.address = b.address → a.stop ≤ b.address := by
  have hstray : strayMapping? snapshot = none := by simp [strayMapping?, hsources]
  simp only [ofSnapshot_eq_ok_iff, hstray, overlap?_eq_none_iff_pairwise, sortRegions,
    pairwise_mergeSort_iff, true_and, exists_and_left, exists_eq, and_true]

/-- A region with bytes holds its start. -/
theorem holds_address_of_ne_nil {region : MemoryRegion} (h : region.bytes ≠ []) :
    region.holds region.address = true := by
  rw [MemoryRegion.holds_iff]
  have hpos := List.length_pos_iff.2 h
  omega

/-- How regions lie that are accepted. -/
structure LieApart (memory : List MemoryRegion) : Prop where
  /-- No address but the largest one is held by two regions. -/
  held_once : ∀ address, address ≠ 0xFFFFFFFFFFFFFFFF → memory.countP (·.holds address) ≤ 1
  /-- A region without bytes does not lie inside another one, unless it shares its start. -/
  blank_outside : ∀ region ∈ memory, ∀ blank ∈ memory, blank.bytes = [] →
    region.contains blank.address = true → region.address = blank.address
  /-- A region without bytes is not listed after one that it lies in. -/
  blank_before : memory.Pairwise fun region blank =>
    blank.bytes = [] → region.contains blank.address = false

/-- The regions of an accepted snapshot lie apart. -/
theorem LieApart.of_accepted (hsources : snapshot.sources = [])
    (hlength : ∀ region ∈ snapshot.memory, region.bytes.length < UInt64.size)
    (haccepted : ∃ index, ofSnapshot snapshot = .ok index) : LieApart snapshot.memory := by
  obtain ⟨hlower, hequal⟩ := (exists_ofSnapshot_eq_ok_iff hsources).1 haccepted
  obtain ⟨index, hindex⟩ := haccepted
  refine ⟨?_, ?_, ?_⟩
  · intro address hne
    have hcount := countP_contains_le_one hindex address
    rwa [List.countP_congr fun region hregion =>
      (MemoryRegion.contains_iff_holds (hlength region hregion)).trans
        (and_iff_left hne)] at hcount
  · intro region hregion blank hblank _ hcontains
    obtain ⟨hle, -⟩ := MemoryRegion.contains_iff.1 hcontains
    by_contra hne
    have hstop := hlower region hregion blank hblank (UInt64.lt_of_le_of_ne hle hne)
    rw [MemoryRegion.stop_le_iff hle, hcontains] at hstop
    cases hstop
  · rw [List.pairwise_iff_forall_sublist] at hequal ⊢
    intro region blank hsub _
    rw [Bool.eq_false_iff]
    intro hcontains
    obtain ⟨hle, -⟩ := MemoryRegion.contains_iff.1 hcontains
    have hstop : region.stop ≤ blank.address := by
      rcases UInt64.lt_or_eq_of_le hle with hlt | heq
      · exact hlower region (hsub.subset (by simp)) blank (hsub.subset (by simp)) hlt
      · exact hequal hsub heq
    rw [MemoryRegion.stop_le_iff hle, hcontains] at hstop
    cases hstop

/-- A region stops before another one with bytes starts, if they have no address in common. -/
theorem stop_le_address_of_apart {a b : MemoryRegion} (hlength : a.bytes.length < UInt64.size)
    (hle : a.address ≤ b.address) (hblank : b.bytes = [] → a.contains b.address = false)
    (hapart : ∀ address, address ≠ 0xFFFFFFFFFFFFFFFF → a.holds address = true →
      b.holds address = false) :
    a.stop ≤ b.address := by
  rw [MemoryRegion.stop_le_iff hle]
  by_cases hbytes : b.bytes = []
  · exact hblank hbytes
  · rw [Bool.eq_false_iff]
    intro hcontains
    obtain ⟨hholds, hne⟩ := (MemoryRegion.contains_iff_holds hlength).1 hcontains
    have hnot := hapart b.address hne hholds
    rw [holds_address_of_ne_nil hbytes] at hnot
    cases hnot

/-- A snapshot whose regions lie apart is accepted. -/
theorem LieApart.accepted (hsources : snapshot.sources = [])
    (hlength : ∀ region ∈ snapshot.memory, region.bytes.length < UInt64.size)
    (h : LieApart snapshot.memory) : ∃ index, ofSnapshot snapshot = .ok index := by
  have honce : ∀ address, address ≠ 0xFFFFFFFFFFFFFFFF →
      snapshot.memory.Pairwise fun a b => a.holds address = true → b.holds address = false :=
    fun address hne => countP_le_one_iff_pairwise.1 (h.held_once address hne)
  rw [exists_ofSnapshot_eq_ok_iff hsources]
  refine ⟨?_, ?_⟩
  · intro a ha b hb hlt
    apply stop_le_address_of_apart (hlength a ha) (UInt64.le_of_lt hlt)
    · intro hbytes
      rw [Bool.eq_false_iff]
      intro hcontains
      exact UInt64.ne_of_lt hlt (h.blank_outside a ha b hb hbytes hcontains)
    · intro address hne
      have : Std.Symm fun a b : MemoryRegion =>
          a.holds address = true → b.holds address = false :=
        ⟨fun a b hab hb => by
          rw [Bool.eq_false_iff]
          intro ha
          rw [hab ha] at hb
          cases hb⟩
      have hdiffer : a ≠ b := by
        rintro rfl
        exact UInt64.lt_irrefl _ hlt
      exact (honce address hne).forall ha hb hdiffer
  · rw [List.pairwise_iff_forall_sublist]
    intro a b hsub heq
    apply stop_le_address_of_apart (hlength a (hsub.subset (by simp))) (UInt64.le_of_eq heq)
    · exact List.pairwise_iff_forall_sublist.1 h.blank_before hsub
    · intro address hne
      exact List.pairwise_iff_forall_sublist.1 (honce address hne) hsub

/-- A snapshot without source spans is accepted exactly if its regions lie apart.  If every region
has bytes and ends before the largest address, it is accepted exactly if no address is held by two
regions. -/
theorem ofSnapshot_accepts_iff (hsources : snapshot.sources = [])
    (hlength : ∀ region ∈ snapshot.memory, region.bytes.length < UInt64.size) :
    ((∃ index, ofSnapshot snapshot = .ok index) ↔ LieApart snapshot.memory) ∧
    ((∀ region ∈ snapshot.memory, region.bytes ≠ [] ∧
        region.address.toNat + region.bytes.length < UInt64.size) →
      ((∃ index, ofSnapshot snapshot = .ok index) ↔
        ∀ address, snapshot.memory.countP (·.holds address) ≤ 1)) := by
  have hiff : (∃ index, ofSnapshot snapshot = .ok index) ↔ LieApart snapshot.memory :=
    ⟨.of_accepted hsources hlength, fun h => h.accepted hsources hlength⟩
  refine ⟨hiff, fun hplain => ?_⟩
  rw [hiff]
  constructor
  · intro h address
    by_cases hlast : address = 0xFFFFFFFFFFFFFFFF
    · have hzero : snapshot.memory.countP (·.holds address) = 0 := by
        rw [List.countP_eq_zero]
        intro region hregion hholds
        have hend := (hplain region hregion).2
        have hlt := (MemoryRegion.holds_iff.1 hholds).2
        have htop : address.toNat = UInt64.size - 1 := by
          rw [hlast]
          rfl
        omega
      omega
    · exact h.held_once address hlast
  · intro honce
    refine ⟨fun address _ => honce address, ?_, ?_⟩
    · intro region _ blank hblank hbytes
      exact absurd hbytes (hplain blank hblank).1
    · apply List.pairwise_of_forall_mem_list
      intro region _ blank hblank hbytes
      exact absurd hbytes (hplain blank hblank).1

/-- The scattered regions are accepted, so they lie apart. -/
theorem lieApart_of_scattered_regions :
    (∀ region ∈ scattered, region.bytes.length < UInt64.size) ∧ LieApart scattered := by
  have hlength : ∀ region ∈ scattered, region.bytes.length < UInt64.size := by decide
  exact ⟨hlength, (@ofSnapshot_accepts_iff (.ofMemory scattered) rfl hlength).1.1
    ⟨_, ofSnapshot_scattered⟩⟩

/-- A region without bytes holds no address, but it is refused inside another one and, depending on
the order of the two, at its start; and two regions that both hold the largest address are
accepted. -/
theorem ofSnapshot_misjudges_blank_and_last :
    (ofSnapshot (.ofMemory [⟨0x1000, [1, 2, 3, 4]⟩, ⟨0x1002, []⟩]) =
        .error (.snapshot (.overlappingRegions 0x1000 0x1002)) ∧
      ∀ address, ([⟨0x1000, [1, 2, 3, 4]⟩, ⟨0x1002, []⟩] : List MemoryRegion).countP
        (·.holds address) ≤ 1) ∧
    (ofSnapshot (.ofMemory [⟨0x1000, [1, 2, 3, 4]⟩, ⟨0x1000, []⟩]) =
        .error (.snapshot (.overlappingRegions 0x1000 0x1000)) ∧
      ∃ index, ofSnapshot (.ofMemory [⟨0x1000, []⟩, ⟨0x1000, [1, 2, 3, 4]⟩]) = .ok index) ∧
    (∃ index, ofSnapshot (.ofMemory [⟨0xFFFFFFFFFFFFFFFF, [1]⟩, ⟨0xFFFFFFFFFFFFFFFF, [2]⟩]) =
        .ok index) ∧
      ([⟨0xFFFFFFFFFFFFFFFF, [1]⟩, ⟨0xFFFFFFFFFFFFFFFF, [2]⟩] : List MemoryRegion).countP
        (·.holds 0xFFFFFFFFFFFFFFFF) = 2 := by
  refine ⟨⟨by rw [ofSnapshot, sortRegions_of_pairwise (by decide)]; rfl, ?_⟩,
    ⟨by rw [ofSnapshot, sortRegions_of_pairwise (by decide)]; rfl, ?_⟩, ?_, by decide⟩
  · intro address
    have hblank : (⟨0x1002, []⟩ : MemoryRegion).holds address = false :=
      MemoryRegion.holds_eq_false_of_blank rfl address
    rw [List.countP_cons, List.countP_cons_of_neg (by simp [hblank]), List.countP_nil]
    split
    · exact Nat.le_refl 1
    · exact Nat.zero_le 1
  · rw [exists_ofSnapshot_eq_ok_iff rfl]
    decide
  · rw [exists_ofSnapshot_eq_ok_iff rfl]
    decide

end SnapshotIndex

end CodeListing
