import CodeListing.Listing.Groups
import CodeListing.Proofs.SortedByAddress
import Mathlib.Data.List.SplitBy

/-!
# The groups of a listing

With source lines, the entries of a listing are gathered by their addresses: the lines one after the
other, then the instructions, each behind what its address has already (`gather`).  Whatever the
order of the entries, there is then one group for each address that occurs, in ascending order, and
it holds the entries of the address in the order given (`Gathered`).  Placing an entry keeps this
so.

Read one after the other, gathered groups are the entries sorted by address, those of one address in
the order given.  Cut where the address changes, the sorted entries are the groups again, so to sort
and to gather is the same (`groupsOf_eq_gather`).
-/

set_option autoImplicit false

namespace CodeListing.Listing

/-! ## Gathering -/

/-- Puts an entry behind those of its address, or at the place of its address if there are none. -/
def place (entry : Entry) : List (UInt64 × List Entry) → List (UInt64 × List Entry)
  | [] => [(entry.address, [entry])]
  | (address, entries) :: rest =>
    if entry.address < address then (entry.address, [entry]) :: (address, entries) :: rest
    else if entry.address = address then (address, entries ++ [entry]) :: rest
    else (address, entries) :: place entry rest

/-- Places entries one after the other. -/
def gather (entries : List Entry) : List (UInt64 × List Entry) :=
  entries.foldl (fun groups entry => place entry groups) []

/-- The groups of these addresses, each with the entries that it has. -/
def groupsAt (entries : List Entry) (addresses : List UInt64) : List (UInt64 × List Entry) :=
  addresses.map fun address => (address, entries.filter (·.address == address))

/-- The groups have the addresses of the entries, in ascending order, each with its entries in the
order given. -/
structure Gathered (entries : List Entry) (addresses : List UInt64)
    (groups : List (UInt64 × List Entry)) : Prop where
  ascending : addresses.Pairwise (· < ·)
  occurs : ∀ address, address ∈ addresses ↔ ∃ entry ∈ entries, entry.address = address
  groups : groups = groupsAt entries addresses

/-- The groups of several addresses are that of the first one and those of the others. -/
theorem groupsAt_cons (entries : List Entry) (address : UInt64) (addresses : List UInt64) :
    groupsAt entries (address :: addresses) =
      (address, entries.filter (·.address == address)) :: groupsAt entries addresses := rfl

/-- A new entry changes nothing at other addresses. -/
theorem filter_append_of_ne {entries : List Entry} {entry : Entry} {address : UInt64}
    (h : address ≠ entry.address) :
    (entries ++ [entry]).filter (·.address == address) =
      entries.filter (·.address == address) := by
  simp [h.symm]

/-- A new entry comes last among those at its address. -/
theorem filter_append_self (entries : List Entry) (entry : Entry) :
    (entries ++ [entry]).filter (·.address == entry.address) =
      entries.filter (·.address == entry.address) ++ [entry] := by
  simp

/-- A new entry changes nothing in groups at other addresses. -/
theorem groupsAt_append_of_not_mem {entries : List Entry} {entry : Entry}
    {addresses : List UInt64} (h : entry.address ∉ addresses) :
    groupsAt (entries ++ [entry]) addresses = groupsAt entries addresses := by
  refine List.map_congr_left ?_
  intro address haddress
  rw [filter_append_of_ne]
  rintro rfl
  exact h haddress

/-- Adds an address to ascending ones, unless they have it. -/
def insertAddress (address : UInt64) : List UInt64 → List UInt64
  | [] => [address]
  | other :: rest =>
    if address < other then address :: other :: rest
    else if address = other then other :: rest
    else other :: insertAddress address rest

/-- After an insertion there are the new address and the old ones. -/
theorem mem_insertAddress {address other : UInt64} {addresses : List UInt64} :
    other ∈ insertAddress address addresses ↔ other = address ∨ other ∈ addresses := by
  induction addresses with
  | nil => simp [insertAddress]
  | cons head rest ih =>
    unfold insertAddress
    split
    · exact List.mem_cons
    · split
      · rename_i heq
        simp [heq]
      · rw [List.mem_cons, List.mem_cons, ih, or_left_comm]

/-- An insertion keeps the addresses ascending. -/
theorem pairwise_insertAddress {addresses : List UInt64} (h : addresses.Pairwise (· < ·))
    (address : UInt64) : (insertAddress address addresses).Pairwise (· < ·) := by
  induction addresses with
  | nil => exact List.pairwise_singleton _ _
  | cons head rest ih =>
    obtain ⟨habove, hrest⟩ := List.pairwise_cons.1 h
    unfold insertAddress
    split
    · rename_i hlt
      refine List.pairwise_cons.2 ⟨?_, h⟩
      intro other hother
      rcases List.mem_cons.1 hother with rfl | hother
      · exact hlt
      · exact UInt64.lt_trans hlt (habove other hother)
    · split
      · exact h
      · rename_i hnotlt hne
        refine List.pairwise_cons.2 ⟨?_, ih hrest⟩
        intro other hother
        rcases mem_insertAddress.1 hother with rfl | hother
        · exact (UInt64.lt_or_eq_of_le (UInt64.not_lt.1 hnotlt)).resolve_right (Ne.symm hne)
        · exact habove other hother

/-- Placing an entry adds its address to those of the groups, and the entry to the group there. -/
theorem place_groupsAt {entries : List Entry} {entry : Entry} {addresses : List UInt64}
    (hascending : addresses.Pairwise (· < ·))
    (hnew : entry.address ∉ addresses → entries.filter (·.address == entry.address) = []) :
    place entry (groupsAt entries addresses) =
      groupsAt (entries ++ [entry]) (insertAddress entry.address addresses) := by
  induction addresses with
  | nil => simp [groupsAt, place, insertAddress, hnew]
  | cons address rest ih =>
    obtain ⟨habove, hrest⟩ := List.pairwise_cons.1 hascending
    rw [groupsAt_cons, place, insertAddress]
    split
    · rename_i hlt
      -- The entry comes in front of all groups, and it is the first of its address.
      have hnot : entry.address ∉ address :: rest := by
        intro hmem
        rcases List.mem_cons.1 hmem with heq | hmem
        · exact UInt64.ne_of_lt hlt heq
        · exact UInt64.lt_irrefl _ (UInt64.lt_trans hlt (habove _ hmem))
      rw [groupsAt_cons, groupsAt_append_of_not_mem hnot, filter_append_self, hnew hnot,
        List.nil_append, groupsAt_cons]
    · split
      · rename_i heq
        subst heq
        have hnot : entry.address ∉ rest := fun hmem => UInt64.lt_irrefl _ (habove _ hmem)
        rw [groupsAt_cons, groupsAt_append_of_not_mem hnot, filter_append_self]
      · rename_i hne
        have hnew' : entry.address ∉ rest →
            entries.filter (·.address == entry.address) = [] := by
          intro hnot
          exact hnew (by simp [hne, hnot])
        rw [groupsAt_cons, ih hrest hnew', filter_append_of_ne (Ne.symm hne)]

/-- Placing one more entry keeps the groups gathered. -/
theorem Gathered.place {entries : List Entry} {addresses : List UInt64}
    {groups : List (UInt64 × List Entry)} (h : Gathered entries addresses groups)
    (entry : Entry) :
    Gathered (entries ++ [entry]) (insertAddress entry.address addresses)
      (place entry groups) := by
  have hnew : entry.address ∉ addresses →
      entries.filter (·.address == entry.address) = [] := by
    intro hnot
    rw [h.occurs] at hnot
    simpa using hnot
  refine ⟨pairwise_insertAddress h.ascending entry.address, ?_, ?_⟩
  · intro address
    rw [mem_insertAddress, h.occurs]
    simp [or_comm, eq_comm]
  · rw [h.groups, place_groupsAt h.ascending hnew]

/-- Entries that are placed one after the other are gathered. -/
theorem exists_gathered (entries : List Entry) :
    ∃ addresses, Gathered entries addresses (gather entries) := by
  induction entries using List.reverseRecOn with
  | nil => exact ⟨[], List.Pairwise.nil, by simp, rfl⟩
  | append_singleton entries entry ih =>
    obtain ⟨addresses, h⟩ := ih
    unfold gather
    rw [List.foldl_append]
    exact ⟨_, h.place entry⟩

/-! ## Gathering is sorting -/

/-- The entries of a group have its address. -/
theorem address_eq_of_mem_filter {entries : List Entry} {entry : Entry} {address : UInt64}
    (h : entry ∈ entries.filter (·.address == address)) : entry.address = address := by
  simpa using (List.mem_filter.1 h).2

/-- Among entries gathered by distinct addresses, those at an address are the ones that were given
there. -/
theorem filter_flatMap_address (entries : List Entry) {addresses : List UInt64}
    (hnodup : addresses.Nodup) (address : UInt64) :
    (addresses.flatMap fun a => entries.filter (·.address == a)).filter (·.address == address) =
      if address ∈ addresses then entries.filter (·.address == address) else [] := by
  induction addresses with
  | nil => rfl
  | cons a rest ih =>
    obtain ⟨hnot, hrest⟩ := List.nodup_cons.1 hnodup
    rw [List.flatMap_cons, List.filter_append, List.filter_filter, ih hrest]
    by_cases heq : address = a
    · subst heq
      simp [hnot]
    · have hnone : entries.filter (fun e => e.address == address && e.address == a) = [] := by
        simp only [List.filter_eq_nil_iff, Bool.and_eq_true, beq_iff_eq, not_and]
        intro e _ he
        rwa [he]
      simp [hnone, heq]

namespace Gathered

variable {entries : List Entry} {addresses : List UInt64} {groups : List (UInt64 × List Entry)}

/-- Read one after the other, the groups are the sorted entries. -/
theorem flatMap_eq_mergeSort (h : Gathered entries addresses groups) :
    groups.flatMap (·.2) = entries.mergeSort fun a b => a.address ≤ b.address := by
  have hflat : groups.flatMap (·.2) =
      addresses.flatMap fun a => entries.filter (·.address == a) := by
    rw [h.groups, groupsAt, List.flatMap_map]
  rw [hflat]
  refine eq_of_filter_address_eq ?_ (pairwise_mergeSort_address entries) ?_
  · refine List.pairwise_flatMap.2 ⟨?_, ?_⟩
    · intro address _
      refine List.pairwise_of_forall_mem_list ?_
      intro a ha b hb
      rw [address_eq_of_mem_filter ha, address_eq_of_mem_filter hb]
      exact UInt64.le_refl address
    · refine h.ascending.imp ?_
      intro low high hlt a ha b hb
      rw [address_eq_of_mem_filter ha, address_eq_of_mem_filter hb]
      exact UInt64.le_of_lt hlt
  · intro address
    have hnodup : addresses.Nodup := h.ascending.imp UInt64.ne_of_lt
    rw [filter_flatMap_address entries hnodup, filter_mergeSort_address]
    split
    · rfl
    · rename_i hnot
      rw [h.occurs] at hnot
      symm
      simpa using hnot

/-- A gathered group is not empty. -/
theorem filter_ne_nil (h : Gathered entries addresses groups) {address : UInt64}
    (haddress : address ∈ addresses) : entries.filter (·.address == address) ≠ [] := by
  intro hnil
  obtain ⟨entry, hentry, heq⟩ := (h.occurs address).1 haddress
  simp only [List.filter_eq_nil_iff, beq_iff_eq] at hnil
  exact hnil entry hentry heq

/-- Cut where the address changes, the sorted entries are the gathered groups. -/
theorem splitBy_mergeSort (h : Gathered entries addresses groups) :
    (entries.mergeSort fun a b => a.address ≤ b.address).splitBy
      (fun a b => a.address == b.address) = groups.map (·.2) := by
  have hgroups : groups.map (·.2) = addresses.map fun a => entries.filter (·.address == a) := by
    rw [h.groups, groupsAt, List.map_map]
    rfl
  rw [List.splitBy_eq_iff, ← h.flatMap_eq_mergeSort, hgroups]
  refine ⟨?_, ?_, ?_, ?_⟩
  · rw [← hgroups, List.flatMap]
  · intro hmem
    obtain ⟨address, haddress, hnil⟩ := List.mem_map.1 hmem
    exact h.filter_ne_nil haddress hnil
  · intro group hgroup
    obtain ⟨address, -, rfl⟩ := List.mem_map.1 hgroup
    refine List.Pairwise.isChain (List.pairwise_of_forall_mem_list ?_)
    intro a ha b hb
    rw [address_eq_of_mem_filter ha, address_eq_of_mem_filter hb, beq_self_eq_true]
  · refine List.Pairwise.isChain (List.pairwise_map.2 ?_)
    refine h.ascending.imp_of_mem ?_
    intro low high hlow hhigh hlt
    refine ⟨h.filter_ne_nil hlow, h.filter_ne_nil hhigh, ?_⟩
    rw [address_eq_of_mem_filter (List.getLast_mem _), address_eq_of_mem_filter (List.head_mem _)]
    simpa using UInt64.ne_of_lt hlt

end Gathered

/-! ## The groups of a method -/

/-- With source lines, the groups are what is gathered from the lines and then the instructions. -/
theorem groupsOf_eq_gather {source : List SourceLine} (hsource : source ≠ [])
    (instructions : List Instruction) :
    groupsOf instructions source =
      (gather ((firstByKey SourceLine.key source).map Entry.source ++
        instructions.map Entry.instruction)).map fun group => ⟨group.2⟩ := by
  obtain ⟨addresses, h⟩ := exists_gathered
    ((firstByKey SourceLine.key source).map Entry.source ++ instructions.map Entry.instruction)
  have hempty : ¬ source.isEmpty = true := by simpa using hsource
  unfold groupsOf sortedEntries
  rw [if_neg hempty, h.splitBy_mergeSort, List.map_map]
  rfl

/-- The group holds something, all of it at the address, and the source lines come first. -/
structure LiesAt (address : UInt64) (group : EntryGroup) : Prop where
  ne_nil : group.entries ≠ []
  address : ∀ entry ∈ group.entries, entry.address = address
  sourceFirst : ∃ (lines : List SourceLine) (instructions : List Instruction),
    group.entries = lines.map Entry.source ++ instructions.map Entry.instruction

/-- What a method's entries are at one address: its source lines, then its instructions. -/
theorem filter_entries_address (instructions : List Instruction) (lines : List SourceLine)
    (address : UInt64) :
    (lines.map Entry.source ++ instructions.map Entry.instruction).filter
        (·.address == address) =
      (lines.filter (·.address == address)).map Entry.source ++
        (instructions.filter (·.address == address)).map Entry.instruction := by
  rw [List.filter_append, List.filter_map, List.filter_map]
  rfl

/-- With source lines the groups lie at ascending addresses. -/
theorem exists_forall₂_liesAt {source : List SourceLine} (hsource : source ≠ [])
    (instructions : List Instruction) :
    ∃ addresses : List UInt64, addresses.Pairwise (· < ·) ∧
      List.Forall₂ LiesAt addresses (groupsOf instructions source) := by
  obtain ⟨addresses, h⟩ := exists_gathered
    ((firstByKey SourceLine.key source).map Entry.source ++ instructions.map Entry.instruction)
  refine ⟨addresses, h.ascending, ?_⟩
  rw [groupsOf_eq_gather hsource, h.groups, groupsAt, List.map_map, List.forall₂_map_right_iff,
    List.forall₂_same]
  intro address haddress
  refine ⟨h.filter_ne_nil haddress, ?_, ?_⟩
  · intro entry hentry
    exact address_eq_of_mem_filter hentry
  · exact ⟨_, _, filter_entries_address instructions _ address⟩

/-- With source lines the groups, one after the other, are the sorted entries. -/
theorem entries_groupsOf {source : List SourceLine} (hsource : source ≠ [])
    (instructions : List Instruction) :
    (groupsOf instructions source).flatMap (·.entries) = sortedEntries instructions source := by
  have hempty : ¬ source.isEmpty = true := by simpa using hsource
  unfold groupsOf
  rw [if_neg hempty, List.flatMap_map, List.flatMap_id', List.flatten_splitBy]

/-- Among the sorted entries there are the instructions, sorted by address. -/
theorem filterMap_instruction?_sortedEntries (instructions : List Instruction)
    (source : List SourceLine) :
    (sortedEntries instructions source).filterMap (·.instruction?) =
      instructions.mergeSort fun a b => a.address ≤ b.address := by
  have hread : ∀ (entry : Entry) instruction, entry.instruction? = some instruction →
      instruction.address = entry.address := by
    rintro (line | instruction) _ ⟨⟩
    rfl
  unfold sortedEntries
  rw [filterMap_mergeSort_address hread]
  congr 1
  simp [Entry.instruction?, Function.comp_def]

/-- Among the sorted entries there are the first source lines of each line of a file, sorted by
address. -/
theorem filterMap_source?_sortedEntries (instructions : List Instruction)
    (source : List SourceLine) :
    (sortedEntries instructions source).filterMap (·.source?) =
      (firstByKey SourceLine.key source).mergeSort fun a b => a.address ≤ b.address := by
  have hread : ∀ (entry : Entry) line, entry.source? = some line →
      line.address = entry.address := by
    rintro (line | instruction) _ ⟨⟩
    rfl
  unfold sortedEntries
  rw [filterMap_mergeSort_address hread]
  congr 1
  simp [Entry.source?, Function.comp_def]

/-- Nothing is lost or added.  Without source lines there is one group of all instructions in order.
With source lines the groups have ascending addresses, each group lies at its address with the
source lines first, and over all groups the instructions are those given, sorted by address, and
the source lines are the first ones given of each line of a file, sorted by address.  Where two have
one address they stay in the order given. -/
theorem groupsOf_gathers (instructions : List Instruction) (source : List SourceLine) :
    (source = [] → groupsOf instructions source = [⟨instructions.map Entry.instruction⟩]) ∧
    (source ≠ [] →
      (∃ addresses : List UInt64, addresses.Pairwise (· < ·) ∧
        List.Forall₂ LiesAt addresses (groupsOf instructions source)) ∧
      ((groupsOf instructions source).flatMap (·.entries)).filterMap (·.instruction?) =
        instructions.mergeSort (fun a b => a.address ≤ b.address) ∧
      ((groupsOf instructions source).flatMap (·.entries)).filterMap (·.source?) =
        (firstByKey SourceLine.key source).mergeSort fun a b => a.address ≤ b.address) := by
  refine ⟨?_, ?_⟩
  · rintro rfl
    rfl
  · intro hsource
    rw [entries_groupsOf hsource]
    exact ⟨exists_forall₂_liesAt hsource instructions,
      filterMap_instruction?_sortedEntries instructions source,
      filterMap_source?_sortedEntries instructions source⟩

namespace SplitLine

/-- Three instructions, of which the one with the highest address comes first. -/
def code : List Instruction :=
  [.invalid 0x20 [1], .invalid 0x10 [2], .invalid 0x10 [3]]

/-- A line that belongs to two addresses, given twice, and one that belongs to the lower address. -/
def source : List SourceLine :=
  [⟨0x20, "p.cs", 7, "high"⟩, ⟨0x10, "p.cs", 7, "low"⟩, ⟨0x10, "q.cs", 7, "other"⟩]

end SplitLine

open SplitLine in
/-- The lower address has the other line and both of its instructions, and the line that was given
twice stays where it was given first. -/
theorem groupsOf_gathers_of_split_line :
    source ≠ [] ∧
    groupsOf code source =
      [⟨[.source ⟨0x10, "q.cs", 7, "other"⟩, .instruction (.invalid 0x10 [2]),
          .instruction (.invalid 0x10 [3])]⟩,
        ⟨[.source ⟨0x20, "p.cs", 7, "high"⟩, .instruction (.invalid 0x20 [1])]⟩] ∧
    ((groupsOf code source).flatMap (·.entries)).filterMap (·.instruction?) =
      [.invalid 0x10 [2], .invalid 0x10 [3], .invalid 0x20 [1]] := by
  have hsource : source ≠ [] := by decide
  refine ⟨hsource, ?_, ?_⟩
  · simp only [groupsOf, sortedEntries, mergeSort_address_eq_insertionSort]
    decide +kernel
  · rw [((groupsOf_gathers code source).2 hsource).2.1, mergeSort_address_eq_insertionSort]
    decide +kernel

end CodeListing.Listing
