import CodeListing.Proofs.ListingOrProblem
import CodeListing.Proofs.LocalLabels
import CodeListing.Proofs.SortedByAddress

/-!
# Where the labels of a method count from

The labels of a method are computed twice.  A reference into the method's own code gets a label that
counts from the lowest start of its ranges (`Current.labelBase`).  The label in front of a line
counts from the lowest address of an instruction that is listed (`Listing.labelBase`).

The two bases differ in two ways.  A range at the lowest start may be too short for an instruction,
which can only be on Arm64.  And a range may run past the last address, so that instructions are
listed at the lowest addresses.  What is proved is exactly when the bases agree, and that a label
that is referred to is shown at the line of its target if and only if they do.
-/

set_option autoImplicit false

namespace CodeListing

variable {σ : Type}

/-- The lowest address, or another one if there are none, is one of them and below all. -/
theorem min?_getD_eq_iff {addresses : List UInt64} {otherwise base : UInt64} :
    addresses.min?.getD otherwise = base ↔
      (∀ address ∈ addresses, base ≤ address) ∧
        (base ∈ addresses ∨ addresses = [] ∧ otherwise = base) := by
  cases hmin : addresses.min? with
  | none =>
    rw [List.min?_eq_none_iff] at hmin
    simp [hmin]
  | some least =>
    obtain ⟨hmem, hleast⟩ := List.min?_eq_some_iff.1 hmin
    have hne : addresses ≠ [] := List.ne_nil_of_mem hmem
    constructor
    · intro h
      obtain rfl : least = base := h
      exact ⟨hleast, Or.inl hmem⟩
    · rintro ⟨hbelow, hbase | ⟨hnil, -⟩⟩
      · exact UInt64.le_antisymm (hleast base hbase) (hbelow least hmem)
      · exact absurd hnil hne

/-- The range ends at the last address or in front of it. -/
def CodeRange.Fits (range : CodeRange) : Prop :=
  range.start.toNat + range.length.toNat ≤ UInt64.size

namespace Context

variable {context : Context σ} {names : NameMap} {item : WorkItem} {s s' : σ}

/-! ## Addresses of instructions -/

/-- A range that is read has as many bytes as it says. -/
theorem length_of_readRange {range : CodeRange} {bytes : List UInt8}
    (h : (context.provider.readRange range).run s = (.ok bytes, s')) :
    bytes.length = range.length.toNat := by
  unfold Provider.readRange at h
  rw [run_bind] at h
  split at h
  · rename_i hlength
    cases h
    exact hlength
  · cases h

/-- What is read are the ranges, each with as many bytes as it says. -/
theorem Reads.of_mem {ranges : List CodeRange} {code : List (CodeRange × List UInt8)}
    (h : context.Reads ranges s code s') {range : CodeRange} {bytes : List UInt8}
    (hmem : (range, bytes) ∈ code) : range ∈ ranges ∧ bytes.length = range.length.toNat := by
  induction h with
  | nil => cases hmem
  | cons hread _ ih =>
    rcases List.mem_cons.1 hmem with heq | hmem
    · cases heq
      exact ⟨List.mem_cons_self, length_of_readRange hread⟩
    · exact ⟨List.mem_cons_of_mem _ (ih hmem).1, (ih hmem).2⟩

/-- For every range some bytes are read. -/
theorem Reads.exists_bytes {ranges : List CodeRange} {code : List (CodeRange × List UInt8)}
    (h : context.Reads ranges s code s') {range : CodeRange} (hmem : range ∈ ranges) :
    ∃ bytes, (range, bytes) ∈ code := by
  induction h with
  | nil => cases hmem
  | @cons first rest bytes others s s' s'' _ _ ih =>
    rcases List.mem_cons.1 hmem with rfl | hmem
    · exact ⟨bytes, List.mem_cons_self⟩
    · obtain ⟨bytes', hbytes⟩ := ih hmem
      exact ⟨bytes', List.mem_cons_of_mem _ hbytes⟩

/-- The instructions of a listing stand where the code of the ranges is decoded to one. -/
theorem exists_instruction_iff
    (hlisted : ((context.listMethod names item).run s).1.listing.problem = none) :
    ∃ code s', context.Reads (context.rangesOf item.method) s code s' ∧ ∀ address,
      (∃ instruction ∈ ((context.listMethod names item).run s).1.listing.instructions,
        instruction.address = address) ↔
      ∃ piece ∈ code, ∃ instruction ∈
        context.isa.decode context.decoders context.settings.referenceThreshold piece.1.start
          piece.2, instruction.address = address := by
  rcases context.listMethod_cases names item s with
    ⟨reason, -, hlist⟩ | ⟨-, -, hlist⟩ | ⟨error, s', -, -, -, hlist⟩ |
    ⟨code, s', instructions, findings, s'', -, -, hread, hannotate, hlist⟩
  · rw [hlist] at hlisted
    cases hlisted
  · rw [hlist] at hlisted
    cases hlisted
  · rw [hlist] at hlisted
    cases hlisted
  · refine ⟨code, s', reads_of_run_readAll hread, fun address => ?_⟩
    have hmap := context.map_withoutReference_annotateAll (context.currentOf item)
      (context.decodeAll code) { names } s'
    rw [hannotate] at hmap
    have haddresses : instructions.map (·.address) =
        (context.decodeAll code).map (·.address) := by
      have hmap' := congrArg (List.map (·.address)) hmap
      rw [List.map_map, List.map_map] at hmap'
      exact hmap'
    have hlistings : (∃ instruction ∈
        ((context.listMethod names item).run s).1.listing.instructions,
          instruction.address = address) ↔ address ∈ instructions.map (·.address) := by
      rw [hlist, List.mem_map]
      constructor
      · rintro ⟨instruction, hmem, haddress⟩
        exact ⟨instruction, (Listing.mem_instructions_groupsOf rfl).1 hmem, haddress⟩
      · rintro ⟨instruction, hmem, haddress⟩
        exact ⟨instruction, (Listing.mem_instructions_groupsOf rfl).2 hmem, haddress⟩
    rw [hlistings, haddresses, List.mem_map]
    constructor
    · rintro ⟨instruction, hmem, haddress⟩
      obtain ⟨piece, hpiece, hmem⟩ := List.mem_flatMap.1 hmem
      exact ⟨piece, hpiece, instruction, hmem, haddress⟩
    · rintro ⟨piece, hpiece, instruction, hmem, haddress⟩
      exact ⟨instruction, List.mem_flatMap.2 ⟨piece, hpiece, hmem⟩, haddress⟩

/-- In a range that fits, no instruction lies below the start. -/
theorem start_le_of_mem_decode {range : CodeRange} {bytes : List UInt8}
    {instruction : Instruction} (hfits : range.Fits) (hlength : bytes.length = range.length.toNat)
    (hmem : instruction ∈
      context.isa.decode context.decoders context.settings.referenceThreshold range.start bytes) :
    range.start ≤ instruction.address := by
  obtain ⟨offset, hoffset, haddress, -⟩ := Isa.exists_offset_of_mem_decode hmem
  have hmin := context.isa.minLength_pos
  have hsum : range.start.toNat + offset < UInt64.size := by
    unfold CodeRange.Fits at hfits
    omega
  have hsmall : (UInt64.ofNat offset).toNat = offset := UInt64.toNat_ofNat_of_lt' (by omega)
  rw [haddress, UInt64.le_iff_toNat_le, UInt64.toNat_add, hsmall, Nat.mod_eq_of_lt hsum]
  exact Nat.le_add_right _ _

/-! ## The two bases -/

/-- The base of the references is the lowest start of a range. -/
theorem labelBase_currentOf (hranges : context.rangesOf item.method ≠ []) :
    (∀ range ∈ context.rangesOf item.method,
      (context.currentOf item).labelBase ≤ range.start) ∧
    ∃ range ∈ context.rangesOf item.method,
      range.start = (context.currentOf item).labelBase := by
  obtain ⟨hleast, hbase⟩ := min?_getD_eq_iff.1 (rfl :
    ((context.rangesOf item.method).map (·.start)).min?.getD item.method.nativeCode =
      (context.currentOf item).labelBase)
  refine ⟨fun range hrange => hleast _ (List.mem_map_of_mem hrange), ?_⟩
  rcases hbase with hmem | ⟨hnil, -⟩
  · exact List.mem_map.1 hmem
  · exact absurd (List.map_eq_nil_iff.1 hnil) hranges

/-- The bases agree exactly if no instruction lies below the base of the references and one lies at
it, or none is listed and the method starts there. -/
theorem labelBase_listing_eq_iff (context : Context σ) (names : NameMap) (item : WorkItem) (s : σ)
    (base : UInt64) :
    ((context.listMethod names item).run s).1.listing.labelBase = base ↔
      (∀ instruction ∈ ((context.listMethod names item).run s).1.listing.instructions,
        base ≤ instruction.address) ∧
      ((∃ instruction ∈ ((context.listMethod names item).run s).1.listing.instructions,
          instruction.address = base) ∨
        ((context.listMethod names item).run s).1.listing.instructions = [] ∧
          item.method.nativeCode = base) := by
  unfold Listing.labelBase
  rw [min?_getD_eq_iff, List.forall_mem_map, List.mem_map, List.map_eq_nil_iff,
    (context.listing_listMethod names item s).2]

/-- As long as all ranges fit, the bases agree exactly if a range at the lowest start is long enough
for an instruction, or none is and the method starts at the lowest start. -/
theorem labelBase_listing_eq_iff_of_fits
    (hlisted : ((context.listMethod names item).run s).1.listing.problem = none)
    (hfits : ∀ range ∈ context.rangesOf item.method, range.Fits) :
    ((context.listMethod names item).run s).1.listing.labelBase =
        (context.currentOf item).labelBase ↔
      (∃ range ∈ context.rangesOf item.method,
        range.start = (context.currentOf item).labelBase ∧
          context.isa.minLength ≤ range.length.toNat) ∨
      (∀ range ∈ context.rangesOf item.method, range.length.toNat < context.isa.minLength) ∧
        item.method.nativeCode = (context.currentOf item).labelBase := by
  have hranges := ((context.problem_listMethod_eq_none_iff names item s).1 hlisted).2.1
  obtain ⟨hleast, -⟩ := labelBase_currentOf hranges
  obtain ⟨code, s', hreads, hinstructions⟩ := exists_instruction_iff hlisted
  -- Every instruction stands in a range, at its start or behind it.
  have hplace : ∀ instruction ∈
      ((context.listMethod names item).run s).1.listing.instructions,
      ∃ range ∈ context.rangesOf item.method, context.isa.minLength ≤ range.length.toNat ∧
        range.start ≤ instruction.address := by
    intro instruction hmem
    obtain ⟨⟨range, bytes⟩, hpiece, decoded, hdecoded, haddress⟩ :=
      (hinstructions instruction.address).1 ⟨instruction, hmem, rfl⟩
    obtain ⟨hrange, hlength⟩ := hreads.of_mem hpiece
    obtain ⟨offset, hoffset, -⟩ := Isa.exists_offset_of_mem_decode hdecoded
    have hlong : context.isa.minLength ≤ range.length.toNat := by
      rw [← hlength]
      exact Nat.le_of_add_left_le hoffset
    refine ⟨range, hrange, hlong, ?_⟩
    rw [← haddress]
    exact start_le_of_mem_decode (hfits range hrange) hlength hdecoded
  -- Every range that is long enough has an instruction at its start.
  have hstart : ∀ range ∈ context.rangesOf item.method,
      context.isa.minLength ≤ range.length.toNat →
      ∃ instruction ∈ ((context.listMethod names item).run s).1.listing.instructions,
        instruction.address = range.start := by
    intro range hrange hlong
    obtain ⟨bytes, hpiece⟩ := hreads.exists_bytes hrange
    rw [← (hreads.of_mem hpiece).2] at hlong
    exact (hinstructions range.start).2 ⟨_, hpiece, Isa.exists_mem_decode_of_long hlong⟩
  rw [labelBase_listing_eq_iff]
  constructor
  · rintro ⟨-, ⟨instruction, hmem, haddress⟩ | ⟨hnil, hnative⟩⟩
    · obtain ⟨range, hrange, hlong, hbelow⟩ := hplace instruction hmem
      rw [haddress] at hbelow
      exact Or.inl ⟨range, hrange, UInt64.le_antisymm hbelow (hleast range hrange), hlong⟩
    · refine Or.inr ⟨fun range hrange => ?_, hnative⟩
      by_contra hlong
      obtain ⟨instruction, hmem, -⟩ := hstart range hrange (Nat.le_of_not_lt hlong)
      rw [hnil] at hmem
      cases hmem
  · intro h
    refine ⟨fun instruction hmem => ?_, ?_⟩
    · obtain ⟨range, hrange, -, hbelow⟩ := hplace instruction hmem
      exact UInt64.le_trans (hleast range hrange) hbelow
    · rcases h with ⟨range, hrange, hbase, hlong⟩ | ⟨hshort, hnative⟩
      · rw [← hbase]
        exact Or.inl (hstart range hrange hlong)
      · refine Or.inr ⟨List.eq_nil_iff_forall_not_mem.2 fun instruction hmem => ?_, hnative⟩
        obtain ⟨range, hrange, hlong, -⟩ := hplace instruction hmem
        exact absurd (hshort range hrange) (Nat.not_lt.2 hlong)

/-! ## Labels of references -/

/-- A reference into the method's own code gets the label that counts from its base. -/
theorem symbol_annotate_of_contains (context : Context σ) (current : Current)
    (instruction : Instruction) (findings : Findings) (s : σ) {target : UInt64}
    (hreference : ((context.annotate current instruction findings).run s).1.1.reference =
      some target)
    (hlocal : current.contains target = true) :
    ((context.annotate current instruction findings).run s).1.1.symbol =
      some (localLabel (target - current.labelBase)) := by
  rcases context.annotate_cases current instruction findings s with
    ⟨hnone, hrun⟩ | ⟨candidate, -, -, hrun⟩ |
    ⟨candidate, destination, symbol, findings', s', -, -, -, hresolve, hrun⟩
  · rw [hrun, hnone] at hreference
    cases hreference
  · rw [hrun] at hreference
    cases hreference
  · rw [hrun] at hreference ⊢
    cases hreference
    rw [run_resolve_of_contains hlocal] at hresolve
    cases hresolve
    rfl

/-- All references into the method's own code get labels that count from its base. -/
theorem symbol_annotateAll_of_contains (context : Context σ) (current : Current)
    (instructions : List Instruction) (findings : Findings) (s : σ) :
    ∀ instruction ∈ ((context.annotateAll current instructions findings).run s).1.1,
      ∀ target, instruction.reference = some target → current.contains target = true →
        instruction.symbol = some (localLabel (target - current.labelBase)) := by
  induction instructions generalizing findings s with
  | nil =>
    intro instruction hmem
    cases hmem
  | cons first rest ih =>
    rw [run_annotateAll_cons]
    intro instruction hmem target hreference hlocal
    rcases List.mem_cons.1 hmem with rfl | hmem
    · exact context.symbol_annotate_of_contains current first findings s hreference hlocal
    · exact ih _ _ instruction hmem target hreference hlocal

/-- A reference into the method's own code carries the label of its target. -/
theorem symbol_listing_of_contains (context : Context σ) (names : NameMap) (item : WorkItem)
    (s : σ) :
    ∀ instruction ∈ ((context.listMethod names item).run s).1.listing.instructions,
      ∀ target, instruction.reference = some target →
        (context.currentOf item).contains target = true →
        instruction.symbol = some (localLabel (target - (context.currentOf item).labelBase)) := by
  rcases context.listMethod_cases names item s with
    ⟨reason, -, hlist⟩ | ⟨-, -, hlist⟩ | ⟨error, s', -, -, -, hlist⟩ |
    ⟨code, s', instructions, findings, s'', -, -, -, hannotate, hlist⟩
  · rw [hlist]
    intro instruction hmem
    cases hmem
  · rw [hlist]
    intro instruction hmem
    cases hmem
  · rw [hlist]
    intro instruction hmem
    cases hmem
  · have hsymbols := context.symbol_annotateAll_of_contains (context.currentOf item)
      (context.decodeAll code) { names } s'
    rw [hannotate] at hsymbols
    rw [hlist]
    intro instruction hmem
    exact hsymbols instruction ((Listing.mem_instructions_groupsOf rfl).1 hmem)

/-- The lines of a listing and the references in it count from the same base exactly if no
instruction lies below the lowest start of the ranges and one lies there, or none is listed and the
method starts there.  For ranges that fit this is a matter of their lengths.  A label that is
referred to is shown at the line of its target if and only if the bases agree. -/
theorem labels_agree_iff {context : Context σ} {names : NameMap} {item : WorkItem}
    {outcome : Outcome} {s s' : σ} (hlist : (context.listMethod names item).run s = (outcome, s'))
    (hlisted : outcome.listing.problem = none) :
    (outcome.listing.labelBase = (context.currentOf item).labelBase ↔
      (∀ instruction ∈ outcome.listing.instructions,
        (context.currentOf item).labelBase ≤ instruction.address) ∧
      ((∃ instruction ∈ outcome.listing.instructions,
          instruction.address = (context.currentOf item).labelBase) ∨
        outcome.listing.instructions = [] ∧
          item.method.nativeCode = (context.currentOf item).labelBase)) ∧
    ((∀ range ∈ context.rangesOf item.method, range.Fits) →
      (outcome.listing.labelBase = (context.currentOf item).labelBase ↔
        (∃ range ∈ context.rangesOf item.method,
          range.start = (context.currentOf item).labelBase ∧
            context.isa.minLength ≤ range.length.toNat) ∨
        (∀ range ∈ context.rangesOf item.method, range.length.toNat < context.isa.minLength) ∧
          item.method.nativeCode = (context.currentOf item).labelBase)) ∧
    ∀ branch ∈ outcome.listing.instructions, ∀ target, branch.reference = some target →
      (context.currentOf item).contains target = true →
      ∃ label, branch.symbol = some label ∧
        ∀ instruction ∈ outcome.listing.instructions, instruction.address = target →
          ∀ (format : LineFormat) (final : NameMap),
            format.ShowsLabel instruction
                (format.line instruction outcome.listing.labelBase final) label ↔
              outcome.listing.labelBase = (context.currentOf item).labelBase := by
  obtain rfl : ((context.listMethod names item).run s).1 = outcome := by rw [hlist]
  refine ⟨labelBase_listing_eq_iff .., labelBase_listing_eq_iff_of_fits hlisted, ?_⟩
  intro branch hbranch target hreference hlocal
  refine ⟨_, context.symbol_listing_of_contains names item s branch hbranch target hreference
    hlocal, ?_⟩
  intro instruction _ haddress format final
  rw [LineFormat.showsLabel_line_iff, haddress]
  exact UInt64.sub_right_inj target

end Context

/-! ## A range that is too short -/

namespace TwoRanges

/-- A method that loops forever at its second range, whose first range has the given length. -/
def method (length : UInt32) : Method where
  signature := "A.Loop()"
  typeName := ""
  nativeCode := 0x20000
  descriptor := 0
  compilation := .jitted
  isPInvoke := false
  hasIl := true
  codeRanges := [⟨0x10000, length⟩, ⟨0x20000, 8⟩]

/-- The code of the two ranges on Arm64: an instruction that does nothing; a branch to itself and a
return. -/
def memory : List MemoryRegion :=
  [⟨0x10000, [0x1F, 0x20, 0x03, 0xD5]⟩,
    ⟨0x20000, [0x00, 0x00, 0x00, 0x14, 0xC0, 0x03, 0x5F, 0xD6]⟩]

/-- A snapshot of this memory and the method. -/
def index (length : UInt32) : SnapshotIndex where
  snapshot := {
    architecture := .arm64
    os := .linux
    pageSize := 4096
    version := ⟨8, 0, 0⟩
    methods := [method length]
    helpers := []
    tables := []
    memory := memory
    sources := [] }
  regions := memory.toArray

/-- The context of a run over the snapshot. -/
def context (length : UInt32) : Context Unit where
  settings := {}
  provider := (index length).provider Unit
  isa := .arm64
  decoders := .builtIn
  templates := Isa.arm64.stubTemplates 16384
  reusesStubs := true
  guard := 4096
  sourceOf := none

/-- What listing the method brings. -/
def outcome (length : UInt32) : Context.Outcome :=
  (((context length).listMethod .empty ⟨method length, 0⟩).run ()).1

end TwoRanges

namespace Context

/-- If the first range holds one instruction, labels count from its start in lines and
references. -/
theorem labels_agree_of_two_ranges :
    ((TwoRanges.context 4).listMethod .empty ⟨TwoRanges.method 4, 0⟩).run () =
      (TwoRanges.outcome 4, ()) ∧
    (TwoRanges.outcome 4).listing.problem = none ∧
    (TwoRanges.outcome 4).listing.labelBase =
      ((TwoRanges.context 4).currentOf ⟨TwoRanges.method 4, 0⟩).labelBase := by
  have hlist : ((TwoRanges.context 4).listMethod .empty ⟨TwoRanges.method 4, 0⟩).run () =
      (TwoRanges.outcome 4, ()) := rfl
  have hlisted : (TwoRanges.outcome 4).listing.problem = none := by
    simp only [TwoRanges.outcome, listMethod, rangesOf, mergeSort_address_eq_insertionSort]
    decide +kernel
  have hranges : (TwoRanges.context 4).rangesOf (TwoRanges.method 4) =
      [⟨0x10000, 4⟩, ⟨0x20000, 8⟩] := by
    rw [rangesOf, mergeSort_address_eq_insertionSort]
    decide +kernel
  refine ⟨hlist, hlisted, ((labels_agree_iff hlist hlisted).2.1 ?_).2 (Or.inl ?_)⟩
  · rw [hranges]
    unfold CodeRange.Fits
    decide
  · rw [currentOf, hranges]
    exact ⟨⟨0x10000, 4⟩, List.mem_cons_self, by decide, by decide⟩

/-- With valid settings and over a sound snapshot, a method whose first range is too short for an
instruction is listed without problem, but its branch to itself refers to a label that its line does
not show. -/
theorem labels_differ_of_short_range :
    SnapshotIndex.ofSnapshot (TwoRanges.index 2).snapshot = .ok (TwoRanges.index 2) ∧
    (∃ disassembler disassembler', Disassembler.ofSettings .builtIn {} = .ok disassembler ∧
      disassembler.context ((TwoRanges.index 2).provider Unit) none =
        .ok (TwoRanges.context 2, disassembler')) ∧
    (TwoRanges.outcome 2).listing.problem = none ∧
    (TwoRanges.outcome 2).listing.labelBase = 0x20000 ∧
    ((TwoRanges.context 2).currentOf ⟨TwoRanges.method 2, 0⟩).labelBase = 0x10000 ∧
    (TwoRanges.outcome 2).listing.instructions.map (fun instruction =>
        (instruction.address, instruction.reference, instruction.symbol)) =
      [(0x20000, some 0x20000, some "L10000"), (0x20004, none, none)] ∧
    (TwoRanges.outcome 2).listing.instructions.map (fun instruction =>
        ({} : LineFormat).line instruction (TwoRanges.outcome 2).listing.labelBase .empty) =
      ["L0000: b #L10000", "L0004: ret"] := by
  refine ⟨SnapshotIndex.ofSnapshot_eq_ok_of_pairwise (by decide) rfl rfl, ⟨_, _, rfl, rfl⟩,
    ?_, ?_, ?_, ?_, ?_⟩
  all_goals
    simp only [TwoRanges.outcome, listMethod, currentOf, rangesOf,
      mergeSort_address_eq_insertionSort]
    decide +kernel

end Context

end CodeListing
