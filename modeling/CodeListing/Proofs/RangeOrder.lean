import CodeListing.Proofs.CallGraph
import CodeListing.Proofs.ListingOrProblem
import CodeListing.Proofs.MemoryRegions
import CodeListing.Proofs.RangeReading
import Mathlib.Data.List.Nodup

/-!
# The order in which ranges are listed

A provider lists the ranges of a method in any order and may list one twice.  They are sorted by
their start, and of equal neighbours one is kept.  If no two of them share a start, that makes one
list of any listing, and a method is listed the same way whatever the listing is.  Ranges that share
a start stay in the order given, so neither their order nor a repetition between them is undone.
-/

set_option autoImplicit false

namespace CodeListing

variable {σ : Type}

/-! ## What depends on the listed ranges -/

/-- The provider, which now lists these ranges for the method. -/
def Provider.withRanges (provider : Provider σ) (method : Method) (ranges : List CodeRange) :
    Provider σ :=
  { provider with
    codeRanges := fun other => if other = method then ranges else provider.codeRanges other }

/-- The context in which these ranges are listed for the method. -/
def Context.withRanges (context : Context σ) (method : Method) (ranges : List CodeRange) :
    Context σ :=
  { context with provider := context.provider.withRanges method ranges }

/-- The search for a template does not depend on which ranges are listed. -/
theorem Stub.templateAt?_withRanges (provider : Provider σ) (method : Method)
    (ranges : List CodeRange) (address : UInt64) (mayFlush : Bool)
    (templates : List StubTemplate) :
    templateAt? (provider.withRanges method ranges) address mayFlush templates =
      templateAt? provider address mayFlush templates := by
  induction templates generalizing mayFlush with
  | nil => rfl
  | cons template others ih =>
    simp only [templateAt?, ih]
    rfl

namespace Context

section WithRanges

variable (context : Context σ) (method : Method) (ranges : List CodeRange)

/-- How the reference of an instruction is named does not depend on which ranges are listed. -/
theorem annotate_withRanges (current : Current) (instruction : Instruction)
    (findings : Findings) :
    (context.withRanges method ranges).annotate current instruction findings =
      context.annotate current instruction findings := by
  have hdestination : ∀ candidate,
      (context.withRanges method ranges).destination? instruction candidate =
        context.destination? instruction candidate := by
    intro candidate
    have htemplate := Stub.templateAt?_withRanges context.provider method ranges
    simp only [destination?, Stub.follow, withRanges, htemplate]
    rfl
  simp only [annotate, hdestination]
  rfl

/-- How references are named does not depend on which ranges are listed. -/
theorem annotateAll_withRanges (current : Current) (instructions : List Instruction)
    (findings : Findings) :
    (context.withRanges method ranges).annotateAll current instructions findings =
      context.annotateAll current instructions findings := by
  induction instructions generalizing findings with
  | nil => rfl
  | cons instruction rest ih => simp only [annotateAll, annotate_withRanges, ih]

/-- How ranges are read does not depend on which ranges are listed. -/
theorem readAll_withRanges (others : List CodeRange) :
    (context.withRanges method ranges).readAll others = context.readAll others := by
  apply readAll_congr
  rfl

/-- The ranges that are read of those that are listed. -/
def usedRanges (ranges : List CodeRange) : List CodeRange :=
  dropRepeats ((ranges.filter fun range => !range.isEmpty).mergeSort fun a b => a.start ≤ b.start)

/-- The ranges of the method are the used ones of those that are listed. -/
theorem rangesOf_withRanges :
    (context.withRanges method ranges).rangesOf method = usedRanges ranges := by
  simp [rangesOf, usedRanges, withRanges, Provider.withRanges]

/-- A method is listed the same way if the same ranges are used. -/
theorem listMethod_withRanges_congr {listed ranges : List CodeRange}
    (h : usedRanges listed = usedRanges ranges) (names : NameMap) (item : WorkItem) :
    (context.withRanges item.method listed).listMethod names item =
      (context.withRanges item.method ranges).listMethod names item := by
  simp only [listMethod, readAll_withRanges, annotateAll_withRanges, rangesOf_withRanges, h]
  rfl

end WithRanges

/-! ## Ranges by their start -/

/-- The ranges that are used are the listed ones that are not empty. -/
theorem mem_usedRanges {ranges : List CodeRange} {range : CodeRange} :
    range ∈ usedRanges ranges ↔ range ∈ ranges ∧ range.isEmpty = false := by
  rw [usedRanges, mem_dropRepeats, List.mem_mergeSort, List.mem_filter, Bool.not_eq_true']

/-- Without repetitions the ranges stay in their order. -/
theorem dropRepeats_sublist (ranges : List CodeRange) :
    (dropRepeats ranges).Sublist ranges := by
  fun_induction dropRepeats ranges with
  | case1 first rest ih => exact ih.cons first
  | case2 first second rest _ ih => exact ih.cons_cons first
  | case3 => exact List.Sublist.refl _

/-- The ranges that are used are in the order of their starts. -/
theorem pairwise_usedRanges (ranges : List CodeRange) :
    (usedRanges ranges).Pairwise fun a b => a.start ≤ b.start :=
  (pairwise_mergeSort_address _).sublist (dropRepeats_sublist _)

/-- Where the start changes in ranges by their start, it rises for all that follow. -/
theorem start_lt_of_pairwise {first second range : CodeRange} {rest : List CodeRange}
    (h : (first :: second :: rest).Pairwise fun a b => a.start ≤ b.start)
    (hne : first.start ≠ second.start) (hrange : range ∈ second :: rest) :
    first.start < range.start := by
  have hfirst : first.start < second.start :=
    UInt64.lt_of_le_of_ne (List.rel_of_pairwise_cons h List.mem_cons_self) hne
  have hle : second.start ≤ range.start := by
    rcases List.mem_cons.1 hrange with rfl | hrest
    · exact UInt64.le_refl _
    · exact List.rel_of_pairwise_cons h.of_cons hrest
  exact UInt64.lt_of_lt_of_le hfirst hle

/-- In a sorted list, repetitions are dropped among the ranges with one start as if there were no
others. -/
theorem filter_dropRepeats {ranges : List CodeRange}
    (h : ranges.Pairwise fun a b => a.start ≤ b.start) (start : UInt64) :
    (dropRepeats ranges).filter (·.start == start) =
      dropRepeats (ranges.filter (·.start == start)) := by
  fun_induction dropRepeats ranges with
  | case1 first rest ih =>
    rw [ih h.of_cons]
    by_cases hstart : first.start = start
    · simp [hstart, dropRepeats]
    · simp [hstart]
  | case2 first second rest hne ih =>
    have ih := ih h.of_cons
    by_cases hstart : first.start = start
    · have hkeep : ∀ others : List CodeRange, (first :: others).filter (·.start == start) =
          first :: others.filter (·.start == start) :=
        fun _ => List.filter_cons_of_pos (by simpa using hstart)
      rw [hkeep, hkeep, ih]
      by_cases hsecond : second.start = start
      · simp [hsecond, hne, dropRepeats]
      · have hnone : (second :: rest).filter (·.start == start) = [] := by
          refine List.filter_eq_nil_iff.2 fun range hrange => ?_
          have hlt := start_lt_of_pairwise h (hstart.trans_ne (Ne.symm hsecond)) hrange
          rw [hstart] at hlt
          simpa using (UInt64.ne_of_lt hlt).symm
        rw [hnone]
        rfl
    · have hskip : ∀ others : List CodeRange, (first :: others).filter (·.start == start) =
          others.filter (·.start == start) :=
        fun _ => List.filter_cons_of_neg (by simpa using hstart)
      rw [hskip, hskip, ih]
  | case3 ranges hshort =>
    cases ranges with
    | nil => rfl
    | cons first rest =>
      cases rest with
      | nil =>
        by_cases hstart : first.start = start
        · simp [hstart, dropRepeats]
        · simp [hstart, dropRepeats]
      | cons second rest => exact (hshort first second rest rfl).elim

/-- The ranges that are used at a start are the listed ones there, without repetitions. -/
theorem filter_usedRanges (ranges : List CodeRange) (start : UInt64) :
    (usedRanges ranges).filter (·.start == start) =
      dropRepeats ((ranges.filter fun range => !range.isEmpty).filter (·.start == start)) := by
  rw [usedRanges, filter_dropRepeats (pairwise_mergeSort_address _), filter_mergeSort_address]

/-- How often a range is used depends on those with its start only. -/
theorem count_usedRanges (ranges : List CodeRange) (range : CodeRange) :
    (usedRanges ranges).count range =
      (dropRepeats ((ranges.filter fun other => !other.isEmpty).filter
        (·.start == range.start))).count range := by
  rw [← filter_usedRanges]
  refine (List.count_filter ?_).symm
  exact beq_self_eq_true range.start

/-! ## Listings of the same ranges -/

/-- The same ranges with code are listed, in any order and any number of times. -/
def SameRanges (listed ranges : List CodeRange) : Prop :=
  ∀ range : CodeRange, range.isEmpty = false → (range ∈ listed ↔ range ∈ ranges)

/-- Of the listed ranges with code, no two different ones share a start. -/
def StartsDiffer (ranges : List CodeRange) : Prop :=
  ∀ a ∈ ranges, ∀ b ∈ ranges, a.isEmpty = false → b.isEmpty = false → a.start = b.start → a = b

/-- Of the same ranges the same ones are used. -/
theorem SameRanges.mem_usedRanges_iff {listed ranges : List CodeRange}
    (h : SameRanges listed ranges) (range : CodeRange) :
    range ∈ usedRanges listed ↔ range ∈ usedRanges ranges := by
  rw [mem_usedRanges, mem_usedRanges]
  constructor
  · rintro ⟨hmem, hempty⟩
    exact ⟨(h range hempty).1 hmem, hempty⟩
  · rintro ⟨hmem, hempty⟩
    exact ⟨(h range hempty).2 hmem, hempty⟩

/-- If no two different ranges share a start, none of the same ranges do. -/
theorem SameRanges.startsDiffer {listed ranges : List CodeRange} (h : SameRanges listed ranges)
    (hranges : StartsDiffer ranges) : StartsDiffer listed := by
  intro a ha b hb hempty hempty'
  exact hranges a ((h a hempty).1 ha) b ((h b hempty').1 hb) hempty hempty'

/-- Of repetitions of one range at most one is left. -/
theorem count_dropRepeats_le_one {ranges : List CodeRange} {range : CodeRange}
    (h : ∀ other ∈ ranges, other = range) : (dropRepeats ranges).count range ≤ 1 := by
  fun_induction dropRepeats ranges with
  | case1 first rest ih => exact ih fun other hother => h other (List.mem_cons_of_mem _ hother)
  | case2 first second rest hne ih =>
    have hfirst := h first (by simp)
    have hsecond := h second (by simp)
    exact absurd (hfirst.trans hsecond.symm) hne
  | case3 ranges hshort =>
    cases ranges with
    | nil => exact Nat.zero_le 1
    | cons first rest =>
      cases rest with
      | nil => exact List.count_le_length
      | cons second rest => exact (hshort first second rest rfl).elim

/-- If no two different ranges share a start, none is used twice. -/
theorem StartsDiffer.nodup_usedRanges {ranges : List CodeRange} (h : StartsDiffer ranges) :
    (usedRanges ranges).Nodup := by
  refine List.nodup_iff_count_le_one.2 fun range => ?_
  by_cases hmem : range ∈ usedRanges ranges
  · obtain ⟨hlisted, hempty⟩ := mem_usedRanges.1 hmem
    rw [count_usedRanges]
    refine count_dropRepeats_le_one fun other hother => ?_
    obtain ⟨hother, hstart⟩ := List.mem_filter.1 hother
    obtain ⟨hother, hempty'⟩ := List.mem_filter.1 hother
    exact h other hother range hlisted (by simpa using hempty') hempty (by simpa using hstart)
  · rw [List.count_eq_zero_of_not_mem hmem]
    exact Nat.zero_le 1

/-- Ranges with different starts are read in the same order however they are listed. -/
theorem usedRanges_eq_of_sameRanges {listed ranges : List CodeRange} (h : SameRanges listed ranges)
    (hstarts : StartsDiffer ranges) : usedRanges listed = usedRanges ranges := by
  have hperm : (usedRanges listed).Perm (usedRanges ranges) :=
    (List.perm_ext_iff_of_nodup (h.startsDiffer hstarts).nodup_usedRanges
      hstarts.nodup_usedRanges).2 h.mem_usedRanges_iff
  refine hperm.eq_of_pairwise ?_ (pairwise_usedRanges listed) (pairwise_usedRanges ranges)
  intro a b ha hb hab hba
  obtain ⟨ha, hempty⟩ := mem_usedRanges.1 ha
  obtain ⟨hb, hempty'⟩ := mem_usedRanges.1 hb
  exact hstarts a ((h a hempty).1 ha) b hb hempty hempty' (UInt64.le_antisymm hab hba)

/-- If two ranges share a start, a second pair of them in front is used like the first one. -/
theorem perm_usedRanges_of_start_eq {a b : CodeRange} (hstart : a.start = b.start) (hne : a ≠ b)
    (ha : a.isEmpty = false) (hb : b.isEmpty = false) (ranges : List CodeRange) :
    (usedRanges (a :: b :: a :: b :: ranges)).Perm (a :: b :: usedRanges (a :: b :: ranges)) := by
  refine List.perm_iff_count.2 fun range => ?_
  rw [List.count_cons, List.count_cons, count_usedRanges, count_usedRanges]
  by_cases hrange : a.start = range.start
  · have hrange' : b.start = range.start := hstart.symm.trans hrange
    simp [ha, hb, hrange, hrange', dropRepeats, hne, hne.symm, List.count_cons]
  · have hrange' : b.start ≠ range.start := fun heq => hrange (hstart.trans heq)
    have hne' : a ≠ range := fun heq => hrange (congrArg _ heq)
    have hne'' : b ≠ range := fun heq => hrange' (congrArg _ heq)
    simp [ha, hb, hrange, hrange', hne', hne'']

/-! ## Zeros everywhere -/

section Zeros

variable (decoders : Isa.Decoders)

/-- The context of a run, with given decoders, over a memory in which every byte is zero. -/
def overZeros : Context Unit where
  settings := {}
  provider := .serving fun _ count => List.replicate count 0
  isa := .x86 .bits64
  decoders := decoders
  templates := []
  reusesStubs := false
  guard := 0
  sourceOf := none

/-- A method with code, to be listed. -/
def anyItem : WorkItem where
  method := {
    signature := "A.Run()"
    typeName := ""
    nativeCode := 0x10000
    descriptor := 0
    compilation := .jitted
    isPInvoke := false
    hasIl := true
    codeRanges := [] }
  depth := 0

/-- The bytes of a range of zeros. -/
def zerosOf (range : CodeRange) : List UInt8 :=
  List.replicate range.length.toNat 0

/-- A range over zeros is read as zeros. -/
theorem run_readRange_overZeros (range : CodeRange) :
    ((overZeros decoders).provider.readRange range).run () = (.ok (zerosOf range), ()) := by
  have hmaps : ∀ address, MemoryMap.Maps (fun _ => some 0) address :=
    fun _ => Option.some_ne_none _
  have hserves : (overZeros decoders).provider.ServesPieces fun _ => some 0 := by
    refine ⟨fun {address count} s hcount _ => ?_, fun s _ hnot => absurd (hmaps _) hnot⟩
    rw [show (((overZeros decoders).provider.read address count).run s).1 =
      List.replicate count 0 from rfl, List.length_replicate]
    refine ⟨hcount, Nat.le_refl count, fun i b hget => ?_⟩
    have hzero := List.mem_of_getElem? hget
    exact congrArg some (List.eq_of_mem_replicate hzero).symm
  have hfront := hserves.isFront_readOn range.start 0 range.length.toNat ()
  have hlength := hfront.length_eq_iff.2 fun _ _ => hmaps _
  have hbytes :
      (((overZeros decoders).provider.readOn range.start 0 range.length.toNat).run ()).1 =
        zerosOf range := by
    refine List.eq_replicate_iff.2 ⟨hlength, fun b hb => ?_⟩
    obtain ⟨i, hget⟩ := List.mem_iff_getElem?.1 hb
    exact (Option.some.inj (hfront.holds i b hget)).symm
  refine Prod.ext ?_ rfl
  rw [Provider.run_readRange, if_pos hlength, hbytes]

/-- All ranges over zeros are read as zeros. -/
theorem run_readAll_overZeros (ranges : List CodeRange) :
    ((overZeros decoders).readAll ranges).run () =
      (.ok (ranges.map fun range => (range, zerosOf range)), ()) := by
  induction ranges with
  | nil => rfl
  | cons range rest ih =>
    rw [run_readAll_cons, run_readRange_overZeros decoders]
    dsimp only
    rw [ih]
    rfl

/-- The instructions that the zeros of a range are. -/
def zeroInstructions (range : CodeRange) : List Instruction :=
  let context := overZeros decoders
  context.isa.decode decoders context.settings.referenceThreshold range.start (zerosOf range)

/-- With any decoders, a range of zeros has an instruction. -/
theorem zeroInstructions_ne_nil {range : CodeRange} (h : range.isEmpty = false) :
    zeroInstructions decoders range ≠ [] := by
  have hlength : range.length ≠ 0 := by simpa [CodeRange.isEmpty] using h
  have hlong : (overZeros decoders).isa.minLength ≤ (zerosOf range).length := by
    rw [zerosOf, List.length_replicate]
    exact Nat.pos_of_ne_zero fun hzero => hlength (UInt32.toNat_inj.1 hzero)
  obtain ⟨instruction, hmem, -⟩ := Isa.exists_mem_decode_of_long hlong
  exact List.ne_nil_of_mem hmem

/-- A method over zeros is listed with the instructions of each range that is used. -/
theorem length_listing_overZeros {listed : List CodeRange} (h : usedRanges listed ≠ []) :
    ((((overZeros decoders).withRanges anyItem.method listed).listMethod .empty
      anyItem).run ()).1.listing.instructions.length =
      ((usedRanges listed).flatMap (zeroInstructions decoders)).length := by
  set context := (overZeros decoders).withRanges anyItem.method listed with hcontext
  have hranges : context.rangesOf anyItem.method = usedRanges listed :=
    rangesOf_withRanges (overZeros decoders) anyItem.method listed
  have hread : (context.readAll (context.rangesOf anyItem.method)).run () =
      (.ok ((usedRanges listed).map fun range => (range, zerosOf range)), ()) := by
    rw [hranges, hcontext, readAll_withRanges]
    exact run_readAll_overZeros decoders _
  rw [run_listMethod_of_readAll_eq_ok rfl (hranges ▸ h) hread]
  dsimp only
  rw [Listing.instructions_of_groups_eq rfl]
  have hmap := congrArg List.length (map_withoutReference_annotateAll context
    (context.currentOf anyItem)
    (context.decodeAll ((usedRanges listed).map fun range => (range, zerosOf range)))
    { names := .empty } ())
  rw [List.length_map, List.length_map] at hmap
  rw [hmap, decodeAll, List.flatMap_map]
  rfl

/-- If two ranges share a start, a second pair of them makes a longer listing over zeros. -/
theorem length_listing_lt_of_start_eq {a b : CodeRange} (hstart : a.start = b.start) (hne : a ≠ b)
    (ha : a.isEmpty = false) (hb : b.isEmpty = false) (ranges : List CodeRange) :
    ((((overZeros decoders).withRanges anyItem.method (a :: b :: ranges)).listMethod .empty
      anyItem).run ()).1.listing.instructions.length <
      ((((overZeros decoders).withRanges anyItem.method (a :: b :: a :: b :: ranges)).listMethod
        .empty anyItem).run ()).1.listing.instructions.length := by
  have hmem : a ∈ usedRanges (a :: b :: ranges) := mem_usedRanges.2 ⟨by simp, ha⟩
  have hmem' : a ∈ usedRanges (a :: b :: a :: b :: ranges) := mem_usedRanges.2 ⟨by simp, ha⟩
  have hperm := (perm_usedRanges_of_start_eq hstart hne ha hb ranges).flatMap_right
    (zeroInstructions decoders)
  have hpos := List.length_pos_of_ne_nil (zeroInstructions_ne_nil decoders ha)
  rw [length_listing_overZeros decoders (List.ne_nil_of_mem hmem),
    length_listing_overZeros decoders (List.ne_nil_of_mem hmem'), hperm.length_eq]
  simp only [List.flatMap_cons, List.length_append]
  omega

end Zeros

/-! ## Exactly when the order does not matter -/

/-- Listing two of the ranges again, once or twice, lists the same ranges. -/
theorem sameRanges_repeat {a b : CodeRange} {ranges : List CodeRange} (ha : a ∈ ranges)
    (hb : b ∈ ranges) :
    SameRanges (a :: b :: ranges) ranges ∧ SameRanges (a :: b :: a :: b :: ranges) ranges := by
  refine ⟨fun range _ => ?_, fun range _ => ?_⟩
  · grind
  · grind

/-- With any decoders, if all runs list a method the same way however its ranges are listed, then no
two different ranges with code share a start. -/
theorem startsDiffer_of_forall_step {decoders : Isa.Decoders} {ranges : List CodeRange}
    (h : ∀ listed, SameRanges listed ranges → ∀ (σ : Type) (context : Context σ)
      (state : RunState) (item : WorkItem) (s : σ), context.decoders = decoders →
      ((context.withRanges item.method listed).step state item).run s =
        ((context.withRanges item.method ranges).step state item).run s) :
    StartsDiffer ranges := by
  intro a ha b hb hempty hempty' hstart
  by_contra hne
  obtain ⟨honce, htwice⟩ := sameRanges_repeat ha hb
  -- Both listings would be the listing of the given ranges, but one of them is longer.
  have hsame := (h _ honce Unit (overZeros decoders) (.start 0) anyItem () rfl).trans
    (h _ htwice Unit (overZeros decoders) (.start 0) anyItem () rfl).symm
  have hlisting := congrArg (fun result => result.1.1.instructions.length) hsame
  have hlt := length_listing_lt_of_start_eq decoders hstart hne hempty hempty' ranges
  exact absurd hlisting (Nat.ne_of_lt hlt)

/-- Whatever the decoders are, every method is listed the same way, and leaves the same state,
however its ranges are listed, exactly if no two different ranges with code share a start.  Exactly
then no listing of the ranges makes one of them be decoded twice. -/
theorem step_same_for_all_listings_iff (decoders : Isa.Decoders) (ranges : List CodeRange) :
    ((∀ listed, SameRanges listed ranges → ∀ (σ : Type) (context : Context σ)
        (state : RunState) (item : WorkItem) (s : σ), context.decoders = decoders →
        ((context.withRanges item.method listed).step state item).run s =
          ((context.withRanges item.method ranges).step state item).run s) ↔
      StartsDiffer ranges) ∧
    ((∀ listed, SameRanges listed ranges → ∀ (σ : Type) (context : Context σ) (method : Method),
        ((context.withRanges method listed).rangesOf method).Nodup) ↔ StartsDiffer ranges) := by
  refine ⟨⟨startsDiffer_of_forall_step, ?_⟩, ?_, ?_⟩
  · intro hstarts listed hsame σ context state item s _
    have hlist := listMethod_withRanges_congr context
      (usedRanges_eq_of_sameRanges hsame hstarts) state.names item
    simp only [step, hlist]
  · intro h a ha b hb hempty hempty' hstart
    by_contra hne
    have hnodup := h _ (sameRanges_repeat ha hb).2 Unit (overZeros decoders) anyItem.method
    rw [rangesOf_withRanges,
      (perm_usedRanges_of_start_eq hstart hne hempty hempty' ranges).nodup_iff] at hnodup
    have hmem : a ∈ usedRanges (a :: b :: ranges) := mem_usedRanges.2 ⟨by simp, hempty⟩
    exact (List.nodup_cons.1 hnodup).1 (List.mem_cons_of_mem _ hmem)
  · intro hstarts listed hsame σ context method
    rw [rangesOf_withRanges]
    exact (hsame.startsDiffer hstarts).nodup_usedRanges

end Context

/-! ## Two ranges with one start -/

namespace SharedStart

/-- A method that is listed with a range and with the front of it. -/
def method : Method where
  signature := "A.Run()"
  typeName := ""
  nativeCode := 0x10000
  descriptor := 0
  compilation := .jitted
  isPInvoke := false
  hasIl := true
  codeRanges := [⟨0x10000, 1⟩, ⟨0x10000, 2⟩]

/-- The code of the method on x64: an instruction that does nothing, and a return. -/
def memory : List MemoryRegion :=
  [⟨0x10000, [0x90, 0xC3]⟩]

/-- A snapshot of this memory and the method. -/
def index : SnapshotIndex where
  snapshot := { Snapshot.ofMemory memory with methods := [method] }
  regions := memory.toArray

/-- The context of a run over the snapshot. -/
def context : Context Unit where
  settings := {}
  provider := index.provider Unit
  isa := .x86 .bits64
  decoders := .builtIn
  templates := (Isa.x86 .bits64).stubTemplates 16384
  reusesStubs := true
  guard := 4096
  sourceOf := none

/-- The addresses of the instructions that are listed for the method. -/
def addresses (listed : List CodeRange) : List UInt64 :=
  (((context.withRanges method listed).step (.start 0) ⟨method, 0⟩).run ()).1.1.instructions.map
    (·.address)

end SharedStart

namespace Context

/-- Over a sound snapshot, turning the two ranges round changes the order of the instructions, and
a repeated range is decoded twice if the other one stands in between. -/
theorem step_differs_for_shared_start :
    SnapshotIndex.ofSnapshot SharedStart.index.snapshot = .ok SharedStart.index ∧
    (∃ disassembler disassembler', Disassembler.ofSettings .builtIn {} = .ok disassembler ∧
      disassembler.context (SharedStart.index.provider Unit) none =
        .ok (SharedStart.context, disassembler')) ∧
    SameRanges [⟨0x10000, 2⟩, ⟨0x10000, 1⟩] SharedStart.method.codeRanges ∧
    SameRanges [⟨0x10000, 1⟩, ⟨0x10000, 2⟩, ⟨0x10000, 1⟩] SharedStart.method.codeRanges ∧
    SharedStart.addresses SharedStart.method.codeRanges = [0x10000, 0x10000, 0x10001] ∧
    SharedStart.addresses [⟨0x10000, 2⟩, ⟨0x10000, 1⟩] = [0x10000, 0x10001, 0x10000] ∧
    SharedStart.addresses [⟨0x10000, 1⟩, ⟨0x10000, 2⟩, ⟨0x10000, 1⟩] =
      [0x10000, 0x10000, 0x10001, 0x10000] ∧
    ¬ ((SharedStart.context.withRanges SharedStart.method
        [⟨0x10000, 1⟩, ⟨0x10000, 2⟩, ⟨0x10000, 1⟩]).rangesOf SharedStart.method).Nodup := by
  refine ⟨SnapshotIndex.ofSnapshot_eq_ok_of_pairwise (by decide) rfl rfl, ⟨_, _, rfl, rfl⟩,
    ?_, ?_, ?_⟩
  · intro range _
    simp [SharedStart.method, or_comm]
  · intro range _
    simp [SharedStart.method]
    tauto
  · simp only [SharedStart.addresses, step, listMethod, rangesOf,
      mergeSort_address_eq_insertionSort]
    decide +kernel

end Context

end CodeListing
