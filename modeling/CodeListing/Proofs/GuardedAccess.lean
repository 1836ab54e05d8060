import CodeListing.Proofs.AccessLog

/-!
# The guard address

Nothing below the guard address of a run is asked about, whatever the runtime answers and however
long the run is.  Memory is another matter: to follow an indirect transfer, pointers are read out of
memory and read from in turn, and none of them is held against the guard.
-/

set_option autoImplicit false

namespace CodeListing

open Provider (Access Query)

variable {σ : Type} {α : Type}

/-! ## Questions -/

/-- With a provider that writes every question down, the computation gives what it gives with the
provider alone, and the addresses asked about are neither zero nor the largest one nor below the
guard. -/
def AsksFrom (guard : UInt64) (logged : StateM (List Query × σ) α) (plain : StateM σ α) (s : σ) :
    Prop :=
  ∃ queries, logged.run ([], s) = ((plain.run s).1, (queries, (plain.run s).2)) ∧
    ∀ query ∈ queries,
      query.address ≠ 0 ∧ query.address ≠ 0xFFFFFFFFFFFFFFFF ∧ guard ≤ query.address

/-- An address is valid if it is neither zero nor the largest one nor below the guard. -/
theorem isValidAddress_iff {guard address : UInt64} :
    isValidAddress guard address = true ↔
      address ≠ 0 ∧ address ≠ 0xFFFFFFFFFFFFFFFF ∧ guard ≤ address := by
  simp [isValidAddress, and_assoc]

/-- If all questions are guarded, those that are written down are. -/
theorem Accesses.asksFrom {guard : UInt64} {logged : StateM (List Query × σ) α}
    {plain : StateM σ α} (h : Accesses (Access.AsksGuarded guard) Access.query? logged plain)
    (s : σ) : AsksFrom guard logged plain s := by
  obtain ⟨trace, hrecords, hguarded⟩ := h s
  refine ⟨trace.filterMap Access.query?, hrecords [], ?_⟩
  intro query hquery
  obtain ⟨access, haccess, hask⟩ := List.mem_filterMap.1 hquery
  exact isValidAddress_iff.1 (hguarded access haccess query hask)

/-- Every address that a run from an entry, or a run by patterns, asks the runtime about is neither
zero nor the largest one nor below the guard address of the run. -/
theorem Disassembler.runs_ask_from_guard (disassembler : Disassembler) (provider : Provider σ)
    (entry : Method) (sourceOf : Option (SourceLocator σ)) (s : σ) :
    AsksFrom
      (disassembler.settings.guardAddress provider.os provider.architecture provider.pageSize)
      (disassembler.run provider.logged entry
        (sourceOf.map (Provider.locatorWithState (List Query))))
      (disassembler.run provider entry sourceOf) s ∧
    AsksFrom
      (disassembler.settings.guardAddress provider.os provider.architecture provider.pageSize)
      (disassembler.runFiltered provider.logged
        (sourceOf.map (Provider.locatorWithState (List Query))))
      (disassembler.runFiltered provider sourceOf) s := by
  rw [Provider.logged_eq_recording]
  exact ⟨(disassembler.accesses_run Access.query? provider sourceOf entry).asksFrom s,
    (disassembler.accesses_runFiltered Access.query? provider sourceOf).asksFrom s⟩

/-! ## Reads -/

namespace Context

/-- The addresses that are read from to annotate an instruction, in order. -/
def readsOf (context : Context σ) (current : Current) (instruction : Instruction)
    (findings : Findings) (s : σ) : List UInt64 :=
  (((context.recording Access.readAddress?).annotate current instruction findings).run ([], s)).2.1

/-- The addresses read from to annotate an instruction are those that lead to its destination and,
behind them, addresses that pass the guard. -/
theorem readsOf_eq_append (context : Context σ) (current : Current) (instruction : Instruction)
    (findings : Findings) (s : σ) :
    ∃ followed named, context.readsOf current instruction findings s = followed ++ named ∧
      (∀ address, address ∈ followed ↔ context.Dereferences instruction s address) ∧
      ∀ address ∈ named, isValidAddress context.guard address = true := by
  obtain ⟨followed, -, hreads, named, hrecords, hguarded⟩ :=
    context.exists_records_annotate Access.readAddress? current instruction findings s
  refine ⟨followed.filterMap Access.readAddress?, named.filterMap Access.readAddress?, ?_,
    hreads, ?_⟩
  · rw [readsOf, hrecords [], List.nil_append, List.filterMap_append]
  · intro address haddress
    obtain ⟨access, haccess, hread⟩ := List.mem_filterMap.1 haddress
    exact (hguarded access haccess).2 address hread

/-- An instruction is annotated with reads that all pass the guard exactly if the cell of its
transfer does, and the pointer found there and the slot of its stub where these are read from.  All
other reads pass the guard anyway. -/
theorem reads_guarded_iff (context : Context σ) (current : Current) (instruction : Instruction)
    (findings : Findings) (s : σ) :
    ((context.recording Access.readAddress?).annotate current instruction findings).run ([], s) =
      (((context.annotate current instruction findings).run s).1,
        (context.readsOf current instruction findings s,
          ((context.annotate current instruction findings).run s).2)) ∧
    ((∀ address ∈ context.readsOf current instruction findings s,
        isValidAddress context.guard address = true) ↔
      ∀ address, context.Dereferences instruction s address →
        isValidAddress context.guard address = true) := by
  constructor
  · obtain ⟨followed, -, -, named, hrecords, -⟩ :=
      context.exists_records_annotate Access.readAddress? current instruction findings s
    rw [readsOf, hrecords []]
  · obtain ⟨followed, named, hreads, hfollowed, hnamed⟩ :=
      context.readsOf_eq_append current instruction findings s
    rw [hreads]
    constructor
    · intro hall address haddress
      exact hall address (List.mem_append_left _ ((hfollowed address).2 haddress))
    · intro hall address haddress
      rcases List.mem_append.1 haddress with haddress | haddress
      · exact hall address ((hfollowed address).1 haddress)
      · exact hnamed address haddress

end Context

/-! ## A pointer to low memory -/

namespace LowPointer

/-- A method that calls through a pointer cell. -/
def caller : Method where
  signature := "A.Run()"
  typeName := ""
  nativeCode := 0x10000
  descriptor := 0
  compilation := .jitted
  isPInvoke := false
  hasIl := true
  codeRanges := [⟨0x10000, 6⟩]

/-- A method that a stub leads to. -/
def target : Method where
  signature := "A.Target()"
  typeName := ""
  nativeCode := 0x30000
  descriptor := 0
  compilation := .jitted
  isPInvoke := false
  hasIl := true
  codeRanges := [⟨0x30000, 1⟩]

/-- The code of the caller. -/
def code : List UInt8 := [0xFF, 0x15, 0xFA, 0xFF, 0x00, 0x00]

/-- The call in it. -/
def call : Instruction where
  address := 0x10000
  length := 6
  validity := .valid
  bytes := code
  mnemonic := "call"
  operands := "qword ptr [rip + 0xfffa]"
  reference := some 0x20000
  isIndirect := true
  symbol := none

/-- The code of a stub on the first page with its data slot, the code of the caller, and the cell
with the given pointer. -/
def memory (pointer : UInt64) : List MemoryRegion :=
  [⟨0x800, [0x48, 0x8B, 0x05, 0xF9, 0x3F, 0x00, 0x00, 0x66, 0xFF, 0x08]⟩,
    .pointer 0x4808 0x30000 8, ⟨0x10000, code⟩, .pointer 0x20000 pointer 8]

/-- A snapshot of this memory and the methods. -/
def index (pointer : UInt64) : SnapshotIndex where
  snapshot := {
    architecture := .x64
    os := .linux
    pageSize := 4096
    version := ⟨8, 0, 0⟩
    methods := [caller, target]
    helpers := []
    tables := []
    memory := memory pointer
    sources := [] }
  regions := (memory pointer).toArray

/-- The context of a run over the snapshot. -/
def context (pointer : UInt64) : Context Unit where
  settings := {}
  provider := (index pointer).provider Unit
  isa := .x86 .bits64
  decoders := .builtIn
  templates := (Isa.x86 .bits64).stubTemplates 16384
  reusesStubs := true
  guard := 4096
  sourceOf := none

/-- The caller, while it is listed. -/
def current : Current := ⟨caller, [⟨0x10000, 6⟩], 0⟩

end LowPointer

namespace Context

/-- With valid settings and over sound snapshots, a call through a null cell reads from address zero
again and again, and a call through a cell that points below the guard is followed through the stub
that lies there. -/
theorem reads_below_guard :
    SnapshotIndex.ofSnapshot (LowPointer.index 0).snapshot = .ok (LowPointer.index 0) ∧
    SnapshotIndex.ofSnapshot (LowPointer.index 0x800).snapshot = .ok (LowPointer.index 0x800) ∧
    (∃ disassembler null low, Disassembler.ofSettings .builtIn {} = .ok disassembler ∧
      disassembler.context ((LowPointer.index 0).provider Unit) none =
        .ok (LowPointer.context 0, null) ∧
      disassembler.context ((LowPointer.index 0x800).provider Unit) none =
        .ok (LowPointer.context 0x800, low)) ∧
    (LowPointer.context 0).decodeAll [(⟨0x10000, 6⟩, LowPointer.code)] = [LowPointer.call] ∧
    (LowPointer.context 0).readsOf LowPointer.current LowPointer.call { names := .empty } () =
      [0x20000, 0, 0, 0, 0] ∧
    isValidAddress 4096 0 = false ∧
    (LowPointer.context 0x800).readsOf LowPointer.current LowPointer.call { names := .empty } () =
      [0x20000, 0x800, 0x4808] ∧
    isValidAddress 4096 0x800 = false ∧
    (((LowPointer.context 0x800).annotate LowPointer.current LowPointer.call
      { names := .empty }).run ()).1.1.symbol = some "A.Target()" := by
  refine ⟨SnapshotIndex.ofSnapshot_eq_ok_of_pairwise (by decide) rfl rfl,
    SnapshotIndex.ofSnapshot_eq_ok_of_pairwise (by decide) rfl rfl, ⟨_, _, _, rfl, rfl, rfl⟩,
    by decide +kernel, by decide +kernel, by decide, by decide +kernel, by decide,
    by decide +kernel⟩

end Context

end CodeListing
