import CodeListing.Provider.Instrument
import CodeListing.Proofs.Visits
import Mathlib.Data.Set.Insert

/-!
# What a run asks of the runtime

All that a run does to the inspected runtime it does through its provider: it reads memory, drops a
cached view of it, and asks about addresses.  Each such call is an `Access`.  A recording provider
answers as the provider it stands around and notes the accesses, so a computation with it gives what
it gives without, and its record grows by what is noted of a trace (`Records`).

`Accesses P` says that a computation has a trace of accesses with the property `P`, whatever the
runtime answers.  It holds of nothing at all, it passes through a sequence, and each operation, from
reading a pointer to a whole run, gets one lemma that says what its accesses have in common.  Where
it matters which addresses are read, `ReadsFrom` says it exactly.
-/

set_option autoImplicit false

namespace CodeListing

variable {σ τ : Type}

namespace Provider

/-- One call of a provider that reaches the inspected runtime. -/
inductive Access where
  | read (address : UInt64) (count : Nat)
  | flush
  | ask (query : Query)
  deriving DecidableEq, Repr

namespace Access

/-- The question about an address, if the access is one. -/
def query? : Access → Option Query
  | .ask query => some query
  | _ => none

/-- The address that is read from, if the access is a read. -/
def readAddress? : Access → Option UInt64
  | .read address _ => some address
  | _ => none

/-- The access reads memory or drops a cached view of it. -/
def IsMemory (access : Access) : Prop :=
  access.query? = none

/-- Nothing is asked about an address that does not pass the guard. -/
def AsksGuarded (guard : UInt64) (access : Access) : Prop :=
  ∀ query ∈ access.query?, isValidAddress guard query.address = true

/-- Nothing is asked about an address, or read from one, that does not pass the guard. -/
def Guarded (guard : UInt64) (access : Access) : Prop :=
  access.AsksGuarded guard ∧ ∀ address ∈ access.readAddress?, isValidAddress guard address = true

/-- An access to memory asks nothing, so what it asks is guarded. -/
theorem IsMemory.asksGuarded {access : Access} (h : access.IsMemory) (guard : UInt64) :
    access.AsksGuarded guard := by
  intro query hquery
  rw [h] at hquery
  cases hquery

/-- A question about an address that passes the guard is guarded. -/
theorem guarded_ask {guard : UInt64} {query : Query}
    (h : isValidAddress guard query.address = true) : (ask query).Guarded guard :=
  ⟨by simpa [AsksGuarded, query?] using h, by simp [readAddress?]⟩

/-- A read at an address that passes the guard is guarded. -/
theorem guarded_read {guard address : UInt64} (h : isValidAddress guard address = true)
    (count : Nat) : (read address count).Guarded guard :=
  ⟨by simp [AsksGuarded, query?], by simpa [readAddress?] using h⟩

end Access

/-- The computation, after something may have been noted. -/
def noting {α : Type} (noted : Option τ) (run : StateM σ α) : StateM (List τ × σ) α := do
  modify fun (log, rest) => (log ++ noted.toList, rest)
  onSecond run

/-- The same provider, with a record of what is noted of each access. -/
def recording (note : Access → Option τ) (provider : Provider σ) : Provider (List τ × σ) :=
  { provider.withState (List τ) with
    read := fun address count =>
      noting (note (.read address count)) (provider.read address count)
    flush := noting (note .flush) provider.flush
    helperName? := fun address =>
      noting (note (.ask (.helper address))) (provider.helperName? address)
    methodAt? := fun address =>
      noting (note (.ask (.method address))) (provider.methodAt? address)
    methodOfDescriptor? := fun address =>
      noting (note (.ask (.descriptor address))) (provider.methodOfDescriptor? address)
    tableName? := fun address =>
      noting (note (.ask (.table address))) (provider.tableName? address) }

/-- To note nothing is to run on the second part of the state. -/
theorem noting_none {α : Type} (run : StateM σ α) :
    noting (none : Option τ) run = onSecond run := by
  funext ⟨log, s⟩
  show onSecond run (log ++ [], s) = onSecond run (log, s)
  rw [List.append_nil]

/-- To write every question down is to record the questions among the accesses. -/
theorem logged_eq_recording (provider : Provider σ) :
    provider.logged = provider.recording Access.query? := by
  unfold logged recording
  simp only [Access.query?, noting_none]
  rfl

end Provider

open Provider (Access)

/-! ## Traces -/

variable {note : Access → Option τ} {s : σ} {α β : Type}

/-- From the state, the recorded computation gives what the plain one gives, and its record grows by
what is noted of the trace. -/
def Records (note : Access → Option τ) (s : σ) (recorded : StateM (List τ × σ) α)
    (plain : StateM σ α) (trace : List Access) : Prop :=
  ∀ log, recorded.run (log, s) =
    ((plain.run s).1, (log ++ trace.filterMap note, (plain.run s).2))

namespace Records

/-- A computation that only returns has no accesses. -/
theorem pure (a : α) : Records note s (Pure.pure a) (Pure.pure a) [] := by
  intro log
  show (a, (log, s)) = (a, (log ++ [], s))
  rw [List.append_nil]

/-- The accesses of two computations one after the other are those of the first and then those of
the second. -/
theorem bind {first : StateM (List τ × σ) α} {first' : StateM σ α}
    {next : α → StateM (List τ × σ) β} {next' : α → StateM σ β} {trace trace' : List Access}
    (h : Records note s first first' trace)
    (hnext : Records note (first'.run s).2 (next (first'.run s).1) (next' (first'.run s).1)
      trace') :
    Records note s (first >>= next) (first' >>= next') (trace ++ trace') := by
  intro log
  rw [run_bind, h log, hnext (log ++ trace.filterMap note), run_bind, List.filterMap_append,
    List.append_assoc]

/-- What is computed from the result alone adds nothing to the record. -/
theorem map {first : StateM (List τ × σ) α} {first' : StateM σ α} {trace : List Access}
    (h : Records note s first first' trace) (f : α → β) :
    Records note s (first >>= fun a => Pure.pure (f a)) (first' >>= fun a => Pure.pure (f a))
      trace := by
  rw [← List.append_nil trace]
  exact h.bind (pure _)

/-- What does not go through the provider adds nothing to the record. -/
theorem onSecond (run : StateM σ α) : Records note s (Provider.onSecond run) run [] := by
  intro log
  show ((run.run s).1, (log, (run.run s).2)) = _
  rw [List.filterMap_nil, List.append_nil]

/-- A computation that is noted has this one access. -/
theorem noting (access : Access) (run : StateM σ α) :
    Records note s (Provider.noting (note access) run) run [access] := by
  intro log
  show ((run.run s).1, (log ++ (note access).toList, (run.run s).2)) = _
  cases h : note access <;> simp [h]

end Records

/-- The computation has a trace of accesses with the property, whatever the state. -/
def Accesses (P : Access → Prop) (note : Access → Option τ) (recorded : StateM (List τ × σ) α)
    (plain : StateM σ α) : Prop :=
  ∀ s, ∃ trace, Records note s recorded plain trace ∧ ∀ access ∈ trace, P access

namespace Accesses

variable {P Q : Access → Prop} {recorded : StateM (List τ × σ) α} {plain : StateM σ α}

/-- A computation that only returns has no accesses to judge. -/
theorem pure (a : α) : Accesses P note (Pure.pure a) (Pure.pure a : StateM σ α) :=
  fun _ => ⟨[], .pure a, by simp⟩

/-- A computation with a known trace goes on with accesses that have the property. -/
theorem exists_bind {next : α → StateM (List τ × σ) β} {next' : α → StateM σ β}
    {trace : List Access} (h : Records note s recorded plain trace)
    (hnext : ∀ a, Accesses P note (next a) (next' a)) :
    ∃ others, Records note s (recorded >>= next) (plain >>= next') (trace ++ others) ∧
      ∀ access ∈ others, P access := by
  obtain ⟨others, hrecords, hall⟩ := hnext (plain.run s).1 (plain.run s).2
  exact ⟨others, h.bind hrecords, hall⟩

/-- If the accesses of both computations are as they should be, so are those of one after the other.
-/
theorem bind {next : α → StateM (List τ × σ) β} {next' : α → StateM σ β}
    (h : Accesses P note recorded plain) (hnext : ∀ a, Accesses P note (next a) (next' a)) :
    Accesses P note (recorded >>= next) (plain >>= next') := by
  intro s
  obtain ⟨trace, hrecords, hall⟩ := h s
  obtain ⟨trace', hrecords', hall'⟩ := exists_bind hrecords hnext
  exact ⟨trace ++ trace', hrecords', List.forall_mem_append.2 ⟨hall, hall'⟩⟩

/-- If the accesses of both branches are as they should be, so are those of the choice. -/
theorem ite {condition : Prop} [Decidable condition] {recorded' : StateM (List τ × σ) α}
    {plain' : StateM σ α} (hyes : condition → Accesses P note recorded plain)
    (hno : Accesses P note recorded' plain') :
    Accesses P note (if condition then recorded else recorded')
      (if condition then plain else plain') := by
  split
  · exact hyes ‹_›
  · exact hno

/-- Accesses that meet a condition meet a weaker one. -/
theorem mono (h : Accesses P note recorded plain) (himp : ∀ access, P access → Q access) :
    Accesses Q note recorded plain := by
  intro s
  obtain ⟨trace, hrecords, hall⟩ := h s
  exact ⟨trace, hrecords, fun access haccess => himp access (hall access haccess)⟩

/-- A computation that notes nothing has no accesses to judge. -/
theorem onSecond (run : StateM σ α) : Accesses P note (Provider.onSecond run) run :=
  fun _ => ⟨[], .onSecond run, by simp⟩

/-- A computation that is noted is as it should be if this access is. -/
theorem noting {access : Access} (h : P access) (run : StateM σ α) :
    Accesses P note (Provider.noting (note access) run) run := by
  intro s
  refine ⟨[access], .noting access run, ?_⟩
  intro other hother
  rw [List.mem_singleton.1 hother]
  exact h

end Accesses

/-- From the state, the computation asks nothing and reads from these addresses and no others. -/
def ReadsFrom (note : Access → Option τ) (s : σ) (recorded : StateM (List τ × σ) α)
    (plain : StateM σ α) (addresses : Set UInt64) : Prop :=
  ∃ trace, Records note s recorded plain trace ∧ (∀ access ∈ trace, access.IsMemory) ∧
    ∀ address, address ∈ trace.filterMap Access.readAddress? ↔ address ∈ addresses

namespace ReadsFrom

variable {recorded : StateM (List τ × σ) α} {plain : StateM σ α} {addresses : Set UInt64}

/-- A computation that only returns reads from nowhere. -/
theorem pure (a : α) : ReadsFrom note s (Pure.pure a) (Pure.pure a : StateM σ α) ∅ :=
  ⟨[], .pure a, by simp, by simp⟩

/-- Two computations one after the other read where the first one reads and where the second one
does. -/
theorem bind {next : α → StateM (List τ × σ) β} {next' : α → StateM σ β}
    {addresses' : Set UInt64} (h : ReadsFrom note s recorded plain addresses)
    (hnext : ReadsFrom note (plain.run s).2 (next (plain.run s).1) (next' (plain.run s).1)
      addresses') :
    ReadsFrom note s (recorded >>= next) (plain >>= next') (addresses ∪ addresses') := by
  obtain ⟨trace, hrecords, hmemory, hreads⟩ := h
  obtain ⟨trace', hrecords', hmemory', hreads'⟩ := hnext
  refine ⟨trace ++ trace', hrecords.bind hrecords',
    List.forall_mem_append.2 ⟨hmemory, hmemory'⟩, ?_⟩
  intro address
  rw [List.filterMap_append, List.mem_append, hreads, hreads', Set.mem_union]

/-- What reads nothing new may follow. -/
theorem bind_of_subset {next : α → StateM (List τ × σ) β} {next' : α → StateM σ β}
    (h : ReadsFrom note s recorded plain addresses)
    (hnext : ∃ others ⊆ addresses, ReadsFrom note (plain.run s).2 (next (plain.run s).1)
      (next' (plain.run s).1) others) :
    ReadsFrom note s (recorded >>= next) (plain >>= next') addresses := by
  obtain ⟨others, hothers, hreads⟩ := hnext
  rw [← Set.union_eq_left.2 hothers]
  exact h.bind hreads

/-- If both branches read from some of the addresses, so does the choice. -/
theorem exists_ite {condition : Prop} [Decidable condition]
    {recorded' : StateM (List τ × σ) α} {plain' : StateM σ α}
    (hyes : ∃ others ⊆ addresses, ReadsFrom note s recorded plain others)
    (hno : ∃ others ⊆ addresses, ReadsFrom note s recorded' plain' others) :
    ∃ others ⊆ addresses, ReadsFrom note s (if condition then recorded else recorded')
      (if condition then plain else plain') others := by
  split
  · exact hyes
  · exact hno

/-- A computation whose one access is a read reads at this address. -/
theorem of_read {address : UInt64} {count : Nat}
    (h : Records note s recorded plain [.read address count]) :
    ReadsFrom note s recorded plain {address} := by
  refine ⟨_, h, ?_, ?_⟩
  · simp [Access.IsMemory, Access.query?]
  · simp [Access.readAddress?]

end ReadsFrom

namespace Provider

variable (note : Access → Option τ) (provider : Provider σ)

/-! ## Reading -/

/-- A read of memory is one access. -/
theorem records_read (address : UInt64) (count : Nat) :
    Records note s ((provider.recording note).read address count) (provider.read address count)
      [.read address count] :=
  .noting (.read address count) _

/-- A read of a given length is one access. -/
theorem records_readExact (address : UInt64) (length : Nat) :
    Records note s ((provider.recording note).readExact address length)
      (provider.readExact address length) [.read address length] :=
  (records_read note provider address length).map _

/-- A read of a pointer is one access of the size of a pointer. -/
theorem records_readPointer (address : UInt64) :
    Records note s ((provider.recording note).readPointer address)
      (provider.readPointer address) [.read address provider.pointerSize] :=
  (records_readExact note provider address provider.pointerSize).map _

/-- A read of memory asks nothing. -/
theorem accesses_read (address : UInt64) (count : Nat) :
    Accesses Access.IsMemory note ((provider.recording note).read address count)
      (provider.read address count) := by
  have h : (Access.read address count).IsMemory := rfl
  exact .noting h _

/-- Reading on in pieces asks nothing. -/
theorem accesses_readOn (start : UInt64) (offset missing : Nat) :
    Accesses Access.IsMemory note ((provider.recording note).readOn start offset missing)
      (provider.readOn start offset missing) := by
  induction missing using Nat.strongRecOn generalizing offset with
  | _ missing ih =>
    rw [readOn, readOn]
    split
    · exact .pure _
    · refine .bind (accesses_read note provider _ _) fun answer => ?_
      dsimp only
      split
      · exact .pure _
      · rename_i hmissing hpiece
        refine .bind (ih _ ?_ _) fun _ => .pure _
        omega

/-- Reading a range asks nothing. -/
theorem accesses_readRange (range : CodeRange) :
    Accesses Access.IsMemory note ((provider.recording note).readRange range)
      (provider.readRange range) :=
  .bind (accesses_readOn note provider _ _ _) fun _ => .ite (fun _ => .pure _) (.pure _)

/-- A flush reads nothing. -/
theorem reads_flush : ReadsFrom note s (provider.recording note).flush provider.flush ∅ :=
  ⟨[.flush], .noting .flush _, by simp [Access.IsMemory, Access.query?],
    by simp [Access.readAddress?]⟩

/-- A read of a given length reads at its address. -/
theorem reads_readExact (address : UInt64) (length : Nat) :
    ReadsFrom note s ((provider.recording note).readExact address length)
      (provider.readExact address length) {address} :=
  .of_read (records_readExact note provider address length)

/-- A read of a pointer reads at its address. -/
theorem reads_readPointer (address : UInt64) :
    ReadsFrom note s ((provider.recording note).readPointer address)
      (provider.readPointer address) {address} :=
  .of_read (records_readPointer note provider address)

/-- Whether a window is read once or twice, it is read at the one address. -/
theorem reads_readWindow (address : UInt64) (length : Nat) :
    ReadsFrom note s ((provider.recording note).readWindow address length)
      (provider.readWindow address length) {address} := by
  refine (ReadsFrom.of_read (records_read note provider address length)).bind_of_subset ?_
  refine ReadsFrom.exists_ite ⟨∅ ∪ {address}, by simp, ?_⟩ ⟨∅, by simp, .pure _⟩
  exact .bind (reads_flush note provider) (reads_readExact note provider address length)

/-! ## Following -/

/-- The search for a template reads at the address, unless there are no templates. -/
theorem reads_templateAt? (address : UInt64) (mayFlush : Bool) (templates : List StubTemplate) :
    ReadsFrom note s (Stub.templateAt? (provider.recording note) address mayFlush templates)
      (Stub.templateAt? provider address mayFlush templates)
      {a | a = address ∧ templates ≠ []} := by
  induction templates generalizing mayFlush s with
  | nil =>
    have hnone : {a | a = address ∧ ([] : List StubTemplate) ≠ []} = ∅ := by simp
    rw [hnone]
    exact .pure _
  | cons template others ih =>
    have hone : {a | a = address ∧ template :: others ≠ []} = {address} := by simp
    rw [hone]
    unfold Stub.templateAt?
    split
    · refine (reads_readWindow note provider address _).bind_of_subset ?_
      exact ReadsFrom.exists_ite ⟨∅, by simp, .pure _⟩ ⟨_, fun _ h => h.1, ih false⟩
    · refine (reads_readExact note provider address _).bind_of_subset ?_
      exact ReadsFrom.exists_ite ⟨∅, by simp, .pure _⟩ ⟨_, fun _ h => h.1, ih false⟩

end Provider

/-- The addresses that are read from, in the state, to follow a transfer through a cell. -/
inductive Stub.Dereferences (provider : Provider σ) (templates : List StubTemplate)
    (reusesStubs : Bool) (cell : UInt64) (s : σ) : UInt64 → Prop
  | cell : Dereferences provider templates reusesStubs cell s cell
  /-- The pointer in the cell, where the code of a stub is looked for. -/
  | candidate {candidate : UInt64} (hreuses : reusesStubs = true) (htemplates : templates ≠ [])
      (hcell : ((provider.readPointer cell).run s).1 = some candidate) :
      Dereferences provider templates reusesStubs cell s candidate
  /-- The data slot of the stub that was found. -/
  | slot {candidate : UInt64} {template : StubTemplate} (hreuses : reusesStubs = true)
      (hcell : ((provider.readPointer cell).run s).1 = some candidate)
      (hstub : ((Stub.templateAt? provider candidate true templates).run
        ((provider.readPointer cell).run s).2).1 = some template) :
      Dereferences provider templates reusesStubs cell s (template.slotAddress candidate)

/-- A stub is followed by reading the cell, the code that the cell points to, and the slot of the
template that is found there. -/
theorem Stub.dereferences_iff {provider : Provider σ} {templates : List StubTemplate}
    {reusesStubs : Bool} {cell address : UInt64} :
    Stub.Dereferences provider templates reusesStubs cell s address ↔
      address = cell ∨ reusesStubs = true ∧ ∃ candidate,
        ((provider.readPointer cell).run s).1 = some candidate ∧
        (address = candidate ∧ templates ≠ [] ∨ ∃ template,
          ((Stub.templateAt? provider candidate true templates).run
            ((provider.readPointer cell).run s).2).1 = some template ∧
          address = template.slotAddress candidate) := by
  constructor
  · intro h
    cases h with
    | cell => exact Or.inl rfl
    | candidate hreuses htemplates hcell =>
      exact Or.inr ⟨hreuses, _, hcell, Or.inl ⟨rfl, htemplates⟩⟩
    | slot hreuses hcell hstub => exact Or.inr ⟨hreuses, _, hcell, Or.inr ⟨_, hstub, rfl⟩⟩
  · rintro (rfl | ⟨hreuses, candidate, hcell, ⟨rfl, htemplates⟩ | ⟨template, hstub, rfl⟩⟩)
    · exact .cell
    · exact .candidate hreuses htemplates hcell
    · exact .slot hreuses hcell hstub

namespace Provider

variable (note : Access → Option τ) (provider : Provider σ)

/-- A transfer is followed by reading from the addresses of its chain, whatever they are. -/
theorem reads_follow (templates : List StubTemplate) (reusesStubs : Bool) (cell : UInt64) :
    ReadsFrom note s (Stub.follow (provider.recording note) templates reusesStubs cell)
      (Stub.follow provider templates reusesStubs cell)
      {address | Stub.Dereferences provider templates reusesStubs cell s address} := by
  have hpointer := reads_readPointer note provider (s := s) cell
  unfold Stub.follow
  cases hcell : ((provider.readPointer cell).run s).1 with
  | none =>
    have hset : {address | Stub.Dereferences provider templates reusesStubs cell s address} =
        {cell} ∪ ∅ := by
      ext address
      simp [Stub.dereferences_iff, hcell]
    rw [hset]
    refine hpointer.bind ?_
    rw [hcell]
    exact .pure _
  | some candidate =>
    cases hreuses : reusesStubs with
    | false =>
      have hset : {address | Stub.Dereferences provider templates false cell s address} =
          {cell} ∪ ∅ := by
        ext address
        simp [Stub.dereferences_iff]
      rw [hset]
      refine hpointer.bind ?_
      rw [hcell]
      exact .pure _
    | true =>
      have hwindows := reads_templateAt? note provider
        (s := ((provider.readPointer cell).run s).2) candidate true templates
      cases hstub : ((Stub.templateAt? provider candidate true templates).run
          ((provider.readPointer cell).run s).2).1 with
      | none =>
        have hset : {address | Stub.Dereferences provider templates true cell s address} =
            {cell} ∪ ({a | a = candidate ∧ templates ≠ []} ∪ ∅) := by
          ext address
          simp [Stub.dereferences_iff, hcell, hstub]
        rw [hset]
        refine hpointer.bind ?_
        rw [hcell]
        refine hwindows.bind ?_
        rw [hstub]
        exact .pure _
      | some template =>
        have hset : {address | Stub.Dereferences provider templates true cell s address} =
            {cell} ∪ ({a | a = candidate ∧ templates ≠ []} ∪
              ({template.slotAddress candidate} ∪ ∅)) := by
          ext address
          simp [Stub.dereferences_iff, hcell, hstub, or_comm, or_assoc]
        rw [hset]
        refine hpointer.bind ?_
        rw [hcell]
        refine hwindows.bind ?_
        rw [hstub]
        exact (reads_readPointer note provider _).bind (.pure _)

/-! ## Identifying -/

section Identify

variable {guard address : UInt64} (h : isValidAddress guard address = true)

include h

/-- The search for a method at an address or through a cell keeps to addresses that pass the guard.
-/
theorem accesses_methodThrough? :
    Accesses (Access.Guarded guard) note (methodThrough? (provider.recording note) guard address)
      (methodThrough? provider guard address) := by
  unfold methodThrough?
  refine .bind (.noting (Access.guarded_ask h) _) fun found => ?_
  cases found with
  | some method => exact .pure _
  | none =>
    refine .ite (fun _ => .pure _) (.bind ?_ fun target => ?_)
    · intro s
      refine ⟨_, records_readPointer note provider address, ?_⟩
      simpa using Access.guarded_read h _
    · cases target with
      | none => exact .pure _
      | some target =>
        -- The target comes out of memory, so it has to pass the guard again.
        exact .ite (fun htarget => .noting (Access.guarded_ask htarget) _) (.pure _)

/-- The search for a descriptor or a table keeps to an address that passes the guard. -/
theorem accesses_structureAt :
    Accesses (Access.Guarded guard) note (structureAt (provider.recording note) address)
      (structureAt provider address) := by
  unfold structureAt
  refine .bind (.noting (Access.guarded_ask h) _) fun found => ?_
  cases found with
  | some method => exact .pure _
  | none =>
    refine .bind (.noting (Access.guarded_ask h) _) fun name => ?_
    cases nonEmpty? name with
    | some name => exact .pure _
    | none => exact .pure _

/-- The search for what lies at an address keeps to addresses that pass the guard. -/
theorem accesses_identify :
    Accesses (Access.Guarded guard) note (identify (provider.recording note) guard address)
      (identify provider guard address) := by
  unfold identify
  refine .bind (.noting (Access.guarded_ask h) _) fun name => ?_
  cases nonEmpty? name with
  | some name => exact .pure _
  | none =>
    refine .bind (accesses_methodThrough? note provider h) fun found => ?_
    cases found with
    | some method => exact .pure _
    | none => exact accesses_structureAt note provider h

end Identify

/-- Whatever is looked up to name an address passes the guard. -/
theorem accesses_resolve (guard : UInt64) (current : Current) (isPrecode : Bool)
    (address : UInt64) (findings : Findings) :
    Accesses (Access.Guarded guard) note
      (resolve (provider.recording note) guard current isPrecode address findings)
      (resolve provider guard current isPrecode address findings) := by
  unfold resolve
  refine .ite (fun _ => .pure _) ?_
  cases findings.names.get? address with
  | some name => exact .pure _
  | none =>
    refine .ite (fun hvalid => ?_) (.pure _)
    exact .bind (accesses_identify note provider hvalid) fun _ => .pure _

end Provider

/-! ## Listing -/

namespace Context

/-- The same context, with a record of what is noted of each access. -/
def recording (note : Access → Option τ) (context : Context σ) : Context (List τ × σ) :=
  { context with
    provider := context.provider.recording note
    sourceOf := context.sourceOf.map (Provider.locatorWithState (List τ)) }

/-- Recording its accesses does not change the settings of a context. -/
@[simp] theorem settings_recording (note : Access → Option τ) (context : Context σ) :
    (context.recording note).settings = context.settings := rfl

/-- The addresses that are read from, in the state, to find where the reference of an instruction
leads. -/
def Dereferences (context : Context σ) (instruction : Instruction) (s : σ) (address : UInt64) :
    Prop :=
  ∃ cell, instruction.reference = some cell ∧ instruction.isIndirect = true ∧
    Stub.Dereferences context.provider context.templates context.reusesStubs cell s address

variable (note : Access → Option τ) (context : Context σ)

/-- Where an instruction leads to is found by reads at addresses that it dereferences only. -/
theorem reads_destination? {instruction : Instruction} {candidate : UInt64}
    (h : instruction.reference = some candidate) :
    ReadsFrom note s ((context.recording note).destination? instruction candidate)
      (context.destination? instruction candidate)
      {address | context.Dereferences instruction s address} := by
  unfold destination?
  by_cases hindirect : instruction.isIndirect = true
  · have hset : {address | context.Dereferences instruction s address} = {address |
        Stub.Dereferences context.provider context.templates context.reusesStubs candidate s
          address} := by
      ext address
      simp [Dereferences, h, hindirect]
    rw [hset, if_pos hindirect, if_pos hindirect]
    exact context.provider.reads_follow note context.templates context.reusesStubs candidate
  · have hset : {address | context.Dereferences instruction s address} = ∅ := by
      ext address
      simp [Dereferences, hindirect]
    rw [hset, if_neg hindirect, if_neg hindirect]
    exact .pure _

/-- To annotate an instruction, its reference is followed first, and only memory is read for that;
then the destination is named, and all that is looked up for that passes the guard. -/
theorem exists_records_annotate (current : Current) (instruction : Instruction)
    (findings : Findings) (s : σ) :
    ∃ followed : List Access, (∀ access ∈ followed, access.IsMemory) ∧
      (∀ address, address ∈ followed.filterMap Access.readAddress? ↔
        context.Dereferences instruction s address) ∧
      ∃ named, Records note s ((context.recording note).annotate current instruction findings)
          (context.annotate current instruction findings) (followed ++ named) ∧
        ∀ access ∈ named, access.Guarded context.guard := by
  unfold annotate
  cases hreference : instruction.reference with
  | none => exact ⟨[], by simp, by simp [Dereferences, hreference], [], .pure _, by simp⟩
  | some candidate =>
    obtain ⟨followed, hfollowed, hmemory, hreads⟩ :=
      context.reads_destination? note (s := s) hreference
    refine ⟨followed, hmemory, hreads, Accesses.exists_bind hfollowed fun destination => ?_⟩
    rw [settings_recording]
    cases destination.filter fun d => context.settings.referenceThreshold < d.address with
    | none => exact .pure _
    | some destination =>
      exact .bind (context.provider.accesses_resolve note _ _ _ _ _) fun _ => .pure _

/-- Naming the reference of an instruction asks about addresses that pass the guard only. -/
theorem accesses_annotate (current : Current) (instruction : Instruction) (findings : Findings) :
    Accesses (Access.AsksGuarded context.guard) note
      ((context.recording note).annotate current instruction findings)
      (context.annotate current instruction findings) := by
  intro s
  obtain ⟨followed, hmemory, -, named, hrecords, hguarded⟩ :=
    context.exists_records_annotate note current instruction findings s
  refine ⟨followed ++ named, hrecords, ?_⟩
  intro access haccess
  rcases List.mem_append.1 haccess with haccess | haccess
  · exact (hmemory access haccess).asksGuarded context.guard
  · exact (hguarded access haccess).1

/-- Naming the references of instructions asks about addresses that pass the guard only. -/
theorem accesses_annotateAll (current : Current) (instructions : List Instruction)
    (findings : Findings) :
    Accesses (Access.AsksGuarded context.guard) note
      ((context.recording note).annotateAll current instructions findings)
      (context.annotateAll current instructions findings) := by
  induction instructions generalizing findings with
  | nil => exact .pure _
  | cons instruction rest ih =>
    unfold annotateAll
    refine .bind (context.accesses_annotate note current instruction findings) fun _ => ?_
    exact .bind (ih _) fun _ => .pure _

/-- Reading all ranges of a method asks nothing. -/
theorem accesses_readAll (ranges : List CodeRange) :
    Accesses Access.IsMemory note ((context.recording note).readAll ranges)
      (context.readAll ranges) := by
  induction ranges with
  | nil => exact .pure _
  | cons range rest ih =>
    unfold readAll
    refine .bind (context.provider.accesses_readRange note range) fun bytes => ?_
    cases bytes with
    | error e => exact .pure _
    | ok bytes =>
      refine .bind ih fun others => ?_
      cases others with
      | error e => exact .pure _
      | ok others => exact .pure _

/-- To find source lines, nothing is asked of the runtime. -/
theorem accesses_sourceLines {P : Access → Prop} (method : Method) :
    Accesses P note ((context.recording note).sourceLines method) (context.sourceLines method) := by
  unfold sourceLines recording
  dsimp only
  cases context.sourceOf with
  | none => exact .pure _
  | some sourceOf => exact .ite (fun _ => .onSecond _) (.pure _)

/-- Listing a method asks about addresses that pass the guard only. -/
theorem accesses_listMethod (names : NameMap) (item : WorkItem) :
    Accesses (Access.AsksGuarded context.guard) note
      ((context.recording note).listMethod names item) (context.listMethod names item) := by
  unfold listMethod
  dsimp only
  cases item.method.unavailableReason? with
  | some reason => exact .pure _
  | none =>
    have hcode : Accesses (Access.AsksGuarded context.guard) note
        ((context.recording note).readAll (context.rangesOf item.method))
        (context.readAll (context.rangesOf item.method)) :=
      (context.accesses_readAll note _).mono fun _ h => h.asksGuarded context.guard
    refine .ite (fun _ => .pure _) (.bind hcode fun code => ?_)
    cases code with
    | error e => exact .pure _
    | ok code =>
      refine .bind (context.accesses_annotateAll note _ _ _) fun _ => ?_
      exact .bind (context.accesses_sourceLines note _) fun _ => .pure _

/-- The loop of a run makes the same visits with a recording provider, and asks about no address
that does not pass the guard. -/
theorem Drains.recording {context : Context σ} {state final : RunState} {visits : List Visit}
    {s s' : σ} (h : context.Drains state s visits final s') :
    ∃ trace : List Access, (∀ access ∈ trace, access.AsksGuarded context.guard) ∧
      ∀ log, (context.recording note).Drains state (log, s) visits final
        (log ++ trace.filterMap note, s') := by
  induction h with
  | idle hnext =>
    refine ⟨[], by simp, ?_⟩
    intro log
    rw [List.filterMap_nil, List.append_nil]
    exact .idle hnext
  | @visit state final s s' s'' scheduler item outcome visits hnext hlist _ ih =>
    obtain ⟨trace, hrecords, hguarded⟩ := context.accesses_listMethod note state.names item s
    obtain ⟨others, hguarded', hrest⟩ := ih
    refine ⟨trace ++ others, List.forall_mem_append.2 ⟨hguarded, hguarded'⟩, ?_⟩
    intro log
    have hlist' := hrecords log
    rw [hlist] at hlist'
    rw [List.filterMap_append, ← List.append_assoc]
    exact .visit hnext hlist' (hrest _)

/-- From any state on, a run asks about addresses that pass the guard only. -/
theorem accesses_drain (state : RunState) :
    Accesses (Access.AsksGuarded context.guard) note ((context.recording note).drain state)
      (context.drain state) := by
  intro s
  obtain ⟨visits, final, s', h⟩ := context.exists_drains state s
  obtain ⟨trace, hguarded, hrecording⟩ := h.recording note
  refine ⟨trace, ?_, hguarded⟩
  intro log
  rw [(hrecording log).run_drain_eq, h.run_drain_eq]

end Context

/-! ## Runs -/

namespace Disassembler

variable (note : Access → Option τ) (disassembler : Disassembler) (provider : Provider σ)
  (sourceOf : Option (SourceLocator σ))

/-- The guard address of the runs over a provider. -/
def guardOf : UInt64 :=
  disassembler.settings.guardAddress provider.os provider.architecture provider.pageSize

/-- The context over a recording provider is the recording context. -/
theorem context_recording :
    disassembler.context (provider.recording note)
        (sourceOf.map (Provider.locatorWithState (List τ))) =
      (disassembler.context provider sourceOf).map fun (context, disassembler') =>
        (context.recording note, disassembler') := by
  unfold Disassembler.context
  show (Isa.ofArchitecture disassembler.decoders provider.architecture >>= _) = _
  cases Isa.ofArchitecture disassembler.decoders provider.architecture with
  | error error => rfl
  | ok isa => rfl

variable {disassembler provider sourceOf} in
/-- A context has the guard that its disassembler chooses for the provider. -/
theorem guard_eq_of_context {context : Context σ} {disassembler' : Disassembler}
    (h : disassembler.context provider sourceOf = .ok (context, disassembler')) :
    context.guard = disassembler.guardOf provider := by
  unfold Disassembler.context at h
  cases hisa : Isa.ofArchitecture disassembler.decoders provider.architecture with
  | error error =>
    rw [hisa] at h
    cases h
  | ok isa =>
    rw [hisa] at h
    cases h
    rfl

/-- A run from an entry asks about no address that does not pass the guard. -/
theorem accesses_run (entry : Method) :
    Accesses (Access.AsksGuarded (disassembler.guardOf provider)) note
      (disassembler.run (provider.recording note) entry
        (sourceOf.map (Provider.locatorWithState (List τ))))
      (disassembler.run provider entry sourceOf) := by
  unfold run
  rw [context_recording]
  cases hcontext : disassembler.context provider sourceOf with
  | error error => exact .pure _
  | ok found =>
    rw [← guard_eq_of_context hcontext]
    exact .bind (found.1.accesses_drain note _) fun _ => .pure _

/-- A run by patterns asks about no address that does not pass the guard. -/
theorem accesses_runFiltered :
    Accesses (Access.AsksGuarded (disassembler.guardOf provider)) note
      (disassembler.runFiltered (provider.recording note)
        (sourceOf.map (Provider.locatorWithState (List τ))))
      (disassembler.runFiltered provider sourceOf) := by
  unfold runFiltered
  refine .ite (fun _ => .pure _) ?_
  rw [context_recording]
  cases hcontext : disassembler.context provider sourceOf with
  | error error => exact .pure _
  | ok found =>
    rw [← guard_eq_of_context hcontext]
    exact .bind (found.1.accesses_drain note _) fun _ => .pure _

end Disassembler

end CodeListing
