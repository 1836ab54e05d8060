import CodeListing.Proofs.AccessLog
import CodeListing.Proofs.ServedMemory
import CodeListing.Provider.Instrument

/-!
# Following a transfer over a stale view

Where a provider keeps a view of the memory, code that the runtime wrote since may be missing from
it, and a read there gets nothing.  A transfer is followed with one look that may drop the view, the
first one at the code of a stub.  That is enough: the look drops the view exactly if it has to, and
then all later looks see the memory as it is, so the transfer leads where the memory says
(`MemoryView.destination?`).
-/

set_option autoImplicit false

namespace CodeListing

open Provider (Access)

variable {σ τ : Type}

/-! ## How often the view is dropped -/

/-- From the state, the computation drops the view at most so many times. -/
def FlushesAtMost {α : Type} (limit : Nat) (note : Access → Option τ) (s : σ)
    (recorded : StateM (List τ × σ) α) (plain : StateM σ α) : Prop :=
  ∃ trace, Records note s recorded plain trace ∧ trace.count .flush ≤ limit

namespace FlushesAtMost

variable {note : Access → Option τ} {s : σ} {α β : Type} {recorded : StateM (List τ × σ) α}
  {plain : StateM σ α} {limit limit' : Nat}

/-- A computation that only returns does not flush. -/
theorem pure (a : α) : FlushesAtMost 0 note s (Pure.pure a) (Pure.pure a) :=
  ⟨[], .pure a, Nat.le_refl 0⟩

/-- Two computations one after the other flush no more often than both together may. -/
theorem bind {next : α → StateM (List τ × σ) β} {next' : α → StateM σ β}
    (h : FlushesAtMost limit note s recorded plain)
    (hnext : FlushesAtMost limit' note (plain.run s).2 (next (plain.run s).1)
      (next' (plain.run s).1)) :
    FlushesAtMost (limit + limit') note s (recorded >>= next) (plain >>= next') := by
  obtain ⟨trace, hrecords, hcount⟩ := h
  obtain ⟨trace', hrecords', hcount'⟩ := hnext
  refine ⟨trace ++ trace', hrecords.bind hrecords', ?_⟩
  rw [List.count_append]
  omega

/-- A bound on flushes may be raised. -/
theorem mono (h : FlushesAtMost limit note s recorded plain) (hle : limit ≤ limit') :
    FlushesAtMost limit' note s recorded plain := by
  obtain ⟨trace, hrecords, hcount⟩ := h
  exact ⟨trace, hrecords, Nat.le_trans hcount hle⟩

/-- A computation that does not flush adds nothing behind another one. -/
theorem bind_quiet {next : α → StateM (List τ × σ) β} {next' : α → StateM σ β}
    (h : FlushesAtMost limit note s recorded plain)
    (hnext : FlushesAtMost 0 note (plain.run s).2 (next (plain.run s).1) (next' (plain.run s).1)) :
    FlushesAtMost limit note s (recorded >>= next) (plain >>= next') :=
  h.bind hnext

/-- A computation that does not flush adds nothing in front of another one. -/
theorem quiet_bind {next : α → StateM (List τ × σ) β} {next' : α → StateM σ β}
    (h : FlushesAtMost 0 note s recorded plain)
    (hnext : FlushesAtMost limit note (plain.run s).2 (next (plain.run s).1)
      (next' (plain.run s).1)) :
    FlushesAtMost limit note s (recorded >>= next) (plain >>= next') := by
  have hboth := h.bind hnext
  rwa [Nat.zero_add] at hboth

/-- If both branches keep to a bound on flushes, so does the choice. -/
theorem ite {condition : Prop} [Decidable condition] {recorded' : StateM (List τ × σ) α}
    {plain' : StateM σ α} (hyes : condition → FlushesAtMost limit note s recorded plain)
    (hno : FlushesAtMost limit note s recorded' plain') :
    FlushesAtMost limit note s (if condition then recorded else recorded')
      (if condition then plain else plain') := by
  split
  · exact hyes ‹_›
  · exact hno

/-- A computation whose one access is a read does not flush. -/
theorem of_read {address : UInt64} {count : Nat}
    (h : Records note s recorded plain [.read address count]) :
    FlushesAtMost 0 note s recorded plain :=
  ⟨_, h, by simp⟩

end FlushesAtMost

namespace Provider

variable (note : Access → Option τ) (provider : Provider σ)

/-- A flush flushes once. -/
theorem flushes_flush (s : σ) :
    FlushesAtMost 1 note s (provider.recording note).flush provider.flush :=
  ⟨[.flush], .noting .flush _, by simp⟩

/-- An exact read does not flush. -/
theorem flushes_readExact (address : UInt64) (length : Nat) (s : σ) :
    FlushesAtMost 0 note s ((provider.recording note).readExact address length)
      (provider.readExact address length) :=
  .of_read (records_readExact note provider address length)

/-- Reading a window flushes at most once, and never where memory is read live. -/
theorem flushes_readWindow (address : UInt64) (length : Nat) (s : σ) :
    FlushesAtMost (if provider.os.readsLive = true then 0 else 1) note s
      ((provider.recording note).readWindow address length)
      (provider.readWindow address length) := by
  have hread := FlushesAtMost.of_read (records_read note provider (s := s) address length)
  refine hread.quiet_bind ?_
  refine .ite ?_ ((FlushesAtMost.pure _).mono (Nat.zero_le _))
  intro hempty
  have hlive : ¬ provider.os.readsLive = true := by
    intro hlive
    simp [recording, withState, hlive] at hempty
  rw [if_neg hlive]
  refine (flushes_flush note provider _).bind_quiet ?_
  exact flushes_readExact note provider address length _

/-- The search for a template does not flush if it may not. -/
theorem flushes_templateAt?_of_not_mayFlush (address : UInt64) (templates : List StubTemplate)
    (s : σ) :
    FlushesAtMost 0 note s (Stub.templateAt? (provider.recording note) address false templates)
      (Stub.templateAt? provider address false templates) := by
  induction templates generalizing s with
  | nil => exact .pure _
  | cons template others ih =>
    exact (flushes_readExact note provider address _ s).bind_quiet
      (.ite (fun _ => .pure _) (ih _))

/-- The search for a template flushes at most once, and never where memory is read live or there are
no templates. -/
theorem flushes_templateAt? (address : UInt64) (templates : List StubTemplate) (s : σ) :
    FlushesAtMost (if provider.os.readsLive = true ∨ templates = [] then 0 else 1) note s
      (Stub.templateAt? (provider.recording note) address true templates)
      (Stub.templateAt? provider address true templates) := by
  cases templates with
  | nil =>
    rw [if_pos (.inr rfl)]
    exact .pure _
  | cons template others =>
    simp only [reduceCtorEq, or_false]
    -- Behind the first template the cached view stays as it is.
    exact (flushes_readWindow note provider address _ s).bind_quiet
      (.ite (fun _ => .pure _) (flushes_templateAt?_of_not_mayFlush note provider address others _))

/-- To follow a transfer, the view is dropped at most once, and never where reads are live, stubs
are not reused or no stubs are known. -/
theorem flushes_follow (templates : List StubTemplate) (reusesStubs : Bool) (cell : UInt64)
    (s : σ) :
    FlushesAtMost
      (if provider.os.readsLive = true ∨ reusesStubs = false ∨ templates = [] then 0 else 1) note s
      (Stub.follow (provider.recording note) templates reusesStubs cell)
      (Stub.follow provider templates reusesStubs cell) := by
  have hpointer := FlushesAtMost.of_read (records_readPointer note provider (s := s) cell)
  unfold Stub.follow
  refine hpointer.quiet_bind ?_
  cases ((provider.readPointer cell).run s).1 with
  | none => exact (FlushesAtMost.pure _).mono (Nat.zero_le _)
  | some candidate =>
    cases reusesStubs with
    | false => exact (FlushesAtMost.pure _).mono (Nat.zero_le _)
    | true =>
      have htemplate := flushes_templateAt? note provider candidate templates
        ((provider.readPointer cell).run s).2
      simp only [reduceCtorEq, false_or]
      refine htemplate.bind_quiet ?_
      split
      · exact .pure _
      · exact .of_read ((records_readPointer note provider _).map _)

end Provider

/-! ## What the memory says -/

namespace MemoryView

variable (view : MemoryView)

/-- The pointer of a size at an address, if one read gets all of it. -/
def pointer? (size : Nat) (address : UInt64) : Option UInt64 :=
  (Provider.complete? size (view address size)).map fun bytes =>
    UInt64.ofNat (Isa.littleEndian bytes)

/-- One read at the address gets the code of the stub. -/
def shows (address : UInt64) (template : StubTemplate) : Bool :=
  view address template.pattern.length == template.pattern

/-- Where a transfer through the cell leads. -/
def destination? (size : Nat) (templates : List StubTemplate) (reusesStubs : Bool)
    (cell : UInt64) : Option Stub.Destination :=
  match view.pointer? size cell with
  | none => none
  | some candidate =>
    if reusesStubs then
      match templates.find? (view.shows candidate) with
      | none => some ⟨candidate, false⟩
      | some template =>
        (view.pointer? size (template.slotAddress candidate)).map fun address =>
          ⟨address, template.isPrecode⟩
    else some ⟨candidate, false⟩

variable {view} {size : Nat} {templates : List StubTemplate} {reusesStubs : Bool}
  {cell candidate : UInt64}

/-- A cell that cannot be read leads nowhere. -/
theorem destination?_of_unread (hcell : view.pointer? size cell = none) :
    view.destination? size templates reusesStubs cell = none := by
  simp [destination?, hcell]

/-- A cell leads to what it points to if no stub is shown there. -/
theorem destination?_of_not_shown (hcell : view.pointer? size cell = some candidate)
    (hnone : reusesStubs = false ∨ templates.find? (view.shows candidate) = none) :
    view.destination? size templates reusesStubs cell = some ⟨candidate, false⟩ := by
  obtain rfl | hnone := hnone
  · simp [destination?, hcell]
  · simp only [destination?, hcell, hnone, ite_self]

/-- A cell that points to a stub leads to what the slot of the stub points to. -/
theorem destination?_of_shown (hcell : view.pointer? size cell = some candidate)
    {template : StubTemplate} (hfind : templates.find? (view.shows candidate) = some template) :
    view.destination? size templates true cell =
      (view.pointer? size (template.slotAddress candidate)).map fun address =>
        ⟨address, template.isPrecode⟩ := by
  simp [destination?, hcell, hfind]

/-- A template recognises a complete read if the view shows it. -/
theorem any_recognises_complete? (view : MemoryView) (address : UInt64) (template : StubTemplate) :
    (Provider.complete? template.pattern.length
      (view address template.pattern.length)).any template.recognises =
      view.shows address template := by
  unfold Provider.complete? shows
  split
  · rfl
  · rename_i hlength
    have hne : view address template.pattern.length ≠ template.pattern := by
      intro heq
      exact hlength (congrArg List.length heq)
    simpa using hne

end MemoryView

/-! ## Stale addresses -/

namespace Provider

/-- Reads get what the view gives, save those that start at a stale address: they get nothing until
the provider is flushed. -/
structure HidesUntilFlush (provider : Provider σ) (view : MemoryView) (stale : UInt64 → Prop)
    (flushed : σ → Prop) : Prop where
  read_current : ∀ {s : σ} {address : UInt64} (count : Nat), flushed s ∨ ¬ stale address →
    ((provider.read address count).run s).1 = view address count
  read_stale : ∀ {s : σ} {address : UInt64} (count : Nat), ¬ flushed s → stale address →
    ((provider.read address count).run s).1 = []
  flushed_read : ∀ {s : σ} (address : UInt64) (count : Nat), flushed s →
    flushed ((provider.read address count).run s).2
  flushed_flush : ∀ s : σ, flushed (provider.flush.run s).2

variable {provider : Provider σ} {view : MemoryView} {stale : UInt64 → Prop} {flushed : σ → Prop}
  {s : σ} {address : UInt64}

/-- A provider that serves a view hides nothing of it. -/
theorem Serves.hidesUntilFlush (h : provider.Serves view) :
    provider.HidesUntilFlush view (fun _ => False) (fun _ => True) where
  read_current count _ := h _ _ count
  read_stale _ hnot _ := absurd trivial hnot
  flushed_read _ _ _ := trivial
  flushed_flush _ := trivial

namespace HidesUntilFlush

variable (h : provider.HidesUntilFlush view stale flushed)

include h

/-- A read does not make an address stale. -/
theorem current_read (count : Nat) (hcurrent : flushed s ∨ ¬ stale address) :
    flushed ((provider.read address count).run s).2 ∨ ¬ stale address := by
  obtain hflushed | hfresh := hcurrent
  · exact .inl (h.flushed_read address count hflushed)
  · exact .inr hfresh

/-- An exact read at an address that is not stale gives what the view gives. -/
theorem readExact_eq (length : Nat) (hcurrent : flushed s ∨ ¬ stale address) :
    ((provider.readExact address length).run s).1 = complete? length (view address length) :=
  congrArg (complete? length) (h.read_current length hcurrent)

/-- A pointer at an address that is not stale is the one in the view. -/
theorem readPointer_eq (hcurrent : flushed s ∨ ¬ stale address) :
    ((provider.readPointer address).run s).1 = view.pointer? provider.pointerSize address :=
  congrArg (Option.map fun bytes => UInt64.ofNat (Isa.littleEndian bytes))
    (h.readExact_eq provider.pointerSize hcurrent)

/-- A look that may drop the view sees the memory and is no longer hindered by stale addresses, even
if it was before. -/
theorem readWindow_eq (length : Nat)
    (hlook : (flushed s ∨ ¬ stale address) ∨ provider.os.readsLive = false) :
    ((provider.readWindow address length).run s).1 = complete? length (view address length) ∧
      (flushed ((provider.readWindow address length).run s).2 ∨ ¬ stale address) := by
  have hflush : ∀ t, ((do provider.flush; provider.readExact address length).run t).1 =
        complete? length (view address length) ∧
      (flushed ((do provider.flush; provider.readExact address length).run t).2 ∨
        ¬ stale address) := by
    intro t
    have hcurrent : flushed (provider.flush.run t).2 ∨ ¬ stale address := .inl (h.flushed_flush t)
    exact ⟨h.readExact_eq length hcurrent, h.current_read length hcurrent⟩
  unfold readWindow
  rw [run_bind]
  by_cases hcurrent : flushed s ∨ ¬ stale address
  · split
    · exact hflush _
    · exact ⟨congrArg (complete? length) (h.read_current length hcurrent),
        h.current_read length hcurrent⟩
  · have hlive : provider.os.readsLive = false := hlook.resolve_left hcurrent
    obtain ⟨hnot, hstale⟩ := not_or.1 hcurrent
    have hnil := h.read_stale length hnot (not_not.1 hstale)
    rw [if_pos (by simp [hnil, hlive])]
    exact hflush _

/-- At an address that is not stale, the first template is found that the view shows. -/
theorem templateAt?_eq_of_current (templates : List StubTemplate)
    (hcurrent : flushed s ∨ ¬ stale address) :
    ((Stub.templateAt? provider address false templates).run s).1 =
        templates.find? (view.shows address) ∧
      (flushed ((Stub.templateAt? provider address false templates).run s).2 ∨
        ¬ stale address) := by
  induction templates generalizing s with
  | nil => exact ⟨rfl, hcurrent⟩
  | cons template others ih =>
    have hwindow := h.readExact_eq template.pattern.length hcurrent
    have hbehind := h.current_read template.pattern.length hcurrent
    unfold Stub.templateAt?
    rw [if_neg Bool.false_ne_true, run_bind, hwindow]
    dsimp only
    rw [view.any_recognises_complete?, List.find?_cons]
    cases view.shows address template with
    | true => exact ⟨rfl, hbehind⟩
    | false => exact ih hbehind

/-- With a flush allowed, the first template is found that the view shows, if the address is not
stale or memory is not read live. -/
theorem templateAt?_eq (templates : List StubTemplate)
    (hlook : (flushed s ∨ ¬ stale address) ∨ provider.os.readsLive = false) :
    ((Stub.templateAt? provider address true templates).run s).1 =
        templates.find? (view.shows address) ∧
      (templates ≠ [] → flushed ((Stub.templateAt? provider address true templates).run s).2 ∨
        ¬ stale address) := by
  cases templates with
  | nil => exact ⟨rfl, fun hne => absurd rfl hne⟩
  | cons template others =>
    obtain ⟨hwindow, hbehind⟩ := h.readWindow_eq template.pattern.length hlook
    unfold Stub.templateAt?
    rw [if_pos rfl, run_bind, hwindow]
    dsimp only
    rw [view.any_recognises_complete?, List.find?_cons]
    cases view.shows address template with
    | true => exact ⟨rfl, fun _ => hbehind⟩
    | false =>
      obtain ⟨heq, hcurrent⟩ := h.templateAt?_eq_of_current others hbehind
      exact ⟨heq, fun _ => hcurrent⟩

/-- A transfer leads where the memory says if its cell is not stale, and its slot is neither or is
read after the view was dropped. -/
theorem follow_eq (templates : List StubTemplate) (reusesStubs : Bool) {cell : UInt64}
    (hcell : flushed s ∨ ¬ stale cell)
    (hlook : ∀ candidate, stale candidate → provider.os.readsLive = false)
    (hslots : ∀ candidate, view.pointer? provider.pointerSize cell = some candidate →
      stale candidate ∨ ∀ template ∈ templates, ¬ stale (template.slotAddress candidate)) :
    ((Stub.follow provider templates reusesStubs cell).run s).1 =
      view.destination? provider.pointerSize templates reusesStubs cell := by
  unfold Stub.follow
  rw [run_bind, h.readPointer_eq hcell]
  cases hpointer : view.pointer? provider.pointerSize cell with
  | none =>
    rw [MemoryView.destination?_of_unread hpointer]
    rfl
  | some candidate =>
    cases reusesStubs with
    | false =>
      rw [MemoryView.destination?_of_not_shown hpointer (.inl rfl)]
      rfl
    | true =>
      have hlook' : (flushed ((provider.readPointer cell).run s).2 ∨ ¬ stale candidate) ∨
          provider.os.readsLive = false := by
        by_cases hstale : stale candidate
        · exact .inr (hlook candidate hstale)
        · exact .inl (.inr hstale)
      obtain ⟨htemplate, hbehind⟩ := h.templateAt?_eq templates hlook'
      show ((Stub.templateAt? provider candidate true templates >>= _).run _).1 = _
      rw [run_bind, htemplate]
      cases hfind : templates.find? (view.shows candidate) with
      | none =>
        rw [MemoryView.destination?_of_not_shown hpointer (.inr hfind)]
        rfl
      | some template =>
        have hmem := List.mem_of_find?_eq_some hfind
        have hslot : flushed ((Stub.templateAt? provider candidate true templates).run
            ((provider.readPointer cell).run s).2).2 ∨
            ¬ stale (template.slotAddress candidate) := by
          obtain hstale | hslots := hslots candidate hpointer
          · exact .inl ((hbehind (List.ne_nil_of_mem hmem)).resolve_right (not_not_intro hstale))
          · exact .inr (hslots template hmem)
        rw [MemoryView.destination?_of_shown hpointer hfind]
        exact congrArg (Option.map _) (h.readPointer_eq hslot)

end HidesUntilFlush

/-- A provider that serves a view reads the pointers in it. -/
theorem Serves.readPointer_eq (h : provider.Serves view) (s : σ) (address : UInt64) :
    ((provider.readPointer address).run s).1 = view.pointer? provider.pointerSize address :=
  h.hidesUntilFlush.readPointer_eq (.inl trivial)

/-- A provider that serves a view follows cells to where they lead in it. -/
theorem Serves.follow_eq (h : provider.Serves view) (templates : List StubTemplate)
    (reusesStubs : Bool) (cell : UInt64) (s : σ) :
    ((Stub.follow provider templates reusesStubs cell).run s).1 =
      view.destination? provider.pointerSize templates reusesStubs cell :=
  h.hidesUntilFlush.follow_eq templates reusesStubs (.inl trivial) (fun _ => False.elim)
    fun _ _ => .inr fun _ _ => not_false

end Provider

/-! ## Following -/

/-- To follow a transfer, the view is dropped at most once, and never on Windows, without reuse of
stubs or without templates.  Elsewhere stale addresses change nothing, if the cell is not one of
them and either the pointer in the cell is or the slots behind it are not: the transfer leads where
it leads if nothing is stale. -/
theorem Stub.follow_flushes_once_and_sees_memory (provider : Provider σ)
    (templates : List StubTemplate) (reusesStubs : Bool) (cell : UInt64) (s : σ) :
    (∃ trace : List Access,
      (follow (provider.recording some) templates reusesStubs cell).run ([], s) =
        (((follow provider templates reusesStubs cell).run s).1,
          (trace, ((follow provider templates reusesStubs cell).run s).2)) ∧
      trace.count .flush ≤ 1 ∧
      (provider.os = .windows ∨ reusesStubs = false ∨ templates = [] → .flush ∉ trace)) ∧
    ∀ (view : MemoryView) (stale : UInt64 → Prop) (flushed : σ → Prop) (current : Provider τ)
      (t : τ), provider.HidesUntilFlush view stale flushed → provider.os ≠ .windows →
      current.Serves view → current.pointerSize = provider.pointerSize → ¬ stale cell →
      (∀ candidate, ((current.readPointer cell).run t).1 = some candidate →
        stale candidate ∨ ∀ template ∈ templates, ¬ stale (template.slotAddress candidate)) →
      ((follow provider templates reusesStubs cell).run s).1 =
        ((follow current templates reusesStubs cell).run t).1 := by
  have hlive : provider.os.readsLive = true ↔ provider.os = .windows := by
    cases provider.os <;> simp [Os.readsLive]
  constructor
  · obtain ⟨trace, hrecords, hcount⟩ :=
      provider.flushes_follow some templates reusesStubs cell s
    refine ⟨trace, ?_, ?_, ?_⟩
    · rw [hrecords [], List.filterMap_some, List.nil_append]
    · refine Nat.le_trans hcount ?_
      split <;> omega
    · intro hnever
      rw [if_pos (by rwa [hlive])] at hcount
      exact List.count_eq_zero.1 (Nat.le_zero.1 hcount)
  · intro view stale flushed current t hhides hos hserves hsize hcell hslots
    rw [hserves.readPointer_eq, hsize] at hslots
    rw [hserves.follow_eq, hsize]
    refine hhides.follow_eq templates reusesStubs (.inr hcell) ?_ hslots
    intro _ _
    exact Bool.eq_false_iff.2 (mt hlive.1 hos)

/-- A read in a stale span gets nothing until there was a flush. -/
theorem Provider.run_read_withStaleCache (spans : List AddressSpan) (provider : Provider σ)
    (address : UInt64) (count flushes : Nat) (s : σ) :
    ((provider.withStaleCache spans).read address count).run (flushes, s) =
      if flushes == 0 && spans.any (·.contains address) then ([], (flushes, s))
      else (((provider.read address count).run s).1,
        (flushes, ((provider.read address count).run s).2)) := by
  show (if flushes == 0 && spans.any (·.contains address) then (return [])
    else onSecond (provider.read address count) : StateM (Nat × σ) _).run (flushes, s) = _
  split
  · rfl
  · rfl

/-- Over a memory that stands still, stale spans hide what lies there until the first flush. -/
theorem Provider.Serves.withStaleCache {provider : Provider σ} {view : MemoryView}
    (h : provider.Serves view) (spans : List AddressSpan) :
    (provider.withStaleCache spans).HidesUntilFlush view
      (fun address => spans.any (·.contains address) = true) (fun s => s.1 ≠ 0) where
  read_current := by
    rintro ⟨flushes, s⟩ address count hcurrent
    have hseen : ¬ ((flushes == 0 && spans.any (·.contains address)) = true) := by
      rw [Bool.and_eq_true, beq_iff_eq, not_and_or]
      exact hcurrent
    rw [run_read_withStaleCache, if_neg hseen]
    exact h s address count
  read_stale := by
    rintro ⟨flushes, s⟩ address count hnot hstale
    have hzero : flushes = 0 := not_not.1 hnot
    rw [run_read_withStaleCache, if_pos (by rw [hzero, hstale]; rfl)]
  flushed_read := by
    rintro ⟨flushes, s⟩ address count hflushed
    rw [run_read_withStaleCache]
    split
    · exact hflushed
    · exact hflushed
  flushed_flush := by
    rintro ⟨flushes, s⟩
    exact Nat.succ_ne_zero flushes

/-- Memory from `0x10000` on: a cell, the stub that it points to and, one stride of 32 behind the
code of the stub, its data. -/
def Stub.cellAndStub : List UInt8 :=
  leastBytes 0x10008 8 ++ [0x48, 0x8b, 0x05, 0x19, 0x00, 0x00, 0x00, 0x66, 0xff, 0x08] ++
    List.replicate 30 0 ++ leastBytes 0x50000 8

/-- The memory as it is. -/
def Stub.currentView : Provider Unit := .serving (.ofBytes 0x10000 cellAndStub)

/-- The memory with code and data of the stub hidden. -/
def Stub.oldView : Provider (Nat × Unit) := currentView.withStaleCache [⟨0x10008, 0x40⟩]

/-- Neither the code nor the data of the stub is in the view at first, and yet the transfer ends at
the target of the stub. -/
theorem Stub.follow_through_hidden_stub :
    oldView.HidesUntilFlush (.ofBytes 0x10000 cellAndStub)
      (fun address => [⟨0x10008, 0x40⟩].any (Provider.AddressSpan.contains · address) = true)
      (fun s => s.1 ≠ 0) ∧
    ((follow oldView (x64Templates 32) true 0x10000).run (0, ())).1 =
      ((follow currentView (x64Templates 32) true 0x10000).run ()).1 ∧
    ((follow currentView (x64Templates 32) true 0x10000).run ()).1 = some ⟨0x50000, false⟩ := by
  have hserves := Provider.serves_serving (.ofBytes 0x10000 cellAndStub)
  have hhides := hserves.withStaleCache [⟨0x10008, 0x40⟩]
  have hcell : ((currentView.readPointer 0x10000).run ()).1 = some 0x10008 := by decide
  refine ⟨hhides, ?_, by decide⟩
  refine (follow_flushes_once_and_sees_memory oldView _ true 0x10000 (0, ())).2 _ _ _ currentView ()
    hhides (by decide) hserves rfl (by decide) ?_
  intro candidate hcandidate
  rw [hcell] at hcandidate
  cases hcandidate
  exact .inl (by decide)

end CodeListing
