import CodeListing.Proofs.StaleView
import CodeListing.Proofs.StubCode
import Mathlib.Data.List.Find

/-!
# The stub at an address tells the target

The codes of the stubs of an instruction set differ in their first byte, for every stride: on x64 it
is the first byte of an instruction of its own, and on Arm64 its low bits are the number of the
register that is loaded first.  So at most one stub lies at an address of a memory, the order in
which the templates are tried does not matter, and a transfer leads through the slot of that stub or
straight to the address.
-/

set_option autoImplicit false

namespace CodeListing

variable {σ : Type} {memory : MemoryMap} {view : MemoryView}

/-! ## First bytes -/

namespace Stub

/-- The first byte of a load has the number of its register in its lowest bits. -/
theorem head?_wordBytes_loadWord {register : UInt64} (hregister : register.toNat < 2 ^ 5)
    (distance : UInt64) (words : List UInt64) :
    ∃ lead : UInt8, (wordBytes (loadWord register distance :: words)).head? = some lead ∧
      lead.toNat % 2 ^ 5 = register.toNat := by
  refine ⟨UInt8.ofNat (loadWord register distance).toNat, rfl, ?_⟩
  rw [UInt8.toNat_ofNat', Isa.Arm64.toNat_loadWord hregister]
  omega

/-- Templates whose codes start with different bytes are told apart by them. -/
theorem eq_of_head?_eq {stride : UInt64} {callCounting stubPrecode fixupPrecode : List UInt8}
    (h₁ : callCounting.head? ≠ stubPrecode.head?) (h₂ : callCounting.head? ≠ fixupPrecode.head?)
    (h₃ : stubPrecode.head? ≠ fixupPrecode.head?) {template other : StubTemplate}
    (hmem : template ∈ templatesOf stride callCounting stubPrecode fixupPrecode)
    (hother : other ∈ templatesOf stride callCounting stubPrecode fixupPrecode)
    (hhead : template.pattern.head? = other.pattern.head?) : template = other := by
  simp only [templatesOf, List.mem_cons, List.not_mem_nil, or_false] at hmem hother
  rcases hmem with rfl | rfl | rfl <;> rcases hother with rfl | rfl | rfl <;> simp_all

/-- All templates of a set have the stride of the set. -/
theorem stride_eq_of_mem {stride : UInt64} {callCounting stubPrecode fixupPrecode : List UInt8}
    {template : StubTemplate}
    (hmem : template ∈ templatesOf stride callCounting stubPrecode fixupPrecode) :
    template.stride = stride := by
  simp only [templatesOf, List.mem_cons, List.not_mem_nil, or_false] at hmem
  rcases hmem with rfl | rfl | rfl <;> rfl

end Stub

namespace Isa

variable {isa : Isa} {stride : UInt64} {template other : StubTemplate}

/-- The first byte tells the templates of an instruction set apart. -/
theorem eq_of_head?_eq (hmem : template ∈ isa.stubTemplates stride)
    (hother : other ∈ isa.stubTemplates stride)
    (hhead : template.pattern.head? = other.pattern.head?) : template = other := by
  match isa with
  | .x86 .bits64 => exact Stub.eq_of_head?_eq (by simp) (by simp) (by simp) hmem hother hhead
  | .x86 .bits32 => cases hmem
  | .arm64 =>
    have hne : ∀ {register register' : UInt64} (distance distance' : UInt64)
        (words words' : List UInt64), register.toNat < 2 ^ 5 → register'.toNat < 2 ^ 5 →
        register.toNat ≠ register'.toNat →
        (Stub.wordBytes (Stub.loadWord register distance :: words)).head? ≠
          (Stub.wordBytes (Stub.loadWord register' distance' :: words')).head? := by
      intro register register' distance distance' words words' hr hr' hne heq
      obtain ⟨lead, hlead, hlow⟩ := Stub.head?_wordBytes_loadWord hr distance words
      obtain ⟨lead', hlead', hlow'⟩ := Stub.head?_wordBytes_loadWord hr' distance' words'
      rw [hlead, hlead'] at heq
      cases heq
      exact hne (hlow.symm.trans hlow')
    exact Stub.eq_of_head?_eq (hne _ _ _ _ (by decide) (by decide) (by decide))
      (hne _ _ _ _ (by decide) (by decide) (by decide))
      (hne _ _ _ _ (by decide) (by decide) (by decide)) hmem hother hhead

/-- All templates of an instruction set have the given stride. -/
theorem stride_eq_of_mem (hmem : template ∈ isa.stubTemplates stride) :
    template.stride = stride := by
  match isa with
  | .x86 .bits64 => exact Stub.stride_eq_of_mem hmem
  | .x86 .bits32 => cases hmem
  | .arm64 => exact Stub.stride_eq_of_mem hmem

/-- Every template has a first byte. -/
theorem exists_lead_of_mem (hmem : template ∈ isa.stubTemplates stride) :
    ∃ lead, template.pattern.head? = some lead := by
  match isa with
  | .x86 .bits64 =>
    simp only [stubTemplates, Stub.x64Templates, Stub.templatesOf, List.mem_cons,
      List.not_mem_nil, or_false] at hmem
    rcases hmem with rfl | rfl | rfl <;> exact ⟨_, rfl⟩
  | .x86 .bits32 => cases hmem
  | .arm64 =>
    simp only [stubTemplates, Stub.arm64Templates, Stub.templatesOf, List.mem_cons,
      List.not_mem_nil, or_false] at hmem
    rcases hmem with rfl | rfl | rfl <;> exact ⟨_, rfl⟩

/-- At most one stub lies at an address. -/
theorem eq_of_holds_pattern {address : UInt64} (hmem : template ∈ isa.stubTemplates stride)
    (hother : other ∈ isa.stubTemplates stride) (hholds : memory.Holds address template.pattern)
    (hholds' : memory.Holds address other.pattern) : template = other := by
  have hfirst : ∀ {stub : StubTemplate}, stub ∈ isa.stubTemplates stride →
      memory.Holds address stub.pattern → memory address = stub.pattern.head? := by
    intro stub hstub hholds
    obtain ⟨lead, hlead⟩ := exists_lead_of_mem hstub
    have hbyte := hholds 0 lead (List.head?_eq_getElem?.symm.trans hlead)
    rw [show address + UInt64.ofNat 0 = address from UInt64.add_zero address] at hbyte
    rw [hbyte, hlead]
  exact eq_of_head?_eq hmem hother ((hfirst hmem hholds).symm.trans (hfirst hother hholds'))

end Isa

/-! ## Looking for a stub -/

namespace MemoryView

/-- A template is shown if a read of its length gets its code. -/
theorem shows_iff {address : UInt64} {template : StubTemplate} :
    view.shows address template = true ↔
      view address template.pattern.length = template.pattern := by
  simp [shows]

/-- Where a template is shown the memory holds its code. -/
theorem IsOf.holds_pattern (h : view.IsOf memory) {address : UInt64} {template : StubTemplate}
    (hshows : view.shows address template = true) : memory.Holds address template.pattern := by
  have hholds := h address template.pattern.length
  rwa [shows_iff.1 hshows] at hholds

variable {isa : Isa} {stride : UInt64} {templates : List StubTemplate}

/-- A stub that a read shows is the one that is found, in whatever order the templates are tried. -/
theorem IsOf.find?_eq_some (h : view.IsOf memory)
    (hperm : templates.Perm (isa.stubTemplates stride)) {address : UInt64}
    {template : StubTemplate} (hmem : template ∈ templates)
    (hshows : view.shows address template = true) :
    templates.find? (view.shows address) = some template := by
  cases hfind : templates.find? (view.shows address) with
  | none => exact absurd hshows (List.find?_eq_none.1 hfind template hmem)
  | some other =>
    have hother := List.mem_of_find?_eq_some hfind
    rw [Isa.eq_of_holds_pattern (hperm.mem_iff.1 hother) (hperm.mem_iff.1 hmem)
      (h.holds_pattern (List.find?_some hfind)) (h.holds_pattern hshows)]

/-- Where a cell leads to does not depend on the order of the templates. -/
theorem IsOf.destination?_perm (h : view.IsOf memory)
    (hperm : templates.Perm (isa.stubTemplates stride)) (size : Nat) (reusesStubs : Bool)
    (cell : UInt64) :
    view.destination? size templates reusesStubs cell =
      view.destination? size (isa.stubTemplates stride) reusesStubs cell := by
  have hfind : ∀ address, templates.find? (view.shows address) =
      (isa.stubTemplates stride).find? (view.shows address) := by
    intro address
    apply List.find?_eq_find?_of_perm hperm
    rintro template ⟨hmem, hshows⟩ other ⟨hother, hshows'⟩
    exact Isa.eq_of_holds_pattern (hperm.mem_iff.1 hmem) (hperm.mem_iff.1 hother)
      (h.holds_pattern hshows) (h.holds_pattern hshows')
  simp only [destination?, hfind]

end MemoryView

/-- Over a memory that stands still, and with the templates of an instruction set in any order: at
most one of them lies at an address; a transfer leads nowhere if its cell cannot be read, straight
to the pointer in the cell if stubs are not reused or no stub is read there, and otherwise to where
the slot of the stub points, if that can be read; and the order of the templates does not matter. -/
theorem Stub.follow_stubTemplates (isa : Isa) (stride : UInt64) {templates : List StubTemplate}
    (hperm : templates.Perm (isa.stubTemplates stride)) {provider : Provider σ}
    (hserves : provider.Serves view) (hmemory : view.IsOf memory) (reusesStubs : Bool)
    (cell : UInt64) (s : σ) :
    (∀ address, ∀ template ∈ templates, ∀ other ∈ templates,
      memory.Holds address template.pattern → memory.Holds address other.pattern →
      template = other) ∧
    (((provider.readPointer cell).run s).1 = none →
      ((follow provider templates reusesStubs cell).run s).1 = none) ∧
    (∀ candidate, ((provider.readPointer cell).run s).1 = some candidate →
      ((reusesStubs = false ∨ ∀ template ∈ templates,
          view candidate template.pattern.length ≠ template.pattern) →
        ((follow provider templates reusesStubs cell).run s).1 = some ⟨candidate, false⟩) ∧
      ∀ template ∈ templates, reusesStubs = true →
        view candidate template.pattern.length = template.pattern →
        ((follow provider templates reusesStubs cell).run s).1 =
          ((provider.readPointer (candidate + stride + template.slotOffset)).run s).1.map
            fun address => ⟨address, template.isPrecode⟩) ∧
    ((follow provider templates reusesStubs cell).run s).1 =
      ((follow provider (isa.stubTemplates stride) reusesStubs cell).run s).1 := by
  simp only [hserves.readPointer_eq, hserves.follow_eq]
  refine ⟨?_, MemoryView.destination?_of_unread, ?_, ?_⟩
  · intro address template hmem other hother
    exact Isa.eq_of_holds_pattern (hperm.mem_iff.1 hmem) (hperm.mem_iff.1 hother)
  · intro candidate hcandidate
    constructor
    · intro hnone
      apply MemoryView.destination?_of_not_shown hcandidate
      refine hnone.imp_right fun hnot => List.find?_eq_none.2 fun template hmem => ?_
      rw [MemoryView.shows_iff]
      exact hnot template hmem
    · rintro template hmem rfl hshows
      have hfind := hmemory.find?_eq_some hperm hmem (MemoryView.shows_iff.2 hshows)
      rw [MemoryView.destination?_of_shown hcandidate hfind, StubTemplate.slotAddress,
        Isa.stride_eq_of_mem (hperm.mem_iff.1 hmem)]
  · exact hmemory.destination?_perm hperm provider.pointerSize reusesStubs cell

/-- With the templates tried in reverse order, a transfer through a cell that points to a stub for
counting calls still leads to the target of the stub. -/
theorem Stub.follow_reversed_templates :
    (x64Templates 32).reverse.Perm ((Isa.x86 .bits64).stubTemplates 32) ∧
    currentView.Serves (.ofBytes 0x10000 cellAndStub) ∧
    MemoryView.IsOf (.ofBytes 0x10000 cellAndStub) (.ofBytes 0x10000 cellAndStub) ∧
    ((follow currentView (x64Templates 32).reverse true 0x10000).run ()).1 =
      ((follow currentView (x64Templates 32) true 0x10000).run ()).1 ∧
    ((follow currentView (x64Templates 32).reverse true 0x10000).run ()).1 =
      some ⟨0x50000, false⟩ := by
  have hperm : (x64Templates 32).reverse.Perm ((Isa.x86 .bits64).stubTemplates 32) :=
    List.reverse_perm _
  have hserves := Provider.serves_serving (.ofBytes 0x10000 cellAndStub)
  have hmemory : MemoryView.IsOf (.ofBytes 0x10000 cellAndStub) (.ofBytes 0x10000 cellAndStub) :=
    MemoryView.isOf_ofBytes 0x10000 (by decide)
  obtain ⟨-, -, hfollow, hsame⟩ :=
    follow_stubTemplates (.x86 .bits64) 32 hperm hserves hmemory true 0x10000 ()
  refine ⟨hperm, hserves, hmemory, hsame, ?_⟩
  obtain ⟨-, hstub⟩ := hfollow 0x10008 (by decide)
  obtain ⟨counting, hmem, hshows, htarget⟩ : ∃ template ∈ (x64Templates 32).reverse,
      MemoryView.ofBytes 0x10000 cellAndStub 0x10008 template.pattern.length = template.pattern ∧
      ((currentView.readPointer (0x10008 + 32 + template.slotOffset)).run ()).1.map
        (fun address => (⟨address, template.isPrecode⟩ : Destination)) = some ⟨0x50000, false⟩ := by
    decide
  exact (hstub counting hmem rfl hshows).trans htarget

end CodeListing
