import CodeListing.Proofs.Visits

/-!
# Templates that are kept between runs

A disassembler keeps the stub templates of every target that it has met.  The key of an entry names
the target but not the stride for which its templates were built.  This is enough because the stride
is a function of the target and of settings that never change: every entry holds what would be built
for its target again (`Stub.Cache.Faithful`).

A call then gives the same result on every disassembler with a faithful cache, a fresh one among
them.  `Call.run_perform` says this for one call, together with what becomes of the cache, and
`performAll_eq_performEach` for any sequence of calls.
-/

set_option autoImplicit false

namespace CodeListing

variable {σ : Type}

namespace Stub

/-- What is built for a target under given settings; nothing if it cannot be decoded. -/
def templatesFor (decoders : Isa.Decoders) (settings : Settings) (target : TargetKey) :
    List StubTemplate :=
  match Isa.ofArchitecture decoders target.architecture with
  | .ok isa => isa.stubTemplates (settings.stubPageStride target.version target.pageSize)
  | .error _ => []

namespace Cache

/-- The targets that the cache has entries for. -/
def targets (cache : Cache) : List TargetKey :=
  cache.entries.map (·.1)

/-- Every target has at most one entry, and it holds what would be built for the target again. -/
structure Faithful (decoders : Isa.Decoders) (settings : Settings) (cache : Cache) : Prop where
  nodup : cache.targets.Nodup
  templates_eq : ∀ entry ∈ cache.entries, entry.2 = templatesFor decoders settings entry.1

variable {decoders : Isa.Decoders} {settings : Settings} {cache : Cache} {target : TargetKey}
  {templates : List StubTemplate}

/-- The empty cache is faithful. -/
theorem faithful_empty (decoders : Isa.Decoders) (settings : Settings) :
    ({} : Cache).Faithful decoders settings where
  nodup := List.nodup_nil
  templates_eq := by simp

/-- What the cache finds for a target is one of its entries. -/
theorem mem_entries_of_get? (h : cache.get? target = some templates) :
    (target, templates) ∈ cache.entries := by
  obtain ⟨before, after, hentries, -⟩ := List.lookup_eq_some_iff.1 h
  rw [hentries]
  exact List.mem_append_right _ List.mem_cons_self

/-- If the cache finds nothing for a target, it has no entry for it. -/
theorem not_mem_targets_of_get? (h : cache.get? target = none) : target ∉ cache.targets := by
  intro hmem
  obtain ⟨entry, hentry, rfl⟩ := List.mem_map.1 hmem
  have hne := List.lookup_eq_none_iff.1 h entry hentry
  simp at hne

section GetOrBuild

variable (h : cache.Faithful decoders settings) (target)

include h

/-- Whether they are kept or built, the templates are those of the target. -/
theorem Faithful.getOrBuild_fst :
    (cache.getOrBuild target fun _ => templatesFor decoders settings target).1 =
      templatesFor decoders settings target := by
  unfold getOrBuild
  cases hkept : cache.get? target with
  | none => rfl
  | some templates => exact h.templates_eq _ (mem_entries_of_get? hkept)

/-- Whether it is found or added, the cache stays faithful. -/
theorem Faithful.getOrBuild_snd :
    (cache.getOrBuild target fun _ => templatesFor decoders settings target).2.Faithful
      decoders settings := by
  unfold getOrBuild
  cases hkept : cache.get? target with
  | none =>
    refine ⟨List.nodup_cons.2 ⟨not_mem_targets_of_get? hkept, h.nodup⟩, ?_⟩
    intro entry hentry
    rcases List.mem_cons.1 hentry with rfl | hentry
    · rfl
    · exact h.templates_eq entry hentry
  | some templates => exact h

end GetOrBuild

/-- A target that was asked for has an entry, and no other target gets one. -/
theorem mem_targets_getOrBuild (cache : Cache) (target other : TargetKey)
    (build : Unit → List StubTemplate) :
    other ∈ (cache.getOrBuild target build).2.targets ↔
      other = target ∨ other ∈ cache.targets := by
  unfold getOrBuild
  cases hkept : cache.get? target with
  | none => exact List.mem_cons
  | some templates =>
    have htarget : target ∈ cache.targets := List.mem_map_of_mem (mem_entries_of_get? hkept)
    constructor
    · exact Or.inr
    · rintro (rfl | hother)
      · exact htarget
      · exact hother

end Cache

end Stub

namespace Disassembler

/-- A disassembler with given decoders and settings whose cache is faithful to them. -/
structure Faithful (decoders : Isa.Decoders) (settings : Settings)
    (disassembler : Disassembler) : Prop where
  decoders_eq : disassembler.decoders = decoders
  settings_eq : disassembler.settings = settings
  cache : disassembler.cache.Faithful decoders settings

/-- A fresh disassembler has the given decoders and settings and an empty cache. -/
theorem eq_of_ofSettings {decoders : Isa.Decoders} {settings : Settings} {fresh : Disassembler}
    (h : ofSettings decoders settings = .ok fresh) : fresh = { settings, decoders } := by
  unfold ofSettings at h
  cases hvalid : settings.validate with
  | error error =>
    rw [hvalid] at h
    cases h
  | ok =>
    rw [hvalid] at h
    cases h
    rfl

/-- A fresh disassembler is faithful. -/
theorem faithful_fresh (decoders : Isa.Decoders) (settings : Settings) :
    Faithful decoders settings { settings, decoders } :=
  ⟨rfl, rfl, Stub.Cache.faithful_empty decoders settings⟩

/-- The disassembler after its cache was asked for a target. -/
def asked (disassembler : Disassembler) (target : Stub.TargetKey) : Disassembler :=
  { disassembler with
    cache := (disassembler.cache.getOrBuild target
      fun _ => Stub.templatesFor disassembler.decoders disassembler.settings target).2 }

/-- Asking for a target adds it to the targets of the cache and no other. -/
theorem mem_targets_asked (disassembler : Disassembler) (target other : Stub.TargetKey) :
    other ∈ (disassembler.asked target).cache.targets ↔
      other = target ∨ other ∈ disassembler.cache.targets :=
  Stub.Cache.mem_targets_getOrBuild ..

/-- The target of runs over the provider. -/
def targetOf (provider : Provider σ) : Stub.TargetKey :=
  ⟨provider.architecture, provider.version, provider.pageSize⟩

/-- The context of a run without regard to any cache. -/
def contextOf (decoders : Isa.Decoders) (settings : Settings) (provider : Provider σ) (isa : Isa)
    (sourceOf : Option (SourceLocator σ)) : Context σ where
  settings := settings
  provider := provider
  isa := isa
  decoders := decoders
  templates := Stub.templatesFor decoders settings (targetOf provider)
  reusesStubs := settings.reusesStubs provider.version
  guard := settings.guardAddress provider.os provider.architecture provider.pageSize
  sourceOf := sourceOf

variable {decoders : Isa.Decoders} {settings : Settings} {disassembler : Disassembler}

/-- A faithful disassembler is faithful after it was asked for a target. -/
theorem Faithful.asked (h : disassembler.Faithful decoders settings) (target : Stub.TargetKey) :
    (disassembler.asked target).Faithful decoders settings := by
  obtain ⟨rfl, rfl, hcache⟩ := h
  exact ⟨rfl, rfl, hcache.getOrBuild_snd target⟩

/-- A run asks the cache for the target of its provider, and a faithful cache answers what the
stride of the run asks for. -/
theorem Faithful.context_eq (h : disassembler.Faithful decoders settings) {provider : Provider σ}
    {isa : Isa} (hisa : Isa.ofArchitecture decoders provider.architecture = .ok isa)
    (sourceOf : Option (SourceLocator σ)) :
    disassembler.context provider sourceOf =
      .ok (contextOf decoders settings provider isa sourceOf,
        disassembler.asked (targetOf provider)) := by
  obtain ⟨rfl, rfl, hcache⟩ := h
  have hbuilt : Stub.templatesFor disassembler.decoders disassembler.settings
      (targetOf provider) = isa.stubTemplates
        (disassembler.settings.stubPageStride provider.version provider.pageSize) := by
    unfold Stub.templatesFor targetOf
    rw [hisa]
  have hcontext : disassembler.context provider sourceOf =
      let built := disassembler.cache.getOrBuild (targetOf provider) fun _ =>
        isa.stubTemplates
          (disassembler.settings.stubPageStride provider.version provider.pageSize)
      .ok ({ contextOf disassembler.decoders disassembler.settings provider isa sourceOf with
          templates := built.1 },
        { disassembler with cache := built.2 }) := by
    unfold Disassembler.context
    rw [hisa]
    rfl
  rw [hcontext, ← hbuilt]
  simp only [hcache.getOrBuild_fst]
  rfl

end Disassembler

/-- A call of a disassembler. -/
structure Call (σ : Type) where
  provider : Provider σ
  /-- The entry of the run; without one the run is by the patterns of the settings. -/
  entry? : Option Method
  sourceOf : Option (SourceLocator σ)

namespace Call

/-- What the call gives and how it leaves the disassembler. -/
def perform (call : Call σ) (disassembler : Disassembler) :
    StateM σ (Except Error Disassembly × Disassembler) :=
  match call.entry? with
  | some entry => disassembler.run call.provider entry call.sourceOf
  | none => disassembler.runFiltered call.provider call.sourceOf

/-- The call gets as far as an instruction set: its architecture can be decoded, and if it is by
patterns there are some. -/
structure Selects (decoders : Isa.Decoders) (settings : Settings) (call : Call σ) : Prop where
  filters : call.entry? = none → settings.filters ≠ []
  isa : ∃ isa, Isa.ofArchitecture decoders call.provider.architecture = .ok isa

variable {decoders : Isa.Decoders} {settings : Settings} {call : Call σ}

/-- A call that gets to no instruction set fails, in the same way on every disassembler with the
same decoders and settings, and changes nothing. -/
theorem perform_of_not_selects (h : ¬ call.Selects decoders settings) :
    ∃ error, ∀ disassembler : Disassembler, disassembler.decoders = decoders →
      disassembler.settings = settings →
      ∀ s, (call.perform disassembler).run s = ((.error error, disassembler), s) := by
  by_cases hfilters : call.entry? = none ∧ settings.filters = []
  · refine ⟨.invalidConfiguration .noFilter, ?_⟩
    rintro disassembler - rfl s
    unfold perform Disassembler.runFiltered
    rw [hfilters.1, hfilters.2]
    rfl
  · have hsome : call.entry? = none → settings.filters ≠ [] :=
      fun hnone hnil => hfilters ⟨hnone, hnil⟩
    cases hisa : Isa.ofArchitecture decoders call.provider.architecture with
    | ok isa => exact absurd ⟨hsome, isa, hisa⟩ h
    | error error =>
      refine ⟨error, ?_⟩
      rintro disassembler rfl rfl s
      unfold perform
      cases hentry : call.entry? with
      | some entry => exact Disassembler.run_eq_of_error hisa
      | none => exact Disassembler.runFiltered_eq_of_error (hsome hentry) hisa

/-- A call that gets to an instruction set succeeds, with the same result on every disassembler that
is faithful to the settings, and asks the cache for its target. -/
theorem perform_of_selects (h : call.Selects decoders settings) (s : σ) :
    ∃ disassembly s', ∀ disassembler : Disassembler, disassembler.Faithful decoders settings →
      (call.perform disassembler).run s =
        ((.ok disassembly, disassembler.asked (Disassembler.targetOf call.provider)), s') := by
  obtain ⟨hfilters, isa, hisa⟩ := h
  -- The visits are fixed by this context, which every faithful cache leads to.
  let context := Disassembler.contextOf decoders settings call.provider isa call.sourceOf
  unfold perform
  cases hentry : call.entry? with
  | some entry =>
    obtain ⟨visits, final, s', hdrains⟩ :=
      context.exists_drains (Disassembler.entryState settings entry) s
    refine ⟨context.finish (Disassembler.withoutWrappers (visits.map (·.outcome.listing))) final,
      s', ?_⟩
    intro disassembler hfaithful
    rw [← hfaithful.settings_eq] at hdrains
    exact Disassembler.run_eq_of_drains (hfaithful.context_eq hisa call.sourceOf) hdrains
  | none =>
    obtain ⟨visits, final, s', hdrains⟩ :=
      context.exists_drains (Disassembler.seed settings call.provider.methods) s
    refine ⟨context.finish (visits.map (·.outcome.listing)) final, s', ?_⟩
    intro disassembler hfaithful
    have hcontext := hfaithful.context_eq hisa call.sourceOf
    rw [← hfaithful.settings_eq] at hfilters hdrains
    exact Disassembler.runFiltered_eq_of_drains (hfilters hentry) hcontext hdrains

/-- One call: its result does not depend on what a faithful cache holds, it leaves the cache
faithful, and the cache has a new target at most if the call got to an instruction set. -/
theorem run_perform (call : Call σ) {fresh disassembler : Disassembler}
    (hfresh : fresh.Faithful decoders settings) (h : disassembler.Faithful decoders settings)
    (s : σ) :
    ∃ result fresh' disassembler' s', (call.perform fresh).run s = ((result, fresh'), s') ∧
      (call.perform disassembler).run s = ((result, disassembler'), s') ∧
      disassembler'.Faithful decoders settings ∧
      (∀ target, target ∈ disassembler'.cache.targets ↔
        target ∈ disassembler.cache.targets ∨
          call.Selects decoders settings ∧ target = Disassembler.targetOf call.provider) := by
  by_cases hselects : call.Selects decoders settings
  · obtain ⟨disassembly, s', hperform⟩ := perform_of_selects hselects s
    refine ⟨.ok disassembly, _, _, s', hperform fresh hfresh, hperform disassembler h,
      h.asked _, ?_⟩
    intro target
    rw [Disassembler.mem_targets_asked, or_comm, and_iff_right hselects]
  · obtain ⟨error, hperform⟩ := perform_of_not_selects hselects
    refine ⟨.error error, _, _, s, hperform fresh hfresh.decoders_eq hfresh.settings_eq s,
      hperform disassembler h.decoders_eq h.settings_eq s, h, ?_⟩
    intro target
    simp [hselects]

/-- A call fails exactly if it does not get to an instruction set, and then it leaves the
disassembler as it was. -/
theorem failed_iff {disassembler disassembler' : Disassembler}
    (h : disassembler.Faithful decoders settings) {result : Except Error Disassembly} {s s' : σ}
    (hperform : (call.perform disassembler).run s = ((result, disassembler'), s')) :
    ((∃ error, result = .error error) ↔ ¬ call.Selects decoders settings) ∧
      ((∃ error, result = .error error) → disassembler' = disassembler) := by
  by_cases hselects : call.Selects decoders settings
  · obtain ⟨disassembly, t, hok⟩ := perform_of_selects hselects s
    rw [hok disassembler h] at hperform
    cases hperform
    simp [hselects]
  · obtain ⟨error, herror⟩ := perform_of_not_selects hselects
    rw [herror disassembler h.decoders_eq h.settings_eq] at hperform
    cases hperform
    simp [hselects]

end Call

namespace Disassembler

/-- Performs calls one after the other on the same disassembler. -/
def performAll : List (Call σ) → Disassembler →
    StateM σ (List (Except Error Disassembly) × Disassembler)
  | [], disassembler => return ([], disassembler)
  | call :: rest, disassembler => do
    let (result, disassembler') ← call.perform disassembler
    let (results, last) ← performAll rest disassembler'
    return (result :: results, last)

/-- Performs every call on a disassembler of its own that is like the given one. -/
def performEach (fresh : Disassembler) : List (Call σ) → StateM σ (List (Except Error Disassembly))
  | [] => return []
  | call :: rest => do
    let (result, _) ← call.perform fresh
    let results ← performEach fresh rest
    return result :: results

/-- Any sequence of calls: the results are those of calls on fresh disassemblers, and the cache
keeps the targets of the calls that got to an instruction set. -/
theorem run_performAll {decoders : Isa.Decoders} {settings : Settings} {fresh : Disassembler}
    (hfresh : fresh.Faithful decoders settings) (calls : List (Call σ))
    {disassembler : Disassembler} (h : disassembler.Faithful decoders settings) (s : σ) :
    ∃ results last s', (performAll calls disassembler).run s = ((results, last), s') ∧
      (performEach fresh calls).run s = (results, s') ∧
      last.Faithful decoders settings ∧
      (∀ target, target ∈ last.cache.targets ↔
        target ∈ disassembler.cache.targets ∨
          ∃ call ∈ calls, call.Selects decoders settings ∧ target = targetOf call.provider) := by
  induction calls generalizing disassembler s with
  | nil => exact ⟨[], disassembler, s, rfl, rfl, h, by simp⟩
  | cons call rest ih =>
    obtain ⟨result, fresh', disassembler', t, hrunFresh, hrun, hfaithful, htargets⟩ :=
      call.run_perform hfresh h s
    obtain ⟨results, last, s', hall, heach, hlast, hkept⟩ := ih hfaithful t
    refine ⟨result :: results, last, s', ?_, ?_, hlast, ?_⟩
    · unfold performAll
      rw [run_bind, hrun, run_bind, hall]
      rfl
    · unfold performEach
      rw [run_bind, hrunFresh, run_bind, heach]
      rfl
    · intro target
      simp only [hkept, htargets, or_assoc, List.mem_cons, exists_eq_or_imp]

/-- What is kept between calls makes no difference.  Any sequence of calls on a disassembler gives
the results of the same calls on fresh ones; then the cache has one entry for each target of a call
that got to an instruction set; and a call that fails leaves it as it is. -/
theorem performAll_eq_performEach {decoders : Isa.Decoders} {settings : Settings}
    {fresh : Disassembler} (hfresh : ofSettings decoders settings = .ok fresh)
    (calls : List (Call σ)) (s : σ) :
    ∃ results last s', (performAll calls fresh).run s = ((results, last), s') ∧
      (performEach fresh calls).run s = (results, s') ∧
      last.cache.targets.Nodup ∧
      (∀ target, target ∈ last.cache.targets ↔
        ∃ call ∈ calls, call.Selects decoders settings ∧ target = targetOf call.provider) ∧
      ∀ (call : Call σ) (t t' : σ) (result : Except Error Disassembly) (after : Disassembler),
        (call.perform last).run t = ((result, after), t') →
        ((∃ error, result = .error error) ↔ ¬ call.Selects decoders settings) ∧
          ((∃ error, result = .error error) → after = last) := by
  obtain rfl := eq_of_ofSettings hfresh
  have hfaithful := faithful_fresh decoders settings
  obtain ⟨results, last, s', hall, heach, hlast, htargets⟩ :=
    run_performAll hfaithful calls hfaithful s
  refine ⟨results, last, s', hall, heach, hlast.cache.nodup, ?_, ?_⟩
  · intro target
    rw [htargets]
    exact or_iff_right List.not_mem_nil
  · intro call t t' result after hperform
    exact Call.failed_iff hlast hperform

end Disassembler

/-! ## Calls for several targets -/

namespace SeveralTargets

/-- A runtime of an architecture about which nothing else is known. -/
def provider (architecture : Architecture) : Provider Unit :=
  SnapshotIndex.provider Unit {
    snapshot := {
      architecture
      os := .linux
      pageSize := 4096
      version := ⟨6, 0, 0⟩
      methods := []
      helpers := []
      tables := []
      memory := []
      sources := [] }
    regions := #[] }

/-- A method that was never compiled. -/
def entry : Method where
  signature := "A.Run()"
  typeName := ""
  nativeCode := 0
  descriptor := 0
  compilation := .none
  isPInvoke := false
  hasIl := true
  codeRanges := []

/-- A run on x64, one for an architecture that cannot be decoded, one on Arm64, one by patterns that
are missing, and one on x64 again. -/
def calls : List (Call Unit) :=
  [⟨provider .x64, some entry, none⟩, ⟨provider .arm, some entry, none⟩,
    ⟨provider .arm64, some entry, none⟩, ⟨provider .x86, none, none⟩,
    ⟨provider .x64, some entry, none⟩]

/-- A disassembler with the settings that are used if none are given, before its first run. -/
def fresh : Disassembler where
  settings := {}
  decoders := .builtIn

end SeveralTargets

namespace Disassembler

/-- Two of the five calls fail, and the others leave entries for two targets. -/
theorem performAll_of_several_targets :
    ofSettings .builtIn {} = .ok SeveralTargets.fresh ∧
    ∃ results last, (performAll SeveralTargets.calls SeveralTargets.fresh).run () =
        ((results, last), ()) ∧
      (performEach SeveralTargets.fresh SeveralTargets.calls).run () = (results, ()) ∧
      last.cache.targets.Nodup ∧
      ∀ target, target ∈ last.cache.targets ↔
        target = ⟨.x64, ⟨6, 0, 0⟩, 4096⟩ ∨ target = ⟨.arm64, ⟨6, 0, 0⟩, 4096⟩ := by
  have hfresh : ofSettings .builtIn {} = .ok SeveralTargets.fresh := rfl
  obtain ⟨results, last, s', hall, heach, hnodup, htargets, -⟩ :=
    performAll_eq_performEach hfresh SeveralTargets.calls ()
  refine ⟨hfresh, results, last, hall, heach, hnodup, ?_⟩
  intro target
  rw [htargets]
  constructor
  · rintro ⟨call, hcall, ⟨hfilters, isa, hisa⟩, rfl⟩
    simp only [SeveralTargets.calls, List.mem_cons, List.not_mem_nil, or_false] at hcall
    rcases hcall with rfl | rfl | rfl | rfl | rfl
    · exact Or.inl rfl
    · cases hisa
    · exact Or.inr rfl
    · exact absurd rfl (hfilters rfl)
    · exact Or.inl rfl
  · rintro (rfl | rfl)
    · exact ⟨⟨SeveralTargets.provider .x64, some SeveralTargets.entry, none⟩,
        by simp [SeveralTargets.calls], ⟨nofun, _, rfl⟩, rfl⟩
    · exact ⟨⟨SeveralTargets.provider .arm64, some SeveralTargets.entry, none⟩,
        by simp [SeveralTargets.calls], ⟨nofun, _, rfl⟩, rfl⟩

end Disassembler

end CodeListing
