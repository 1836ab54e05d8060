import CodeListing.Proofs.DocumentReading
import CodeListing.Proofs.HexText
import CodeListing.Proofs.LowerCase
import CodeListing.Proofs.VersionText
import CodeListing.Snapshot.Basic

/-!
# Snapshots are read back

What is written for a snapshot is read as that snapshot, provided that its architecture is read from
its own name.  An architecture without a name, or with a name that is not trimmed and in lower case,
is not; but no such architecture is ever read (`Architecture.ofText_name`).  So every snapshot that
was read from some document is read back from its own (`Snapshot.read_toDocument_of_read`).
-/

set_option autoImplicit false

namespace CodeListing

open Document (Holds)

/-! ## Architectures -/

namespace Architecture

/-- An architecture is read by its trimmed name in lower case, which must not be empty. -/
theorem ofText_of_lowerText {text name : String}
    (h : Text.lowerText (Text.trim text) = name) :
    ofText text = if name.isEmpty then .error (.invalidConfiguration .emptyArchitecture)
      else .ok (ofLowerName name) := by
  rw [ofText, h]

/-- A name is kept unless it is an alias of a known family. -/
theorem name_ofLowerName (name : String) :
    (ofLowerName name).name = name ∨
      ofText (ofLowerName name).name = .ok (ofLowerName name) := by
  unfold ofLowerName
  split
  any_goals exact .inl rfl
  all_goals exact .inr (by decide +kernel)

/-- An architecture that a text names is also the one that its own name stands for. -/
theorem ofText_name {text : String} {architecture : Architecture}
    (h : ofText text = .ok architecture) : ofText architecture.name = .ok architecture := by
  have hlowered : ofText text = _ := ofText_of_lowerText rfl
  have hagain := ofText_of_lowerText (Text.lowerText_trim_again text)
  generalize Text.lowerText (Text.trim text) = lowered at hlowered hagain
  rw [hlowered] at h
  by_cases hempty : lowered.isEmpty = true
  · rw [if_pos hempty] at h
    cases h
  · rw [if_neg hempty] at h hagain
    cases h
    obtain hname | hknown := name_ofLowerName lowered
    · rw [hname, hagain]
    · exact hknown

/-- An architecture that its own name stands for is read off its document. -/
theorem reads_toDocument {architecture : Architecture}
    (h : ofText architecture.name = .ok architecture) :
    decoder.Reads architecture.toDocument architecture :=
  .ofText h

end Architecture

/-! ## The parts of a snapshot -/

/-- An operating system is read off its document. -/
theorem Os.reads_toDocument (os : Os) : decoder.Reads os.toDocument os := by
  apply Document.Decoder.Reads.variant
  cases os with
  | windows => rfl
  | linux => rfl
  | macos => rfl
  | other => rfl

/-- A version is read off its document. -/
theorem RuntimeVersion.reads_toDocument (version : RuntimeVersion) :
    decoder.Reads version.toDocument version :=
  .ofText version.ofText_text

/-- A range of code is read off its document. -/
theorem CodeRange.reads_toDocument (range : CodeRange) : decoder.Reads range.toDocument range := by
  obtain ⟨start, length⟩ := range
  refine .record (.seq (.map (.required ?_ (.address start))) (.required ?_ (.word length)))
  all_goals simp [Holds]

/-- The compilation of a method is read off its name. -/
theorem Compilation.reads_name (compilation : Compilation) :
    (Document.Decoder.variant variants).Reads (.string compilation.name) compilation := by
  apply Document.Decoder.Reads.variant
  cases compilation with
  | none => rfl
  | jitted => rfl
  | readyToRun => rfl

/-- A method is read off its document. -/
theorem Method.reads_toDocument (method : Method) : decoder.Reads method.toDocument method := by
  obtain ⟨signature, typeName, nativeCode, descriptor, compilation, isPInvoke, hasIl, codeRanges⟩ :=
    method
  refine .record (.seq (.seq (.seq (.seq (.seq (.seq (.seq (.map
    (.required ?_ (.text signature))) (.withDefault ?_ (.text typeName)))
    (.required ?_ (.address nativeCode))) (.withDefault ?_ (.address descriptor)))
    (.withDefault ?_ compilation.reads_name)) (.withDefault ?_ (.flag isPInvoke)))
    (.withDefault ?_ (.flag hasIl)))
    (.withDefault ?_ (.list CodeRange.reads_toDocument codeRanges)))
  all_goals simp [Holds]

/-- A named address is read off its document. -/
theorem NamedAddress.reads_toDocument (named : NamedAddress) :
    decoder.Reads named.toDocument named := by
  obtain ⟨address, name⟩ := named
  refine .record (.seq (.map (.required ?_ (.address address))) (.required ?_ (.text name)))
  all_goals simp [Holds]

/-- A region of memory is read off its document. -/
theorem MemoryRegion.reads_toDocument (region : MemoryRegion) :
    decoder.Reads region.toDocument region := by
  obtain ⟨address, bytes⟩ := region
  refine .record (.seq (.map (.required ?_ (.address address)))
    (.required ?_ (.ofText (Text.HexBytes.decode_encode bytes))))
  all_goals simp [Holds]

/-- A source span is read off its document. -/
theorem SourceMapping.reads_toDocument (mapping : SourceMapping) :
    decoder.Reads mapping.toDocument mapping := by
  obtain ⟨nativeCode, address, file, lineStart, lineEnd, columnStart, columnEnd⟩ := mapping
  refine .record (.seq (.seq (.seq (.seq (.seq (.seq (.map
    (.required ?_ (.address nativeCode))) (.required ?_ (.address address)))
    (.required ?_ (.text file))) (.required ?_ (.word lineStart)))
    (.optional ?_ .word nofun)) (.optional ?_ .word nofun)) (.optional ?_ .word nofun))
  all_goals simp [Holds]

/-! ## Snapshots -/

namespace Snapshot

/-- A snapshot is read off its document if its architecture is the one that its own name stands for.
-/
theorem reads_toDocument {snapshot : Snapshot}
    (h : Architecture.ofText snapshot.architecture.name = .ok snapshot.architecture) :
    decoder.Reads snapshot.toDocument snapshot := by
  obtain ⟨architecture, os, pageSize, version, methods, helpers, tables, memory, sources⟩ :=
    snapshot
  refine .record (.seq (.seq (.seq (.seq (.seq (.seq (.seq (.seq (.map
    (.required ?_ (Architecture.reads_toDocument h))) (.withDefault ?_ os.reads_toDocument))
    (.withDefault ?_ (.address pageSize))) (.required ?_ version.reads_toDocument))
    (.withDefault ?_ (.list Method.reads_toDocument methods)))
    (.withDefault ?_ (.list NamedAddress.reads_toDocument helpers)))
    (.withDefault ?_ (.list NamedAddress.reads_toDocument tables)))
    (.withDefault ?_ (.list MemoryRegion.reads_toDocument memory)))
    (.withDefault ?_ (.list SourceMapping.reads_toDocument sources)))
  all_goals simp [Holds]

/-- The architecture of a snapshot that was read is one that some text names. -/
theorem decoder_gives_architecture : decoder.Gives fun snapshot =>
    ∃ text, Architecture.ofText text = .ok snapshot.architecture := by
  refine .record (.seq (.seq (.seq (.seq (.seq (.seq (.seq (.seq (.map (.required ?_))))))))))
  intro document architecture h _ _ _ _ _ _ _ _
  exact Document.Decoder.Gives.ofText _ _ document architecture h

/-- A snapshot that was read from any document at all is read back from the document that is
written for it. -/
theorem read_toDocument_of_read {document : Document} {snapshot : Snapshot}
    (h : ofDocument? document = .ok snapshot) :
    ofDocument? snapshot.toDocument = .ok snapshot := by
  obtain ⟨text, htext⟩ := decoder_gives_architecture.of_read h
  exact (reads_toDocument (Architecture.ofText_name htext)).read_eq

/-- An unknown architecture in capitals and between white space, bytes without blanks, and fields
that are left out or null. -/
def sparseDocument : Document :=
  .object [
    ("architecture", .string " RiscV64\n"), ("runtime_version", .string "v8.1-rc"),
    ("memory", .array [.object [
      ("bytes", .string "0Aff"), ("address", .ofAddress 0xFFFFFFFFFFFFFFFF)]]),
    ("sources", .array [.object [
      ("native_code", .ofAddress 1), ("instruction_pointer", .ofAddress 2),
      ("file_path", .string "a"), ("line_start", .ofWord 3), ("line_end", .null),
      ("column_end", .ofWord 4)]])]

/-- The snapshot that the sparse document gives. -/
def sparse : Snapshot :=
  ⟨.other "riscv64", .linux, 4096, ⟨8, 1, 0⟩, [], [], [], [⟨0xFFFFFFFFFFFFFFFF, [10, 255]⟩],
    [⟨1, 2, "a", 3, none, none, some 4⟩]⟩

/-- The sparse document is read, and what is written of it is read back. -/
theorem read_toDocument_sparse :
    ofDocument? sparseDocument = .ok sparse ∧ ofDocument? sparse.toDocument = .ok sparse := by
  have hread : ofDocument? sparseDocument = .ok sparse := by decide +kernel
  exact ⟨hread, read_toDocument_of_read hread⟩

end Snapshot

end CodeListing
