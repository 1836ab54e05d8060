import CodeListing.Listing.Basic
import CodeListing.Proofs.DocumentReading
import CodeListing.Proofs.Numerals
import Mathlib.Data.List.TakeWhile

/-!
# Disassemblies are read back

Every part of a disassembly is written as a document from which the same part is read: names under
the decimal digits of their addresses, entries of two kinds that are told apart by a member of their
own, and optional parts that are left out.  The main statement puts these together for a whole
disassembly (`Disassembly.ofDocument?_toDocument`).
-/

set_option autoImplicit false

namespace CodeListing

/-! ## Numbers as keys -/

namespace Text

/-- Reading digits on does not make the number smaller. -/
theorem le_of_readDigitsFrom? {base read n : Nat} {digits : List Char} (hbase : 0 < base)
    (h : readDigitsFrom? base read digits = some n) : read ≤ n := by
  induction digits generalizing read with
  | nil =>
    cases h
    exact Nat.le_refl _
  | cons c rest ih =>
    rw [readDigitsFrom?] at h
    obtain ⟨d, -, hrest⟩ := Option.bind_eq_some_iff.1 h
    have hle := ih hrest
    have hmul : read * 1 ≤ read * base := Nat.mul_le_mul_left read hbase
    omega

/-- Zero is written as one digit. -/
theorem decimalDigits_zero : decimalDigits 0 = ['0'] := rfl

/-- Only zero is written with a zero in front. -/
theorem head?_decimalDigits_ne {n : Nat} (h : 0 < n) : (decimalDigits n).head? ≠ some '0' := by
  unfold decimalDigits
  induction n using Nat.strongRecOn with
  | _ n ih =>
    by_cases hsmall : n < 10
    · have hall : ∀ d : Fin 10, 0 < d.val → Nat.digitChar d.val ≠ '0' := by decide
      rw [Nat.toDigits_of_lt_base hsmall]
      simpa using hall ⟨n, hsmall⟩ h
    · have hhead := ih (n / 10) (by omega) (by omega)
      rw [Nat.toDigits_of_base_le (by decide) (by omega), List.head?_append]
      cases hfirst : (Nat.toDigits 10 (n / 10)).head? with
      | none => exact absurd (List.head?_eq_none_iff.1 hfirst) Nat.toDigits_ne_nil
      | some c =>
        rw [hfirst] at hhead
        simpa using hhead

end Text

namespace Json

/-- Digits of a number that fits 64 bits are all used. -/
theorem accumulate_eq {significand used n : Nat} {digits : List Char}
    (hdigits : ∀ c ∈ digits, 48 ≤ c.toNat ∧ c.toNat ≤ 57)
    (hread : Text.readDigitsFrom? 10 significand digits = some n) (hbound : n < significandBound) :
    accumulate significand used digits = (n, used + digits.length) := by
  induction digits generalizing significand used with
  | nil =>
    cases hread
    rfl
  | cons c rest ih =>
    have hc := hdigits c List.mem_cons_self
    have hvalue : Text.digitValue? 10 c = some (c.toNat - 48) := by
      have hdigit : '0' ≤ c ∧ c ≤ '9' := hc
      simp only [Text.digitValue?, if_pos hdigit]
      rw [if_pos (by omega)]
    rw [Text.readDigitsFrom?, hvalue] at hread
    have hnext : significand * 10 + (c.toNat - 48) < significandBound :=
      Nat.lt_of_le_of_lt (Text.le_of_readDigitsFrom? (by decide) hread) hbound
    simp only [accumulate, if_pos hnext, List.length_cons]
    rw [ih (fun d hd => hdigits d (List.mem_cons_of_mem _ hd)) hread, Nat.add_assoc,
      Nat.add_comm 1]

/-- The decimal digits of a number that fits 64 bits are read as that number to their end. -/
theorem numberBody_decimalDigits {n : Nat} (h : n < significandBound) {first : Char}
    {rest : List Char} (hdigits : Text.decimalDigits n = first :: rest) :
    ∃ tail : Tail rest, numberBody false first rest = .ok (.whole n, tail) ∧ tail.1 = [] := by
  have hrange : ∀ c ∈ first :: rest, 48 ≤ c.toNat ∧ c.toNat ≤ 57 := by
    rw [← hdigits]
    exact fun c => Text.isDigit_of_mem_decimalDigits
  have hdigit : ∀ c ∈ first :: rest, c.isDigit = true := by
    intro c hc
    have := hrange c hc
    simpa [Char.isDigit, UInt32.le_iff_toNat_le] using this
  have hkept : digitsOf rest = rest := by
    rw [digitsOf, List.takeWhile_eq_self_iff]
    exact fun c hc => hdigit c (List.mem_cons_of_mem _ hc)
  have hbehind : (digitsTail rest).1 = [] := by
    rw [digitsTail, List.dropWhile_eq_nil_iff]
    exact fun c hc => hdigit c (List.mem_cons_of_mem _ hc)
  -- A zero in front is the whole numeral, so there is nothing behind it to be refused.
  have hzero : first = '0' → rest = [] := by
    rintro rfl
    rcases Nat.eq_zero_or_pos n with rfl | hpos
    · rw [Text.decimalDigits_zero] at hdigits
      exact (List.cons.inj hdigits).2.symm
    · exact absurd (by rw [hdigits]; rfl) (Text.head?_decimalDigits_ne hpos)
  have hused : (if first == '0' then ['0'] else first :: digitsOf rest) = first :: rest := by
    by_cases hfirst : first = '0'
    · simp [hfirst, hzero hfirst]
    · simp [hfirst, hkept]
  have hleading : (first == '0' && rest.head?.any Char.isDigit) = false := by
    by_cases hfirst : first = '0'
    · simp [hzero hfirst]
    · simp [hfirst]
  have hread : Text.readDigitsFrom? 10 0 (first :: rest) = some n := by
    rw [← hdigits]
    exact Text.readDigitsFrom?_toDigits (by decide) (by decide) n
  have hsum : accumulate 0 0 (first :: rest) = (n, (first :: rest).length) := by
    rw [accumulate_eq hrange hread h, Nat.zero_add]
  unfold numberBody
  simp only [hdigit first List.mem_cons_self, hleading, hused, hsum, Bool.not_true,
    Bool.false_eq_true, if_false, Nat.sub_self]
  generalize digitsTail rest = behind at hbehind
  obtain ⟨text, hlength⟩ := behind
  subst hbehind
  exact ⟨_, rfl, rfl⟩

end Json

namespace NameMap

/-- A number that is written as a key is read back as an exact number. -/
theorem keyNumber?_decimal {n : Nat} (h : n < Json.significandBound) :
    keyNumber? (Text.decimal n) = .ok (.ofNat n, false) := by
  obtain ⟨first, rest, hdigits⟩ : ∃ first rest, Text.decimalDigits n = first :: rest :=
    List.exists_cons_of_ne_nil Nat.toDigits_ne_nil
  have hfirst := Text.isDigit_of_mem_decimalDigits (hdigits ▸ List.mem_cons_self)
  have hdigit : first.isDigit = true := by
    simpa [Char.isDigit, UInt32.le_iff_toNat_le] using hfirst
  have hminus : first ≠ '-' := by
    rintro rfl
    exact absurd hfirst (by decide)
  obtain ⟨tail, hnumber, htail⟩ := Json.numberBody_decimalDigits h hdigits
  unfold keyNumber? Text.decimal
  simp only [String.toList_ofList, hdigits]
  split
  · rename_i heq
    exact absurd (List.cons.inj heq).1 hminus
  · rename_i heq
    exact absurd (List.cons.inj heq).1 hminus
  · rename_i heq
    obtain ⟨rfl, rfl⟩ := List.cons.inj heq
    simp only [hdigit, if_true, hnumber, htail]
    rfl
  · rename_i heq
    cases heq

/-- A key that is read as an exact number is read as the address that the number stands for. -/
theorem keyAddress?_of_keyNumber? {key : String} {number : Document} {a : UInt64}
    (hkey : keyNumber? key = .ok (number, false))
    (haddress : Document.Decoder.address.decode number = .ok a) : keyAddress? key = .ok a := by
  unfold keyAddress?
  rw [hkey]
  simp only [bind, Except.bind, haddress]
  rfl

/-- An address that is written as a key is read back. -/
theorem keyAddress?_decimal (a : UInt64) : keyAddress? (Text.decimal a.toNat) = .ok a :=
  keyAddress?_of_keyNumber? (keyNumber?_decimal a.toNat_lt_size)
    (Document.Decoder.Reads.address a).decode

/-- Names that are written as members are read back. -/
theorem entriesOf?_map (entries : List (UInt64 × String)) :
    entriesOf? (entries.map fun (address, name) => (Text.decimal address.toNat, .string name)) =
      .ok entries := by
  induction entries with
  | nil => rfl
  | cons entry rest ih =>
    obtain ⟨address, name⟩ := entry
    rw [List.map_cons, entriesOf?, keyAddress?_decimal, ih]
    rfl

/-- An entry below all others is inserted in front. -/
theorem insertEntry_of_lt {address : UInt64} {name : String} {entries : List (UInt64 × String)}
    (h : ∀ entry ∈ entries, address < entry.1) :
    insertEntry address name entries = (address, name) :: entries := by
  cases entries with
  | nil => rfl
  | cons entry rest => simp [insertEntry, h entry List.mem_cons_self]

/-- Entries that ascend already stay as they are. -/
theorem ofEntries_eq {entries : List (UInt64 × String)} (h : Ascending entries) :
    ofEntries entries = ⟨entries, h⟩ := by
  have hentries : (ofEntries entries).entries = entries := by
    induction entries with
    | nil => rfl
    | cons entry rest ih =>
      obtain ⟨hlt, hrest⟩ := List.pairwise_cons.1 h
      show insertEntry entry.1 entry.2 (ofEntries rest).entries = entry :: rest
      rw [ih hrest, insertEntry_of_lt hlt]
  cases hfound : ofEntries entries with
  | mk found hascending =>
    rw [hfound] at hentries
    cases hentries
    rfl

/-- Names are read off their document. -/
theorem reads_toDocument (names : NameMap) : decoder.Reads names.toDocument names := by
  have hentries : documentEntries? names.toDocument = .ok names.entries :=
    entriesOf?_map names.entries
  constructor
  · intro setAside
    simp [decoder, Document.Shape.check, hentries, Except.map]
  · simp [decoder, hentries, Except.map, ofEntries_eq names.ascending]

end NameMap

/-! ## Entries -/

open Document (Holds)

namespace SourceLine

/-- A source line is read off its document. -/
theorem reads_toDocument (line : SourceLine) : decoder.Reads line.toDocument line := by
  obtain ⟨address, file, number, text⟩ := line
  refine .record (.seq (.seq (.seq (.map (.required ?_ (.address address)))
    (.required ?_ (.text file))) (.required ?_ (.word number))) (.required ?_ (.text text)))
  all_goals simp [Holds, members]

end SourceLine

namespace Instruction

/-- The validity of an instruction is read off its name. -/
theorem reads_validity (validity : Validity) :
    (Document.Decoder.variant Validity.variants).Reads (.string validity.name) validity := by
  apply Document.Decoder.Reads.variant
  cases validity with
  | valid => rfl
  | invalid => rfl

/-- An instruction is read off its document. -/
theorem reads_toDocument (instruction : Instruction) :
    decoder.Reads instruction.toDocument instruction := by
  obtain ⟨address, length, validity, bytes, mnemonic, operands, reference, isIndirect, symbol⟩ :=
    instruction
  refine .record (.seq (.seq (.seq (.seq (.seq (.seq (.seq (.seq (.map
    (.required ?_ (.address address))) (.required ?_ (.word length)))
    (.required ?_ (reads_validity validity))) (.required ?_ (.list .byte bytes)))
    (.required ?_ (.text mnemonic))) (.required ?_ (.text operands)))
    (.optional ?_ .address nofun)) (.withDefault ?_ (.flag isIndirect)))
    (.optional ?_ .text nofun))
  all_goals simp [Holds, members]

end Instruction

namespace Entry

/-- An entry is read off the members of its kind behind the member that names the kind. -/
theorem reads_object {kind : Document.Decoder Entry} {name : String}
    {members : List (String × Document)} {entry : Entry} (hkind : kinds.lookup name = some kind)
    (hmembers : Holds members "type" none) (h : kind.Reads (.object members) entry) :
    decoder.Reads (.object (("type", .string name) :: members)) entry := by
  have hrest : (("type", Document.string name) :: members).filter (·.1 != "type") = members := by
    rw [List.filter_cons_of_neg (by simp), List.filter_eq_self]
    intro member hmember
    have hne := List.filter_eq_nil_iff.1 hmembers member hmember
    simpa using hne
  have hparts : parts? (.object (("type", .string name) :: members)) =
      .ok (kind, .object members) := by
    have hfound : (("type", Document.string name) :: members).lookup "type" =
        some (.string name) := List.lookup_cons_self
    simp only [parts?, hfound, kind?, Document.named?, hkind, hrest]
    rfl
  constructor
  · intro setAside
    simp only [decoder, Document.Shape.check, hparts]
    exact h.check true
  · simp only [decoder, hparts]
    exact h.decode

/-- An entry is read off its document. -/
theorem reads_toDocument (entry : Entry) : decoder.Reads entry.toDocument entry := by
  cases entry with
  | source line =>
    refine reads_object rfl ?_ line.reads_toDocument.map
    simp [Holds, SourceLine.members]
  | instruction instruction =>
    refine reads_object rfl ?_ instruction.reads_toDocument.map
    simp [Holds, Instruction.members]

end Entry

/-! ## Listings -/

/-- A group of entries is read off its document. -/
theorem EntryGroup.reads_toDocument (group : EntryGroup) :
    decoder.Reads group.toDocument group := by
  obtain ⟨entries⟩ := group
  refine .record (.map (.required ?_ (.list Entry.reads_toDocument entries)))
  simp [Holds]

/-- A listing is read off its document. -/
theorem Listing.reads_toDocument (listing : Listing) :
    decoder.Reads listing.toDocument listing := by
  obtain ⟨name, nativeCode, groups, problem⟩ := listing
  refine .record (.seq (.seq (.seq (.map (.required ?_ (.text name)))
    (.required ?_ (.address nativeCode)))
    (.required ?_ (.list EntryGroup.reads_toDocument groups))) (.optional ?_ .text nofun))
  all_goals simp [Holds]

namespace Disassembly

/-- A disassembly is read off its document. -/
theorem reads_toDocument (disassembly : Disassembly) :
    decoder.Reads disassembly.toDocument disassembly := by
  obtain ⟨listings, names, errors, pointerSize⟩ := disassembly
  refine .record (.seq (.seq (.seq (.map
    (.required ?_ (.list Listing.reads_toDocument listings)))
    (.required ?_ names.reads_toDocument)) (.withDefault ?_ (.list .text errors)))
    (.required ?_ (.word pointerSize)))
  all_goals simp [Holds]

/-- Every disassembly is read back from the document that is written for it, whatever its listings,
entries, problems, names, errors and pointer size are.  In that document the names stand under the
decimal digits of their addresses, and a problem, a reference or a symbol has a member exactly if
there is one. -/
theorem ofDocument?_toDocument (disassembly : Disassembly) :
    ofDocument? disassembly.toDocument = .ok disassembly ∧
    disassembly.toDocument.get? "address_names" =
      some (.object (disassembly.names.entries.map fun (address, name) =>
        (Text.decimal address.toNat, .string name))) ∧
    (∀ listing : Listing, listing.toDocument.get? "problem" = listing.problem.map .string) ∧
    ∀ instruction : Instruction,
      (Entry.instruction instruction).toDocument.get? "referenced_address" =
        instruction.reference.map .ofAddress ∧
      (Entry.instruction instruction).toDocument.get? "symbol" =
        instruction.symbol.map .string := by
  have hnames : disassembly.toDocument.get? "address_names" = some disassembly.names.toDocument :=
    Holds.get?_object (by simp [Holds])
  refine ⟨disassembly.reads_toDocument.read_eq, hnames, ?_, ?_⟩
  · intro listing
    exact Holds.get?_object (by simp [Holds])
  · intro instruction
    exact ⟨Holds.get?_object (by simp [Holds, Instruction.members]),
      Holds.get?_object (by simp [Holds, Instruction.members])⟩

end Disassembly

end CodeListing
