import CodeListing.Proofs.SortedByAddress
import CodeListing.Source.Table

/-!
# The source lines of a method

A line of a file belongs to a method if one of its spans covers the line.  It is shown once, for the
span with the lowest address and the first one listed among those with that address, and carets
stand under the columns that this span has on the line (`SourceTable.GivesLines`).

Spans are gone through in the order of their addresses, and the lines of each are put out unless
they were before.  So what comes out is right for the texts that the spans were given
(`SourceTable.givesLines_of_texts`).  A line has no line feed, so it can be read off what is put out
for it.  Hence the lines put out are right for other texts exactly if the covered lines are the same
in them (`SourceTable.GivesLines.iff_lines_eq`).
-/

set_option autoImplicit false

namespace CodeListing

/-! ## Carets -/

/-- The number of the character under which the carets of a line of the span start. -/
def SourceMapping.firstColumn (span : SourceMapping) (number : UInt32) : Nat :=
  if number = span.lineStart then (span.columnStart.map (·.toNat - 1)).getD 0 else 0

/-- The number of the character before which the carets of a line of the span stop, at the latest
where the line does. -/
def SourceMapping.stopColumn (span : SourceMapping) (number : UInt32) (length : Nat) : Nat :=
  min (if number = span.lastLine then (span.columnEnd.map (·.toNat - 1)).getD length else length)
    length

/-- There are carets exactly under the columns of the span, with blanks in front of them, and tabs
where the line has tabs. -/
structure CaretsUnder (text carets : List Char) (start stop : Nat) : Prop where
  length : carets.length = stop
  caret_iff : ∀ i, carets[i]? = some '^' ↔ start ≤ i ∧ i < stop
  blank : ∀ i, i < start → i < stop →
    carets[i]? = some (if text[i]? = some '\t' then '\t' else ' ')

/-- The carets under a text stand from the start up to the end, as far as there is text. -/
theorem caretsUnder_caretChars (text : List Char) (start stop : Option Nat) :
    CaretsUnder text (caretChars text start stop) (start.getD 0)
      (min (stop.getD text.length) text.length) := by
  dsimp only [caretChars]
  generalize hstop : min (stop.getD text.length) text.length = last
  generalize hstart : min (start.getD 0) last = first
  have hfirst : first ≤ text.length := by omega
  have hfront :
      ((text.take first).map fun c => if c == '\t' then '\t' else ' ').length = first := by
    simp [hfirst]
  refine ⟨?_, ?_, ?_⟩
  · rw [List.length_append, hfront, List.length_replicate]
    omega
  · intro i
    by_cases hi : i < first
    · -- In front of the carets there are only blanks and tabs.
      have hnot : ¬ (start.getD 0 ≤ i ∧ i < last) := by omega
      rw [List.getElem?_append_left (by omega), List.getElem?_map, List.getElem?_take_of_lt hi]
      cases text[i]? with
      | none => simp [hnot]
      | some c =>
        simp only [Option.map_some, Option.some.injEq, hnot, iff_false]
        split <;> decide
    · rw [List.getElem?_append_right (by omega), hfront, List.getElem?_replicate]
      simp only [ite_eq_left_iff, reduceCtorEq, imp_false, not_not]
      omega
  · intro i hi hlast
    have hlt : i < first := by omega
    rw [List.getElem?_append_left (by omega), List.getElem?_map, List.getElem?_take_of_lt hlt,
      List.getElem?_eq_getElem (by omega)]
    simp

/-! ## What is to be shown -/

/-- The line of a text with this number, which counts from one. -/
def lineAt? (text : String) : Nat → Option String
  | 0 => none
  | number + 1 => (Text.lines text)[number]?

/-- The line of a file with this number, given the texts of the files that can be read. -/
def fileLine? (contents : String → Option String) (path : String) (number : UInt32) :
    Option String :=
  (contents path).bind fun text => lineAt? text number.toNat

/-- The span covers the line with this number of the file, for the method. -/
def SourceMapping.coversLine (nativeCode : UInt64) (file : String) (number : UInt32)
    (span : SourceMapping) : Bool :=
  span.nativeCode == nativeCode && span.file == file && span.covers number.toNat

/-- A span covers a line if it has the method and the file and covers the number. -/
theorem SourceMapping.coversLine_iff {nativeCode : UInt64} {file : String} {number : UInt32}
    {span : SourceMapping} :
    span.coversLine nativeCode file number = true ↔
      span.nativeCode = nativeCode ∧ span.file = file ∧ span.covers number.toNat = true := by
  simp [coversLine, and_assoc]

namespace SourceTable

/-- A span of the method covers the line with this number of the file. -/
def Covers (table : SourceTable) (nativeCode : UInt64) (file : String) (number : UInt32) : Prop :=
  ∃ span ∈ table.mappings, span.coversLine nativeCode file number = true

/-- Of the spans that cover the line this one has the lowest address, and it is the first one listed
with that address. -/
structure Owns (table : SourceTable) (nativeCode : UInt64) (file : String) (number : UInt32)
    (span : SourceMapping) : Prop where
  lowest : ∀ other ∈ table.mappings, other.coversLine nativeCode file number = true →
    span.address ≤ other.address
  first : table.mappings.find?
    (fun other => other.coversLine nativeCode file number && other.address == span.address) =
      some span

/-- The line is what is to be shown for the line with this number of a file, given the lines of the
files. -/
def Shows (table : SourceTable) (nativeCode : UInt64)
    (lineOf : String → UInt32 → Option String) (file : String) (number : UInt32)
    (line : SourceLine) : Prop :=
  ∃ span content carets,
    table.Owns nativeCode file number span ∧
    lineOf (table.resolve file) number = some content ∧
    CaretsUnder content.toList carets (span.firstColumn number)
      (span.stopColumn number content.toList.length) ∧
    line = ⟨span.address, table.resolve file, number, content ++ "\n" ++ String.ofList carets⟩

/-- The lines show each line of a file that is covered and exists exactly once, and nothing else, in
the order of their addresses. -/
structure GivesLines (table : SourceTable) (nativeCode : UInt64)
    (lineOf : String → UInt32 → Option String) (lines : List SourceLine) : Prop where
  shown : ∃ shown : List ((String × UInt32) × SourceLine),
    lines = shown.map (·.2) ∧ (shown.map (·.1)).Nodup ∧
    (∀ file number, (file, number) ∈ shown.map (·.1) ↔
      table.Covers nativeCode file number ∧ ∃ content,
        lineOf (table.resolve file) number = some content) ∧
    ∀ entry ∈ shown, table.Shows nativeCode lineOf entry.1.1 entry.1.2 entry.2
  ascending : lines.Pairwise fun a b => a.address ≤ b.address

/-! ## The lines of the texts -/

variable {table : SourceTable} {nativeCode : UInt64} {file : String} {number : UInt32}
  {span : SourceMapping}

/-- The covered lines of a text are those that it has and the span covers. -/
theorem mem_coveredLines {text content : String} {n : Nat} :
    (content, n) ∈ coveredLines span text ↔
      lineAt? text n = some content ∧ span.covers n = true := by
  unfold coveredLines
  rw [List.mem_filter, List.mk_mem_zipIdx_iff_le_and_getElem?_sub]
  cases n with
  | zero => simp [lineAt?]
  | succ n => simp [lineAt?]

/-- The lines of a span are those that the file has and the span covers, each as it is shown. -/
theorem mem_linesOfText {text : Option String} {item : String × SourceLine} :
    item ∈ table.linesOfText span text ↔
      ∃ number content, span.covers number.toNat = true ∧
        (text.bind fun text => lineAt? text number.toNat) = some content ∧
        item = (span.file, table.renderLine span number content) := by
  cases text with
  | none => simp [linesOfText]
  | some text =>
    simp only [linesOfText, List.mem_map, Prod.exists, mem_coveredLines, Option.bind_some]
    constructor
    · rintro ⟨content, n, ⟨hcontent, hcovers⟩, rfl⟩
      have hn : (UInt32.ofNat n).toNat = n := by
        apply UInt32.toNat_ofNat_of_lt'
        have hle : n ≤ span.lastLine.toNat := by
          simp only [SourceMapping.covers, Bool.and_eq_true, decide_eq_true_eq] at hcovers
          exact hcovers.2
        exact Nat.lt_of_le_of_lt hle span.lastLine.toNat_lt
      exact ⟨UInt32.ofNat n, content, by rwa [hn], by rwa [hn], rfl⟩
    · rintro ⟨number, content, hcovers, hcontent, rfl⟩
      exact ⟨content, number.toNat, ⟨hcontent, hcovers⟩, by rw [UInt32.ofNat_toNat]⟩

/-- A line is put out with the carets of the span under it. -/
theorem exists_carets_renderLine (table : SourceTable) (span : SourceMapping) (number : UInt32)
    (content : String) :
    ∃ carets, CaretsUnder content.toList carets (span.firstColumn number)
        (span.stopColumn number content.toList.length) ∧
      table.renderLine span number content =
        ⟨span.address, table.resolve span.file, number,
          content ++ "\n" ++ String.ofList carets⟩ := by
  refine ⟨_, ?_, rfl⟩
  have hfirst : span.firstColumn number =
      (if number == span.lineStart then span.columnStart.map columnIndex else none).getD 0 := by
    unfold SourceMapping.firstColumn
    by_cases h : number = span.lineStart
    · rw [if_pos h, if_pos (beq_iff_eq.2 h)]
      rfl
    · rw [if_neg h, if_neg (mt beq_iff_eq.1 h)]
      rfl
  have hstop : span.stopColumn number content.toList.length =
      min ((if number == span.lastLine then span.columnEnd.map columnIndex else none).getD
        content.toList.length) content.toList.length := by
    unfold SourceMapping.stopColumn
    by_cases h : number = span.lastLine
    · rw [if_pos h, if_pos (beq_iff_eq.2 h)]
      rfl
    · rw [if_neg h, if_neg (mt beq_iff_eq.1 h)]
      rfl
  rw [hfirst, hstop]
  exact caretsUnder_caretChars _ _ _

/-- The first span in the order of the addresses is the one that the line belongs to. -/
theorem owns_of_find?_spansOf
    (h : (table.spansOf nativeCode).find? (·.coversLine nativeCode file number) = some span) :
    table.Owns nativeCode file number span := by
  obtain ⟨hcovers, before, after, hspans, hbefore⟩ := List.find?_eq_some_iff_append.1 h
  have hsorted : (table.spansOf nativeCode).Pairwise fun a b => a.address ≤ b.address :=
    pairwise_mergeSort_address _
  refine ⟨?_, ?_⟩
  · intro other hother hcovers'
    have hmem : other ∈ table.spansOf nativeCode := by
      have hcode := (SourceMapping.coversLine_iff.1 hcovers').1
      exact List.mem_mergeSort.2 (List.mem_filter.2 ⟨hother, by simpa using hcode⟩)
    rw [hspans] at hmem hsorted
    rcases List.mem_append.1 hmem with hmem | hmem
    · have hnot := hbefore other hmem
      rw [hcovers'] at hnot
      cases hnot
    · rcases List.mem_cons.1 hmem with rfl | hmem
      · exact UInt64.le_refl _
      · exact (List.pairwise_cons.1 (List.pairwise_append.1 hsorted).2.1).1 other hmem
  · -- The spans with this address are in the order in which they are listed.
    have hsame : ((table.spansOf nativeCode).filter (·.address == span.address)).find?
        (·.coversLine nativeCode file number) = some span := by
      have hnone : (before.filter (·.address == span.address)).find?
          (·.coversLine nativeCode file number) = none := by
        rw [List.find?_eq_none]
        intro other hother
        have hnot := hbefore other (List.mem_filter.1 hother).1
        simpa using hnot
      rw [hspans, List.filter_append, List.filter_cons_of_pos (by simp), List.find?_append, hnone,
        Option.none_or, List.find?_cons_of_pos hcovers]
    unfold spansOf at hsame
    rw [filter_mergeSort_address, List.filter_filter, List.find?_filter] at hsame
    rw [← hsame]
    congr 1
    funext other
    rw [Bool.eq_iff_iff]
    simp only [Bool.and_eq_true, decide_eq_true_eq, beq_iff_eq]
    constructor
    · rintro ⟨hline, haddress⟩
      exact ⟨⟨haddress, (SourceMapping.coversLine_iff.1 hline).1⟩, hline⟩
    · rintro ⟨⟨haddress, -⟩, hline⟩
      exact ⟨hline, haddress⟩

/-- The lines of spans in order, given the texts of all files. -/
def linesWith (table : SourceTable) (texts : String → Option String)
    (spans : List SourceMapping) : List (String × SourceLine) :=
  spans.flatMap fun span => table.linesOfText span (texts (table.resolve span.file))

/-- The spans of a method are those of the table with its address. -/
theorem mem_spansOf : span ∈ table.spansOf nativeCode ↔
    span ∈ table.mappings ∧ span.nativeCode = nativeCode := by
  simp [spansOf]

/-- The first line of its place is the one to be shown. -/
theorem shows_of_find? {texts : String → Option String} {item : String × SourceLine}
    (h : (table.linesWith texts (table.spansOf nativeCode)).find? (place · == place item) =
      some item) :
    table.Shows nativeCode (fileLine? texts) item.1 item.2.number item.2 := by
  unfold linesWith at h
  rw [List.find?_flatMap, List.findSome?_eq_some_iff] at h
  obtain ⟨before, span, after, hspans, hitem, hbefore⟩ := h
  obtain ⟨number, content, hcovers, hcontent, rfl⟩ :=
    mem_linesOfText.1 (List.mem_of_find?_eq_some hitem)
  have hspan : span ∈ table.spansOf nativeCode := by simp [hspans]
  have hfirst : (table.spansOf nativeCode).find? (·.coversLine nativeCode span.file number) =
      some span := by
    rw [List.find?_eq_some_iff_append]
    refine ⟨SourceMapping.coversLine_iff.2 ⟨(mem_spansOf.1 hspan).2, rfl, hcovers⟩, before, after,
      hspans, ?_⟩
    -- A span before it that covered the line would have put it out.
    intro other hother
    rw [Bool.not_eq_true', Bool.eq_false_iff]
    intro hcovers'
    obtain ⟨-, hfile, hcovers'⟩ := SourceMapping.coversLine_iff.1 hcovers'
    have hnone := List.find?_eq_none.1 (hbefore other hother)
    apply hnone (other.file, table.renderLine other number content)
    · exact mem_linesOfText.2 ⟨number, content, hcovers', by rwa [hfile], rfl⟩
    · rw [hfile]
      exact beq_self_eq_true _
  obtain ⟨carets, hcarets, hrender⟩ := exists_carets_renderLine table span number content
  exact ⟨span, content, carets, owns_of_find?_spansOf hfirst, hcontent, hcarets, hrender⟩

/-- A line is shown for a method if a span of the method covers it and the file has it. -/
theorem mem_map_place_linesWith {texts : String → Option String} :
    (file, number) ∈ (table.linesWith texts (table.spansOf nativeCode)).map place ↔
      table.Covers nativeCode file number ∧ ∃ content,
        fileLine? texts (table.resolve file) number = some content := by
  rw [List.mem_map]
  constructor
  · rintro ⟨item, hitem, hplace⟩
    obtain ⟨span, hspan, hmem⟩ := List.mem_flatMap.1 hitem
    obtain ⟨number', content, hcovers, hcontent, rfl⟩ := mem_linesOfText.1 hmem
    obtain ⟨hspan, hcode⟩ := mem_spansOf.1 hspan
    cases hplace
    exact ⟨⟨span, hspan, SourceMapping.coversLine_iff.2 ⟨hcode, rfl, hcovers⟩⟩, content, hcontent⟩
  · rintro ⟨⟨span, hspan, hcovers⟩, content, hcontent⟩
    obtain ⟨hcode, rfl, hnumber⟩ := SourceMapping.coversLine_iff.1 hcovers
    refine ⟨(span.file, table.renderLine span number content), ?_, rfl⟩
    exact List.mem_flatMap.2 ⟨span, mem_spansOf.2 ⟨hspan, hcode⟩,
      mem_linesOfText.2 ⟨number, content, hnumber, hcontent, rfl⟩⟩

/-- The lines of a method are in the order of their addresses. -/
theorem pairwise_address_linesWith (texts : String → Option String) :
    (table.linesWith texts (table.spansOf nativeCode)).Pairwise
      fun a b => a.2.address ≤ b.2.address := by
  have haddress : ∀ (span : SourceMapping) (text : Option String),
      ∀ item ∈ table.linesOfText span text, item.2.address = span.address := by
    intro span text item hitem
    obtain ⟨number, content, -, -, rfl⟩ := mem_linesOfText.1 hitem
    rfl
  refine List.pairwise_flatMap.2 ⟨?_, ?_⟩
  · intro span _
    refine List.pairwise_of_forall_mem_list ?_
    intro a ha b hb
    rw [haddress _ _ a ha, haddress _ _ b hb]
    exact UInt64.le_refl _
  · refine (pairwise_mergeSort_address _).imp ?_
    intro low high hle a ha b hb
    rw [haddress _ _ a ha, haddress _ _ b hb]
    exact hle

/-- The lines that are put out are right for the texts that the spans were given. -/
theorem givesLines_of_texts (table : SourceTable) (nativeCode : UInt64)
    (texts : String → Option String) :
    table.GivesLines nativeCode (fileLine? texts)
      ((firstByKey place (table.linesWith texts (table.spansOf nativeCode))).map Prod.snd) := by
  refine ⟨⟨(firstByKey place (table.linesWith texts (table.spansOf nativeCode))).map
    (fun item => (place item, item.2)), ?_, ?_, ?_, ?_⟩, ?_⟩
  · rw [List.map_map]
    rfl
  · rw [List.map_map]
    exact nodup_map_firstByKeyFrom _
  · intro file number
    rw [List.map_map, ← mem_map_place_linesWith]
    exact mem_map_firstByKey
  · intro entry hentry
    obtain ⟨item, hitem, rfl⟩ := List.mem_map.1 hentry
    exact shows_of_find? (find?_eq_of_mem_firstByKeyFrom hitem)
  · exact List.pairwise_map.2
      ((pairwise_address_linesWith texts).sublist firstByKeyFrom_sublist)

/-! ## Whether the lines of two sets of texts are the same -/

/-- A line that a span owns is covered. -/
theorem Owns.covers (h : table.Owns nativeCode file number span) :
    table.Covers nativeCode file number := by
  have hspan := List.find?_some h.first
  rw [Bool.and_eq_true] at hspan
  exact ⟨span, List.mem_of_find?_eq_some h.first, hspan.1⟩

section Compare

variable {lineOf lineOf' : String → UInt32 → Option String} {lines : List SourceLine}

/-- Only the lines that are covered matter. -/
theorem GivesLines.congr (h : table.GivesLines nativeCode lineOf lines)
    (heq : ∀ file number, table.Covers nativeCode file number →
      lineOf (table.resolve file) number = lineOf' (table.resolve file) number) :
    table.GivesLines nativeCode lineOf' lines := by
  obtain ⟨⟨shown, hlines, hnodup, hmem, hshows⟩, hascending⟩ := h
  refine ⟨⟨shown, hlines, hnodup, ?_, ?_⟩, hascending⟩
  · intro file number
    rw [hmem]
    refine and_congr_right ?_
    intro hcovers
    rw [heq file number hcovers]
  · intro entry hentry
    obtain ⟨span, content, carets, howns, hcontent, hcarets, hline⟩ := hshows entry hentry
    rw [heq _ _ howns.covers] at hcontent
    exact ⟨span, content, carets, howns, hcontent, hcarets, hline⟩

/-- No line has a line feed. -/
def SingleLines (lineOf : String → UInt32 → Option String) : Prop :=
  ∀ path number content, lineOf path number = some content → '\n' ∉ content.toList

/-- Two shown lines with the same text have the same content. -/
theorem eq_of_append_newline {content other carets carets' : String}
    (hcontent : '\n' ∉ content.toList) (hother : '\n' ∉ other.toList)
    (h : content ++ "\n" ++ carets = other ++ "\n" ++ carets') : content = other := by
  have hlists := congrArg String.toList h
  simp only [String.toList_append, List.append_assoc] at hlists
  exact String.toList_inj.1 (Text.eq_of_append_cons_eq hcontent hother hlists)

/-- For a covered line that exists a line is put out, and it starts with the text of the line. -/
theorem GivesLines.exists_line (h : table.GivesLines nativeCode lineOf lines) {content : String}
    (hcovers : table.Covers nativeCode file number)
    (hcontent : lineOf (table.resolve file) number = some content) :
    ∃ line ∈ lines, line.file = table.resolve file ∧ line.number = number ∧
      ∃ carets, line.text = content ++ "\n" ++ carets := by
  obtain ⟨⟨shown, hlines, -, hmem, hshows⟩, -⟩ := h
  obtain ⟨⟨_, line⟩, hentry, rfl⟩ :=
    List.mem_map.1 ((hmem file number).2 ⟨hcovers, content, hcontent⟩)
  obtain ⟨span, content', carets, -, hcontent', -, hline⟩ := hshows _ hentry
  rw [hcontent] at hcontent'
  cases hcontent'
  refine ⟨line, ?_, ?_⟩
  · rw [hlines]
    exact List.mem_map.2 ⟨_, hentry, rfl⟩
  · rw [show line = _ from hline]
    exact ⟨rfl, rfl, String.ofList carets, rfl⟩

/-- A line that is put out starts with the text of its line. -/
theorem GivesLines.exists_content (h : table.GivesLines nativeCode lineOf lines)
    {line : SourceLine} (hline : line ∈ lines) :
    ∃ content, lineOf line.file line.number = some content ∧
      ∃ carets, line.text = content ++ "\n" ++ carets := by
  obtain ⟨⟨shown, rfl, -, -, hshows⟩, -⟩ := h
  obtain ⟨entry, hentry, rfl⟩ := List.mem_map.1 hline
  obtain ⟨span, content, carets, -, hcontent, -, heq⟩ := hshows _ hentry
  rw [heq]
  exact ⟨content, hcontent, String.ofList carets, rfl⟩

/-- A covered line of one set of texts can be read off what is put out for it. -/
theorem GivesLines.line_eq (h : table.GivesLines nativeCode lineOf lines)
    (h' : table.GivesLines nativeCode lineOf' lines) (hsingle : SingleLines lineOf)
    (hsingle' : SingleLines lineOf') {content : String}
    (hcovers : table.Covers nativeCode file number)
    (hcontent : lineOf (table.resolve file) number = some content) :
    lineOf' (table.resolve file) number = some content := by
  obtain ⟨line, hline, hfile, hnumber, carets, htext⟩ := h.exists_line hcovers hcontent
  obtain ⟨content', hcontent', carets', htext'⟩ := h'.exists_content hline
  have hsame : content = content' :=
    eq_of_append_newline (hsingle _ _ _ hcontent) (hsingle' _ _ _ hcontent')
      (htext.symm.trans htext')
  rw [← hfile, ← hnumber, hcontent', hsame]

/-- Lines that are right for one set of texts are right for another exactly if the covered lines are
the same in both. -/
theorem GivesLines.iff_lines_eq (h : table.GivesLines nativeCode lineOf lines)
    (hsingle : SingleLines lineOf) (hsingle' : SingleLines lineOf') :
    table.GivesLines nativeCode lineOf' lines ↔
      ∀ file number, table.Covers nativeCode file number →
        lineOf (table.resolve file) number = lineOf' (table.resolve file) number := by
  constructor
  · intro h' file number hcovers
    rw [Option.ext_iff]
    intro content
    constructor
    · exact h.line_eq h' hsingle hsingle' hcovers
    · exact h'.line_eq h hsingle' hsingle hcovers
  · exact h.congr

end Compare

/-- A line of a file has no line break. -/
theorem singleLines_fileLine? (contents : String → Option String) :
    SingleLines (fileLine? contents) := by
  intro path number content hcontent
  obtain ⟨text, -, hline⟩ := Option.bind_eq_some_iff.1 hcontent
  unfold lineAt? at hline
  split at hline
  · cases hline
  · obtain ⟨line, hmem, rfl⟩ := List.mem_map.1 (List.mem_of_getElem? hline)
    rw [String.toList_ofList]
    exact Text.newline_not_mem_of_mem_lineChars hmem

end SourceTable

end CodeListing
