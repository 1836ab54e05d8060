import CodeListing.Files.Disk
import CodeListing.Proofs.SourceLines

/-!
# Files that are not read again

A file is not read again for a path that counts as equal to one that was read.  So the text that a
span is given is not always that of its file: it is that of the path that was read first among those
equal to its own (`FileCache.HoldsFirst`), and the lines of a method are right exactly if this makes
no difference to the lines that are covered (`SourceTable.readLines_right_iff`).

On a disk it makes a difference only if a path ends as only that of a directory can.  Such a path
counts as equal to that of a file, but the file cannot be read by it.
-/

set_option autoImplicit false

namespace CodeListing

/-! ## The texts that are kept -/

/-- The first of the paths that counts as equal to the path, or the path itself. -/
def firstEqual (paths : List String) (path : String) : String :=
  (paths.find? fun other => Path.key other == Path.key path).getD path

/-- The text of a path for which that of the first equal one is taken. -/
def firstText (contents : String → Option String) (paths : List String) (path : String) :
    Option String :=
  contents (firstEqual paths path)

/-- Whether a path stands for itself or an earlier one does not depend on what comes behind it. -/
theorem firstEqual_append_cons (paths rest : List String) (path : String) :
    firstEqual (paths ++ path :: rest) path = firstEqual paths path := by
  unfold firstEqual
  rw [List.find?_append, List.find?_cons_of_pos (by simp)]
  cases paths.find? fun other => Path.key other == Path.key path <;> rfl

/-- The cache holds for each path what is read of the first one of the paths that is equal to it. -/
def FileCache.HoldsFirst (contents : String → Option String) (paths : List String)
    (cache : FileCache) : Prop :=
  ∀ path, cache.get? path =
    (paths.find? fun other => Path.key other == Path.key path).map contents

namespace FileCache

variable {contents : String → Option String} {paths : List String} {cache : FileCache}

/-- An empty cache holds nothing that was read. -/
theorem holdsFirst_empty (contents : String → Option String) :
    ({} : FileCache).HoldsFirst contents [] := by
  intro path
  rfl

/-- A path that is read gets the text of the first path that is equal to it. -/
theorem HoldsFirst.read (h : cache.HoldsFirst contents paths) (path : String) :
    ∃ cache', (FileCache.read contents path).run cache =
        (firstText contents paths path, cache') ∧
      cache'.HoldsFirst contents (paths ++ [path]) := by
  have hkept := h path
  show ∃ cache', FileCache.read contents path cache = _ ∧ _
  unfold FileCache.read firstText firstEqual
  cases hfind : paths.find? fun other => Path.key other == Path.key path with
  | some first =>
    rw [hfind, Option.map_some] at hkept
    rw [hkept]
    refine ⟨cache, rfl, ?_⟩
    intro other
    rw [h other, List.find?_append]
    by_cases heq : Path.key path = Path.key other
    · rw [← heq, hfind, Option.some_or]
    · rw [List.find?_singleton, if_neg (by simpa using heq), Option.or_none]
  | none =>
    rw [hfind, Option.map_none] at hkept
    rw [hkept]
    refine ⟨_, rfl, ?_⟩
    intro other
    rw [List.find?_append]
    show List.lookup _ (_ :: _) = _
    rw [List.lookup_cons]
    by_cases heq : Path.key path = Path.key other
    · rw [← heq, hfind, Option.none_or, List.find?_singleton, if_pos (by simp), beq_self_eq_true]
      rfl
    · rw [List.find?_singleton, if_neg (by simpa using heq), Option.or_none, ← h other,
        beq_false_of_ne (Ne.symm heq)]
      rfl

end FileCache

namespace SourceTable

variable {contents : String → Option String} {paths : List String} {cache : FileCache}

/-- The paths of spans in order. -/
def pathsOf (table : SourceTable) (spans : List SourceMapping) : List String :=
  spans.map fun span => table.resolve span.file

/-- Each span gets the text of the first path that is equal to its own, of those that were read
before and those of the spans. -/
theorem run_linesOfSpans (table : SourceTable) (h : cache.HoldsFirst contents paths)
    (spans : List SourceMapping) :
    ∃ cache', (table.linesOfSpans contents spans).run cache =
        (table.linesWith (firstText contents (paths ++ table.pathsOf spans)) spans, cache') ∧
      cache'.HoldsFirst contents (paths ++ table.pathsOf spans) := by
  induction spans generalizing paths cache with
  | nil => exact ⟨cache, rfl, by simpa [pathsOf] using h⟩
  | cons span rest ih =>
    obtain ⟨cache₁, hread, h₁⟩ := h.read (table.resolve span.file)
    obtain ⟨cache₂, hrest, h₂⟩ := ih h₁
    rw [List.append_assoc, List.singleton_append] at hrest h₂
    refine ⟨cache₂, ?_, h₂⟩
    have hstep : (table.linesOfSpans contents (span :: rest)).run cache =
        let found := (FileCache.read contents (table.resolve span.file)).run cache
        let others := (table.linesOfSpans contents rest).run found.2
        (table.linesOfText span found.1 ++ others.1, others.2) := rfl
    rw [hstep, hread, firstText, ← firstEqual_append_cons paths (table.pathsOf rest)]
    dsimp only
    rw [hrest]
    rfl

/-- The lines of a method are those of the files as they were read by the first equal path, which
the cache holds afterwards. -/
theorem run_readLines (table : SourceTable) (h : cache.HoldsFirst contents paths)
    (nativeCode : UInt64) :
    ∃ cache', (table.readLines contents nativeCode).run cache =
        ((firstByKey place (table.linesWith
          (firstText contents (paths ++ table.pathsOf (table.spansOf nativeCode)))
          (table.spansOf nativeCode))).map Prod.snd, cache') ∧
      cache'.HoldsFirst contents (paths ++ table.pathsOf (table.spansOf nativeCode)) := by
  obtain ⟨cache', hrun, h'⟩ := table.run_linesOfSpans h (table.spansOf nativeCode)
  refine ⟨cache', ?_, h'⟩
  have hstep : (table.readLines contents nativeCode).run cache =
      let found := (table.linesOfSpans contents (table.spansOf nativeCode)).run cache
      ((firstByKey place found.1).map Prod.snd, found.2) := rfl
  rw [hstep, hrun]

/-- The paths that are read for methods, one method after the other. -/
def pathsRead (table : SourceTable) (methods : List UInt64) : List String :=
  methods.flatMap fun nativeCode => table.pathsOf (table.spansOf nativeCode)

/-- The files that are known after the lines of the methods were read. -/
def cacheAfter (table : SourceTable) (contents : String → Option String)
    (methods : List UInt64) : FileCache :=
  ((table.readLinesOfAll contents methods).run {}).2

/-- After the lines of methods the cache holds what is read by the first of equal paths. -/
theorem holdsFirst_readLinesOfAll (table : SourceTable) (h : cache.HoldsFirst contents paths)
    (methods : List UInt64) :
    ((table.readLinesOfAll contents methods).run cache).2.HoldsFirst contents
      (paths ++ table.pathsRead methods) := by
  induction methods generalizing paths cache with
  | nil =>
    rw [pathsRead, List.flatMap_nil, List.append_nil]
    exact h
  | cons nativeCode rest ih =>
    obtain ⟨cache₁, hread, h₁⟩ := table.run_readLines h nativeCode
    have hstep : ((table.readLinesOfAll contents (nativeCode :: rest)).run cache).2 =
        ((table.readLinesOfAll contents rest).run
          ((table.readLines contents nativeCode).run cache).2).2 := rfl
    rw [hstep, hread, pathsRead, List.flatMap_cons, ← List.append_assoc]
    exact ih h₁

/-- What is known of files after the lines of methods is read by the first of equal paths. -/
theorem holdsFirst_cacheAfter (table : SourceTable) (contents : String → Option String)
    (methods : List UInt64) :
    (table.cacheAfter contents methods).HoldsFirst contents (table.pathsRead methods) :=
  table.holdsFirst_readLinesOfAll (FileCache.holdsFirst_empty contents) methods

/-- The lines of a method after others were read are right for the texts of the paths that were read
first. -/
theorem givesLines_readLines (table : SourceTable) (contents : String → Option String)
    (earlier : List UInt64) (nativeCode : UInt64) :
    table.GivesLines nativeCode
      (fileLine? (firstText contents (table.pathsRead (earlier ++ [nativeCode]))))
      ((table.readLines contents nativeCode).run (table.cacheAfter contents earlier)).1 := by
  obtain ⟨cache', hrun, -⟩ :=
    table.run_readLines (table.holdsFirst_cacheAfter contents earlier) nativeCode
  have hpaths : table.pathsRead (earlier ++ [nativeCode]) =
      table.pathsRead earlier ++ table.pathsOf (table.spansOf nativeCode) := by
    simp [pathsRead]
  rw [hrun, hpaths]
  exact table.givesLines_of_texts nativeCode _

/-- If a table is asked for the lines of one method after the other, the lines are right exactly if
each line that is covered is the same in its file as in the one that was read first among those
whose paths are equal to its own. -/
theorem readLines_right_iff (table : SourceTable) (contents : String → Option String)
    (earlier : List UInt64) (nativeCode : UInt64) :
    table.GivesLines nativeCode (fileLine? contents)
        ((table.readLines contents nativeCode).run (table.cacheAfter contents earlier)).1 ↔
      ∀ file number, table.Covers nativeCode file number →
        fileLine? contents
            (firstEqual (table.pathsRead (earlier ++ [nativeCode])) (table.resolve file)) number =
          fileLine? contents (table.resolve file) number :=
  (table.givesLines_readLines contents earlier nativeCode).iff_lines_eq
    (singleLines_fileLine? _) (singleLines_fileLine? contents)

end SourceTable

/-! ## Files on a disk -/

/-- Two equal paths lead to the same file, unless one of them can only name a directory. -/
theorem Disk.text?_eq_of_key_eq (disk : Disk) {path other : String}
    (hkey : Path.key path = Path.key other) (hpath : namesDirectory path = false)
    (hother : namesDirectory other = false) : disk.text? path = disk.text? other := by
  have hne : ∀ text : String, namesDirectory text = false → text.isEmpty = false := by
    intro text hnames
    cases hempty : text.isEmpty with
    | false => rfl
    | true =>
      rw [String.isEmpty_iff.1 hempty] at hnames
      cases hnames
  have habsolute : Path.isAbsolute path = Path.isAbsolute other :=
    congrArg Path.Key.isAbsolute hkey
  have hcomponents : Path.components path = Path.components other :=
    congrArg Path.Key.components hkey
  have hresolve : disk.resolve path = disk.resolve other := by
    unfold resolve origin
    rw [hne path hpath, hne other hother, hpath, hother, habsolute, hcomponents]
  unfold text? read
  rw [hresolve]

/-- The first equal path has the same key. -/
theorem key_firstEqual (paths : List String) (path : String) :
    Path.key (firstEqual paths path) = Path.key path := by
  unfold firstEqual
  cases hfind : paths.find? fun other => Path.key other == Path.key path with
  | none => rfl
  | some first => simpa using List.find?_some hfind

/-- The first path that is equal to one of the paths is one of them. -/
theorem firstEqual_mem {paths : List String} {path : String} (h : path ∈ paths) :
    firstEqual paths path ∈ paths := by
  unfold firstEqual
  cases hfind : paths.find? fun other => Path.key other == Path.key path with
  | none => exact h
  | some first => exact List.mem_of_find?_eq_some hfind

namespace SourceTable

/-- The paths that are read are those of the files of the spans of the methods. -/
theorem mem_pathsRead {table : SourceTable} {methods : List UInt64} {path : String} :
    path ∈ table.pathsRead methods ↔
      ∃ span ∈ table.mappings, span.nativeCode ∈ methods ∧ table.resolve span.file = path := by
  constructor
  · intro hpath
    obtain ⟨nativeCode, hcode, hpath⟩ := List.mem_flatMap.1 hpath
    obtain ⟨span, hspan, rfl⟩ := List.mem_map.1 hpath
    obtain ⟨hmapping, rfl⟩ := mem_spansOf.1 hspan
    exact ⟨span, hmapping, hcode, rfl⟩
  · rintro ⟨span, hspan, hcode, rfl⟩
    exact List.mem_flatMap.2
      ⟨_, hcode, List.mem_map.2 ⟨span, mem_spansOf.2 ⟨hspan, rfl⟩, rfl⟩⟩

/-- On a disk the lines are right if no span names its file as only a directory can be named. -/
theorem givesLines_of_disk (table : SourceTable) (disk : Disk)
    (hfiles : ∀ span ∈ table.mappings, Disk.namesDirectory (table.resolve span.file) = false)
    (earlier : List UInt64) (nativeCode : UInt64) :
    table.GivesLines nativeCode (fileLine? disk.text?)
      ((table.readLines disk.text? nativeCode).run (table.cacheAfter disk.text? earlier)).1 := by
  apply (table.givesLines_readLines disk.text? earlier nativeCode).congr
  rintro file number ⟨span, hspan, hcovers⟩
  obtain ⟨hcode, rfl, -⟩ := SourceMapping.coversLine_iff.1 hcovers
  have hread : table.resolve span.file ∈ table.pathsRead (earlier ++ [nativeCode]) :=
    mem_pathsRead.2 ⟨span, hspan, by simp [hcode], rfl⟩
  obtain ⟨first, hfirst, -, hpath⟩ := mem_pathsRead.1 (firstEqual_mem hread)
  unfold fileLine? firstText
  rw [disk.text?_eq_of_key_eq (key_firstEqual _ _) (hpath ▸ hfiles first hfirst)
    (hfiles span hspan)]

namespace TrailingSlash

/-- A disk with one file. -/
def disk (bytes : ByteArray) : Disk := ⟨["home"], [(["home", "root", "P.cs"], bytes)]⟩

/-- Two spans of a method, both of one line. -/
def table (first second : String) : SourceTable where
  mappings := [⟨1, 1, first, 1, none, none, none⟩, ⟨1, 2, second, 1, none, none, none⟩]
  root := some "root"

/-- The file has its text under its own name. -/
theorem text?_disk (text : String) : (disk text.toUTF8).text? "root/P.cs" = some text := by
  show String.fromUTF8? text.toUTF8 = some text
  exact dif_pos text.isValidUTF8

/-- Under the name of a directory the file has no text. -/
theorem text?_disk_slash (bytes : ByteArray) : (disk bytes).text? "root/P.cs/" = none := rfl

/-- Both spans belong to the method. -/
theorem spansOf_table (first second : String) :
    (table first second).spansOf 1 = (table first second).mappings := by
  apply List.mergeSort_of_pairwise
  simp [table]

/-- If the paths of the spans are equal, both spans are given the text of the first path. -/
theorem linesFor_table {contents : String → Option String} {first second : String}
    {text : Option String}
    (hequal : Path.key (Path.join "root" first) = Path.key (Path.join "root" second))
    (htext : contents (Path.join "root" first) = text) :
    (table first second).linesFor contents 1 =
      (firstByKey place ((table first second).linesWith (fun _ => text)
        (table first second).mappings)).map Prod.snd := by
  obtain ⟨cache, hrun, -⟩ :=
    (table first second).run_readLines (FileCache.holdsFirst_empty contents) 1
  have hgiven : ∀ path, Path.key (Path.join "root" first) = Path.key path →
      firstText contents [Path.join "root" first, Path.join "root" second] path = text := by
    intro path hkey
    unfold firstText firstEqual
    rw [List.find?_cons_of_pos (by simpa using hkey)]
    exact htext
  have hlines : (table first second).linesWith
      (firstText contents [Path.join "root" first, Path.join "root" second])
      (table first second).mappings =
        (table first second).linesWith (fun _ => text) (table first second).mappings := by
    simp only [linesWith, table, resolve, List.flatMap_cons, List.flatMap_nil, hgiven _ rfl,
      hgiven _ hequal]
  unfold linesFor
  rw [hrun, spansOf_table, ← hlines]
  rfl

/-- If the first path cannot be read, there are no lines, not even for the second one. -/
theorem linesFor_slash_first {contents : String → Option String}
    (h : contents "root/P.cs/" = none) : (table "P.cs/" "P.cs").linesFor contents 1 = [] := by
  rw [linesFor_table (by decide) h]
  decide

/-- If the first path can be read, there are lines for both. -/
theorem linesFor_slash_second {contents : String → Option String}
    (h : contents "root/P.cs" = some "one\n") :
    (table "P.cs" "P.cs/").linesFor contents 1 =
      [⟨1, "root/P.cs", 1, "one\n^^^"⟩, ⟨2, "root/P.cs/", 1, "one\n^^^"⟩] := by
  rw [linesFor_table (by decide) h]
  decide

end TrailingSlash

open TrailingSlash in
/-- A path with a slash at the end can only name a directory, so a file cannot be read by it.  Named
first, it keeps the file from being read by its own path, and named second, it gets the lines of the
file. -/
theorem linesFor_confuses_equal_paths :
    let contents := (disk "one\n".toUTF8).text?
    (table "P.cs/" "P.cs").linesFor contents 1 = [] ∧
    ¬ (table "P.cs/" "P.cs").GivesLines 1 (fileLine? contents)
      ((table "P.cs/" "P.cs").linesFor contents 1) ∧
    (table "P.cs" "P.cs/").linesFor contents 1 =
      [⟨1, "root/P.cs", 1, "one\n^^^"⟩, ⟨2, "root/P.cs/", 1, "one\n^^^"⟩] ∧
    ¬ (table "P.cs" "P.cs/").GivesLines 1 (fileLine? contents)
      ((table "P.cs" "P.cs/").linesFor contents 1) := by
  intro contents
  have hslash : contents "root/P.cs/" = none := text?_disk_slash _
  have hfile : contents "root/P.cs" = some "one\n" := text?_disk "one\n"
  have hlost := linesFor_slash_first hslash
  have hfound := linesFor_slash_second hfile
  refine ⟨hlost, ?_, hfound, ?_⟩
  · rw [hlost]
    intro h
    have hcovers : (table "P.cs/" "P.cs").Covers 1 "P.cs" 1 :=
      ⟨⟨1, 2, "P.cs", 1, none, none, none⟩, by decide, by decide⟩
    have hcontent : fileLine? contents ((table "P.cs/" "P.cs").resolve "P.cs") 1 = some "one" := by
      show (contents "root/P.cs").bind _ = _
      rw [hfile]
      decide
    obtain ⟨line, hline, -⟩ := h.exists_line hcovers hcontent
    cases hline
  · rw [hfound]
    intro h
    obtain ⟨content, hcontent, -⟩ := h.exists_content (List.mem_cons_of_mem _ List.mem_cons_self)
    have hnone : fileLine? contents "root/P.cs/" 1 = none := by
      unfold fileLine?
      rw [hslash]
      rfl
    rw [hnone] at hcontent
    cases hcontent

end SourceTable

end CodeListing
