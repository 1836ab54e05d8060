import CodeListing.Files.Path
import CodeListing.FirstByKey
import CodeListing.Source.Line
import CodeListing.Source.Mapping

/-!
# The source lines of a method

The lines of all spans of a method, each line once, in the order of the code they belong to, with a
row of carets under the columns of the span.  A file is read when the first line of it is asked for,
and it is not read again for an equal path.
-/

set_option autoImplicit false

namespace CodeListing

/-- Carets under the columns from `start` up to `stop`, counted from zero and cut to the line;
before them blanks, and tabs where the line has tabs. -/
def caretChars (line : List Char) (start stop : Option Nat) : List Char :=
  let stop := min (stop.getD line.length) line.length
  let start := min (start.getD 0) stop
  (line.take start).map (fun c => if c == '\t' then '\t' else ' ') ++
    List.replicate (stop - start) '^'

/-- Carets under a part of a line. -/
def caretLine (line : String) (start stop : Option Nat) : String :=
  String.ofList (caretChars line.toList start stop)

/-- The files that were read, by what their paths are compared by, each with its text if it could be
read. -/
structure FileCache where
  entries : List (Path.Key × Option String) := []

namespace FileCache

/-- What is known of the file of a path. -/
def get? (cache : FileCache) (path : String) : Option (Option String) :=
  cache.entries.lookup (Path.key path)

/-- The text of a file, given the texts of the files that can be read: what is known of it, or what
is read now and kept. -/
def read (contents : String → Option String) (path : String) : StateM FileCache (Option String) :=
  fun cache =>
    match cache.get? path with
    | some text => (text, cache)
    | none => (contents path, ⟨(Path.key path, contents path) :: cache.entries⟩)

end FileCache

/-- The source spans of a snapshot and the directory that relative files belong to. -/
structure SourceTable where
  mappings : List SourceMapping
  root : Option String := none

namespace SourceTable

/-- The file of a mapping, in the directory if it is relative. -/
def resolve (table : SourceTable) (file : String) : String :=
  match table.root with
  | some root => Path.join root file
  | none => file

/-- The files that the mappings refer to. -/
def files (table : SourceTable) : List String :=
  firstByKey id (table.mappings.map fun mapping => table.resolve mapping.file)

/-- The spans of a method in the order of their addresses. -/
def spansOf (table : SourceTable) (nativeCode : UInt64) : List SourceMapping :=
  (table.mappings.filter (·.nativeCode == nativeCode)).mergeSort fun a b => a.address ≤ b.address

/-- A column that counts from one as one that counts from zero. -/
def columnIndex (column : UInt32) : Nat := column.toNat - 1

/-- A line of a span with its carets: the first column counts on the first line only, and the last
column on the last line only. -/
def renderLine (table : SourceTable) (span : SourceMapping) (number : UInt32) (text : String) :
    SourceLine :=
  let start := if number == span.lineStart then span.columnStart.map columnIndex else none
  let stop := if number == span.lastLine then span.columnEnd.map columnIndex else none
  { address := span.address
    file := table.resolve span.file
    number := number
    text := text ++ "\n" ++ caretLine text start stop }

/-- The lines of a text that a span covers, with their numbers, which count from one. -/
def coveredLines (span : SourceMapping) (text : String) : List (String × Nat) :=
  ((Text.lines text).zipIdx 1).filter fun (_, number) => span.covers number

/-- The lines of a span, given the text of its file, each with the file as the span names it.  A
line that does not exist is left out. -/
def linesOfText (table : SourceTable) (span : SourceMapping) :
    Option String → List (String × SourceLine)
  | none => []
  | some text =>
    (coveredLines span text).map fun (line, number) =>
      (span.file, table.renderLine span (UInt32.ofNat number) line)

/-- Which line of which file it is, the file as the span names it. -/
def place (item : String × SourceLine) : String × UInt32 := (item.1, item.2.number)

/-- The lines of spans, one span after the other, given the texts of the files that can be read. -/
def linesOfSpans (table : SourceTable) (contents : String → Option String) :
    List SourceMapping → StateM FileCache (List (String × SourceLine))
  | [] => return []
  | span :: rest => do
    let text ← FileCache.read contents (table.resolve span.file)
    let others ← table.linesOfSpans contents rest
    return table.linesOfText span text ++ others

/-- The source lines of a method, given the texts of the files that can be read: each line of each
file only for the first span that covers it. -/
def readLines (table : SourceTable) (contents : String → Option String) (nativeCode : UInt64) :
    StateM FileCache (List SourceLine) := do
  let lines ← table.linesOfSpans contents (table.spansOf nativeCode)
  return (firstByKey place lines).map Prod.snd

/-- The source lines of several methods, one method after the other. -/
def readLinesOfAll (table : SourceTable) (contents : String → Option String) :
    List UInt64 → StateM FileCache (List (List SourceLine))
  | [] => return []
  | nativeCode :: rest => do
    let lines ← table.readLines contents nativeCode
    let others ← table.readLinesOfAll contents rest
    return lines :: others

/-- The source lines of a method when no file was read before. -/
def linesFor (table : SourceTable) (contents : String → Option String) (nativeCode : UInt64) :
    List SourceLine :=
  ((table.readLines contents nativeCode).run {}).1

end SourceTable

end CodeListing
