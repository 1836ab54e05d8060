import CodeListing.Text.Search

/-!
# Paths

A path is a text whose components are divided by slashes.
-/

set_option autoImplicit false

namespace CodeListing.Path

/-- The path starts at the root of all files. -/
def isAbsolute (path : String) : Bool :=
  path.toList.head? == some '/'

/-- A path relative to a directory; an absolute path stays as it is. -/
def join (directory path : String) : String :=
  if isAbsolute path || directory.isEmpty then path
  else if directory.toList.getLast? == some '/' then directory ++ path
  else directory ++ "/" ++ path

/-- The components that name something: no empty ones and no single dots. -/
def components (path : String) : List String :=
  (Text.splitAt (· == '/') path.toList).filterMap fun part =>
    if part.isEmpty || part == ['.'] then none else some (String.ofList part)

/-- The path starts with a component that is a single dot. -/
def startsHere (path : String) : Bool :=
  (Text.splitAt (· == '/') path.toList).head? == some ['.']

/-- What two paths have in common that count as equal.  Doubled slashes, a slash at the end and
single dots behind the first component make no difference. -/
structure Key where
  isAbsolute : Bool
  startsHere : Bool
  components : List String
  deriving DecidableEq, Repr

/-- What the path is compared by. -/
def key (path : String) : Key where
  isAbsolute := isAbsolute path
  startsHere := startsHere path
  components := components path

/-- The last component, unless it leads upwards. -/
def fileName? (path : String) : Option String :=
  (components path).getLast?.filter (· != "..")

/-- What follows the last dot of the file name, if something stands before that dot. -/
def extension? (path : String) : Option String := do
  let name ← fileName? path
  let parts := Text.splitAt (· == '.') name.toList
  let last ← parts.getLast?
  if parts.dropLast.isEmpty || parts.dropLast == [[]] then none else some (String.ofList last)

/-- The directory that holds what the path names. -/
def parent (path : String) : String :=
  let parts := (components path).dropLast
  let text := String.intercalate "/" parts
  if isAbsolute path then "/" ++ text else text

/-- The path names a YAML file. -/
def isYaml (path : String) : Bool :=
  match extension? path with
  | none => false
  | some name =>
    let lowered := String.ofList (name.toList.map Char.toLower)
    lowered == "yaml" || lowered == "yml"

end CodeListing.Path
