import CodeListing.Files.Host

/-!
# Files in memory

A disk is a set of files under their absolute paths and a current directory.  A directory exists if
it leads to a file or to the current directory.
-/

set_option autoImplicit false

namespace CodeListing

/-- Files by the components of their absolute paths, and the current directory. -/
structure Disk where
  directory : List String
  files : List (List String × ByteArray)

namespace Disk

/-- The content of a file. -/
def content? (disk : Disk) (path : List String) : Option ByteArray :=
  disk.files.lookup path

/-- The path is a directory. -/
def isDirectory (disk : Disk) (path : List String) : Bool :=
  path.isPrefixOf disk.directory ||
    disk.files.any fun file => path.length < file.1.length && path.isPrefixOf file.1

/-- Goes down from a directory that exists. -/
def walk (disk : Disk) (here : List String) : List String → Except FileFault (List String)
  | [] => .ok here
  | name :: rest =>
    if name == ".." then disk.walk here.dropLast rest
    else
      let next := here ++ [name]
      if disk.isDirectory next then disk.walk next rest
      else if (disk.content? next).isNone then .error .notFound
      else if rest.isEmpty then .ok next
      else .error .notDirectory

/-- Where a path starts. -/
def origin (disk : Disk) (path : String) : List String :=
  if Path.isAbsolute path then [] else disk.directory

/-- The path can only name a directory. -/
def namesDirectory (path : String) : Bool :=
  match (Text.splitAt (· == '/') path.toList).getLast? with
  | some last => last.isEmpty || last == ['.'] || last == ['.', '.']
  | none => false

/-- The components of what a path names. -/
def resolve (disk : Disk) (path : String) : Except FileFault (List String) :=
  if path.isEmpty then .error .notFound
  else do
    let found ← disk.walk (disk.origin path) (Path.components path)
    if namesDirectory path && !disk.isDirectory found then .error .notDirectory else .ok found

/-- The text of an absolute path. -/
def pathText (components : List String) : String :=
  "/" ++ String.intercalate "/" components

/-- Reads a file. -/
def read (disk : Disk) (path : String) : Except FileFault ByteArray := do
  let found ← disk.resolve path
  match disk.content? found with
  | some bytes => .ok bytes
  | none => .error .isDirectory

/-- The text of a file that can be read. -/
def text? (disk : Disk) (path : String) : Option String :=
  match disk.read path with
  | .ok bytes => String.fromUTF8? bytes
  | .error _ => none

/-- Writes a file into a directory that exists. -/
def write (disk : Disk) (path : String) (bytes : ByteArray) : Except FileFault Disk := do
  let components := Path.components path
  let parent ← disk.walk (disk.origin path) components.dropLast
  match components.getLast? with
  | none => .error (if path.isEmpty then .notFound else .isDirectory)
  | some name =>
    let target := parent ++ [name]
    if !disk.isDirectory parent then .error .notDirectory
    else if namesDirectory path || disk.isDirectory target then .error .isDirectory
    else .ok { disk with files := (target, bytes) :: disk.files.filter (·.1 != target) }

/-- The machine whose files are on the disk and whose clock stands still. -/
def host (time : String) : Host (StateM Disk) where
  canonical? := fun path => do
    match (← get).resolve path with
    | .ok found => return some (pathText found)
    | .error _ => return none
  directory := return pathText (← get).directory
  readBytes := fun path => return (← get).read path
  writeText := fun path text => do
    match (← get).write path text.toUTF8 with
    | .ok disk => set disk; return .ok ()
    | .error fault => return .error fault
  now := return time

end Disk

end CodeListing
