import CodeListing.Files.Path

/-!
# Files

What a program can ask of the machine it runs on, for any kind of effect.
-/

set_option autoImplicit false

namespace CodeListing

/-- Why a file cannot be used. -/
inductive FileFault where
  | notFound
  | notDirectory
  | isDirectory
  /-- The bytes of the file are no UTF-8 text. -/
  | notText
  | other (message : String)
  deriving DecidableEq, Repr

/-- The text of the reason. -/
def FileFault.message : FileFault → String
  | .notFound => "No such file or directory (os error 2)"
  | .notDirectory => "Not a directory (os error 20)"
  | .isDirectory => "Is a directory (os error 21)"
  | .notText => "stream did not contain valid UTF-8"
  | .other message => message

/-- What a program can ask of its machine. -/
structure Host (m : Type → Type) where
  /-- The path of an existing file without detours. -/
  canonical? : String → m (Option String)
  /-- The directory that relative paths belong to. -/
  directory : m String
  readBytes : String → m (Except FileFault ByteArray)
  writeText : String → String → m (Except FileFault Unit)
  /-- The current time. -/
  now : m String

namespace Host

variable {m : Type → Type} [Monad m]

/-- Reads a file as text. -/
def readText (host : Host m) (path : String) : m (Except FileFault String) := do
  match ← host.readBytes path with
  | .error fault => return .error fault
  | .ok bytes =>
    match String.fromUTF8? bytes with
    | some text => return .ok text
    | none => return .error .notText

/-- The canonical path of a file; one that does not exist is taken relative to the directory. -/
def locate (host : Host m) (path : String) : m String := do
  match ← host.canonical? path with
  | some canonical => return canonical
  | none =>
    if Path.isAbsolute path then return path
    else return Path.join (← host.directory) path

/-- The texts of those of the files that can be read. -/
def readTexts (host : Host m) : List String → m (List (String × String))
  | [] => return []
  | path :: rest => do
    let text ← host.readText path
    let others ← host.readTexts rest
    match text with
    | .ok text => return (path, text) :: others
    | .error _ => return others

end Host

end CodeListing
