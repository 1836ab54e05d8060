import CodeListing.Digest.Sha256
import CodeListing.Files.Host
import CodeListing.Json.Reader
import CodeListing.Settings
import CodeListing.Snapshot.Basic
import CodeListing.Yaml.Reader

/-!
# Loading snapshots and settings

A file whose name ends in `.yaml` or `.yml` holds YAML, and every other file JSON.
-/

set_option autoImplicit false

namespace CodeListing

/-- Why a file could not be loaded. -/
inductive LoadCause where
  | file (fault : FileFault)
  | json (error : Json.ReadError)
  /-- The text is no YAML, or not for a value of the wanted type. -/
  | yaml
  deriving DecidableEq, Repr

/-- The text of the reason. -/
def LoadCause.message : LoadCause → String
  | .file fault => fault.message
  | .json error => error.message
  | .yaml => "the text is not readable as YAML"

/-- What could not be done with which file, and why. -/
structure LoadError where
  task : String
  cause : LoadCause
  deriving DecidableEq, Repr

/-- The value that a text describes. -/
def decodeText {α : Type} (decoder : Document.Decoder α) (isYaml : Bool) (text : String) :
    Except LoadCause α :=
  if isYaml then
    match Yaml.read? decoder text with
    | some a => .ok a
    | none => .error .yaml
  else
    match Json.read decoder text with
    | .ok a => .ok a
    | .error e => .error (.json e)

namespace Host

variable {m : Type → Type} [Monad m]

/-- Loads a value of the named kind from a JSON or YAML file. -/
def load {α : Type} (host : Host m) (kind : String) (decoder : Document.Decoder α)
    (path : String) : m (Except LoadError α) := do
  match ← host.readText path with
  | .error fault => return .error ⟨"Failed to read " ++ kind ++ " at " ++ path, .file fault⟩
  | .ok text =>
    let isYaml := Path.isYaml path
    match decodeText decoder isYaml text with
    | .ok a => return .ok a
    | .error cause =>
      let format := if isYaml then "YAML" else "JSON"
      return .error ⟨"Failed to parse " ++ kind ++ " " ++ format ++ " at " ++ path, cause⟩

/-- Loads a snapshot. -/
def loadSnapshot (host : Host m) (path : String) : m (Except LoadError Snapshot) :=
  host.load "snapshot" Snapshot.decoder path

/-- Loads settings, which are not checked yet. -/
def loadSettings (host : Host m) (path : String) : m (Except LoadError Settings) :=
  host.load "settings" Settings.decoder path

/-- The digest of a file. -/
def digest (host : Host m) (path : String) : m (Except LoadError String) := do
  match ← host.readBytes path with
  | .ok bytes => return .ok (Sha256.digest bytes.toList)
  | .error fault =>
    return .error ⟨"Failed to open snapshot for hashing: " ++ path, .file fault⟩

end Host

end CodeListing
