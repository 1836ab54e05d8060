import CodeListing.Document.Decoder
import CodeListing.Error
import CodeListing.Text.Blank
import CodeListing.Text.Search

/-!
# Runtime versions

A version has up to three components.  White space, leading letters `v` and a suffix that begins
with a minus or a plus sign do not count.
-/

set_option autoImplicit false

namespace CodeListing

/-- The version of the managed runtime, ordered by its components from left to right. -/
structure RuntimeVersion where
  major : UInt32
  minor : UInt32
  patch : UInt32
  deriving DecidableEq, Repr, Ord

namespace RuntimeVersion

/-- The characters that carry the components: no white space around, no leading `v`, no suffix. -/
def core (text : List Char) : List Char :=
  ((Text.trimChars text).dropWhile (· == 'v')).takeWhile fun c => !(c == '-' || c == '+')

/-- One component; one that is missing is zero. -/
def part? (whole : String) (name : VersionPart) : Option (List Char) → Except Error UInt32
  | none => .ok 0
  | some digits =>
    match Text.readWord? digits with
    | some n => .ok n
    | none => .error (.invalidConfiguration (.badVersionPart name whole))

/-- The version that a text gives. -/
def ofText (text : String) : Except Error RuntimeVersion := do
  let parts := Text.splitAt (· == '.') (core text.toList)
  let major ← part? text .major parts[0]?
  let minor ← part? text .minor parts[1]?
  let patch ← part? text .patch parts[2]?
  return { major, minor, patch }

/-- The version with all three components. -/
def text (version : RuntimeVersion) : String :=
  Text.decimal version.major.toNat ++ "." ++ Text.decimal version.minor.toNat ++ "." ++
    Text.decimal version.patch.toNat

/-- The version as a document. -/
def toDocument (version : RuntimeVersion) : Document :=
  .string version.text

/-- How versions are read off documents. -/
def decoder : Document.Decoder RuntimeVersion :=
  .ofText ofText fun e => e.message

/-- The version that a document gives. -/
def ofDocument? : Document → Document.Decoded RuntimeVersion := decoder.read

end RuntimeVersion

end CodeListing
