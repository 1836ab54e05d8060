import CodeListing.Text.Numeral

/-!
# What stops a run

Problems of a single method are part of its listing; the errors here end a whole run or refuse its
input.
-/

set_option autoImplicit false

namespace CodeListing

/-- The parts of a runtime version. -/
inductive VersionPart where
  | major
  | minor
  | patch
  deriving DecidableEq, Repr

/-- The name of the part. -/
def VersionPart.name : VersionPart → String
  | .major => "major"
  | .minor => "minor"
  | .patch => "patch"

/-- Why a configuration is refused. -/
inductive Misconfiguration where
  | emptyArchitecture
  | badVersionPart (part : VersionPart) (text : String)
  | zeroReferenceThreshold
  | zeroMinimumAddress
  | blankFilter
  | largePageBeforeReuse (largePageMajor reuseMajor : UInt32)
  | negativeDepth (depth : Int)
  | depthTooLarge (depth : Int)
  | noFilter
  deriving DecidableEq, Repr

/-- The text of the reason. -/
def Misconfiguration.message : Misconfiguration → String
  | .emptyArchitecture => "architecture must not be empty"
  | .badVersionPart part text =>
    "invalid " ++ part.name ++ " component in runtime version '" ++ text ++ "'"
  | .zeroReferenceThreshold => "reference threshold must be greater than zero"
  | .zeroMinimumAddress => "minimum valid address must be greater than zero"
  | .blankFilter => "filter patterns must not be blank"
  | .largePageBeforeReuse largePageMajor reuseMajor =>
    "large stub page version " ++ Text.decimal largePageMajor.toNat ++
      " precedes stub reuse version " ++ Text.decimal reuseMajor.toNat
  | .negativeDepth depth => "max depth must be non-negative, got " ++ Text.signedDecimal depth
  | .depthTooLarge depth => "max depth " ++ Text.signedDecimal depth ++ " is too large"
  | .noFilter => "filter mode needs at least one pattern"

/-- Why a snapshot is refused. -/
inductive SnapshotFault where
  | overlappingRegions (first second : UInt64)
  | unknownSourceMethod (nativeCode : UInt64)
  deriving DecidableEq, Repr

/-- The text of the reason. -/
def SnapshotFault.message : SnapshotFault → String
  | .overlappingRegions first second =>
    "memory regions at " ++ Text.upperHexLiteral first.toNat ++ " and " ++
      Text.upperHexLiteral second.toNat ++ " overlap"
  | .unknownSourceMethod nativeCode =>
    "source mapping refers to unknown function at " ++ Text.upperHexLiteral nativeCode.toNat

/-- What stops a run. -/
inductive Error where
  | unsupportedArchitecture (name : String)
  | invalidConfiguration (reason : Misconfiguration)
  | shortRead (address : UInt64) (expected actual : Nat)
  /-- A decoder could not be set up. -/
  | decoder (reason : String)
  | snapshot (fault : SnapshotFault)
  deriving DecidableEq, Repr

/-- The text of the error. -/
def Error.message : Error → String
  | .unsupportedArchitecture name => "Unsupported architecture: " ++ name
  | .invalidConfiguration reason => "Invalid configuration: " ++ reason.message
  | .shortRead address expected actual =>
    "Short read at " ++ Text.upperHexLiteral address.toNat ++ ": expected " ++
      Text.decimal expected ++ " bytes, got " ++ Text.decimal actual
  | .decoder reason => "Decoder error: capstone init failed: " ++ reason
  | .snapshot fault => "Snapshot error: " ++ fault.message

end CodeListing
