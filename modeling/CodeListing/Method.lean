import CodeListing.CodeRange
import CodeListing.Text.Search

/-!
# Methods

What the runtime knows about one method.  Its identity is the address of its compiled code and never
its name: overloads share the start of a signature and instantiations share a name.
-/

set_option autoImplicit false

namespace CodeListing

/-- Whether the runtime has produced machine code for a method. -/
inductive Compilation where
  | none
  | jitted
  | readyToRun
  deriving DecidableEq, Repr

namespace Compilation

/-- The names of the states in documents. -/
def variants : List (String × Compilation) :=
  [("none", .none), ("jitted", .jitted), ("ready_to_run", .readyToRun)]

/-- The name of the state. -/
def name : Compilation → String
  | .none => "none"
  | .jitted => "jitted"
  | .readyToRun => "ready_to_run"

end Compilation

/-- What the runtime knows about one method. -/
structure Method where
  signature : String
  typeName : String
  nativeCode : UInt64
  descriptor : UInt64
  compilation : Compilation
  isPInvoke : Bool
  hasIl : Bool
  codeRanges : List CodeRange
  deriving DecidableEq, Repr

namespace Method

/-- The address of the compiled code, which tells methods apart. -/
def identity (method : Method) : UInt64 := method.nativeCode

/-- The signature, qualified with the declaring type if it is a bare name. -/
def displayName (method : Method) : String :=
  if method.signature.toList.contains '.' || method.typeName.isEmpty then method.signature
  else method.typeName ++ "." ++ method.signature

/-- The address lies in the compiled code. -/
def contains (method : Method) (address : UInt64) : Bool :=
  method.codeRanges.any (·.contains address)

/-- Some machine code was produced. -/
def isCompiled (method : Method) : Bool :=
  method.compilation != .none

/-- Why there is no code to show, if there is none. -/
def unavailableReason? (method : Method) : Option String :=
  if method.isPInvoke then some "PInvoke method"
  else if !method.hasIl then some "Extern method"
  else if method.compilation == .none then some "Method was not JITted yet."
  else if method.nativeCode == 0 then some "No valid code ranges"
  else Option.none

/-- The method as a document. -/
def toDocument (method : Method) : Document :=
  .object [
    ("signature", .string method.signature),
    ("type_name", .string method.typeName),
    ("native_code", .ofAddress method.nativeCode),
    ("method_descriptor", .ofAddress method.descriptor),
    ("compilation", .string method.compilation.name),
    ("is_pinvoke", .bool method.isPInvoke),
    ("has_il", .bool method.hasIl),
    ("code_ranges", .ofList CodeRange.toDocument method.codeRanges)]

/-- How methods are read off documents. -/
def decoder : Document.Decoder Method :=
  .record "FunctionHandle" <|
    mk <$> .required "signature" .text
      <*> .withDefault "type_name" "" .text
      <*> .required "native_code" .address
      <*> .withDefault "method_descriptor" 0 .address
      <*> .withDefault "compilation" .none (.variant Compilation.variants)
      <*> .withDefault "is_pinvoke" false .flag
      <*> .withDefault "has_il" true .flag
      <*> .withDefault "code_ranges" [] (.list CodeRange.decoder)

/-- The method that a document gives. -/
def ofDocument? : Document → Document.Decoded Method := decoder.read

end Method

end CodeListing
