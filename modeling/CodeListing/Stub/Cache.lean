import CodeListing.Stub.Template
import CodeListing.Target.RuntimeVersion

/-!
# Templates that were built before

Templates are built once for each target and kept.
-/

set_option autoImplicit false

namespace CodeListing.Stub

/-- What the templates of a target depend on. -/
structure TargetKey where
  architecture : Architecture
  version : RuntimeVersion
  pageSize : UInt64
  deriving DecidableEq, Repr

/-- The templates built so far, one set for each target. -/
structure Cache where
  entries : List (TargetKey × List StubTemplate) := []
  deriving Repr

namespace Cache

/-- The templates kept for a target. -/
def get? (cache : Cache) (key : TargetKey) : Option (List StubTemplate) :=
  cache.entries.lookup key

/-- The templates kept for a target, or those that are built now and kept. -/
def getOrBuild (cache : Cache) (key : TargetKey) (build : Unit → List StubTemplate) :
    List StubTemplate × Cache :=
  match cache.get? key with
  | some templates => (templates, cache)
  | none =>
    let templates := build ()
    (templates, ⟨(key, templates) :: cache.entries⟩)

/-- The number of targets. -/
def size (cache : Cache) : Nat := cache.entries.length

end Cache

end CodeListing.Stub
