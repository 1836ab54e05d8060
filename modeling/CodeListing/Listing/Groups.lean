import CodeListing.FirstByKey
import CodeListing.Listing.Basic

/-!
# Grouping entries

Without source lines all instructions make one group.  With source lines there is one group for each
address, in ascending order, the source lines in front.
-/

set_option autoImplicit false

namespace CodeListing.Listing

/-- The entries of a method with source lines: each source line once, and all sorted by address with
source lines in front. -/
def sortedEntries (instructions : List Instruction) (source : List SourceLine) : List Entry :=
  let lines := (firstByKey SourceLine.key source).map Entry.source
  (lines ++ instructions.map Entry.instruction).mergeSort fun a b => a.address ≤ b.address

/-- The groups of entries of a method. -/
def groupsOf (instructions : List Instruction) (source : List SourceLine) : List EntryGroup :=
  if source.isEmpty then [⟨instructions.map Entry.instruction⟩]
  else
    ((sortedEntries instructions source).splitBy fun a b => a.address == b.address).map
      EntryGroup.mk

end CodeListing.Listing
