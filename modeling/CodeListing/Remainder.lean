/-!
# What is left behind a part that was read

A reader takes a part from the front of a row and returns what is left of it.  The types say that
what is left is shorter, or at least no longer, than the row; a reader that calls itself on it
therefore ends.
-/

set_option autoImplicit false

namespace CodeListing

variable {α : Type} {items : List α}

/-- What is left behind a part that is not empty: fewer items than there were. -/
abbrev Rest (items : List α) := { rest : List α // rest.length < items.length }

/-- What is left behind a part that may be empty: no more items than there were. -/
abbrev Tail (items : List α) := { rest : List α // rest.length ≤ items.length }

/-- All of the row, behind a part that is empty. -/
def Tail.whole (items : List α) : Tail items :=
  ⟨items, Nat.le_refl _⟩

/-- What is left behind the first item. -/
def Rest.behind (first : α) (others : List α) : Rest (first :: others) :=
  ⟨others, Nat.lt_succ_self _⟩

/-- Fewer items are no more items. -/
def Rest.toTail (rest : Rest items) : Tail items :=
  ⟨rest.1, Nat.le_of_lt rest.2⟩

/-- What is left behind two parts. -/
def Rest.trans (rest : Rest items) (further : Rest rest.1) : Rest items :=
  ⟨further.1, Nat.lt_trans further.2 rest.2⟩

/-- What is left behind two parts, the second of which may be empty. -/
def Rest.transTail (rest : Rest items) (further : Tail rest.1) : Rest items :=
  ⟨further.1, Nat.lt_of_le_of_lt further.2 rest.2⟩

/-- What is left behind two parts, both of which may be empty. -/
def Tail.trans (tail : Tail items) (further : Tail tail.1) : Tail items :=
  ⟨further.1, Nat.le_trans further.2 tail.2⟩

/-- What is left behind two parts, the first of which may be empty. -/
def Tail.transRest (tail : Tail items) (further : Rest tail.1) : Rest items :=
  ⟨further.1, Nat.lt_of_lt_of_le further.2 tail.2⟩

end CodeListing
