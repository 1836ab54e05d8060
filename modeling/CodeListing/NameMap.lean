import CodeListing.Document.Decoder
import CodeListing.Json.Lexeme

/-!
# Names of addresses

A map from addresses to names, in ascending order of the addresses.  The first name that is given to
an address stays.
-/

set_option autoImplicit false

namespace CodeListing

/-- The addresses of the entries ascend. -/
def Ascending (entries : List (UInt64 × String)) : Prop :=
  entries.Pairwise fun a b => a.1 < b.1

namespace NameMap

/-- Adds an entry in its place unless the address has a name. -/
def insertEntry (address : UInt64) (name : String) :
    List (UInt64 × String) → List (UInt64 × String)
  | [] => [(address, name)]
  | (a, n) :: rest =>
    if address < a then (address, name) :: (a, n) :: rest
    else if address = a then (a, n) :: rest
    else (a, n) :: insertEntry address name rest

/-- After an insertion there are the new entry and old ones. -/
theorem mem_insertEntry {address : UInt64} {name : String} {entries : List (UInt64 × String)}
    {entry : UInt64 × String} (h : entry ∈ insertEntry address name entries) :
    entry = (address, name) ∨ entry ∈ entries := by
  induction entries with
  | nil => simpa [insertEntry] using h
  | cons head rest ih =>
    obtain ⟨a, n⟩ := head
    simp only [insertEntry] at h
    split at h
    · simpa using h
    · split at h
      · exact Or.inr h
      · rcases List.mem_cons.1 h with h | h
        · exact Or.inr (by simp [h])
        · rcases ih h with h | h
          · exact Or.inl h
          · exact Or.inr (List.mem_cons_of_mem _ h)

/-- An insertion keeps the entries in ascending order. -/
theorem ascending_insertEntry (address : UInt64) (name : String)
    {entries : List (UInt64 × String)} (h : Ascending entries) :
    Ascending (insertEntry address name entries) := by
  induction entries with
  | nil => simp [insertEntry, Ascending]
  | cons head rest ih =>
    obtain ⟨a, n⟩ := head
    have hrest : Ascending rest := (List.pairwise_cons.1 h).2
    have habove := (List.pairwise_cons.1 h).1
    simp only [insertEntry]
    split
    · rename_i hlt
      refine List.pairwise_cons.2 ⟨?_, h⟩
      intro entry hentry
      rcases List.mem_cons.1 hentry with rfl | hentry
      · exact hlt
      · exact UInt64.lt_trans hlt (habove entry hentry)
    · split
      · exact h
      · rename_i hnlt hne
        refine List.pairwise_cons.2 ⟨?_, ih hrest⟩
        intro entry hentry
        rcases mem_insertEntry hentry with rfl | hentry
        · have h₁ : ¬ address.toNat < a.toNat := fun h => hnlt (UInt64.lt_iff_toNat_lt.2 h)
          have h₂ : address.toNat ≠ a.toNat := fun h => hne (UInt64.toNat_inj.1 h)
          exact UInt64.lt_iff_toNat_lt.2 (by simp only; omega)
        · exact habove entry hentry

/-- An address below all entries has no name. -/
theorem lookup_eq_none_of_lt {address : UInt64} {entries : List (UInt64 × String)}
    (h : ∀ entry ∈ entries, address < entry.1) : entries.lookup address = none := by
  induction entries with
  | nil => rfl
  | cons head rest ih =>
    obtain ⟨a, n⟩ := head
    have hlt : address < a := h (a, n) List.mem_cons_self
    have hne : (address == a) = false := beq_eq_false_iff_ne.2 (UInt64.ne_of_lt hlt)
    rw [List.lookup_cons, hne]
    exact ih fun entry hentry => h entry (List.mem_cons_of_mem _ hentry)

/-- A name that is looked up after an insertion is the one from before, and only an address without
name takes the new one. -/
theorem lookup_insertEntry (address other : UInt64) (name : String)
    {entries : List (UInt64 × String)} (h : Ascending entries) :
    (insertEntry address name entries).lookup other =
      (entries.lookup other).or (if other = address then some name else none) := by
  induction entries with
  | nil => by_cases hother : other = address <;> simp [insertEntry, hother]
  | cons head rest ih =>
    obtain ⟨a, n⟩ := head
    have hrest : Ascending rest := (List.pairwise_cons.1 h).2
    have habove := (List.pairwise_cons.1 h).1
    simp only [insertEntry]
    split
    · rename_i hlt
      by_cases hother : other = address
      · subst hother
        have hnone : ((a, n) :: rest).lookup other = none := by
          refine lookup_eq_none_of_lt fun entry hentry => ?_
          rcases List.mem_cons.1 hentry with rfl | hentry
          · exact hlt
          · exact UInt64.lt_trans hlt (habove entry hentry)
        rw [hnone]
        simp
      · have hne : (other == address) = false := beq_eq_false_iff_ne.2 hother
        rw [List.lookup_cons, hne, if_neg hother, Option.or_none]
    · split
      · rename_i heq
        subst heq
        by_cases hother : other = address
        · simp [hother]
        · simp [hother]
      · rename_i hne
        by_cases hother : other = a
        · subst hother
          simp
        · have hne' : (other == a) = false := beq_eq_false_iff_ne.2 hother
          rw [List.lookup_cons, hne', List.lookup_cons, hne']
          exact ih hrest

end NameMap

/-- A map from addresses to names. -/
structure NameMap where
  entries : List (UInt64 × String)
  ascending : Ascending entries

namespace NameMap

/-- No names. -/
def empty : NameMap := ⟨[], List.Pairwise.nil⟩

/-- The name of an address. -/
def get? (names : NameMap) (address : UInt64) : Option String :=
  names.entries.lookup address

/-- The address has a name. -/
def contains (names : NameMap) (address : UInt64) : Bool :=
  (names.get? address).isSome

/-- Names an address unless it has a name already. -/
def insert (names : NameMap) (address : UInt64) (name : String) : NameMap :=
  ⟨insertEntry address name names.entries, ascending_insertEntry address name names.ascending⟩

/-- The first name that is given to an address stays. -/
theorem get?_insert (names : NameMap) (address other : UInt64) (name : String) :
    (names.insert address name).get? other =
      (names.get? other).or (if other = address then some name else none) :=
  lookup_insertEntry address other name names.ascending

/-- The number of names. -/
def size (names : NameMap) : Nat := names.entries.length

/-- The map of entries in any order; of several names for one address the last one counts. -/
def ofEntries (entries : List (UInt64 × String)) : NameMap :=
  entries.foldr (fun (address, name) names => names.insert address name) empty

/-- The names as a document whose keys are the addresses in decimal. -/
def toDocument (names : NameMap) : Document :=
  .object (names.entries.map fun (address, name) => (Text.decimal address.toNat, .string name))

/-- The number that a key starts with, and whether anything stands behind it. -/
def keyNumber? (key : String) : Document.Decoded (Document × Bool) :=
  let number (negative : Bool) (first : Char) (rest : List Char) :
      Document.Decoded (Document × Bool) :=
    match Json.numberBody negative first rest with
    | .error e => .error (.refused e.message)
    | .ok (n, behind) => .ok (.number n, !behind.1.isEmpty)
  match key.toList with
  | '-' :: [] => .error (.refused Json.ParseError.endInValue.message)
  | '-' :: first :: rest => number true first rest
  | first :: rest => if first.isDigit then number false first rest else .error .keyNotNumber
  | [] => .error .keyNotNumber

/-- The address that a key of a document stands for. -/
def keyAddress? (key : String) : Document.Decoded UInt64 := do
  let (number, goesOn) ← keyNumber? key
  let address ← Document.Decoder.address.decode number
  if goesOn then .error .keyNotNumber else .ok address

/-- The entries that the members of a document give. -/
def entriesOf? : List (String × Document) → Document.Decoded (List (UInt64 × String))
  | [] => .ok []
  | (key, value) :: rest => do
    let address ← keyAddress? key
    let name ← value.text?
    let entries ← entriesOf? rest
    return (address, name) :: entries

/-- The entries that a document gives. -/
def documentEntries? : Document → Document.Decoded (List (UInt64 × String))
  | .object members => entriesOf? members
  | other => .error (.wrongKind other.describe "a map")

/-- How names are read off documents. -/
def decoder : Document.Decoder NameMap where
  shape := .custom fun document => (documentEntries? document).map fun _ => ()
  decode document := (documentEntries? document).map ofEntries

/-- The names that a document gives. -/
def ofDocument? : Document → Document.Decoded NameMap := decoder.read

end NameMap

end CodeListing
