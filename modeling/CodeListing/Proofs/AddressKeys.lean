import CodeListing.Command.Execute
import CodeListing.Proofs.Numerals

/-!
# Listed addresses are keys

A list of methods shows the code address of each of them in upper-case hexadecimal behind `0x`.  A
key with that mark is never taken for a name, so it finds by the address alone, whatever the methods
are called.  The digits are read back for every address, and where methods share one, the first of
them is found.

In the rows of the list the address is padded to eighteen characters, which sixteen digits and the
mark always fit, so the column can be cut out of the row and serves as the key with its padding.
-/

set_option autoImplicit false

namespace CodeListing

/-- An address has no white space in it. -/
theorem Text.isBlank_of_mem_upperHexLiteral {n : Nat} {c : Char}
    (h : c ∈ (upperHexLiteral n).toList) : isBlank c = false := by
  have hall : (lowerHexDigits.all fun d => isBlank d.toUpper == false) = true := by decide
  rw [upperHexLiteral, String.toList_ofList, List.mem_cons, List.mem_cons] at h
  obtain rfl | rfl | h := h
  · rfl
  · rfl
  · obtain ⟨d, hd, rfl⟩ := List.mem_map.1 h
    exact eq_of_beq (List.all_eq_true.1 hall d (mem_lowerHexDigits_of_mem_hexDigits hd))

namespace Snapshot

/-- The method has this code address, and no method in front of it has. -/
def FirstAt (snapshot : Snapshot) (address : UInt64) (method : Method) : Prop :=
  method.nativeCode = address ∧
  ∃ front rest, snapshot.methods = front ++ method :: rest ∧
    ∀ other ∈ front, other.nativeCode ≠ address

variable {snapshot : Snapshot} {address : UInt64}

/-- A search by address finds the first function at this address. -/
theorem find?_methods_eq_some_iff {method : Method} :
    (snapshot.methods.find? fun other => other.nativeCode == address) = some method ↔
      snapshot.FirstAt address method := by
  simp [List.find?_eq_some_iff_append, FirstAt]

/-- At the address of a function there is a first function. -/
theorem exists_firstAt {method : Method} (h : method ∈ snapshot.methods) :
    ∃ first, snapshot.FirstAt method.nativeCode first := by
  have hfound : (snapshot.methods.find? fun other =>
      other.nativeCode == method.nativeCode).isSome = true := by
    rw [List.find?_isSome]
    exact ⟨method, h, beq_self_eq_true _⟩
  obtain ⟨first, hfirst⟩ := Option.isSome_iff_exists.1 hfound
  exact ⟨first, find?_methods_eq_some_iff.1 hfirst⟩

/-- An address with white space around it finds the first method with that code address. -/
theorem find?_address {before after : String} {method : Method}
    (hbefore : Text.AllBlank before) (hafter : Text.AllBlank after)
    (h : snapshot.FirstAt address method) :
    snapshot.find? (before ++ Text.upperHexLiteral address.toNat ++ after) = some method := by
  have hchars : Text.trimChars (before ++ Text.upperHexLiteral address.toNat ++ after).toList =
      '0' :: 'x' :: Text.upperHexDigits address.toNat := by
    rw [String.toList_append, String.toList_append,
      Text.trimChars_append_of_blank hbefore hafter,
      Text.trimChars_of_forall fun c hc => Text.isBlank_of_mem_upperHexLiteral hc,
      Text.upperHexLiteral, String.toList_ofList]
  have hmethod := find?_methods_eq_some_iff.2 h
  simp only [find?, hchars, behindHexMark?, Text.readHexAddress?_upperHexDigits]
  exact hmethod

end Snapshot

namespace Command

/-- The characters of a row of the list of methods that show the address. -/
def addressColumn (row : String) : String :=
  String.ofList ((row.toList.drop 2).take 18)

/-- The column shows the whole address and nothing else. -/
theorem addressColumn_methodRow (method : Method) :
    ∃ blanks, Text.AllBlank blanks ∧ addressColumn (methodRow method) =
      blanks ++ Text.upperHexLiteral method.nativeCode.toNat := by
  let address := (Text.upperHexLiteral method.nativeCode.toNat).toList
  have hfits : address.length ≤ 18 := by
    have hdigits := Text.length_upperHexDigits_le method.nativeCode
    simp only [address, Text.upperHexLiteral, String.toList_ofList, List.length_cons]
    omega
  have hlength : (Text.padLeft 18 ' ' address).length = 18 := by
    rw [Text.length_padLeft]
    omega
  have hrow : (methodRow method).toList = ' ' :: ' ' :: (Text.padLeft 18 ' ' address ++
      ([' ', ' '] ++ Text.padRight 12 ' ' (stateLabel method).toList ++ [' ', ' '] ++
        method.displayName.toList ++ ['\n'])) := by
    simp [methodRow, address]
  have hcolumn : ((methodRow method).toList.drop 2).take 18 = Text.padLeft 18 ' ' address := by
    rw [hrow, List.drop_succ_cons, List.drop_succ_cons, List.drop_zero, List.take_left' hlength]
  refine ⟨String.ofList (List.replicate (18 - address.length) ' '), ?_, ?_⟩
  · intro c hc
    rw [String.toList_ofList] at hc
    rw [List.eq_of_mem_replicate hc]
    rfl
  · rw [addressColumn, hcolumn, Text.padLeft, String.ofList_append, String.ofList_toList]

end Command

namespace Snapshot

/-- For every method of a snapshot, the address that the list of methods shows of it is a key for
the first method with that code address: by itself with any white space around it, as the column cut
out of the row, and as the member of the document. -/
theorem find?_listed_address {snapshot : Snapshot} {method : Method}
    (hmethod : method ∈ snapshot.methods) {before after : String}
    (hbefore : Text.AllBlank before) (hafter : Text.AllBlank after) :
    ∃ first, snapshot.FirstAt method.nativeCode first ∧
      snapshot.find? (before ++ Text.upperHexLiteral method.nativeCode.toNat ++ after) =
        some first ∧
      snapshot.find? (Command.addressColumn (Command.methodRow method)) = some first ∧
      ∃ key, (Command.methodDocument method).get? "native_code" = some (.string key) ∧
        snapshot.find? key = some first := by
  obtain ⟨first, hfirst⟩ := exists_firstAt hmethod
  have hnone : Text.AllBlank "" := by decide
  refine ⟨first, hfirst, find?_address hbefore hafter hfirst, ?_, _, rfl, ?_⟩
  · obtain ⟨blanks, hblanks, hcolumn⟩ := Command.addressColumn_methodRow method
    have hfound := find?_address hblanks hnone hfirst
    rwa [String.append_empty, ← hcolumn] at hfound
  · have hfound := find?_address hnone hnone hfirst
    rwa [String.empty_append, String.append_empty] at hfound

namespace SharedAddress

/-- A compiled method with this name at this address. -/
def method (signature : String) (address : UInt64) : Method where
  signature
  typeName := ""
  nativeCode := address
  descriptor := 0
  compilation := .jitted
  isPInvoke := false
  hasIl := true
  codeRanges := []

/-- Two methods share the largest address, which is the name of a third one. -/
def snapshot : Snapshot where
  architecture := .x64
  os := .linux
  pageSize := 4096
  version := ⟨8, 0, 0⟩
  methods := [method "0xFFFFFFFFFFFFFFFF" 0, method "A.Run()" 0xFFFFFFFFFFFFFFFF,
    method "B.Run()" 0xFFFFFFFFFFFFFFFF]
  helpers := []
  tables := []
  memory := []
  sources := []

end SharedAddress

/-- Asked for by the address of the second, the first of the two is found, and not their
namesake. -/
theorem find?_shared_address :
    SharedAddress.snapshot.find? "\t0xFFFFFFFFFFFFFFFF \r\n" =
      some (SharedAddress.method "A.Run()" 0xFFFFFFFFFFFFFFFF) := by
  have hmethod : SharedAddress.method "B.Run()" 0xFFFFFFFFFFFFFFFF ∈
      SharedAddress.snapshot.methods := by decide
  have hbefore : Text.AllBlank "\t" := by decide
  have hafter : Text.AllBlank " \r\n" := by decide
  obtain ⟨first, hfirst, hfound, -⟩ := find?_listed_address hmethod hbefore hafter
  have heq : some (SharedAddress.method "A.Run()" 0xFFFFFFFFFFFFFFFF) = some first :=
    find?_methods_eq_some_iff.2 hfirst
  have hkey : "\t" ++ Text.upperHexLiteral 0xFFFFFFFFFFFFFFFF ++ " \r\n" =
      "\t0xFFFFFFFFFFFFFFFF \r\n" := by decide
  rw [heq, ← hkey]
  exact hfound

end Snapshot

end CodeListing
