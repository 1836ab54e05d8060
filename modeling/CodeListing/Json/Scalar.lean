import CodeListing.Json.Lexeme

/-!
# Scalars of JSON

Null, truth values, numbers and strings.  A reader returns what it read together with the characters
that follow.
-/

set_option autoImplicit false

namespace CodeListing.Json

/-- The characters from the first one that is not white space, with the first one apart. -/
def next? (text : List Char) : Option (Char × Rest text) :=
  match h : skipGap text with
  | [] => none
  | c :: rest => some (c, ⟨rest, length_lt_of_skipGap_eq h⟩)

/-- The rest of a word such as `null` behind its first character. -/
def word (expected : List Char) (text : List Char) : Except ParseError (Tail text) :=
  match expected, text with
  | [], text => .ok (.whole text)
  | _ :: _, [] => .error .endInValue
  | e :: es, c :: cs =>
    if e == c then
      (word es cs).map fun rest => ((Rest.behind c cs).transTail rest).toTail
    else .error .expectedWord

/-- The string whose opening quote has been read. -/
def string (text : List Char) : Except ParseError (String × Rest text) :=
  match h : stringBody [] text with
  | .error e => .error e
  | .ok (s, rest) => .ok (s, ⟨rest, length_stringBody h⟩)

/-- The number behind its minus sign. -/
def negative (text : List Char) : Except ParseError (Document × Tail text) :=
  match text with
  | [] => .error .endInValue
  | first :: digits =>
    (numberBody true first digits).map fun (n, rest) =>
      (.number n, ((Rest.behind first digits).transTail rest).toTail)

/-- The scalar that starts with the given character, and what follows it. -/
def scalar (c : Char) (rest : List Char) : Except ParseError (Document × Tail rest) :=
  if c == 'n' then (word ['u', 'l', 'l'] rest).map fun r => (.null, r)
  else if c == 't' then (word ['r', 'u', 'e'] rest).map fun r => (.bool true, r)
  else if c == 'f' then (word ['a', 'l', 's', 'e'] rest).map fun r => (.bool false, r)
  else if c == '-' then negative rest
  else if c.isDigit then (numberBody false c rest).map fun (n, r) => (.number n, r)
  else if c == '"' then
    (string rest).map fun (s, r) => (.string s, r.toTail)
  else .error .expectedValue

/-- What follows the colon between a key and its value. -/
def colon (text : List Char) : Except ParseError (Rest text) :=
  match next? text with
  | none => .error .endInObject
  | some (c, rest) => if c == ':' then .ok rest else .error .expectedColon

end CodeListing.Json
