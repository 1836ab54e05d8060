import CodeListing.Json.Scalar

/-!
# Passing over JSON

A value that nobody asks for is passed over without being built.  Nesting is then unbounded, numbers
need not be representable and escaped surrogates need no partner, and some faults have other names
than where a value is read.
-/

set_option autoImplicit false

namespace CodeListing.Json

/-- What follows an escape behind its backslash. -/
def skipEscape (text : List Char) : Except ParseError (Rest text) :=
  match text with
  | [] => .error .endInString
  | c :: rest =>
    if ['"', '\\', '/', 'b', 'f', 'n', 'r', 't'].contains c then .ok (.behind c rest)
    else if c == 'u' then
      match h : hexQuad rest with
      | .error e => .error e
      | .ok (_, behind) => .ok ((Rest.behind c rest).trans ⟨behind, length_hexQuad h⟩)
    else .error .badEscape

/-- What follows a string whose opening quote has been read. -/
def skipString (text : List Char) : Except ParseError (Rest text) :=
  match text with
  | [] => .error .endInString
  | c :: rest =>
    if c == '"' then .ok (.behind c rest)
    else if c == '\\' then
      match skipEscape rest with
      | .error e => .error e
      | .ok behind =>
        have := behind.2
        (skipString behind.1).map fun r => (Rest.behind c rest).trans (behind.trans r)
    else if c.toNat < 0x20 then .error .controlCharacter
    else
      (skipString rest).map fun r => (Rest.behind c rest).trans r
termination_by text.length

/-- What follows a row of digits, of which there has to be one. -/
def skipDigits (text : List Char) : Except ParseError (Tail text) :=
  if (digitsOf text).isEmpty then .error .badNumber
  else .ok (digitsTail text)

/-- What follows an exponent, if there is one. -/
def skipExponent (text : List Char) : Except ParseError (Tail text) :=
  match text with
  | [] => .ok (.whole [])
  | c :: rest =>
    if c == 'e' || c == 'E' then
      match rest with
      | [] => .error .badNumber
      | sign :: digits =>
        if sign == '+' || sign == '-' then
          (skipDigits digits).map fun r =>
            (((Rest.behind c (sign :: digits)).trans (.behind sign digits)).transTail r).toTail
        else
          (skipDigits (sign :: digits)).map fun r =>
            ((Rest.behind c (sign :: digits)).transTail r).toTail
    else .ok (.whole (c :: rest))

/-- What follows a fraction and an exponent, if there are any. -/
def skipFraction (text : List Char) : Except ParseError (Tail text) :=
  match text with
  | '.' :: digits =>
    match skipDigits digits with
    | .error e => .error e
    | .ok behind =>
      (skipExponent behind.1).map fun r =>
        ((Rest.behind '.' digits).transTail (behind.trans r)).toTail
  | text => skipExponent text

/-- What follows a number without its sign; `first` is the first digit, or whatever stands there. -/
def skipNumber (first : Char) (rest : List Char) : Except ParseError (Tail rest) :=
  if !first.isDigit then .error .badNumber
  else if first == '0' then
    if rest.head?.any Char.isDigit then .error .badNumber else skipFraction rest
  else
    (skipFraction (digitsTail rest).1).map fun r => (digitsTail rest).trans r

/-- What follows the scalar that starts with the given character. -/
def skipScalar (c : Char) (rest : List Char) : Except ParseError (Tail rest) :=
  if c == 'n' then word ['u', 'l', 'l'] rest
  else if c == 't' then word ['r', 'u', 'e'] rest
  else if c == 'f' then word ['a', 'l', 's', 'e'] rest
  else if c == '-' then
    match rest with
    | [] => .error .badNumber
    | first :: digits =>
      (skipNumber first digits).map fun r => ((Rest.behind first digits).transTail r).toTail
  else if c.isDigit then skipNumber c rest
  else if c == '"' then (skipString rest).map fun r => r.toTail
  else .error .expectedValue

/-- A bracket that has been opened. -/
inductive Bracket where
  | list
  | object
  deriving DecidableEq, Repr

namespace Bracket

/-- The character that closes the bracket. -/
def close : Bracket → Char
  | .list => ']'
  | .object => '\x7d'

/-- The fault of a text that ends inside the bracket. -/
def endFault : Bracket → ParseError
  | .list => .endInList
  | .object => .endInObject

/-- The fault of a text in which neither a comma nor the closing bracket follows a value. -/
def commaFault : Bracket → ParseError
  | .list => .expectedCommaOrListEnd
  | .object => .expectedCommaOrObjectEnd

end Bracket

mutual

/-- What follows the brackets in `inside`, the innermost first, in front of a value. -/
def skipInside (inside : List Bracket) (text : List Char) : Except ParseError (Rest text) :=
  match next? text with
  | none => .error .endInValue
  | some (c, rest) =>
    have := rest.2
    if c == '[' then
      (skipOpened .list inside rest.1).map fun r => rest.trans r
    else if c == '\x7b' then
      (skipOpened .object inside rest.1).map fun r => rest.trans r
    else
      match skipScalar c rest.1 with
      | .error e => .error e
      | .ok behind =>
        have := behind.2
        (skipBehind inside behind.1).map fun r => rest.transTail (behind.trans r)
termination_by 4 * text.length

/-- What follows the brackets, the innermost of which was just opened. -/
def skipOpened (innermost : Bracket) (inside : List Bracket) (text : List Char) :
    Except ParseError (Rest text) :=
  match next? text with
  | none => .error innermost.endFault
  | some (c, rest) =>
    have := rest.2
    if c == innermost.close then
      (skipBehind inside rest.1).map fun r => rest.transTail r
    else skipItem innermost inside text
termination_by 4 * text.length + 2

/-- What follows the brackets, in front of an element or a member. -/
def skipItem (innermost : Bracket) (inside : List Bracket) (text : List Char) :
    Except ParseError (Rest text) :=
  match innermost with
  | .list => skipInside (.list :: inside) text
  | .object =>
    match next? text with
    | none => .error .endInObject
    | some (c, rest) =>
      have := rest.2
      if c == '"' then
        match skipString rest.1 with
        | .error e => .error e
        | .ok behindKey =>
          have := behindKey.2
          match colon behindKey.1 with
          | .error e => .error e
          | .ok start =>
            have := start.2
            (skipInside (.object :: inside) start.1).map fun r =>
              rest.trans (behindKey.trans (start.trans r))
      else .error .keyNotString
termination_by 4 * text.length + 1

/-- What follows the brackets, behind a value. -/
def skipBehind (inside : List Bracket) (text : List Char) : Except ParseError (Tail text) :=
  match inside with
  | [] => .ok (.whole text)
  | innermost :: outer =>
    match next? text with
    | none => .error innermost.endFault
    | some (c, rest) =>
      have := rest.2
      if c == ',' then
        (skipItem innermost outer rest.1).map fun r => (rest.trans r).toTail
      else if c == innermost.close then
        (skipBehind outer rest.1).map fun r => (rest.transTail r).toTail
      else .error innermost.commaFault
termination_by 4 * text.length + 3

end

/-- What follows a value, with white space in front of it. -/
def skipValue (text : List Char) : Except ParseError (Rest text) :=
  skipInside [] text

end CodeListing.Json
