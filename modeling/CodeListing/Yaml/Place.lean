/-!
# Characters and places of a YAML text

Which characters a YAML text may hold, which of them are blanks and which end a line, and how the
place in the text moves from one character to the next.  All usual line ends are read as a line
feed, so that every line ends with one character.
-/

set_option autoImplicit false

namespace CodeListing.Yaml

/-- The character may stand in a YAML text. -/
def isAllowed (c : Char) : Bool :=
  let code := c.toNat
  code == 0x9 || code == 0xA || code == 0xD || (0x20 ≤ code && code ≤ 0x7E) || code == 0x85 ||
    (0xA0 ≤ code && code ≤ 0xFFFD) || 0x10000 ≤ code

/-- The text with a line feed in place of a carriage return, of a carriage return and a line feed,
and of a next-line character. -/
def unifyBreaks : List Char → List Char
  | [] => []
  | '\r' :: '\n' :: rest => '\n' :: unifyBreaks rest
  | c :: rest => (if c == '\r' || c.toNat == 0x85 then '\n' else c) :: unifyBreaks rest

/-- The character divides words on a line. -/
def isBlank (c : Char) : Bool :=
  c == ' ' || c == '\t'

/-- The character ends a line. -/
def isBreak (c : Char) : Bool :=
  c == '\n' || c.toNat == 0x2028 || c.toNat == 0x2029

/-- A blank, a line end or the end of the text comes next. -/
def startsGap : List Char → Bool
  | [] => true
  | c :: _ => isBlank c || isBreak c

/-- The line is three dashes or three dots, alone or with a gap behind them. -/
def isDocumentMark : List Char → Bool
  | '-' :: '-' :: '-' :: rest => startsGap rest
  | '.' :: '.' :: '.' :: rest => startsGap rest
  | _ => false

/-- A place in a text: the line, the character on it, and the number of bytes in front. -/
structure Place where
  line : Nat
  column : Nat
  offset : Nat
  deriving DecidableEq, Repr

namespace Place

/-- The start of a text. -/
def start : Place := ⟨0, 0, 0⟩

/-- The place behind a character. -/
def behind (place : Place) (c : Char) : Place :=
  if isBreak c then ⟨place.line + 1, 0, place.offset + c.utf8Size⟩
  else ⟨place.line, place.column + 1, place.offset + c.utf8Size⟩

/-- The place behind several characters. -/
def behindAll (place : Place) (text : List Char) : Place :=
  text.foldl behind place

end Place

end CodeListing.Yaml
