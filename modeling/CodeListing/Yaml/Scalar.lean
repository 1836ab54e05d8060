import CodeListing.Text.Numeral
import CodeListing.Yaml.Place

/-!
# Scalars of YAML

Scalars in quotes and plain ones.  A scalar may reach over several lines: the blanks around a line
end are dropped, one line end between words is a blank, and of several the first one is dropped.
-/

set_option autoImplicit false

namespace CodeListing.Yaml

/-- What was passed since the last character that belongs to a scalar. -/
inductive Gap where
  | none
  /-- Blanks on the same line, the last one first. -/
  | blanks (passed : List Char)
  /-- A line end, unless it was escaped, and the further ones, the last one first. -/
  | breaks (first : Option Char) (others : List Char)
  deriving DecidableEq, Repr

namespace Gap

/-- The gap with one more blank. -/
def addBlank (c : Char) : Gap → Gap
  | .none => .blanks [c]
  | .blanks passed => .blanks (c :: passed)
  | .breaks first others => .breaks first others

/-- The gap with one more line end. -/
def addBreak (c : Char) : Gap → Gap
  | .breaks first others => .breaks first (c :: others)
  | _ => .breaks (some c) []

/-- A line end was passed. -/
def hasBreak : Gap → Bool
  | .breaks _ _ => true
  | _ => false

/-- What stands in the scalar for the gap. -/
def fold : Gap → List Char
  | .none => []
  | .blanks passed => passed.reverse
  | .breaks Option.none others => others.reverse
  | .breaks (some first) others =>
    if first != '\n' then first :: others.reverse
    else if others.isEmpty then [' ']
    else others.reverse

end Gap

/-- What an escape in double quotes stands for: a character, or the number of hexadecimal digits
that follow. -/
def escape? : Char → Option (Char ⊕ Nat)
  | '0' => some (.inl '\x00')
  | 'a' => some (.inl '\x07')
  | 'b' => some (.inl '\x08')
  | 't' => some (.inl '\t')
  | '\t' => some (.inl '\t')
  | 'n' => some (.inl '\n')
  | 'v' => some (.inl '\x0b')
  | 'f' => some (.inl '\x0c')
  | 'r' => some (.inl '\r')
  | 'e' => some (.inl '\x1b')
  | ' ' => some (.inl ' ')
  | '"' => some (.inl '"')
  | '/' => some (.inl '/')
  | '\\' => some (.inl '\\')
  | 'N' => some (.inl (Char.ofNat 0x85))
  | '_' => some (.inl (Char.ofNat 0xA0))
  | 'L' => some (.inl (Char.ofNat 0x2028))
  | 'P' => some (.inl (Char.ofNat 0x2029))
  | 'x' => some (.inr 2)
  | 'u' => some (.inr 4)
  | 'U' => some (.inr 8)
  | _ => none

/-- The character with the code that exactly `count` hexadecimal digits give. -/
def hexChar? (count : Nat) (text : List Char) : Option Char := do
  let code ← Text.readDigits? 16 (text.take count)
  if (text.take count).length == count && Nat.isValidChar code then some (Char.ofNat code)
  else none

/-- A scalar and where the text goes on behind it. -/
structure Scanned where
  text : String
  place : Place
  rest : List Char

/-- A scalar in double or single quotes, behind the opening one; `done` is what it holds so far, in
reverse. -/
def quoted (double : Bool) (place : Place) (gap : Gap) (done : List Char) (text : List Char) :
    Option Scanned :=
  match text with
  | [] => none
  | c :: rest =>
    let joined := gap.fold.reverse ++ done
    if isBlank c then quoted double (place.behind c) (gap.addBlank c) done rest
    else if isBreak c then quoted double (place.behind c) (gap.addBreak c) done rest
    else if place.column == 0 && isDocumentMark (c :: rest) then none
    else if c == (if double then '"' else '\x27') then
      match rest with
      | '\x27' :: rest' =>
        if double then some ⟨String.ofList joined.reverse, place.behind c, rest⟩
        else quoted double ((place.behind c).behind '\x27') .none ('\x27' :: joined) rest'
      | _ => some ⟨String.ofList joined.reverse, place.behind c, rest⟩
    else if double && c == '\\' then
      match rest with
      | [] => none
      | e :: rest' =>
        let behindEscape := (place.behind c).behind e
        if isBreak e then quoted double behindEscape (.breaks none []) joined rest'
        else
          match escape? e with
          | none => none
          | some (.inl char) => quoted double behindEscape .none (char :: joined) rest'
          | some (.inr count) =>
            match hexChar? count rest' with
            | none => none
            | some char =>
              quoted double (behindEscape.behindAll (rest'.take count)) .none (char :: joined)
                (rest'.drop count)
    else quoted double (place.behind c) .none (c :: joined) rest
termination_by text.length
decreasing_by all_goals simp_all <;> omega

/-- The character ends a plain scalar between brackets. -/
def isFlowIndicator (c : Char) : Bool :=
  [',', '[', ']', '\x7b', '\x7d'].contains c

/-- The characters end a plain scalar: a colon before a gap or, between brackets, a comma or a
bracket. -/
def endsPlain (flow : Bool) (c : Char) (rest : List Char) : Bool :=
  (c == ':' && startsGap rest) || (flow && isFlowIndicator c)

/-- A plain scalar and where the text goes on behind it and the gap that follows. -/
structure ScannedPlain extends Scanned where
  /-- The text goes on on another line. -/
  endsLine : Bool

/-- A plain scalar whose lines are indented at least so far; `done` is what it holds so far, in
reverse, and `flow` says that it stands between brackets. -/
def plain (flow : Bool) (least : Int) (place : Place) (gap : Gap) (done : List Char) :
    List Char → Option ScannedPlain
  | [] => some ⟨⟨String.ofList done.reverse, place, []⟩, gap.hasBreak⟩
  | c :: rest =>
    let ended := some ⟨⟨String.ofList done.reverse, place, c :: rest⟩, gap.hasBreak⟩
    if isBlank c then
      if c == '\t' && gap.hasBreak && place.column < least then none
      else plain flow least (place.behind c) (gap.addBlank c) done rest
    else if isBreak c then plain flow least (place.behind c) (gap.addBreak c) done rest
    else if gap != .none && ((!flow && place.column < least) || c == '#' ||
        (place.column == 0 && isDocumentMark (c :: rest))) then ended
    else if flow && c == ':' && rest.head?.any (fun d => d == '?' || isFlowIndicator d) then none
    else if endsPlain flow c rest then ended
    else plain flow least (place.behind c) .none (c :: gap.fold.reverse ++ done) rest

/-- The character cannot start a plain scalar, unless it is followed by a fitting one. -/
def isIndicator (c : Char) : Bool :=
  ['-', '?', ':', ',', '[', ']', '\x7b', '\x7d', '#', '&', '*', '!', '|', '>', '\x27', '"', '%',
    '@', '\x60'].contains c

/-- A plain scalar starts here. -/
def startsPlain (flow : Bool) (c : Char) (rest : List Char) : Bool :=
  !(isBlank c || isBreak c || isIndicator c) || (c == '-' && !rest.head?.any isBlank) ||
    (!flow && (c == '?' || c == ':') && !startsGap rest)

end CodeListing.Yaml
