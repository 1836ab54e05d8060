import CodeListing.Yaml.Scalar

/-!
# Tokens of YAML

A YAML text is cut into tokens.  Indentation becomes tokens of its own: a list or an object that is
written by indentation has a token at its start and one at its end.  A key is recognised by the
colon behind it, so its token is put in front of what was read already; a key stands on one line
and has a bounded length.  Anchors, tags, directives and block scalars are not read.
-/

set_option autoImplicit false

namespace CodeListing.Yaml

/-- A piece of a YAML text. -/
inductive Token where
  | documentStart
  | documentEnd
  | blockListStart
  | blockMapStart
  /-- The end of a list or an object that is written by indentation. -/
  | blockEnd
  | flowListStart
  | flowListEnd
  | flowMapStart
  | flowMapEnd
  /-- The dash in front of an element. -/
  | item
  /-- The comma between brackets. -/
  | comma
  | key
  | value
  | scalar (text : String) (isPlain : Bool)
  deriving DecidableEq, Repr

/-- What may turn out to be a key. -/
structure Candidate where
  place : Place
  /-- The number of tokens in front of it. -/
  position : Nat
  /-- Nothing but a key can stand here. -/
  needed : Bool
  deriving DecidableEq, Repr

/-- The most bytes between the start of a key and its colon. -/
def keyLimit : Nat := 1024

/-- The candidate is too far away from a place to be a key. -/
def Candidate.isStale (candidate : Candidate) (place : Place) : Bool :=
  candidate.place.line < place.line || candidate.place.offset + keyLimit < place.offset

/-- What is known between two tokens. -/
structure Lexer where
  place : Place
  /-- The indentation of the innermost block, or -1 outside of all blocks. -/
  indent : Int
  /-- The indentations of the blocks around it, the innermost first. -/
  outer : List Int
  /-- The number of open brackets. -/
  brackets : Nat
  /-- The candidate inside the innermost open bracket. -/
  candidate : Option Candidate
  /-- The candidates outside of it, the innermost first. -/
  candidates : List (Option Candidate)
  /-- A key may start at the next token. -/
  keyAllowed : Bool
  /-- The tokens read so far, the last one first. -/
  done : List Token

namespace Lexer

/-- The state at the start of a text. -/
def start : Lexer where
  place := .start
  indent := -1
  outer := []
  brackets := 0
  candidate := none
  candidates := []
  keyAllowed := true
  done := []

/-- The next token stands between brackets. -/
def inFlow (lexer : Lexer) : Bool := lexer.brackets != 0

/-- The state with one more token. -/
def push (lexer : Lexer) (token : Token) : Lexer :=
  { lexer with done := token :: lexer.done }

/-- The state with a token put behind the first `position` ones. -/
def insert (lexer : Lexer) (position : Nat) (token : Token) : Lexer :=
  { lexer with done := lexer.done.insertIdx (lexer.done.length - position) token }

/-- The state behind a character. -/
def take (lexer : Lexer) (c : Char) : Lexer :=
  { lexer with place := lexer.place.behind c }

/-- Gives up candidates that are too far away; one that is needed must not be given up. -/
def dropStale (lexer : Lexer) : Option Lexer :=
  let isStale (candidate : Candidate) : Bool := candidate.isStale lexer.place
  let all := lexer.candidate :: lexer.candidates
  if all.any fun candidate => candidate.any fun c => isStale c && c.needed then none
  else
    let keep (candidate : Option Candidate) : Option Candidate :=
      candidate.filter fun c => !isStale c
    some { lexer with
      candidate := keep lexer.candidate
      candidates := lexer.candidates.map keep }

/-- Gives up the candidate of the innermost bracket, which must not be needed. -/
def dropCandidate (lexer : Lexer) : Option Lexer :=
  if lexer.candidate.any (·.needed) then none else some { lexer with candidate := none }

/-- Notes that a key may start here. -/
def noteCandidate (lexer : Lexer) : Option Lexer :=
  if lexer.keyAllowed then do
    let needed := !lexer.inFlow && lexer.indent == lexer.place.column
    let dropped ← lexer.dropCandidate
    return { dropped with candidate := some ⟨lexer.place, lexer.done.length, needed⟩ }
  else some lexer

/-- Closes the blocks that are indented more than the given column. -/
def closeBlocks (column : Int) (indent : Int) (outer : List Int) (done : List Token) :
    Int × List Int × List Token :=
  if column < indent then
    match outer with
    | [] => (-1, [], .blockEnd :: done)
    | next :: others => closeBlocks column next others (.blockEnd :: done)
  else (indent, outer, done)

/-- Closes the blocks that are indented more than the given column; brackets keep them open. -/
def unindent (lexer : Lexer) (column : Int) : Lexer :=
  if lexer.inFlow then lexer
  else
    let (indent, outer, done) := closeBlocks column lexer.indent lexer.outer lexer.done
    { lexer with indent, outer, done }

/-- Opens a block at the given column, unless it is open, with its token behind the first `position`
ones. -/
def openBlock (lexer : Lexer) (column : Nat) (position : Nat) (token : Token) : Lexer :=
  if lexer.inFlow || column ≤ lexer.indent then lexer
  else { lexer.insert position token with indent := column, outer := lexer.indent :: lexer.outer }

/-- Passes blanks, comments and line ends.  A tab may not stand where a key can start, and behind a
line end a key can start unless brackets are open. -/
def skipGap (lexer : Lexer) (inComment : Bool) : List Char → Lexer × List Char
  | [] => (lexer, [])
  | c :: rest =>
    if isBreak c then
      let lexer := lexer.take c
      { lexer with keyAllowed := lexer.keyAllowed || !lexer.inFlow }.skipGap false rest
    else if inComment then (lexer.take c).skipGap true rest
    else if c == '#' then (lexer.take c).skipGap true rest
    else if c == ' ' || (c == '\t' && (lexer.inFlow || !lexer.keyAllowed)) ||
        (c.toNat == 0xFEFF && lexer.place.column == 0) then
      (lexer.take c).skipGap false rest
    else (lexer, c :: rest)

/-- A mark between documents, of three characters. -/
def documentMark (lexer : Lexer) (token : Token) (text : List Char) :
    Option (Lexer × List Char) := do
  let lexer ← (lexer.unindent (-1)).dropCandidate
  let lexer := lexer.push token
  return ({ lexer with
    keyAllowed := false
    place := lexer.place.behindAll (text.take 3) }, text.drop 3)

/-- An opening bracket. -/
def openBracket (lexer : Lexer) (token : Token) (c : Char) : Option Lexer := do
  let lexer ← lexer.noteCandidate
  return { (lexer.take c).push token with
    brackets := lexer.brackets + 1
    candidate := none
    candidates := lexer.candidate :: lexer.candidates
    keyAllowed := true }

/-- A closing bracket. -/
def closeBracket (lexer : Lexer) (token : Token) (c : Char) : Option Lexer := do
  let lexer ← lexer.dropCandidate
  let closed := { (lexer.take c).push token with keyAllowed := false }
  match lexer.candidates with
  | [] => return closed
  | candidate :: candidates =>
    return { closed with brackets := lexer.brackets - 1, candidate, candidates }

/-- A comma between brackets. -/
def comma (lexer : Lexer) (c : Char) : Option Lexer := do
  let lexer ← lexer.dropCandidate
  return { (lexer.take c).push .comma with keyAllowed := true }

/-- The dash of an element. -/
def item (lexer : Lexer) (c : Char) : Option Lexer := do
  if !lexer.inFlow && !lexer.keyAllowed then none
  else
    let lexer := lexer.openBlock lexer.place.column lexer.done.length .blockListStart
    let lexer ← lexer.dropCandidate
    return { (lexer.take c).push .item with keyAllowed := true }

/-- The question mark of a key. -/
def explicitKey (lexer : Lexer) (c : Char) : Option Lexer := do
  if !lexer.inFlow && !lexer.keyAllowed then none
  else
    let lexer := lexer.openBlock lexer.place.column lexer.done.length .blockMapStart
    let lexer ← lexer.dropCandidate
    return { (lexer.take c).push .key with keyAllowed := !lexer.inFlow }

/-- The colon in front of a value: the candidate, if there is one, turns out to be the key. -/
def value (lexer : Lexer) (c : Char) : Option Lexer :=
  match lexer.candidate with
  | some key =>
    let lexer := lexer.insert key.position .key
    let lexer := lexer.openBlock key.place.column key.position .blockMapStart
    some { (lexer.take c).push .value with candidate := none, keyAllowed := false }
  | none =>
    if !lexer.inFlow && !lexer.keyAllowed then none
    else
      let lexer := lexer.openBlock lexer.place.column lexer.done.length .blockMapStart
      some { (lexer.take c).push .value with keyAllowed := !lexer.inFlow }

/-- A scalar in quotes. -/
def quotedScalar (lexer : Lexer) (double : Bool) (c : Char) (rest : List Char) :
    Option (Lexer × List Char) := do
  let lexer ← lexer.noteCandidate
  let scanned ← quoted double (lexer.place.behind c) .none [] rest
  let lexer := lexer.push (.scalar scanned.text false)
  return ({ lexer with keyAllowed := false, place := scanned.place }, scanned.rest)

/-- A plain scalar. -/
def plainScalar (lexer : Lexer) (text : List Char) : Option (Lexer × List Char) := do
  let lexer ← lexer.noteCandidate
  let scanned ← plain lexer.inFlow (lexer.indent + 1) lexer.place .none [] text
  let lexer := lexer.push (.scalar scanned.text true)
  return ({ lexer with keyAllowed := scanned.endsLine, place := scanned.place }, scanned.rest)

/-- The token that starts with the given character, and what follows it. -/
def token (lexer : Lexer) (c : Char) (rest : List Char) : Option (Lexer × List Char) :=
  let behind (next : Option Lexer) : Option (Lexer × List Char) := next.map fun l => (l, rest)
  if lexer.place.column == 0 && isDocumentMark (c :: rest) then
    lexer.documentMark (if c == '-' then .documentStart else .documentEnd) (c :: rest)
  else if c == '[' then behind (lexer.openBracket .flowListStart c)
  else if c == '\x7b' then behind (lexer.openBracket .flowMapStart c)
  else if c == ']' then behind (lexer.closeBracket .flowListEnd c)
  else if c == '\x7d' then behind (lexer.closeBracket .flowMapEnd c)
  else if c == ',' then behind (lexer.comma c)
  else if c == '-' && startsGap rest then behind (lexer.item c)
  else if c == '?' && (lexer.inFlow || startsGap rest) then behind (lexer.explicitKey c)
  else if c == ':' && (lexer.inFlow || startsGap rest) then behind (lexer.value c)
  else if c == '"' then lexer.quotedScalar true c rest
  else if c == '\x27' then lexer.quotedScalar false c rest
  else if startsPlain lexer.inFlow c rest then lexer.plainScalar (c :: rest)
  else none

/-- The tokens at the end of the text: all blocks are closed. -/
def finish (lexer : Lexer) : Option (List Token) := do
  let lexer ← (lexer.unindent (-1)).dropCandidate
  return lexer.done.reverse

/-- All tokens of a text.  A token takes at least one character. -/
def tokens (lexer : Lexer) (text : List Char) : Option (List Token) :=
  match lexer.skipGap false text with
  | (lexer, start) =>
    match lexer.dropStale with
    | none => none
    | some lexer =>
      match start with
      | [] => lexer.finish
      | c :: rest =>
        match (lexer.unindent lexer.place.column).token c rest with
        | none => none
        | some (lexer, behind) =>
          if behind.length < text.length then lexer.tokens behind else none
termination_by text.length

end Lexer

/-- The tokens of a text that holds allowed characters only. -/
def tokens? (text : String) : Option (List Token) :=
  if text.toList.all isAllowed then Lexer.start.tokens (unifyBreaks text.toList) else none

end CodeListing.Yaml
