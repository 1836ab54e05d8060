import CodeListing.Document.Basic

/-!
# Writing JSON

A document is written on one line, or with one element or member per line, two blanks deeper at each
level.  Characters beyond ASCII are written as they are, or as `\u` escapes where the channel is
ASCII.
-/

set_option autoImplicit false

namespace CodeListing.Json

/-- A `\u` escape of one 16-bit unit. -/
def unitEscape (unit : Nat) : List Char :=
  '\\' :: 'u' :: Text.padLeft 4 '0' (Text.hexDigits unit)

/-- A character as one or two `\u` escapes. -/
def charEscape (c : Char) : List Char :=
  let code := c.toNat
  if code < 0x10000 then unitEscape code
  else unitEscape (0xD800 + (code - 0x10000) / 0x400) ++
    unitEscape (0xDC00 + (code - 0x10000) % 0x400)

/-- A character inside a string; `ascii` asks for escapes of all that is not ASCII. -/
def stringChar (ascii : Bool) (c : Char) : List Char :=
  if c == '"' then ['\\', '"']
  else if c == '\\' then ['\\', '\\']
  else if c == '\x08' then ['\\', 'b']
  else if c == '\x0c' then ['\\', 'f']
  else if c == '\n' then ['\\', 'n']
  else if c == '\r' then ['\\', 'r']
  else if c == '\t' then ['\\', 't']
  else if c.toNat < 0x20 || (ascii && 0x7F ≤ c.toNat) then charEscape c
  else [c]

/-- A string with its quotes. -/
def stringText (ascii : Bool) (text : String) : String :=
  String.ofList ('"' :: text.toList.flatMap (stringChar ascii) ++ ['"'])

/-- A document without parts. -/
def scalarText (ascii : Bool) : Document → String
  | .bool true => "true"
  | .bool false => "false"
  | .number (.whole n) => Text.signedDecimal n
  | .number (.real negative magnitude) => Document.realText negative magnitude
  | .string text => stringText ascii text
  | _ => "null"

mutual

/-- A document on one line. -/
def compactWith (ascii : Bool) : Document → String
  | .array items => "[" ++ String.intercalate "," (compactItems ascii items) ++ "]"
  | .object fields => "\x7b" ++ String.intercalate "," (compactMembers ascii fields) ++ "\x7d"
  | document => scalarText ascii document

/-- The elements of an array, each on one line. -/
def compactItems (ascii : Bool) : List Document → List String
  | [] => []
  | item :: rest => compactWith ascii item :: compactItems ascii rest

/-- The members of an object, each on one line. -/
def compactMembers (ascii : Bool) : List (String × Document) → List String
  | [] => []
  | (key, item) :: rest =>
    (stringText ascii key ++ ":" ++ compactWith ascii item) :: compactMembers ascii rest

end

/-- A line feed and the blanks of a level. -/
def newLine (level : Nat) : String :=
  String.ofList ('\n' :: List.replicate (2 * level) ' ')

/-- Parts one below the other between brackets, or the bare brackets if there are none. -/
def block (opening closing : String) (level : Nat) (parts : List String) : String :=
  if parts.isEmpty then opening ++ closing
  else
    opening ++ newLine (level + 1) ++ String.intercalate ("," ++ newLine (level + 1)) parts ++
      newLine level ++ closing

mutual

/-- A document whose parts stand on lines of their own. -/
def prettyAt (level : Nat) : Document → String
  | .array items => block "[" "]" level (prettyItems (level + 1) items)
  | .object fields => block "\x7b" "\x7d" level (prettyMembers (level + 1) fields)
  | document => scalarText false document

/-- The elements of an array at a level. -/
def prettyItems (level : Nat) : List Document → List String
  | [] => []
  | item :: rest => prettyAt level item :: prettyItems level rest

/-- The members of an object at a level. -/
def prettyMembers (level : Nat) : List (String × Document) → List String
  | [] => []
  | (key, item) :: rest =>
    (stringText false key ++ ": " ++ prettyAt level item) :: prettyMembers level rest

end

/-- The document on one line of ASCII. -/
def compact (document : Document) : String :=
  compactWith true document

/-- The document with one element or member per line. -/
def pretty (document : Document) : String :=
  prettyAt 0 document

end CodeListing.Json
