import HackAssembler.Yaml.Scalar

/-! # Tokens

The tokens of a YAML stream, and the reading of those that are names: anchors, aliases, tags and
directives.
-/

namespace HackAssembler.Yaml

inductive Token where
  | version (major minor : Nat)
  | tagHandle (handle expansion : String)
  | documentStart
  | documentEnd
  | blockSequenceStart
  | blockMappingStart
  | blockEnd
  | flowSequenceStart
  | flowSequenceEnd
  | flowMappingStart
  | flowMappingEnd
  | blockEntry
  | flowEntry
  | key
  | value
  | reference (name : String)
  | anchor (name : String)
  | tag (handle suffix : String)
  | scalar (style : Style) (text : String)
  | streamEnd
  deriving DecidableEq, Repr

/-- The characters other than blanks and breaks that may follow the name of an anchor. -/
def endsAnchor (c : Char) : Bool :=
  ['?', ':', ',', ']', '}', '%', '@', '\x60'].contains c

/-- Reads the name of an anchor or alias, from behind its indicator. -/
def readAnchor (cursor : Cursor) : Option (String × Cursor) := do
  let name := cursor.rest.takeWhile isNameChar
  let cursor := cursor.skip name.length
  guard (!name.isEmpty)
  guard (atBoundary cursor.rest || cursor.rest.head?.any endsAnchor)
  return (String.ofList name, cursor)

/-! ### Tags -/

def isUriChar (c : Char) : Bool :=
  isNameChar c || [';', '/', '?', ':', '@', '&', '=', '+', '$', '.', '!', '~', '*', '\'', '(',
    ')'].contains c

/-- The characters of tags in angle brackets, and of the texts of handles. -/
def isOpenUriChar (c : Char) : Bool :=
  isUriChar c || [',', '[', ']'].contains c

/-- Reads the characters of a tag, with the octets of percent escapes as numbers. -/
def readUriOctets (belongs : Char → Bool) : List Char → Option (List (Char ⊕ UInt8) × Nat)
  | '%' :: a :: b :: rest => do
    let octet ← digitsValue? 16 [a, b]
    let (others, count) ← readUriOctets belongs rest
    return (.inr octet.toUInt8 :: others, count + 3)
  | c :: rest =>
    if belongs c then do
      let (others, count) ← readUriOctets belongs rest
      return (.inl c :: others, count + 1)
    else if c = '%' then none
    else some ([], 0)
  | [] => some ([], 0)

/-- The text of characters and octets; the octets must be UTF-8. -/
def uriText? (parts : List (Char ⊕ UInt8)) : Option String :=
  let octets := parts.flatMap fun part =>
    match part with
    | .inl c => (String.singleton c).toUTF8.toList
    | .inr octet => [octet]
  String.fromUTF8? ⟨octets.toArray⟩

def readUri (belongs : Char → Bool) (cursor : Cursor) : Option (String × Cursor) := do
  let (parts, count) ← readUriOctets belongs cursor.rest
  return (← uriText? parts, cursor.skip count)

/-- Reads a handle: an exclamation mark, a name and, if there is one, another exclamation mark. -/
def readHandle (cursor : Cursor) : Option (String × Cursor) := do
  guard (cursor.rest.head? = some '!')
  let name := (cursor.rest.drop 1).takeWhile isNameChar
  let cursor := cursor.skip (1 + name.length)
  if cursor.rest.head? = some '!' then
    return (String.ofList ('!' :: name ++ ['!']), cursor.skip 1)
  else return (String.ofList ('!' :: name), cursor)

/-- Reads a tag in angle brackets, from behind the opening bracket. -/
def readVerbatimTag (cursor : Cursor) : Option (Token × Cursor) := do
  let (suffix, cursor) ← readUri isOpenUriChar cursor
  guard (suffix ≠ "" ∧ cursor.rest.head? = some '>')
  return (.tag "" suffix, cursor.skip 1)

/-- Reads a tag that starts with a handle. Without a second exclamation mark the handle is the first
alone, and the lone exclamation mark is a tag of its own. -/
def readShorthandTag (cursor : Cursor) : Option (Token × Cursor) := do
  let (handle, cursor) ← readHandle cursor
  if 1 < handle.length ∧ handle.endsWith "!" then
    let (suffix, cursor) ← readUri isUriChar cursor
    guard (suffix ≠ "")
    return (.tag handle suffix, cursor)
  else
    let (more, cursor) ← readUri isUriChar cursor
    let suffix := String.ofList (handle.toList.drop 1) ++ more
    return (if suffix = "" then .tag "" "!" else .tag "!" suffix, cursor)

def readTag (inFlow : Bool) (cursor : Cursor) : Option (Token × Cursor) := do
  let (tag, cursor) ←
    if (cursor.rest.drop 1).head? = some '<' then readVerbatimTag (cursor.skip 2)
    else readShorthandTag cursor
  guard (atBoundary cursor.rest || (inFlow && cursor.rest.head? = some ','))
  return (tag, cursor)

/-! ### Directives -/

def readShortNumber (cursor : Cursor) : Option (Nat × Cursor) := do
  let digits := cursor.rest.takeWhile Char.isDigit
  guard (!digits.isEmpty && digits.length ≤ 9)
  return (← digitsValue? 10 digits, cursor.skip digits.length)

def readVersion (cursor : Cursor) : Option (Token × Cursor) := do
  let (major, cursor) ← readShortNumber (cursor.skipWhile isBlank)
  guard (cursor.rest.head? = some '.')
  let (minor, cursor) ← readShortNumber (cursor.skip 1)
  return (.version major minor, cursor)

/-- Reads the handle of a directive and the text that it stands for. -/
def readTagHandle (cursor : Cursor) : Option (Token × Cursor) := do
  let (handle, cursor) ← readHandle (cursor.skipWhile isBlank)
  guard (handle = "!" ∨ (1 < handle.length ∧ handle.endsWith "!"))
  guard (cursor.rest.head?.any isBlank)
  let (expansion, cursor) ← readUri isOpenUriChar (cursor.skipWhile isBlank)
  guard (expansion ≠ "")
  guard (atBoundary cursor.rest)
  return (.tagHandle handle expansion, cursor)

/-- Reads a directive, from behind its percent sign to the end of the line. -/
def readDirective (cursor : Cursor) : Option (Token × Cursor) := do
  let name := String.ofList (cursor.rest.takeWhile isNameChar)
  let cursor := cursor.skip name.length
  guard (atBoundary cursor.rest)
  let (token, cursor) ←
    if name = "YAML" then readVersion cursor
    else if name = "TAG" then readTagHandle cursor
    else none
  let cursor := cursor.skipComment
  guard (atLineEnd cursor.rest)
  return (token, cursor.skipBreak)

end HackAssembler.Yaml
