/-! # Text of a YAML stream

A stream is UTF-8 text without control characters. Every line break but the line and paragraph
separators is turned into a line feed before anything else is read.
-/

namespace HackAssembler.Yaml

def isAllowed (c : Char) : Bool :=
  let number := c.toNat
  number = 0x09 || number = 0x0A || number = 0x0D || (0x20 ≤ number && number ≤ 0x7E) ||
    number = 0x85 || (0xA0 ≤ number && number ≤ 0xFFFD) || 0x10000 ≤ number

/-- The characters of a text with a line feed for each carriage return, next-line character, and
pair of carriage return and line feed. -/
def normalizeBreaks (text : List Char) : List Char :=
  let paired := text.zip (text.drop 1 ++ [' '])
  let single := (paired.filter fun pair => pair ≠ ('\r', '\n')).map Prod.fst
  single.map fun c => if c = '\r' ∨ c = '\x85' then '\n' else c

/-- The characters of a stream; `none` if it is no text or has a character that is not allowed. -/
def decode? (bytes : ByteArray) : Option (List Char) := do
  let text := (← String.fromUTF8? bytes).toList
  guard (text.all isAllowed)
  return normalizeBreaks text

def isBreak (c : Char) : Bool :=
  c = '\n' || c = '\u2028' || c = '\u2029'

def isBlank (c : Char) : Bool :=
  c = ' ' || c = '\t'

/-- A text is at a boundary when it is at its end, at a blank or at a break. -/
def atBoundary : List Char → Bool
  | [] => true
  | c :: _ => isBlank c || isBreak c

/-- A text is at the end of a line when it is at its end or at a break. -/
def atLineEnd : List Char → Bool
  | [] => true
  | c :: _ => isBreak c

/-- A text starts with a marker if its first three characters are the given one and stand alone. -/
def startsMarker (c : Char) : List Char → Bool
  | c₁ :: c₂ :: c₃ :: rest => c₁ = c && c₂ = c && c₃ = c && atBoundary rest
  | _ => false

/-- A document marker is `---` or `...` at the start of a line. -/
def atDocumentMarker (column : Nat) (rest : List Char) : Bool :=
  column = 0 && (startsMarker '-' rest || startsMarker '.' rest)

def isNameChar (c : Char) : Bool :=
  c.isAlphanum || c = '_' || c = '-'

def hexDigit? (c : Char) : Option Nat :=
  if c.isDigit then some (c.toNat - '0'.toNat)
  else if 'a' ≤ c ∧ c ≤ 'f' then some (c.toNat - 'a'.toNat + 10)
  else if 'A' ≤ c ∧ c ≤ 'F' then some (c.toNat - 'A'.toNat + 10)
  else none

/-- The number that digits spell in a base; `none` if one of them is no digit of the base. -/
def digitsValue? (base : Nat) (digits : List Char) : Option Nat :=
  digits.foldlM (fun value digit => do
    let place ← hexDigit? digit
    guard (place < base)
    return base * value + place) 0

structure Cursor where
  rest : List Char
  line : Nat
  column : Nat

namespace Cursor

/-- The place a number of characters further on the same line. -/
def skip (cursor : Cursor) (count : Nat) : Cursor :=
  { cursor with rest := cursor.rest.drop count, column := cursor.column + count }

/-- The place after all characters of a class, none of which is a break. -/
def skipWhile (cursor : Cursor) (belongs : Char → Bool) : Cursor :=
  cursor.skip (cursor.rest.takeWhile belongs).length

def skipComment (cursor : Cursor) : Cursor :=
  let cursor := cursor.skipWhile isBlank
  if cursor.rest.head? = some '#' then cursor.skipWhile (!isBreak ·) else cursor

/-- The place after the break at the cursor, if there is one. -/
def skipBreak (cursor : Cursor) : Cursor :=
  match cursor.rest with
  | [] => cursor
  | _ :: rest => ⟨rest, cursor.line + 1, 0⟩

end Cursor

end HackAssembler.Yaml
