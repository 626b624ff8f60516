import HackAssembler.Yaml.Text

/-! # Scalars

A scalar is a text in one of four styles. In plain and quoted scalars the blanks around a line break
are dropped and the break is folded: a single one becomes a space, and of several the first is
dropped. A literal scalar keeps its breaks, and a folded one folds those between lines that do not
start with a blank.
-/

namespace HackAssembler.Yaml

inductive Style where
  | plain
  | quoted
  | literal
  | folded
  deriving DecidableEq, Repr

/-- What lies between two characters of a scalar that are neither blank nor break. Blanks and breaks
are collected in reverse. -/
inductive Gap where
  | blanks (run : List Char)
  | breaks (first : Option Char) (others : List Char)

namespace Gap

def none : Gap := blanks []

def isEmpty : Gap → Bool
  | blanks run => run.isEmpty
  | breaks .. => false

def isBroken : Gap → Bool
  | blanks _ => false
  | breaks .. => true

/-- The gap with one more blank or break. After a break blanks do not count. -/
def add (gap : Gap) (c : Char) : Gap :=
  match gap with
  | blanks run => if isBreak c then breaks (some c) [] else blanks (c :: run)
  | breaks first others => if isBreak c then breaks first (c :: others) else breaks first others

def join (gap : Gap) (text : List Char) : List Char :=
  match gap with
  | blanks run => run ++ text
  | breaks (some '\n') [] => ' ' :: text
  | breaks (some '\n') others => others ++ text
  | breaks (some first) others => others ++ first :: text
  | breaks .none others => others ++ text

end Gap

/-! ### Plain scalars -/

def isFlowIndicator (c : Char) : Bool :=
  c = ',' || c = '[' || c = ']' || c = '{' || c = '}'

/-- A plain scalar ends before a colon at a boundary, inside brackets before a bracket or comma, and
after a gap before a comment, a document marker or a line with too little indentation. -/
def plainEnds (inFlow : Bool) (indent column : Nat) (gap : Gap) (c : Char) (rest : List Char) :
    Bool :=
  (c = ':' && atBoundary rest) || (inFlow && isFlowIndicator c) ||
    (!gap.isEmpty &&
      (c = '#' || atDocumentMarker column (c :: rest) || (!inFlow && decide (column < indent))))

/-- Reads a plain scalar: its text, the place after it and whether a break ends it. -/
def readPlain (inFlow : Bool) (indent : Nat) (rest : List Char) (line column : Nat)
    (text : List Char) (gap : Gap) : Option (String × Cursor × Bool) :=
  match rest with
  | [] => some (String.ofList text.reverse, ⟨[], line, column⟩, gap.isBroken)
  | c :: rest =>
    if isBlank c then
      if gap.isBroken ∧ column < indent ∧ c = '\t' then none
      else readPlain inFlow indent rest line (column + 1) text (gap.add c)
    else if isBreak c then readPlain inFlow indent rest (line + 1) 0 text (gap.add c)
    else if plainEnds inFlow indent column gap c rest then
      some (String.ofList text.reverse, ⟨c :: rest, line, column⟩, gap.isBroken)
    else if inFlow && c = ':' && rest.head?.any fun next => isFlowIndicator next || next = '?' then
      none
    else readPlain inFlow indent rest line (column + 1) (c :: gap.join text) .none

/-! ### Quoted scalars -/

/-- The characters that one character after a backslash stands for. -/
def escaped? : Char → Option Char
  | '0' => some '\x00'
  | 'a' => some '\x07'
  | 'b' => some '\x08'
  | 't' => some '\t'
  | '\t' => some '\t'
  | 'n' => some '\n'
  | 'v' => some '\x0B'
  | 'f' => some '\x0C'
  | 'r' => some '\r'
  | 'e' => some '\x1B'
  | ' ' => some ' '
  | '"' => some '"'
  | '/' => some '/'
  | '\\' => some '\\'
  | 'N' => some '\x85'
  | '_' => some '\xA0'
  | 'L' => some '\u2028'
  | 'P' => some '\u2029'
  | _ => none

def charOfNumber? (number : Nat) : Option Char :=
  if valid : number.isValidChar then some (Char.ofNatAux number valid) else none

def charOfDigits? (digits : List Char) : Option Char := do
  charOfNumber? (← digitsValue? 16 digits)

/-- Reads a scalar between single quotes, from behind the opening quote. -/
def readSingle (rest : List Char) (line column : Nat) (text : List Char) (gap : Gap) :
    Option (String × Cursor) :=
  match rest with
  | [] => none
  | '\'' :: '\'' :: rest => readSingle rest line (column + 2) ('\'' :: gap.join text) .none
  | '\'' :: rest => some (String.ofList (gap.join text).reverse, ⟨rest, line, column + 1⟩)
  | c :: rest =>
    if isBlank c then readSingle rest line (column + 1) text (gap.add c)
    else if isBreak c then readSingle rest (line + 1) 0 text (gap.add c)
    else if atDocumentMarker column (c :: rest) then none
    else readSingle rest line (column + 1) (c :: gap.join text) .none

/-- Reads a scalar between double quotes, from behind the opening quote. A backslash before a break
takes the break away. -/
def readDouble (rest : List Char) (line column : Nat) (text : List Char) (gap : Gap) :
    Option (String × Cursor) :=
  match rest with
  | [] => none
  | '"' :: rest => some (String.ofList (gap.join text).reverse, ⟨rest, line, column + 1⟩)
  | '\\' :: 'x' :: a :: b :: rest =>
    match charOfDigits? [a, b] with
    | some c => readDouble rest line (column + 4) (c :: gap.join text) .none
    | none => none
  | '\\' :: 'u' :: a :: b :: c :: d :: rest =>
    match charOfDigits? [a, b, c, d] with
    | some c => readDouble rest line (column + 6) (c :: gap.join text) .none
    | none => none
  | '\\' :: 'U' :: a :: b :: c :: d :: e :: f :: g :: h :: rest =>
    match charOfDigits? [a, b, c, d, e, f, g, h] with
    | some c => readDouble rest line (column + 10) (c :: gap.join text) .none
    | none => none
  | '\\' :: c :: rest =>
    if isBreak c then readDouble rest (line + 1) 0 (gap.join text) (.breaks .none [])
    else match escaped? c with
      | some c => readDouble rest line (column + 2) (c :: gap.join text) .none
      | none => none
  | c :: rest =>
    if isBlank c then readDouble rest line (column + 1) text (gap.add c)
    else if isBreak c then readDouble rest (line + 1) 0 text (gap.add c)
    else if atDocumentMarker column (c :: rest) then none
    else readDouble rest line (column + 1) (c :: gap.join text) .none

/-! ### Block scalars -/

inductive Chomping where
  | strip
  | clip
  | keep
  deriving DecidableEq, Repr

def Chomping.ofSign? : Char → Option Chomping
  | '+' => some keep
  | '-' => some strip
  | _ => none

/-- Reads the header of a block scalar: a sign and a digit in any order, and nothing else but a
comment on the line. The digit is the indentation relative to the parent. -/
def readBlockHeader (cursor : Cursor) : Option (Chomping × Option Nat × Cursor) := do
  let sign (cursor : Cursor) : Option Chomping × Cursor :=
    match cursor.rest.head?.bind Chomping.ofSign? with
    | some chomping => (some chomping, cursor.skip 1)
    | none => (none, cursor)
  let digit (cursor : Cursor) : Option Nat × Cursor :=
    match cursor.rest.head?.filter Char.isDigit with
    | some c => (some (c.toNat - '0'.toNat), cursor.skip 1)
    | none => (none, cursor)
  let (before, cursor) := sign cursor
  let (increment, cursor) := digit cursor
  let (after, cursor) := if before.isNone ∧ increment.isSome then sign cursor else (none, cursor)
  guard (increment ≠ some 0)
  let cursor := cursor.skipComment
  guard (atLineEnd cursor.rest)
  return ((before <|> after).getD .clip, increment, cursor.skipBreak)

/-- The lines of a block scalar that have been read, each text in reverse. -/
structure BlockText where
  text : List Char := []
  lineBreak : Option Char := none
  emptyLines : List Char := []
  startsBlank : Bool := false

/-- The text with the breaks before a new line, of which the first character is given. -/
def BlockText.startLine (read : BlockText) (folded : Bool) (c : Char) : BlockText :=
  let joined :=
    if folded && read.lineBreak = some '\n' && !read.startsBlank && !isBlank c then
      if read.emptyLines.isEmpty then ' ' :: read.text else read.text
    else read.lineBreak.toList ++ read.text
  { text := read.emptyLines ++ joined, startsBlank := isBlank c }

def BlockText.chomp (read : BlockText) (chomping : Chomping) : String :=
  let tail :=
    match chomping with
    | .strip => []
    | .clip => read.lineBreak.toList
    | .keep => read.emptyLines ++ read.lineBreak.toList
  String.ofList (tail ++ read.text).reverse

/-- Reads the empty lines at the start of a block scalar whose indentation is not given. The deepest
indentation among them and the first other line counts. -/
def readLeadingLines (rest : List Char) (line column deepest : Nat) (breaks : List Char) :
    Option (Nat × List Char × Cursor) :=
  match rest with
  | [] => some (max deepest column, breaks, ⟨[], line, column⟩)
  | c :: rest =>
    if c = ' ' then readLeadingLines rest line (column + 1) deepest breaks
    else if c = '\t' then none
    else if isBreak c then
      readLeadingLines rest (line + 1) 0 (max deepest column) (c :: breaks)
    else some (max deepest column, breaks, ⟨c :: rest, line, column⟩)

/-- Reads the lines of a block scalar with a known indentation. -/
def readBlockLines (folded : Bool) (indent : Nat) (rest : List Char) (line column : Nat)
    (inLine : Bool) (read : BlockText) : Option (BlockText × Cursor) :=
  match rest with
  | [] => some (read, ⟨[], line, column⟩)
  | c :: rest =>
    if inLine then
      if isBreak c then
        readBlockLines folded indent rest (line + 1) 0 false { read with lineBreak := some c }
      else
        readBlockLines folded indent rest line (column + 1) true
          { read with text := c :: read.text }
    else if column < indent ∧ c = ' ' then
      readBlockLines folded indent rest line (column + 1) false read
    else if column < indent ∧ c = '\t' then none
    else if isBreak c then
      readBlockLines folded indent rest (line + 1) 0 false
        { read with emptyLines := c :: read.emptyLines }
    else if column = indent then
      let started := read.startLine folded c
      readBlockLines folded indent rest line (column + 1) true
        { started with text := c :: started.text }
    else some (read, ⟨c :: rest, line, column⟩)

/-- Reads a block scalar, from behind its indicator, in a collection whose content is indented by at
least `inner` columns. -/
def readBlock (folded : Bool) (inner : Nat) (cursor : Cursor) : Option (String × Cursor) := do
  let (chomping, increment, cursor) ← readBlockHeader cursor
  let (indent, breaks, cursor) ←
    match increment with
    | some increment => pure (inner - 1 + increment, [], cursor)
    | none => do
      let (deepest, breaks, cursor) ←
        readLeadingLines cursor.rest cursor.line cursor.column 0 []
      pure (max deepest (max inner 1), breaks, cursor)
  let (read, cursor) ←
    readBlockLines folded indent cursor.rest cursor.line cursor.column false
      { emptyLines := breaks }
  return (read.chomp chomping, cursor)

end HackAssembler.Yaml
