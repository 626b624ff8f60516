import HackAssembler.Yaml.Token

/-! # Token streams

The tokens of a text, with the starts and ends of indented collections among them. A key is known as
one only when its colon is found, so every token that may begin a key is remembered: the colon must
follow on the same line and within 1024 characters, and then a key token, and the start of a mapping
if its column opens one, are put in front of what was remembered.

A text may be no token stream from some place on. The tokens before that place are those that can be
told apart without it: if a token may still begin a key there, they end before it.
-/

namespace HackAssembler.Yaml

structure KeyStart where
  place : Nat
  line : Nat
  column : Nat
  required : Bool

/-- The tokens read from a text so far and what governs the next one. -/
structure TokenState where
  cursor : Cursor
  indents : List Nat := []
  keyStart : Option KeyStart := none
  /-- The tokens that may begin keys at the levels outside the innermost brackets. -/
  outer : List (Option KeyStart) := []
  keyAllowed : Bool := true
  tokens : List Token := []
  count : Nat := 0

namespace TokenState

def inFlow (state : TokenState) : Bool :=
  !state.outer.isEmpty

/-- The least column of what belongs to the innermost indented collection. -/
def inner (state : TokenState) : Nat :=
  state.indents.head?.elim 0 (· + 1)

def push (state : TokenState) (token : Token) : TokenState :=
  { state with tokens := token :: state.tokens, count := state.count + 1 }

/-- The state with one more token, which has the given number of tokens before it. -/
def insertAt (state : TokenState) (place : Nat) (token : Token) : TokenState :=
  { state with
    tokens := state.tokens.insertIdx (state.count - place) token, count := state.count + 1 }

def moveTo (state : TokenState) (cursor : Cursor) : TokenState :=
  { state with cursor }

/-! ### Blanks between tokens -/

/-- Skips blanks, comments and breaks. A tab does not count as a blank where a key may begin in
block context, a byte order mark does at the start of a line, and after a break a key may begin. -/
def skipBlanks : (fuel : Nat) → TokenState → TokenState
  | 0, state => state
  | fuel + 1, state =>
    let cursor := if state.cursor.column = 0 ∧ state.cursor.rest.head? = some '\uFEFF' then
      state.cursor.skip 1 else state.cursor
    let tabs := state.inFlow || !state.keyAllowed
    let cursor := cursor.skipWhile fun c => c = ' ' || (tabs && c = '\t')
    let cursor := if cursor.rest.head? = some '#' then cursor.skipWhile (!isBreak ·) else cursor
    if cursor.rest.head?.any isBreak then
      skipBlanks fuel { state with
        cursor := cursor.skipBreak, keyAllowed := state.keyAllowed || !state.inFlow }
    else state.moveTo cursor

/-! ### Beginnings of keys -/

/-- A token cannot begin a key any more on another line or too far away. -/
def isStale (cursor : Cursor) (start : KeyStart) : Bool :=
  start.line ≠ cursor.line || start.column + 1024 < cursor.column

/-- Forgets a token that cannot begin a key any more; none may be required to. -/
def freshKey? (cursor : Cursor) : Option KeyStart → Option (Option KeyStart)
  | none => some none
  | some start =>
    if isStale cursor start then if start.required then none else some none else some (some start)

def dropStale (state : TokenState) : Option TokenState := do
  let keyStart ← freshKey? state.cursor state.keyStart
  let outer ← state.outer.mapM (freshKey? state.cursor)
  return { state with keyStart, outer }

/-- Forgets the token that may begin a key at the innermost level; it must not be required to. -/
def clearKey (state : TokenState) : Option TokenState := do
  guard (!state.keyStart.any KeyStart.required)
  return { state with keyStart := none }

/-- Remembers that the next token may begin a key. In block context it must if it stands at the
column of the collection. -/
def saveKey (state : TokenState) : Option TokenState := do
  if state.keyAllowed then
    let required := !state.inFlow && state.inner = state.cursor.column + 1
    let state ← state.clearKey
    let start : KeyStart :=
      ⟨state.count, state.cursor.line, state.cursor.column, required⟩
    return { state with keyStart := some start }
  else return state

/-! ### Indented collections -/

/-- Closes the indented collections at the given least column or a greater one. -/
def unindent (state : TokenState) (least : Nat) : TokenState :=
  if state.inFlow then state else
    let closed := (state.indents.takeWhile fun column => least ≤ column).length
    { state with
      indents := state.indents.drop closed
      tokens := List.replicate closed .blockEnd ++ state.tokens
      count := state.count + closed }

/-- Opens an indented collection at a column that is deeper than the innermost one. Its start is put
at the given place among the tokens. -/
def indent (state : TokenState) (column place : Nat) (start : Token) : TokenState :=
  if state.inFlow || decide (column < state.inner) then state
  else { state.insertAt place start with indents := column :: state.indents }

/-! ### One token -/

/-- Ends the stream: a key that is still required never comes. -/
def endStream (state : TokenState) : Option TokenState := do
  let state ← (state.unindent 0).clearKey
  return state.push .streamEnd

def directive (state : TokenState) : Option TokenState := do
  let state ← (state.unindent 0).clearKey
  let (token, cursor) ← readDirective (state.cursor.skip 1)
  return { state.push token with keyAllowed := false, cursor }

def documentMarker (state : TokenState) (token : Token) : Option TokenState := do
  let state ← (state.unindent 0).clearKey
  return { state.push token with keyAllowed := false, cursor := state.cursor.skip 3 }

def openFlow (state : TokenState) (token : Token) : Option TokenState := do
  let state ← state.saveKey
  return { state.push token with
    keyStart := none, outer := state.keyStart :: state.outer, keyAllowed := true
    cursor := state.cursor.skip 1 }

def closeFlow (state : TokenState) (token : Token) : Option TokenState := do
  let state ← state.clearKey
  return { state.push token with
    keyStart := state.outer.headD state.keyStart, outer := state.outer.tail, keyAllowed := false
    cursor := state.cursor.skip 1 }

def flowEntry (state : TokenState) : Option TokenState := do
  let state ← state.clearKey
  return { state.push .flowEntry with keyAllowed := true, cursor := state.cursor.skip 1 }

/-- Reads a dash before an entry or a question mark before a key, which open a collection in block
context. -/
def blockIndicator (state : TokenState) (start token : Token) (keyAllowed : Bool) :
    Option TokenState := do
  guard (state.inFlow || state.keyAllowed)
  let state ← (state.indent state.cursor.column state.count start).clearKey
  return { state.push token with keyAllowed, cursor := state.cursor.skip 1 }

/-- Reads a colon. What was remembered becomes the key; else the key is empty. -/
def colon (state : TokenState) : Option TokenState :=
  match state.keyStart with
  | some start =>
    let keyed := (state.insertAt start.place .key).indent start.column start.place
      .blockMappingStart
    some { keyed.push .value with
      keyStart := none, keyAllowed := false, cursor := state.cursor.skip 1 }
  | none => do
    guard (state.inFlow || state.keyAllowed)
    let state := state.indent state.cursor.column state.count .blockMappingStart
    return { state.push .value with keyAllowed := !state.inFlow, cursor := state.cursor.skip 1 }

def named (state : TokenState) (token : String → Token) : Option TokenState := do
  let state ← state.saveKey
  let (name, cursor) ← readAnchor (state.cursor.skip 1)
  return { state.push (token name) with keyAllowed := false, cursor }

def tag (state : TokenState) : Option TokenState := do
  let state ← state.saveKey
  let (token, cursor) ← readTag state.inFlow state.cursor
  return { state.push token with keyAllowed := false, cursor }

def blockScalar (state : TokenState) (style : Style) : Option TokenState := do
  let state ← state.clearKey
  let (text, cursor) ← readBlock (style = .folded) state.inner (state.cursor.skip 1)
  return { state.push (.scalar style text) with keyAllowed := true, cursor }

def quotedScalar (state : TokenState)
    (read : List Char → Nat → Nat → List Char → Gap → Option (String × Cursor)) :
    Option TokenState := do
  let state ← state.saveKey
  let start := state.cursor.skip 1
  let (text, cursor) ← read start.rest start.line start.column [] .none
  return { state.push (.scalar .quoted text) with keyAllowed := false, cursor }

def plainScalar (state : TokenState) : Option TokenState := do
  let state ← state.saveKey
  let start := state.cursor
  let (text, cursor, broken) ←
    readPlain state.inFlow state.inner start.rest start.line start.column [] .none
  return { state.push (.scalar .plain text) with keyAllowed := broken, cursor }

/-- The characters that cannot begin a plain scalar, unless they may by what follows. -/
def isIndicator (c : Char) : Bool :=
  ['-', '?', ':', ',', '[', ']', '{', '}', '#', '&', '*', '!', '|', '>', '\'', '"', '%', '@',
    '\x60'].contains c

def readFrom (state : TokenState) (c : Char) (rest : List Char) : Option TokenState :=
  let alone := state.inFlow || atBoundary rest
  if c = '[' then state.openFlow .flowSequenceStart
  else if c = '{' then state.openFlow .flowMappingStart
  else if c = ']' then state.closeFlow .flowSequenceEnd
  else if c = '}' then state.closeFlow .flowMappingEnd
  else if c = ',' then state.flowEntry
  else if c = '-' ∧ atBoundary rest then state.blockIndicator .blockSequenceStart .blockEntry true
  else if c = '?' ∧ alone then state.blockIndicator .blockMappingStart .key (!state.inFlow)
  else if c = ':' ∧ alone then state.colon
  else if c = '*' then state.named .reference
  else if c = '&' then state.named .anchor
  else if c = '!' then state.tag
  else if c = '|' ∧ ¬state.inFlow then state.blockScalar .literal
  else if c = '>' ∧ ¬state.inFlow then state.blockScalar .folded
  else if c = '\'' then state.quotedScalar readSingle
  else if c = '"' then state.quotedScalar readDouble
  else if isIndicator c then
    if c = '-' ∨ (!state.inFlow ∧ (c = '?' ∨ c = ':')) then state.plainScalar else none
  else if isBlank c then none
  else state.plainScalar

/-- Reads the next token; the end of the text is a token too. -/
def next (fuel : Nat) (state : TokenState) : Option TokenState := do
  let state ← (state.skipBlanks fuel).dropStale
  let column := state.cursor.column
  let state := state.unindent (column + 1)
  match state.cursor.rest with
  | [] => state.endStream
  | c :: rest =>
    if column = 0 ∧ c = '%' then state.directive
    else if column = 0 ∧ startsMarker '-' (c :: rest) then state.documentMarker .documentStart
    else if column = 0 ∧ startsMarker '.' (c :: rest) then state.documentMarker .documentEnd
    else state.readFrom c rest

def settled (state : TokenState) : List Token :=
  let places := (state.keyStart :: state.outer).filterMap fun start =>
    (start.filter fun start => !isStale state.cursor start).map KeyStart.place
  state.tokens.reverse.take (places.min?.getD state.count)

/-- Reads tokens until the end of the stream or a place where there is none. Every token but the end
takes at least one character, so the length of the text bounds their number. -/
def readAll : (fuel : Nat) → TokenState → List Token
  | 0, state => state.settled
  | fuel + 1, state =>
    match state.next (fuel + 1) with
    | none => state.settled
    | some after =>
      if after.tokens.head? = some .streamEnd then after.tokens.reverse else readAll fuel after

end TokenState

/-- The tokens of a text. If the last is not the end of the stream, the text is no token stream from
there on. -/
def tokens (text : List Char) : List Token :=
  TokenState.readAll (text.length + 2) { cursor := ⟨text, 0, 0⟩ }

end HackAssembler.Yaml
