import HackAssembler.OrderedMap
import HackAssembler.Yaml.TokenStream

/-! # Nodes

A document is a tree of nodes: scalars, mappings, and aliases of nodes elsewhere in it. Anchors are
numbered. An anchor gets as its number the number of names that have been used for anchors before
it, an alias that of the last anchor with its name, and the node of a number is the last one to
begin of those that have it. Sequences are not nodes here: a document with one is not read.
-/

namespace HackAssembler.Yaml

inductive Node where
  | scalar (anchor : Option Nat) (tag : Option String) (style : Style) (text : String)
  | reference (target : Nat)
  | mapping (anchor : Option Nat) (entries : List (Node × Node))

namespace Node

def empty : Node :=
  scalar none none .plain ""

/-- The anchored nodes within a node in the order in which they begin. -/
def anchored : Node → List (Nat × Node)
  | node@(scalar anchor _ _ _) => (anchor.map (·, node)).toList
  | reference _ => []
  | node@(mapping anchor entries) => (anchor.map (·, node)).toList ++ within entries
where
  within : List (Node × Node) → List (Nat × Node)
    | [] => []
    | (key, value) :: rest => anchored key ++ anchored value ++ within rest

end Node

/-! ### Reading nodes from tokens -/

/-- The tokens still to be read and what the document has declared so far. -/
structure NodeState where
  tokens : List Token
  anchors : OrderedMap Nat
  handles : List (String × String)

/-- Reading from tokens; there is no result when they follow no rule. -/
abbrev Reading := StateT NodeState Option

namespace Reading

def peek : Reading Token := do
  match (← get).tokens with
  | token :: _ => return token
  | [] => failure

def advance : Reading Unit :=
  modify fun state => { state with tokens := state.tokens.drop 1 }

def expect (token : Token) : Reading Unit := do
  guard ((← peek) = token)
  advance

def declareAnchor (name : String) : Reading Nat := do
  let state ← get
  set { state with anchors := state.anchors.insert name state.anchors.size }
  return state.anchors.size

def tagText (handle suffix : String) : Reading String := do
  if handle = "" then return suffix
  match (← get).handles.lookup handle with
  | some expansion => return expansion ++ suffix
  | none => failure

def readAnchor? : Reading (Option Nat) := do
  match ← peek with
  | .anchor name =>
    advance
    return some (← declareAnchor name)
  | _ => return none

def readTag? : Reading (Option String) := do
  match ← peek with
  | .tag handle suffix =>
    advance
    return some (← tagText handle suffix)
  | _ => return none

def properties : Reading (Option Nat × Option String) := do
  match ← readAnchor? with
  | some anchor => return (some anchor, ← readTag?)
  | none =>
    let tag ← readTag?
    return (← if tag.isSome then readAnchor? else pure none, tag)

def readAlias (name : String) : Reading Node := do
  advance
  match (← get).anchors.get? name with
  | some target => return .reference target
  | none => failure

def optional (absentBefore : List Token) (read : Reading Node) : Reading Node := do
  if absentBefore.contains (← peek) then return .empty else read

def readValue (absentBefore : List Token) (read : Reading Node) : Reading Node := do
  if (← peek) = .value then
    advance
    optional absentBefore read
  else return .empty

def blockEntries (readNode : Reading Node) :
    (fuel : Nat) → List (Node × Node) → Reading (List (Node × Node))
  | 0, _ => failure
  | fuel + 1, entries => do
    match ← peek with
    | .key =>
      advance
      let key ← optional [.key, .value, .blockEnd] readNode
      let value ← readValue [.key, .value, .blockEnd] readNode
      blockEntries readNode fuel ((key, value) :: entries)
    | .blockEnd =>
      advance
      return entries.reverse
    | _ => failure

def flowMappingEntry (readNode : Reading Node) : Reading (Node × Node) := do
  if (← peek) = .key then
    advance
    let key ← optional [.value, .flowEntry, .flowMappingEnd] readNode
    return (key, ← readValue [.flowEntry, .flowMappingEnd] readNode)
  else return (← readNode, .empty)

/-- Reads the entries of a mapping in braces. A comma may follow the last one. -/
def flowEntries (readNode : Reading Node) :
    (fuel : Nat) → List (Node × Node) → Reading (List (Node × Node))
  | 0, _ => failure
  | fuel + 1, entries => do
    if (← peek) ≠ .flowMappingEnd ∧ !entries.isEmpty then expect .flowEntry
    if (← peek) = .flowMappingEnd then
      advance
      return entries.reverse
    let entry ← flowMappingEntry readNode
    flowEntries readNode fuel (entry :: entries)

/-- Reads a node. An indented mapping can stand in block context only. -/
def node : (fuel : Nat) → (inBlock : Bool) → Reading Node
  | 0, _ => failure
  | fuel + 1, inBlock => do
    if let .reference name ← peek then return ← readAlias name
    let (anchor, tag) ← properties
    match ← peek with
    | .scalar style text =>
      advance
      return .scalar anchor (tag.filter (· ≠ "!")) style text
    | .flowMappingStart =>
      advance
      return .mapping anchor (← flowEntries (node fuel false) (fuel + 1) [])
    | .blockMappingStart =>
      guard inBlock
      advance
      return .mapping anchor (← blockEntries (node fuel true) (fuel + 1) [])
    | .flowSequenceStart | .blockSequenceStart | .blockEntry => failure
    | _ =>
      guard (anchor.isSome || tag.isSome)
      return .scalar anchor tag .plain ""

/-! ### Documents -/

/-- Reads the directives of a document. The version is given at most once and is one of two, and no
handle is given twice. -/
def directives : (fuel : Nat) → (versioned : Bool) → Reading Unit
  | 0, _ => failure
  | fuel + 1, versioned => do
    match ← peek with
    | .version major minor =>
      guard (!versioned && major = 1 && (minor = 1 || minor = 2))
      advance
      directives fuel true
    | .tagHandle handle expansion =>
      let state ← get
      guard (state.handles.lookup handle = none)
      set { state with handles := state.handles ++ [(handle, expansion)] }
      advance
      directives fuel versioned
    | _ => return ()

/-- Adds the handles that every document has. Those that a document declares count first. -/
def addDefaultHandles : Reading Unit :=
  modify fun state => { state with
    handles := state.handles ++ [("!", "!"), ("!!", "tag:yaml.org,2002:")] }

def endsDocument : Token → Bool
  | .version .. | .tagHandle .. | .documentStart | .documentEnd | .streamEnd => true
  | _ => false

/-- Reads the root of the first document, if there is a document. -/
def root (fuel : Nat) : Reading (Option Node) := do
  match ← peek with
  | .streamEnd => return none
  | .version .. | .tagHandle .. | .documentStart =>
    directives fuel false
    addDefaultHandles
    expect .documentStart
    if endsDocument (← peek) then return some .empty else return some (← node fuel true)
  | _ =>
    addDefaultHandles
    return some (← node fuel true)

end Reading

/-- The root of the first document of a token stream, and the tokens after it. -/
def readRoot? (tokens : List Token) : Option (Option Node × List Token) := do
  -- Every node takes a token of its own and is read one level deeper than the node around it.
  let (root, state) ← (Reading.root (tokens.length + 1)).run ⟨tokens, ∅, []⟩
  return (root, state.tokens)

/-- Nothing but ends of documents is left before the end of the stream. -/
def endsStream (tokens : List Token) : Bool :=
  tokens.dropWhile (· = .documentEnd) = [.streamEnd]

end HackAssembler.Yaml
