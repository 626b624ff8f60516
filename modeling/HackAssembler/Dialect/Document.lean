import HackAssembler.Dialect.Sections
import HackAssembler.Yaml.Node

/-! # Dialects from YAML documents

A table document in YAML is a mapping with the sections by name, each a mapping of its own. An empty
document, a missing section and a null section keep the built-in contents. Names, mnemonics and
patterns are taken as texts however they are written, and addresses are plain integers. A name that
occurs again in a section keeps its place and takes the later value; a section occurs once.
-/

namespace HackAssembler

inductive DocumentFault where
  | unreadable
  | invalid (fault : TableFault)
  deriving DecidableEq, Repr

def DocumentFault.message? : DocumentFault → Option String
  | unreadable => none
  | invalid fault => some fault.message

namespace Document

open Yaml

/-- The anchored nodes of a document, the last to begin first. -/
abbrev Targets := List (Nat × Node)

/-- The node that a node stands for: an alias stands for the last node with its number. -/
def resolve? (targets : Targets) : Node → Option Node
  | .reference target => targets.lookup target
  | other => some other

def readText (targets : Targets) (node : Node) : Option String :=
  match resolve? targets node with
  | some (.scalar _ _ _ text) => some text
  | _ => none

/-! ### Integers -/

/-- A numeral has a leading zero if it is longer than that zero. -/
def hasLeadingZero : List Char → Bool
  | '0' :: digit :: digits => (digit :: digits).all Char.isDigit
  | _ => false

/-- The value of digits, of which there must be one, in a base. -/
def readDigits (base : Nat) (digits : List Char) : Option Nat :=
  if digits.isEmpty then none else digitsValue? base digits

/-- The value of an integer: after an optional plus sign, hexadecimal behind `0x`, octal behind
`0o`, binary behind `0b`, and otherwise decimal without a leading zero. -/
def readInteger (text : List Char) : Option Nat :=
  let unsigned := if text.head? = some '+' then text.drop 1 else text
  match unsigned with
  | '0' :: 'x' :: digits => readDigits 16 digits
  | '0' :: 'o' :: digits => readDigits 8 digits
  | '0' :: 'b' :: digits => readDigits 2 digits
  | digits => if hasLeadingZero digits then none else readDigits 10 digits

def nullTag : String := "tag:yaml.org,2002:null"

def integerTag : String := "tag:yaml.org,2002:int"

/-- Reads the address of a symbol: a plain integer, or a literal one that is tagged as such. -/
def readAddress (targets : Targets) (node : Node) : Option Nat := do
  match ← resolve? targets node with
  | .scalar _ tag style text =>
    guard (style = .plain ∨ (style = .literal ∧ tag = some integerTag))
    let value ← readInteger text.toList
    guard (value ≤ symbolMax)
    return value
  | _ => none

/-! ### Sections -/

def isNullText (text : String) : Bool :=
  ["null", "Null", "NULL", "~"].contains text

/-- A plain scalar is null if it is empty or stands for null; one that is tagged as null must stand
for it, and one with another tag is not null. -/
def readsNull (tag : Option String) (text : String) : Option Bool :=
  match tag with
  | none => some (text.isEmpty || isNullText text)
  | some tag => if tag = nullTag then (if isNullText text then some true else none) else some false

/-- The entries of a section, or nothing if the section is null. A plain scalar that is neither null
nor other than empty is a section without entries. -/
def sectionEntries? (targets : Targets) (node : Node) : Option (Option (List (Node × Node))) := do
  match ← resolve? targets node with
  | .mapping _ entries => return some entries
  | .scalar _ tag .plain text =>
    if ← readsNull tag text then return none
    guard text.isEmpty
    return some []
  | _ => none

/-- Reads a section whose values are read by the given function. -/
def readSection {α : Type} (targets : Targets) (readValue : Targets → Node → Option α)
    (node : Node) : Option (Option (OrderedMap α)) := do
  match ← sectionEntries? targets node with
  | none => return none
  | some entries =>
    let known ← entries.foldlM (fun known (key, value) => do
      return known.insert (← readText targets key) (← readValue targets value)) ∅
    return some known

def readInto (targets : Targets) (sections : Sections) (name : Section) (value : Node) :
    Option Sections :=
  match name with
  | .symbols => return { sections with symbols := ← readSection targets readAddress value }
  | .mnemonics field =>
    return sections.setMnemonics field (← readSection targets readText value)

def readSections (targets : Targets) (entries : List (Node × Node)) : Option Sections := do
  let step (state : Sections × List Section) (entry : Node × Node) :
      Option (Sections × List Section) := do
    let name ← Section.named? (← readText targets entry.1)
    guard (!state.2.contains name)
    return (← readInto targets state.1 name entry.2, name :: state.2)
  return (← entries.foldlM step ({}, [])).1

def readRoot (root : Node) : Option Sections :=
  match root with
  | .mapping _ entries => readSections root.anchored.reverse entries
  | .scalar _ _ .plain "" => some {}
  | _ => none

end Document

/-- The dialect that a YAML stream describes. The sections are checked as soon as the root has been
read, and what follows it only after them. -/
def Dialect.ofDocument (bytes : ByteArray) : Except DocumentFault Dialect := do
  let some text := Yaml.decode? bytes | throw .unreadable
  let some (root, rest) := Yaml.readRoot? (Yaml.tokens text) | throw .unreadable
  let some sections := root.elim (some {}) Document.readRoot | throw .unreadable
  let dialect ← (ofSections sections).mapError .invalid
  unless Yaml.endsStream rest do throw .unreadable
  return dialect

end HackAssembler
