import HackAssembler.Decimal.Shortest
import HackAssembler.Dialect.Sections
import HackAssembler.Text.Quoted

/-! # Dialects from structured data

A table document may be given as structured data: a map with the sections by name, or a sequence of
the sections in the order `symbols`, `comp`, `dest`, `jump` with trailing ones left out. A section
that is missing or null keeps the built-in contents. The data are read in written order and the
first item of the wrong type is reported; only then are the sections checked.
-/

namespace HackAssembler

inductive Datum where
  | null
  | boolean (value : Bool)
  | integer (value : Int)
  | real (value : Float)
  | text (value : String)
  | sequence (items : List Datum)
  | map (entries : List (String × Datum))
  deriving Inhabited

/-- How real numbers are written in messages: without an exponent up to sixteen digits before the
point and up to four zeros after it. -/
def Datum.realFormat : Decimal.Format where
  mostWhole := 16
  mostZeros := 4

def Datum.description : Datum → String
  | null => "null"
  | boolean value => s!"boolean `{value}`"
  | integer value => s!"integer `{value}`"
  | real value => s!"floating point `{realFormat.float value}`"
  | text value => s!"string {Text.quoted value}"
  | sequence _ => "sequence"
  | map _ => "map"

inductive Datum.Expected where
  | document
  | mapping
  | address
  | pattern
  deriving DecidableEq, Repr

def Datum.Expected.text : Datum.Expected → String
  | document => "struct RawTables"
  | mapping => "a map"
  | address => "u16"
  | pattern => "a string"

inductive DatumFault where
  | unknownSection (name : String)
  | wrongType (found : Datum) (expected : Datum.Expected)
  | outOfRange (value : Int)
  | tooManySections (count : Nat)
  | invalid (fault : TableFault)

def DatumFault.message : DatumFault → String
  | unknownSection name =>
      s!"unknown field `{name}`, expected one of `symbols`, `comp`, `dest`, `jump`"
  | wrongType found expected => s!"invalid type: {found.description}, expected {expected.text}"
  | outOfRange value => s!"invalid value: integer `{value}`, expected {Datum.Expected.address.text}"
  | tooManySections count => s!"invalid length {count}, expected fewer elements in array"
  | invalid fault => fault.message

namespace Datum

def readAddress : Datum → Except DatumFault Nat
  | integer value =>
    if 0 ≤ value ∧ value ≤ symbolMax then .ok value.toNat else .error (.outOfRange value)
  | other => .error (.wrongType other .address)

def readPattern : Datum → Except DatumFault String
  | text value => .ok value
  | other => .error (.wrongType other .pattern)

/-- Reads a section whose entries are read by the given function. -/
def readSection {α : Type} (readValue : Datum → Except DatumFault α) :
    Datum → Except DatumFault (Option (OrderedMap α))
  | null => .ok none
  | map entries => some <$> entries.foldlM (fun known (name, value) =>
      return known.insert name (← readValue value)) ∅
  | other => .error (.wrongType other .mapping)

def readInto (sections : Sections) (name : Section) (value : Datum) :
    Except DatumFault Sections :=
  match name with
  | .symbols => return { sections with symbols := ← value.readSection readAddress }
  | .mnemonics field =>
    return sections.setMnemonics field (← value.readSection readPattern)

def readDocument : Datum → Except DatumFault Sections
  | map entries => entries.foldlM (fun sections (name, value) =>
      match Section.named? name with
      | some known => readInto sections known value
      | none => .error (.unknownSection name)) {}
  | sequence items => do
    let sections ← (Section.all.zip items).foldlM (fun sections (name, value) =>
      readInto sections name value) {}
    if Section.all.length < items.length then throw (.tooManySections items.length)
    return sections
  | other => .error (.wrongType other .document)

end Datum

def Dialect.ofDatum (datum : Datum) : Except DatumFault Dialect := do
  let sections ← datum.readDocument
  (ofSections sections).mapError .invalid

end HackAssembler
