import HackAssembler.Dialect.Hack
import HackAssembler.Text.Numeral

/-! # Dialects from written sections

A table document has up to four sections. An absent section keeps the built-in contents, and a
present one, even an empty one, replaces them. The mnemonic sections are checked in the order
`comp`, `dest`, `jump` and entry by entry in written order: a pattern has as many binary digits as
its field has bits, it is not the reserved one, and no earlier entry has it.
-/

namespace HackAssembler

/-- Why the sections of a table document describe no dialect. -/
inductive TableFault where
  | badPattern (field : Field) (mnemonic pattern : String)
  | duplicatePattern (field : Field) (pattern first second : String)
  | reservedPattern (field : Field) (mnemonic : String)
  deriving DecidableEq, Repr

def TableFault.message : TableFault → String
  | badPattern field mnemonic pattern =>
      s!"Bad {field.name} pattern `{pattern}` for `{mnemonic}`: " ++
        s!"expected {field.width} binary digits"
  | duplicatePattern field pattern first second =>
      s!"{field.name} pattern `{pattern}` is mapped by both `{first}` and `{second}`"
  | reservedPattern field mnemonic =>
      s!"{field.name} mnemonic `{mnemonic}` uses the reserved no-op pattern"

inductive Section where
  | symbols
  | mnemonics (field : Field)
  deriving DecidableEq, Repr

namespace Section

def all : List Section :=
  [symbols, mnemonics .comp, mnemonics .dest, mnemonics .jump]

def name : Section → String
  | symbols => "symbols"
  | mnemonics field => field.name

def named? (text : String) : Option Section :=
  all.find? fun candidate => candidate.name = text

end Section

structure Sections where
  symbols : Option (OrderedMap Nat) := none
  comp : Option (OrderedMap String) := none
  dest : Option (OrderedMap String) := none
  jump : Option (OrderedMap String) := none

def Sections.setMnemonics (sections : Sections) (field : Field)
    (written : Option (OrderedMap String)) : Sections :=
  match field with
  | .comp => { sections with comp := written }
  | .dest => { sections with dest := written }
  | .jump => { sections with jump := written }

/-- The number that a pattern of a field spells; `none` unless it has one binary digit for every
bit of the field. -/
def Field.readPattern? (field : Field) (pattern : String) : Option Nat :=
  if pattern.toList.length = field.width then Text.binaryValue? pattern.toList else none

theorem Field.readPattern?_lt {field : Field} {text : String} {pattern : Nat}
    (read : field.readPattern? text = some pattern) : pattern < field.capacity := by
  simp only [readPattern?, Option.ite_none_right_eq_some] at read
  rw [capacity, ← read.1]
  exact Text.binaryValue?_lt read.2

namespace Codebook

variable {field : Field}

/-- Extends a codebook by written entries, up to the first faulty one. -/
def extend (book : Codebook field) : (written : List (String × String)) →
    ((book.entries.map Prod.fst ++ written.map Prod.fst).Nodup) →
    Except TableFault (Codebook field)
  | [], _ => .ok book
  | (mnemonic, text) :: rest, names =>
    match read : field.readPattern? text with
    | none => .error (.badPattern field mnemonic text)
    | some pattern =>
      match unreserved : field.reserves pattern with
      | true => .error (.reservedPattern field mnemonic)
      | false =>
        match unused : book.mnemonic? pattern with
        | some first =>
          .error (.duplicatePattern field (Text.binary field.width pattern) first mnemonic)
        | none =>
          have newMnemonic : mnemonic ∉ book.entries.map Prod.fst := by
            intro known
            exact (List.nodup_append.mp names).2.2 mnemonic known mnemonic (by simp) rfl
          (book.add mnemonic pattern newMnemonic unused (field.readPattern?_lt read)
            unreserved).extend rest (by simpa [add, List.append_assoc] using names)

def ofSection (field : Field) (written : OrderedMap String) :
    Except TableFault (Codebook field) :=
  (empty field).extend written.toList (by simpa [empty] using written.nodup_names)

end Codebook

namespace Dialect

/-- The codebook of a written section, or the built-in one if the section is absent. -/
def codebookOf {field : Field} (builtIn : Codebook field) :
    Option (OrderedMap String) → Except TableFault (Codebook field)
  | none => .ok builtIn
  | some written => Codebook.ofSection field written

/-- The dialect that the sections of a table document describe. -/
def ofSections (sections : Sections) : Except TableFault Dialect := do
  let comp ← codebookOf hack.comp sections.comp
  let dest ← codebookOf hack.dest sections.dest
  let jump ← codebookOf hack.jump sections.jump
  return { symbols := sections.symbols.getD hack.symbols, comp, dest, jump }

end Dialect

end HackAssembler
