import HackAssembler.Proofs.Meaning
import HackAssembler.Proofs.Verdict

/-! # The flaws of a program

Every flaw is said of one line and of what stands before it, whether or not other lines have flaws
too. `flaws` lists all of them in the order in which they count.
-/

namespace HackAssembler

/-- The statements of a source, on those of its lines that can be read. -/
def Source.readable (source : String) : List (Located Statement) :=
  (codeLines source).filterMap fun written =>
    (Statement.read written.item).toOption.map fun statement => ⟨written.line, statement⟩

def readingFlaws (written : Located String) : List Flaw :=
  match Statement.read written.item with
  | .ok _ => []
  | .error malformation => [⟨.reading, 0, ⟨.malformed malformation.message, written.line⟩⟩]

/-- A label may stand behind too many instructions, and it may have the name of a symbol that is
known or of an earlier label. -/
def labelFlaws (known : List (String × Symbol)) (earlier : List (Located Statement)) :
    Located Statement → List Flaw
  | ⟨line, .label name⟩ =>
      (if (instructions earlier).length ≤ symbolMax then []
        else [⟨.labelling, 0, ⟨.addressOverflow (.written name), line⟩⟩]) ++
      (((known ++ labelEntries earlier).lookup name).map fun symbol =>
        ⟨.labelling, 1, ⟨.duplicateLabel name symbol.line, line⟩⟩).toList
  | ⟨_, .instruction _⟩ => []

/-- The number of variables that the allocation pass can register. -/
def variableMax : Nat := symbolMax - firstVariable

/-- A numeral may be too large, and a name may be the first for which no address is left. -/
def allocationFlaws (known : List String) (earlier : List (Located Instruction)) :
    Located Instruction → List Flaw
  | ⟨line, .load (.written text)⟩ =>
      if if Text.isNumeral text then addressMax < Text.numeralValue text
        else IsFresh known (symbolUses earlier) text ∧
          (freshUses known (symbolUses earlier)).length = variableMax
      then [⟨.allocation, 0, ⟨.addressOverflow (.written text), line⟩⟩] else []
  | _ => []

/-- The place of a field among what can be reported of a computation. -/
def Field.slot : Field → Nat
  | comp => 0
  | dest => 1
  | jump => 2

/-- A field of a computation may have a mnemonic that the dialect does not know. -/
def mnemonicFlaws (dialect : Dialect) (line : Nat) (field : Field) : Option String → List Flaw
  | none => []
  | some mnemonic =>
      match dialect.pattern? field mnemonic with
      | some _ => []
      | none => [⟨.encoding, field.slot, ⟨.unresolvedMnemonic field mnemonic, line⟩⟩]

/-- The value of a symbol may be too large, and so may a literal. -/
def operandFlaws (symbols : List (String × Symbol)) (line : Nat) : Operand → List Flaw
  | .literal value =>
      if value ≤ addressMax then []
      else [⟨.encoding, 0, ⟨.addressOverflow (.written (toString value)), line⟩⟩]
  | .written text =>
      if Text.isNumeral text then []
      else match symbols.lookup text with
        | some symbol =>
            if symbol.value ≤ addressMax then []
            else [⟨.encoding, 0, ⟨.addressOverflow (.symbol text symbol.value), line⟩⟩]
        | none => []

def encodingFlaws (dialect : Dialect) (symbols : List (String × Symbol)) :
    Located Instruction → List Flaw
  | ⟨line, .load operand⟩ => operandFlaws symbols line operand
  | ⟨line, .compute computation⟩ =>
      mnemonicFlaws dialect line .comp (computation.mnemonic? .comp) ++
        (mnemonicFlaws dialect line .dest (computation.mnemonic? .dest) ++
          mnemonicFlaws dialect line .jump (computation.mnemonic? .jump))

/-- The flaws of statements. -/
def statementFlaws (dialect : Dialect) (statements : List (Located Statement)) : List Flaw :=
  ((withEarlier statements).flatMap fun (earlier, statement) =>
      labelFlaws dialect.predefinedEntries earlier statement) ++
    (((withEarlier (instructions statements)).flatMap fun (earlier, located) =>
        allocationFlaws (boundNames dialect statements) earlier located) ++
      (instructions statements).flatMap
        (encodingFlaws dialect (symbolEntries dialect statements)))

/-- The flaws of a source. -/
def flaws (dialect : Dialect) (source : String) : List Flaw :=
  (Source.codeLines source).flatMap readingFlaws ++
    statementFlaws dialect (Source.readable source)

end HackAssembler
