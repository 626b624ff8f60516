import HackAssembler.Resolution.Variables

/-! # Encoding

An instruction becomes a word once its operand has a value and its mnemonics have patterns. Of
several mnemonics that the dialect does not know, the computation is reported before the
destination and the destination before the jump.
-/

namespace HackAssembler

def Word.load (value : Nat) (oversized : Oversized) (line : Nat) : Except Fault Word :=
  if value ≤ addressMax then .ok (.address value) else .error ⟨.addressOverflow oversized, line⟩

def Operand.encode (symbols : SymbolTable) (line : Nat) : Operand → Except Fault Word
  | literal value => Word.load value (.written (toString value)) line
  | written name =>
    match symbols.value? name with
    | none => .error ⟨.undefinedSymbol name, line⟩
    | some value => Word.load value (.symbol name value) line

def Dialect.resolve (dialect : Dialect) (line : Nat) (field : Field) (mnemonic : String) :
    Except Fault Nat :=
  match dialect.pattern? field mnemonic with
  | some pattern => .ok pattern
  | none => .error ⟨.unresolvedMnemonic field mnemonic, line⟩

def Dialect.resolveOptional (dialect : Dialect) (line : Nat) (field : Field) :
    Option String → Except Fault Nat
  | none => .ok Field.noOp
  | some mnemonic => dialect.resolve line field mnemonic

def Computation.encode (dialect : Dialect) (line : Nat) (computation : Computation) :
    Except Fault Word := do
  let comp ← dialect.resolve line .comp computation.comp
  let dest ← dialect.resolveOptional line .dest computation.dest
  let jump ← dialect.resolveOptional line .jump computation.jump
  return .compute comp dest jump

def encode (symbols : SymbolTable) (dialect : Dialect) :
    Located Instruction → Except Fault Word
  | ⟨line, .load operand⟩ => operand.encode symbols line
  | ⟨line, .compute computation⟩ => computation.encode dialect line

def encodeAll (symbols : SymbolTable) (dialect : Dialect) (program : List (Located Instruction)) :
    Except Fault (List Word) :=
  program.mapM (encode symbols dialect)

end HackAssembler
