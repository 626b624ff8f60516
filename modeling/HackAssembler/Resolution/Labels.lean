import HackAssembler.Source
import HackAssembler.Symbol

/-! # Labels

A label stands for the address of the next instruction, which is the number of instructions before
its declaration. Declarations take no room, so only the instructions of a program remain.
-/

namespace HackAssembler

/-- The symbols known and the instructions seen up to some statement. -/
structure LabelState where
  symbols : SymbolTable
  address : Nat

def LabelState.next : LabelState → Located Statement → Except Fault LabelState
  | ⟨symbols, address⟩, ⟨_, .instruction _⟩ => .ok ⟨symbols, address + 1⟩
  | ⟨symbols, address⟩, ⟨line, .label name⟩ =>
    if symbolMax < address then .error ⟨.addressOverflow (.written name), line⟩
    else match symbols.getThenInsertIfNew? name ⟨.label, address, some line⟩ with
      | (none, extended) => .ok ⟨extended, address⟩
      | (some earlier, _) => .error ⟨.duplicateLabel name earlier.line, line⟩

def SymbolTable.bindLabels (symbols : SymbolTable) (program : List (Located Statement)) :
    Except Fault SymbolTable :=
  (program.foldlM LabelState.next ⟨symbols, 0⟩).map LabelState.symbols

def Located.instruction? : Located Statement → Option (Located Instruction)
  | ⟨line, .instruction body⟩ => some ⟨line, body⟩
  | ⟨_, .label _⟩ => none

/-- The instructions of a program, in order. The position of an instruction is its address. -/
def instructions (program : List (Located Statement)) : List (Located Instruction) :=
  program.filterMap Located.instruction?

/-- Binds the labels of a program and leaves its instructions. -/
def resolveLabels (symbols : SymbolTable) (program : List (Located Statement)) :
    Except Fault (SymbolTable × List (Located Instruction)) := do
  return (← symbols.bindLabels program, instructions program)

end HackAssembler
