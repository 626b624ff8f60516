import HackAssembler.Resolution.Labels
import HackAssembler.Machine.Word

/-! # Variables

An operand that is a numeral stands for its value. Every other operand is a symbol, and a symbol
that is still unknown is a variable: variables get successive addresses in the order in which they
are first used.
-/

namespace HackAssembler

/-- The address of the first variable. -/
def firstVariable : Nat := 16

/-- The symbols known and the address free for the next variable up to some instruction. -/
structure VariableState where
  symbols : SymbolTable
  free : Nat

def VariableState.use : VariableState → Nat → String → Except Fault VariableState
  | ⟨symbols, free⟩, line, text =>
    if Text.isNumeral text then
      if Text.numeralValue text ≤ addressMax then .ok ⟨symbols, free⟩
      else .error ⟨.addressOverflow (.written text), line⟩
    else if symbols.contains text then .ok ⟨symbols, free⟩
    else if symbolMax < free + 1 then .error ⟨.addressOverflow (.written text), line⟩
    else .ok ⟨symbols.insertIfNew text ⟨.variable, free, some line⟩, free + 1⟩

/-- Takes account of an instruction; only a load with a written operand says anything. -/
def VariableState.next (state : VariableState) : Located Instruction → Except Fault VariableState
  | ⟨line, .load (.written text)⟩ => state.use line text
  | _ => .ok state

def SymbolTable.bindVariables (symbols : SymbolTable) (program : List (Located Instruction)) :
    Except Fault SymbolTable :=
  (program.foldlM VariableState.next ⟨symbols, firstVariable⟩).map VariableState.symbols

def Operand.evaluated : Operand → Operand
  | written text =>
    if Text.isNumeral text then literal (Text.numeralValue text) else written text
  | literal value => literal value

def Instruction.evaluated : Instruction → Instruction
  | load operand => load operand.evaluated
  | compute computation => compute computation

/-- The instructions of a program with the numerals replaced by their values. -/
def evaluateNumerals (program : List (Located Instruction)) : List (Located Instruction) :=
  program.map fun located => ⟨located.line, located.item.evaluated⟩

/-- Binds the variables of a program and evaluates its numerals. -/
def resolveVariables (symbols : SymbolTable) (program : List (Located Instruction)) :
    Except Fault (SymbolTable × List (Located Instruction)) := do
  return (← symbols.bindVariables program, evaluateNumerals program)

end HackAssembler
