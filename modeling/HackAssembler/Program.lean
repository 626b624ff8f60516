import HackAssembler.Encoding

/-! # Assembled programs

Assembling a source reads its statements, binds its labels, binds its variables and encodes its
instructions. The output text has one word on each line and no line feed at its end.
-/

namespace HackAssembler

/-- The result of assembling a source. -/
structure Program where
  instructions : List (Located Instruction)
  words : List Word
  symbols : SymbolTable

namespace Program

def text (program : Program) : String :=
  "\n".intercalate (program.words.map Word.bits)

end Program

/-- Assembles a source. -/
def assemble (dialect : Dialect) (source : String) : Except Fault Program := do
  let statements ← Source.statements source
  let (labelled, written) ← resolveLabels dialect.symbolTable statements
  let (symbols, instructions) ← resolveVariables labelled written
  let words ← encodeAll symbols dialect instructions
  return { instructions, words, symbols }

end HackAssembler
