import HackAssembler.Machine.Word
import HackAssembler.Dialect.Basic
import HackAssembler.Statement.Basic
import HackAssembler.Text.Style

/-! # Disassembly

A word is written back as code: a load with the decimal value, a computation with the mnemonics of
its patterns. A pattern without mnemonic shows as `?`, and the patterns of absent fields are left
out.
-/

namespace HackAssembler

def Dialect.mnemonicText (dialect : Dialect) (field : Field) (pattern : Nat) : String :=
  (dialect.mnemonic? field pattern).getD "?"

def Dialect.optionalMnemonic (dialect : Dialect) (field : Field) (pattern : Nat) : Option String :=
  if pattern = Field.noOp then none else some (dialect.mnemonicText field pattern)

namespace Word

def disassemble (dialect : Dialect) : Word → Instruction
  | address value => .load (.literal value)
  | compute comp dest jump => .compute
      { dest := dialect.optionalMnemonic .dest dest
        comp := dialect.mnemonicText .comp comp
        jump := dialect.optionalMnemonic .jump jump }

def code (dialect : Dialect) (word : Word) : String :=
  (word.disassemble dialect).code

def colour : Word → Text.Style
  | address _ => .yellow
  | compute .. => .cyan

def colouredCode (dialect : Dialect) (word : Word) : String :=
  Text.styled [word.colour] (word.code dialect)

end Word

end HackAssembler
