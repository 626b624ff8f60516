import HackAssembler.Dialect.Codebook
import HackAssembler.OrderedMap

/-! # Dialects

A dialect says which symbols are predefined and which mnemonics the three fields of a computation
have. The built-in dialect is that of the Hack computer; others replace some of its parts.
-/

namespace HackAssembler

/-- The largest address that a symbol can have. -/
def symbolMax : Nat := 0xFFFF

/-- The predefined symbols and the mnemonics of an assembly language. -/
structure Dialect where
  symbols : OrderedMap Nat
  comp : Codebook .comp
  dest : Codebook .dest
  jump : Codebook .jump

namespace Dialect

def codebook (dialect : Dialect) : (field : Field) → Codebook field
  | .comp => dialect.comp
  | .dest => dialect.dest
  | .jump => dialect.jump

def symbol? (dialect : Dialect) (name : String) : Option Nat :=
  dialect.symbols.get? name

def pattern? (dialect : Dialect) (field : Field) (mnemonic : String) : Option Nat :=
  (dialect.codebook field).pattern? mnemonic

def mnemonic? (dialect : Dialect) (field : Field) (pattern : Nat) : Option String :=
  (dialect.codebook field).mnemonic? pattern

end Dialect

end HackAssembler
