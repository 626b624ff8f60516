/-! # Statements

A statement of the assembly language declares a label or is an instruction. An instruction loads an
operand or computes, and a computation has up to three fields. `Statement.code` writes a statement
without blanks.
-/

namespace HackAssembler

inductive Operand where
  /-- The text of the operand as it was written: a symbol, or a numeral not yet read. -/
  | written (text : String)
  | literal (value : Nat)
  deriving DecidableEq, Repr

structure Computation where
  dest : Option String
  comp : String
  jump : Option String
  deriving DecidableEq, Repr

inductive Instruction where
  | load (operand : Operand)
  | compute (computation : Computation)
  deriving DecidableEq, Repr

inductive Statement where
  | label (name : String)
  | instruction (body : Instruction)
  deriving DecidableEq, Repr

def Operand.text : Operand → String
  | written text => text
  | literal value => toString value

def Computation.code (computation : Computation) : String :=
  computation.dest.elim "" (· ++ "=") ++ computation.comp ++ computation.jump.elim "" (";" ++ ·)

def Instruction.code : Instruction → String
  | load operand => "@" ++ operand.text
  | compute computation => computation.code

def Statement.code : Statement → String
  | label name => "(" ++ name ++ ")"
  | instruction body => body.code

end HackAssembler
