import HackAssembler.Machine.Field

/-! # Faults of a program

A fault says what is wrong and on which line of the source, counted from zero.
-/

namespace HackAssembler

inductive Oversized where
  | written (text : String)
  | symbol (name : String) (value : Nat)
  deriving DecidableEq, Repr

def Oversized.text : Oversized → String
  | written text => text
  | symbol name value => s!"{name} ({value})"

inductive Fault.Cause where
  /-- A label has the name of an earlier one, on the given line, or of a predefined symbol. -/
  | duplicateLabel (name : String) (earlier : Option Nat)
  | malformed (reason : String)
  | unresolvedMnemonic (field : Field) (mnemonic : String)
  | addressOverflow (operand : Oversized)
  | undefinedSymbol (name : String)
  deriving DecidableEq, Repr

def Fault.Cause.message : Fault.Cause → String
  | duplicateLabel name _ => s!"Duplicate label: `{name}`"
  | malformed reason => s!"Malformed instruction: {reason}"
  | unresolvedMnemonic field mnemonic => s!"Unresolved {field.name} mnemonic: `{mnemonic}`"
  | addressOverflow operand => s!"Address overflow: `{operand.text}` does not fit in 15 bits"
  | undefinedSymbol name => s!"Undefined symbol: `{name}`"

structure Fault where
  cause : Fault.Cause
  line : Nat
  deriving DecidableEq, Repr

def Fault.message (fault : Fault) : String :=
  fault.cause.message

end HackAssembler
