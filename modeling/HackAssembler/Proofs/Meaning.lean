import HackAssembler.Program
import HackAssembler.Proofs.Bindings
import Mathlib.Data.List.Forall2

/-! # What a program means

The meaning of a program is said of its statements alone, without the passes that compute it: its
symbols are those that it binds, and each instruction has one word, which a numeral, a symbol or
the mnemonics of a computation determine (`Program.Means`).
-/

namespace HackAssembler

/-- The mnemonic in a field of a computation, if the field is present. -/
def Computation.mnemonic? (computation : Computation) : Field → Option String
  | .comp => some computation.comp
  | .dest => computation.dest
  | .jump => computation.jump

/-- The pattern of a field that may be absent. -/
def Dialect.fieldPattern? (dialect : Dialect) (field : Field) : Option String → Option Nat
  | none => some Field.noOp
  | some mnemonic => dialect.pattern? field mnemonic

/-- The value of an operand, if it has one. A numeral stands for the number that it spells, also
where a symbol has its text, and every other text for the symbol of that name. -/
def Operand.value? (symbols : List (String × Symbol)) : Operand → Option Nat
  | literal value => some value
  | written text =>
      if Text.isNumeral text then some (Text.numeralValue text)
      else (symbols.lookup text).map Symbol.value

/-- An instruction stands for a word. -/
inductive Encodes (dialect : Dialect) (symbols : List (String × Symbol)) :
    Instruction → Word → Prop
  | load {operand : Operand} {value : Nat} (valued : operand.value? symbols = some value) :
      Encodes dialect symbols (.load operand) (.address value)
  | compute {computation : Computation} {comp dest jump : Nat}
      (comp_known : dialect.fieldPattern? .comp (computation.mnemonic? .comp) = some comp)
      (dest_known : dialect.fieldPattern? .dest (computation.mnemonic? .dest) = some dest)
      (jump_known : dialect.fieldPattern? .jump (computation.mnemonic? .jump) = some jump) :
      Encodes dialect symbols (.compute computation) (.compute comp dest jump)

theorem Encodes.unique {dialect : Dialect} {symbols : List (String × Symbol)} {body : Instruction}
    {first second : Word} (encodesFirst : Encodes dialect symbols body first)
    (encodesSecond : Encodes dialect symbols body second) : first = second := by
  cases encodesFirst with
  | load valued =>
      cases encodesSecond with
      | load otherValued =>
          rw [valued] at otherValued
          cases otherValued
          rfl
  | compute comp_known dest_known jump_known =>
      cases encodesSecond with
      | compute otherComp otherDest otherJump =>
          rw [comp_known] at otherComp
          rw [dest_known] at otherDest
          rw [jump_known] at otherJump
          cases otherComp
          cases otherDest
          cases otherJump
          rfl

/-- An assembled program is what statements mean. -/
structure Program.Means (dialect : Dialect) (statements : List (Located Statement))
    (program : Program) : Prop where
  symbols : program.symbols.toList = symbolEntries dialect statements
  instructions : program.instructions = evaluateNumerals (HackAssembler.instructions statements)
  words : List.Forall₂
    (fun located word => Encodes dialect program.symbols.toList located.item word)
    (HackAssembler.instructions statements) program.words

def translate (dialect : Dialect) (statements : List (Located Statement)) :
    Except Fault Program := do
  let (labelled, written) ← resolveLabels dialect.symbolTable statements
  let (symbols, instructions) ← resolveVariables labelled written
  let words ← encodeAll symbols dialect instructions
  return { instructions, words, symbols }

theorem assemble_eq_bind_translate (dialect : Dialect) (source : String) :
    assemble dialect source = Source.statements source >>= translate dialect :=
  rfl

end HackAssembler
