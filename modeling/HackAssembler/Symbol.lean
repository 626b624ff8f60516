import HackAssembler.Dialect.Basic

/-! # Symbols

A symbol table keeps its symbols in the order in which they were registered and never overwrites
one. It starts from the predefined symbols of a dialect.
-/

namespace HackAssembler

inductive Symbol.Kind where
  | predefined
  | label
  | variable
  deriving DecidableEq, Repr

/-- What is known of a symbol. -/
structure Symbol where
  kind : Symbol.Kind
  value : Nat
  /-- The line of the source that introduces it; none for predefined symbols. -/
  line : Option Nat
  deriving DecidableEq, Repr

/-- The symbols of a program by name, in order of registration. -/
abbrev SymbolTable := OrderedMap Symbol

def Dialect.symbolTable (dialect : Dialect) : SymbolTable :=
  dialect.symbols.mapValues fun address => ⟨.predefined, address, none⟩

def SymbolTable.value? (symbols : SymbolTable) (name : String) : Option Nat :=
  (symbols.get? name).map Symbol.value

def SymbolTable.ofKind (symbols : SymbolTable) (kind : Symbol.Kind) : List (String × Symbol) :=
  symbols.toList.filter fun entry => entry.2.kind = kind

end HackAssembler
