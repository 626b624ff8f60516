import HackAssembler.Disassembly
import HackAssembler.Program

/-! # Listings

A listing shows a source line by line. A line with an instruction shows the address and the word
beside it, a line with a label the value of the label, and every other line its text. The variables
follow with their addresses.

The instructions are matched to the lines in order: an instruction whose line does not come after
that of the instruction before it is not shown, nor is any later one.
-/

namespace HackAssembler

namespace Listing

structure Row where
  address : Nat
  line : Nat
  word : Word
  deriving DecidableEq, Repr

def rows (program : Program) : List Row :=
  ((program.instructions.zip program.words).zipIdx).map fun ((located, word), address) =>
    ⟨address, located.line, word⟩

/-- The rows up to the first whose line lies before the given line or not after the line of the row
before it. -/
def ascendingFrom (least : Nat) : List Row → List Row
  | [] => []
  | row :: later =>
    if least ≤ row.line then row :: ascendingFrom (row.line + 1) later else []

def rowsByLine (program : Program) : Std.HashMap Nat Row :=
  (ascendingFrom 0 (rows program)).foldl (fun shown row => shown.insert row.line row) ∅

/-- The labels by the line that declares them; of several on one line the last is shown. -/
def labelsByLine (symbols : SymbolTable) : Std.HashMap Nat (String × Nat) :=
  (symbols.ofKind .label).foldl (fun labels (name, symbol) =>
    symbol.line.elim labels fun line => labels.insert line (name, symbol.value)) ∅

def title (path : String) : String :=
  String.ofList (List.replicate 24 '-') ++ "+------[" ++ path ++ "]" ++
    String.ofList (List.replicate (45 - path.utf8ByteSize) '-')

def rule : String :=
  String.ofList (List.replicate 24 '-') ++ "+" ++ String.ofList (List.replicate 53 '-')

def margin : String :=
  String.ofList (List.replicate 24 ' ')

def lineNumber (line : Nat) : String :=
  Text.decimal 4 (line + 1)

def Row.text (dialect : Dialect) (row : Row) (source : List Char) : String :=
  s!"[{Text.hexadecimal row.address}] {row.word.bits} | {lineNumber row.line}: " ++
    String.ofList (Text.padRight 24 (Text.trim source)) ++ " " ++ row.word.colouredCode dialect

def labelText (line : Nat) (name : String) (value : Nat) : String :=
  s!"{margin}| {lineNumber line}: " ++ Text.styled [.green] s!"({name})" ++
    s!" = 0x{Text.hexadecimal value}"

def plainText (line : Nat) (source : List Char) : String :=
  s!"{margin}| {lineNumber line}: " ++ String.ofList (Text.trimRight source)

def lineText (dialect : Dialect) (shown : Std.HashMap Nat Row)
    (labels : Std.HashMap Nat (String × Nat)) (line : Nat) (source : List Char) : String :=
  match shown[line]? with
  | some row => row.text dialect source
  | none =>
    match labels[line]? with
    | some (name, value) => labelText line name value
    | none => plainText line source

def variableText (name : String) (symbol : Symbol) : String :=
  Text.styled [.cyan] s!"@0x{Text.hexadecimal symbol.value} {name}"

end Listing

def Program.listing (program : Program) (dialect : Dialect) (path source : String) : List String :=
  let shown := Listing.rowsByLine program
  let labels := Listing.labelsByLine program.symbols
  [Listing.title path] ++
    (Text.lines source).zipIdx.map (fun (text, line) =>
      Listing.lineText dialect shown labels line text) ++
    [Listing.rule] ++
    (program.symbols.ofKind .variable).map fun (name, symbol) => Listing.variableText name symbol

end HackAssembler
