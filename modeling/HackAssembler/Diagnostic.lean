import HackAssembler.Failure
import HackAssembler.Text.Lines
import HackAssembler.Text.Numeral
import HackAssembler.Text.Style

/-! # Diagnostics

A failure is shown with its cause and with the line that it points at. A duplicate label is shown
with the line of its earlier declaration too. A line that the source does not have shows as empty.
-/

namespace HackAssembler

namespace Diagnostic

def lineContent (source : String) (line : Nat) : String :=
  String.ofList ((Text.lines source)[line]?.getD [])

def gutter : String :=
  "      " ++ Text.styled [.blue] "|"

def excerpt (file source : String) (line : Nat) : List String :=
  ["     " ++ Text.styled [.blue] "-->" ++ " " ++ Text.styled [.underline] s!"{file}:{line + 1}",
    gutter,
    " " ++ Text.styled [.blue] (Text.decimal 4 (line + 1) ++ " |") ++ " " ++
      lineContent source line,
    gutter]

/-- The earlier declaration of a label that is declared twice. -/
def earlierDeclaration? : Failure → Option Nat
  | .ofProgram ⟨.duplicateLabel _ earlier, _⟩ => earlier
  | _ => none

def headline (failure : Failure) : String :=
  Text.styled [.red, .bold] "error" ++ ": " ++ failure.message

def causeLine (cause : String) : String :=
  "  " ++ Text.styled [.blue] "=" ++ " " ++ Text.styled [.bold] "caused by" ++ ": " ++ cause

def note : String :=
  Text.styled [.green, .bold] "note" ++ ": Already defined here"

end Diagnostic

open Diagnostic in
/-- The lines that show a failure in a file with the given source. -/
def Failure.diagnostic (failure : Failure) (file source : String) : List String :=
  [headline failure] ++ (failure.cause?.map causeLine).toList ++
    (failure.line?.map (excerpt file source)).getD [] ++
    ((earlierDeclaration? failure).map fun earlier =>
      note :: excerpt file source earlier).getD []

end HackAssembler
