import HackAssembler.Statement.Reading
import HackAssembler.Text.Blank
import HackAssembler.Text.Lines
import HackAssembler.Fault

/-! # Source texts

The code of a line is what remains when blanks and backspaces are dropped and the text from the
first `//` on is cut off. Blanks go first, so a comment may also start with two slashes that a blank
separates. Lines without code say nothing; every other line holds one statement.
-/

namespace HackAssembler

/-- An item of a program with the line of the source, counted from zero, that it came from. -/
structure Located (α : Type) where
  line : Nat
  item : α
  deriving DecidableEq, Repr

namespace Source

/-- A character counts if it is neither blank nor a backspace. -/
def significant (c : Char) : Bool :=
  !Text.isBlank c && c != '\x08'

/-- The text before the first `//`: each of its characters stands before a character with which it
is not two slashes. -/
def beforeComment (text : List Char) : List Char :=
  ((text.zip (text.drop 1 ++ [' '])).takeWhile fun pair => pair ≠ ('/', '/')).map Prod.fst

/-- The code of a line. -/
def code (line : List Char) : List Char :=
  beforeComment (line.filter significant)

/-- The lines of a source that have code, with their code. -/
def codeLines (source : String) : List (Located String) :=
  ((Text.lines source).zipIdx.map fun (text, line) => ⟨line, String.ofList (code text)⟩).filter
    fun located => !located.item.isEmpty

def readLine (located : Located String) : Except Fault (Located Statement) :=
  match Statement.read located.item with
  | .ok statement => .ok ⟨located.line, statement⟩
  | .error malformation => .error ⟨.malformed malformation.message, located.line⟩

/-- The statements of a source, or the first line that is none. -/
def statements (source : String) : Except Fault (List (Located Statement)) :=
  (codeLines source).mapM readLine

end Source

end HackAssembler
