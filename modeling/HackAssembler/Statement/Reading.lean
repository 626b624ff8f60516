import HackAssembler.Statement.Basic

/-! # Reading statements

A statement is read from code without blanks and comments. Code that starts with `@` is a load and
code that starts with `(` a label; all other code is a computation. At most one `;` splits off the
jump, and at most one `=` before it splits off the destination, so a jump may contain `=`.
-/

namespace HackAssembler

inductive Malformation where
  | missingOperand
  | unclosedLabel
  | emptyLabel
  | parenthesisInLabel
  | severalJumps
  | emptyJump
  | severalDestinations
  | emptyDestination
  | missingComputation
  deriving DecidableEq, Repr

def Malformation.message : Malformation → String
  | missingOperand => "missing operand after `@`"
  | unclosedLabel => "label must end with `)`"
  | emptyLabel => "empty label"
  | parenthesisInLabel => "unbalanced parentheses in label"
  | severalJumps => "more than one `;`"
  | emptyJump => "empty jump field after `;`"
  | severalDestinations => "more than one `=`"
  | emptyDestination => "empty dest field before `=`"
  | missingComputation => "missing comp field"

/-- The texts before and after the first occurrence of a separator. -/
def splitFirst? (separator : Char) (code : List Char) : Option (List Char × List Char) :=
  match code.dropWhile (· ≠ separator) with
  | [] => none
  | _ :: after => some (code.takeWhile (· ≠ separator), after)

namespace Computation

def splitJump (code : List Char) : Except Malformation (List Char × Option (List Char)) :=
  match splitFirst? ';' code with
  | none => .ok (code, none)
  | some (before, jump) =>
    if ';' ∈ jump then .error .severalJumps
    else if jump = [] then .error .emptyJump
    else .ok (before, some jump)

def splitDest (code : List Char) : Except Malformation (Option (List Char) × List Char) :=
  match splitFirst? '=' code with
  | none => .ok (none, code)
  | some (dest, comp) =>
    if '=' ∈ comp then .error .severalDestinations
    else if dest = [] then .error .emptyDestination
    else .ok (some dest, comp)

def read (code : List Char) : Except Malformation Computation := do
  let (before, jump) ← splitJump code
  let (dest, comp) ← splitDest before
  if comp = [] then throw .missingComputation
  return { dest := dest.map String.ofList, comp := String.ofList comp,
           jump := jump.map String.ofList }

end Computation

namespace Statement

/-- Reads the name of a label from what follows the opening parenthesis. -/
def readLabel (code : List Char) : Except Malformation String :=
  if code.getLast? ≠ some ')' then .error .unclosedLabel
  else if code.dropLast = [] then .error .emptyLabel
  else if '(' ∈ code.dropLast ∨ ')' ∈ code.dropLast then .error .parenthesisInLabel
  else .ok (String.ofList code.dropLast)

def read (code : String) : Except Malformation Statement :=
  match code.toList with
  | '@' :: operand =>
    if operand = [] then .error .missingOperand
    else .ok (.instruction (.load (.written (String.ofList operand))))
  | '(' :: rest => (readLabel rest).map .label
  | other => (Computation.read other).map fun computation => .instruction (.compute computation)

end Statement

end HackAssembler
