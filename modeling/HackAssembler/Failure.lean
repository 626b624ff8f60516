import HackAssembler.Dialect.Document
import HackAssembler.Fault
import HackAssembler.Files.Access

/-! # Failures of a run

A run fails because of the program or because of a file. Only a fault of the program has a line.
-/

namespace HackAssembler

inductive FileAction where
  | openFile
  | createFile
  | writeFile
  | loadTables
  deriving DecidableEq, Repr

def FileAction.text : FileAction → String
  | openFile => "open file"
  | createFile => "create file"
  | writeFile => "write file"
  | loadTables => "load tables"

inductive FileFault.Cause where
  | refused (reason : FileError)
  | document (fault : DocumentFault)
  deriving DecidableEq, Repr

/-- The text of a cause; there is none for a document that cannot be read. -/
def FileFault.Cause.message? : FileFault.Cause → Option String
  | refused reason => some reason.message
  | document fault => fault.message?

structure FileFault where
  action : FileAction
  path : String
  cause : FileFault.Cause
  deriving DecidableEq, Repr

inductive Failure where
  | ofProgram (fault : Fault)
  | ofFile (fault : FileFault)
  deriving DecidableEq, Repr

namespace Failure

def message : Failure → String
  | ofProgram fault => fault.message
  | ofFile fault => s!"Failed to {fault.action.text}: {fault.path}"

/-- The line of the source, counted from zero, that a failure points at. -/
def line? : Failure → Option Nat
  | ofProgram fault => some fault.line
  | ofFile _ => none

/-- What caused a failure, if there are words for it beyond the failure itself. -/
def cause? : Failure → Option String
  | ofProgram _ => none
  | ofFile fault => fault.cause.message?

end Failure

end HackAssembler
