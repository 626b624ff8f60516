import HackAssembler.Command.Run

/-! # The command

Connects runs to the files of the operating system and to the terminal.
-/

namespace HackAssembler

/-- The reason for an error with a number of the operating system, which may come negated. -/
def FileError.ofNumber (code : UInt32) (details : String) : FileError :=
  match if code.toNat < 0x80000000 then code.toNat else 0x100000000 - code.toNat with
  | 2 => .notFound
  | 20 => .notDirectory
  | 21 => .isDirectory
  | 28 => .noSpace
  | 36 => .nameTooLong
  | number => .other s!"{details.capitalize} (os error {number})"

def FileError.ofIO : IO.Error → FileError
  | .noFileOrDirectory _ code details => ofNumber code details
  | .inappropriateType _ code details => ofNumber code details
  | .resourceExhausted _ code details => ofNumber code details
  | .invalidArgument _ code details => ofNumber code details
  | .permissionDenied _ code details => ofNumber code details
  | error => .other error.toString

instance : FileAccess IO where
  read path := do
    try return .ok (← IO.FS.readBinFile path)
    catch error => return .error (.ofIO error)
  save path bytes := do
    let opened : Except FileError IO.FS.Handle ←
      try pure (.ok (← IO.FS.Handle.mk path .write))
      catch error => pure (.error (.ofIO error))
    match opened with
    | .error reason => return .error (.create reason)
    | .ok handle =>
      try
        handle.write bytes
        handle.flush
        return .ok ()
      catch error => return .error (.write (.ofIO error))

end HackAssembler

open HackAssembler in
/-- Runs the command. After a wrong command line the right ones are shown as an error. -/
def main (arguments : List String) : IO UInt32 := do
  let outcome ← (run arguments : IO Outcome)
  IO.print outcome.text
  if outcome.exitCode = 2 then
    for line in Help.usage do IO.eprintln line
  return outcome.exitCode.toUInt32
