/-! # Access to files

What a command asks of the files around it: the bytes of a file, and that bytes be kept under a
path. Both may be refused for a reason that is a text.
-/

namespace HackAssembler

inductive FileError where
  | notFound
  | notDirectory
  | isDirectory
  | noSpace
  | nameTooLong
  | notText
  | other (reason : String)
  deriving DecidableEq, Repr

def FileError.message : FileError → String
  | notFound => "No such file or directory (os error 2)"
  | notDirectory => "Not a directory (os error 20)"
  | isDirectory => "Is a directory (os error 21)"
  | noSpace => "No space left on device (os error 28)"
  | nameTooLong => "File name too long (os error 36)"
  | notText => "stream did not contain valid UTF-8"
  | other reason => reason

inductive SaveError where
  | create (reason : FileError)
  | write (reason : FileError)
  deriving DecidableEq, Repr

class FileAccess (m : Type → Type) where
  read : (path : String) → m (Except FileError ByteArray)
  save : (path : String) → (bytes : ByteArray) → m (Except SaveError Unit)

end HackAssembler
