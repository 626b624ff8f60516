/-! # Paths

A path is a text of names between slashes. Empty names and single dots say nothing, except that
something must be a directory when they follow it, and two dots go back to the directory above.

The extension of a name is what follows its last dot, unless nothing comes before that dot.
-/

namespace HackAssembler.Path

def names (path : String) : List String :=
  (path.toList.splitOn '/').map String.ofList

def isAbsolute (path : String) : Bool :=
  path.toList.head? = some '/'

def isIdle (name : String) : Bool :=
  name = "" || name = "."

/-! ### Extensions -/

/-- What comes before the last dot of a name that has an extension. -/
def stem? (name : String) : Option String :=
  let front := (name.toList.reverse.dropWhile (· ≠ '.')).drop 1
  if front.isEmpty then none else some (String.ofList front.reverse)

/-- The path with another extension in place of that of its last name, or with that extension if
the name has none. What follows the last name is dropped. A path that leads to no name remains as
it is. If the extension is all that distinguishes the last name from the two dots for the directory
above and nothing follows it, the path leads to that directory. -/
def withExtension (path extension : String) : String :=
  let reversed := (names path).reverse
  match reversed.dropWhile isIdle with
  | [] => path
  | name :: above =>
    let changed :=
      match stem? name with
      | none => name ++ "." ++ extension
      | some stem =>
        if stem = "." ∧ !reversed.head?.any isIdle then ".." else stem ++ "." ++ extension
    if name = ".." then path else "/".intercalate (changed :: above).reverse

example : withExtension "d.x/prog.asm" "hack" = "d.x/prog.hack" := by decide +kernel

example : withExtension ".asm" "hack" = ".asm.hack" := by decide +kernel

example : withExtension "x..asm/." "hack" = "x..hack" := by decide +kernel

example : withExtension "a/.." "hack" = "a/.." := by decide +kernel

end HackAssembler.Path
