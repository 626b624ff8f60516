import HackAssembler.Files.Access
import HackAssembler.Files.Path

/-! # Trees of files

A tree of files assigns to locations what stands there: an ordinary file with its bytes, a directory
or a device. A path leads to a location name by name, and every name on the way must be that of a
directory. Saving a file changes what stands at its location and nothing else.
-/

namespace HackAssembler

inductive FileNode where
  | file (bytes : ByteArray)
  | directory
  /-- A device that is empty and stays so. Without room it refuses all but no bytes. -/
  | device (hasRoom : Bool)

/-- A place in a tree of files: the names on the way to it, the last first. -/
abbrev Location := List String

structure FileTree where
  nodes : List (Location × FileNode)
  workingDirectory : Location

namespace FileTree

def node? (tree : FileTree) (location : Location) : Option FileNode :=
  tree.nodes.lookup location

def insert (tree : FileTree) (location : Location) (node : FileNode) : FileTree :=
  { tree with nodes := (location, node) :: tree.nodes.filter fun entry => entry.1 ≠ location }

/-- Dropping what stands at one location changes nothing elsewhere. -/
theorem lookup_filter_ne {nodes : List (Location × FileNode)} {location place : Location}
    (elsewhere : place ≠ location) :
    (nodes.filter fun entry => entry.1 ≠ location).lookup place = nodes.lookup place := by
  induction nodes with
  | nil => rfl
  | cons entry others ih =>
    obtain ⟨found, node⟩ := entry
    by_cases gone : found = location
    · have missed : (place == found) = false := by simp [gone, elsewhere]
      rw [List.filter_cons_of_neg (by simp [gone]), List.lookup_cons, missed]
      exact ih
    · rw [List.filter_cons_of_pos (by simp [gone]), List.lookup_cons, List.lookup_cons, ih]

/-- What is inserted at a location stands there, and nothing changes elsewhere. -/
theorem node?_insert (tree : FileTree) (location place : Location) (node : FileNode) :
    (tree.insert location node).node? place =
      if place = location then some node else tree.node? place := by
  unfold insert node?
  by_cases same : place = location
  · simp [same]
  · rw [List.lookup_cons, beq_false_of_ne same, if_neg same]
    exact lookup_filter_ne same

/-! ### Following paths -/

def nameMax : Nat := 255

/-- Goes from a location, which must be a directory, to a name there. -/
def enter (tree : FileTree) (location : Location) (name : String) : Except FileError Location :=
  match tree.node? location with
  | none => .error .notFound
  | some .directory =>
    if Path.isIdle name then .ok location
    else if name = ".." then .ok location.tail
    else if nameMax < name.utf8ByteSize then .error .nameTooLong
    else .ok (name :: location)
  | some _ => .error .notDirectory

def start (tree : FileTree) (path : String) : Location :=
  if Path.isAbsolute path then [] else tree.workingDirectory

/-- The location to which a path leads. There need be nothing there. -/
def locate (tree : FileTree) (path : String) : Except FileError Location :=
  if path = "" then .error .notFound
  else (Path.names path).foldlM tree.enter (tree.start path)

/-- The location at which a path asks for a file. The last name must be one that a file can have,
and no slash may follow it. -/
def locateFile (tree : FileTree) (path : String) : Except FileError Location := do
  let reversed := (Path.names path).reverse
  match reversed.dropWhile (· = "") with
  | [] => throw (if path = "" then .notFound else .isDirectory)
  | last :: above =>
    let location ← tree.enter (← above.reverse.foldlM tree.enter (tree.start path)) last
    if reversed.head? = some "" ∨ last = "." ∨ last = ".." then throw .isDirectory
    return location

/-! ### Reading and saving -/

def read (tree : FileTree) (path : String) : Except FileError ByteArray := do
  match tree.node? (← tree.locate path) with
  | some (.file bytes) => return bytes
  | some (.device _) => return .empty
  | some .directory => throw .isDirectory
  | none => throw .notFound

def save (tree : FileTree) (path : String) (bytes : ByteArray) : Except SaveError FileTree := do
  let location ← (tree.locateFile path).mapError .create
  match tree.node? location with
  | some .directory => throw (.create .isDirectory)
  | some (.device hasRoom) =>
    if hasRoom || bytes.isEmpty then return tree else throw (.write .noSpace)
  | some (.file _) | none => return tree.insert location (.file bytes)

instance : FileAccess (StateM FileTree) where
  read path := return (← get).read path
  save path bytes := do
    match (← get).save path bytes with
    | .ok saved =>
      set saved
      return .ok ()
    | .error reason => return .error reason

/-! ### Building and listing -/

/-- The tree with a directory at a location and at all locations above it. -/
def makeDirectory (tree : FileTree) : Location → FileTree
  | [] => tree.insert [] .directory
  | name :: above => (tree.makeDirectory above).insert (name :: above) .directory

/-- The tree with a file at a location and directories at all locations above it. -/
def makeFile (tree : FileTree) (location : Location) (bytes : ByteArray) : FileTree :=
  (tree.makeDirectory location.tail).insert location (.file bytes)

/-- The location of a name below the working directory, given as a path. -/
def below (tree : FileTree) (path : String) : Location :=
  ((Path.names path).filter (!Path.isIdle ·)).reverse ++ tree.workingDirectory

/-- A tree with an empty working directory and the two devices that take everything and nothing. -/
def fresh : FileTree :=
  let bare : FileTree := { nodes := [], workingDirectory := ["work", "tmp"] }
  ((bare.makeDirectory ["work", "tmp"]).makeDirectory ["dev"]
    |>.insert ["null", "dev"] (.device true))
    |>.insert ["full", "dev"] (.device false)

/-- The files below the working directory, with their paths from there. -/
def files (tree : FileTree) : List (String × ByteArray) :=
  tree.nodes.filterMap fun (location, node) =>
    match node with
    | .file bytes =>
      if tree.workingDirectory.isSuffixOf location then
        let names := location.take (location.length - tree.workingDirectory.length)
        some ("/".intercalate names.reverse, bytes)
      else none
    | _ => none

end FileTree

end HackAssembler
