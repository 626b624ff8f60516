import HackAssembler.Command.Arguments
import HackAssembler.Command.Help
import HackAssembler.Diagnostic
import HackAssembler.Files.Path
import HackAssembler.Listing

/-! # Runs

A run reads the source, then the tables, assembles, and saves the words. The first of these that
fails ends the run, so the output is touched only when there are words to save. What is shown names
each stage before it begins.
-/

namespace HackAssembler

structure Outcome where
  /-- Zero after success, one after a failure, two after a wrong command line. -/
  exitCode : Nat
  lines : List String
  deriving DecidableEq, Repr

def Outcome.text (outcome : Outcome) : String :=
  String.join (outcome.lines.map (· ++ "\n"))

namespace Arguments

def inputPath (arguments : Arguments) : String :=
  arguments.input.getD "main.asm"

def outputPath (arguments : Arguments) : String :=
  arguments.output.getD (Path.withExtension arguments.inputPath "hack")

end Arguments

namespace Run

/-! ### Faults of files -/

def sourceOf (path : String) : Except FileError ByteArray → Except FileFault String
  | .error reason => .error ⟨.openFile, path, .refused reason⟩
  | .ok bytes =>
    match String.fromUTF8? bytes with
    | some source => .ok source
    | none => .error ⟨.openFile, path, .refused .notText⟩

/-- The dialect in what was read at a path. A directory can be opened and is no document. -/
def dialectOf (path : String) : Except FileError ByteArray → Except FileFault Dialect
  | .error .isDirectory => .error ⟨.loadTables, path, .refused .isDirectory⟩
  | .error reason => .error ⟨.openFile, path, .refused reason⟩
  | .ok bytes =>
    (Dialect.ofDocument bytes).mapError fun fault => ⟨.loadTables, path, .document fault⟩

def savedAt (path : String) : Except SaveError Unit → Except FileFault Unit
  | .error (.create reason) => .error ⟨.createFile, path, .refused reason⟩
  | .error (.write reason) => .error ⟨.writeFile, path, .refused reason⟩
  | .ok () => .ok ()

/-! ### What is shown -/

def readingLines (input : String) : List String :=
  ["Hack Assembler", "1. Read File", s!"  < {input}"]

def assemblingLines : List String :=
  ["2. Assemble"]

def savingLines (program : Program) (output : String) : List String :=
  [s!"  - {program.words.length} words, {program.symbols.size} symbols", "3. Write Binary",
    s!"  > {output}"]

def aborted (shown : List String) (input source : String) (failure : Failure) : Outcome :=
  ⟨1, shown ++ failure.diagnostic input source ++ [Text.styled [.red, .bold] "Assembly aborted"]⟩

/-! ### Stages -/

variable {m : Type → Type} [Monad m] [FileAccess m]

def readSource (path : String) : m (Except FileFault String) :=
  sourceOf path <$> FileAccess.read path

/-- Reads the dialect. Without a table document it is the built-in one. -/
def readDialect : Option String → m (Except FileFault Dialect)
  | none => pure (.ok .hack)
  | some path => dialectOf path <$> FileAccess.read path

def saveWords (path : String) (program : Program) : m (Except FileFault Unit) :=
  savedAt path <$> FileAccess.save path program.text.toUTF8

/-- Assembles the source at a path into the output at another. -/
def assembleFile (arguments : Arguments) : m Outcome := do
  let input := arguments.inputPath
  let output := arguments.outputPath
  let shown := readingLines input
  match ← readSource input with
  | .error fault => return aborted shown input "" (.ofFile fault)
  | .ok source =>
    match ← readDialect arguments.tables with
    | .error fault => return aborted shown input source (.ofFile fault)
    | .ok dialect =>
      let shown := shown ++ assemblingLines
      match assemble dialect source with
      | .error fault => return aborted shown input source (.ofProgram fault)
      | .ok program =>
        let shown := shown ++ savingLines program output
        match ← saveWords output program with
        | .error fault => return aborted shown input source (.ofFile fault)
        | .ok () =>
          return ⟨0, shown ++
            if arguments.dump then program.listing dialect input source else []⟩

end Run

open Run in
def run {m : Type → Type} [Monad m] [FileAccess m] (arguments : List String) : m Outcome :=
  match Request.read arguments with
  | none => pure ⟨2, []⟩
  | some .showHelp => pure ⟨0, Help.text⟩
  | some .showVersion => pure ⟨0, [Help.version]⟩
  | some (.assemble arguments) => assembleFile arguments

end HackAssembler
