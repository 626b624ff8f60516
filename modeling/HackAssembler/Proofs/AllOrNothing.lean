import HackAssembler.Command.Run
import HackAssembler.Proofs.AssembledWords
import HackAssembler.Proofs.DefaultOutput

/-! # All or nothing

A run on a tree of files ends in one of five ways (`Run.Ending`). Four of them report what went
wrong first and leave the tree as it was; in the fifth, the output path holds the words and nothing
else has changed (`Run.assembleFile_all_or_nothing`).
-/

namespace HackAssembler

/-- A failed run shows what is said of a failure. -/
structure Outcome.Reports (outcome : Outcome) (input source : String) (failure : Failure) :
    Prop where
  exitCode : outcome.exitCode = 1
  shown : failure.diagnostic input source <:+: outcome.lines

namespace Run

/-- The dialect of a run: the built-in one, or the one that the document at a path describes. -/
inductive Chooses (tree : FileTree) : Option String → Dialect → Prop
  | builtIn : Chooses tree none .hack
  | document {path : String} {bytes : ByteArray} {dialect : Dialect}
      (held : tree.nodeAt? path = some (.file bytes))
      (described : Dialect.ofDocument bytes = .ok dialect) : Chooses tree (some path) dialect

/-- How a run ends, with the outcome and the tree after it. -/
inductive Ending (arguments : Arguments) (tree : FileTree) : Outcome → FileTree → Prop
  /-- No text can be read at the input path. -/
  | unreadable {outcome : Outcome} {fault : FileFault}
      (unheld : ∀ source, ¬ tree.Holds arguments.inputPath source)
      (action : fault.action = .openFile) (path : fault.path = arguments.inputPath)
      (reports : outcome.Reports arguments.inputPath "" (.ofFile fault)) :
      Ending arguments tree outcome tree
  /-- The input can be read, and the tables do not load. -/
  | unloadable {outcome : Outcome} {source : String} {fault : FileFault}
      (held : tree.Holds arguments.inputPath source)
      (unchosen : ∀ dialect, ¬ Chooses tree arguments.tables dialect)
      (path : arguments.tables = some fault.path)
      (reports : outcome.Reports arguments.inputPath source (.ofFile fault)) :
      Ending arguments tree outcome tree
  /-- The input can be read and the tables load, and the source is not assembled. -/
  | faulty {outcome : Outcome} {source : String} {dialect : Dialect} {fault : Fault}
      (held : tree.Holds arguments.inputPath source)
      (chosen : Chooses tree arguments.tables dialect)
      (rejected : assemble dialect source = .error fault)
      (reports : outcome.Reports arguments.inputPath source (.ofProgram fault)) :
      Ending arguments tree outcome tree
  /-- The source is assembled, and there can be no file at the output path. -/
  | uncreated {outcome : Outcome} {source : String} {dialect : Dialect} {program : Program}
      {fault : FileFault} (held : tree.Holds arguments.inputPath source)
      (chosen : Chooses tree arguments.tables dialect)
      (assembled : assemble dialect source = .ok program)
      (refused : ¬ tree.CanCreate arguments.outputPath)
      (action : fault.action = .createFile) (path : fault.path = arguments.outputPath)
      (reports : outcome.Reports arguments.inputPath source (.ofFile fault)) :
      Ending arguments tree outcome tree
  /-- The source is assembled, and the words are saved. -/
  | saved {outcome : Outcome} {after : FileTree} {source : String} {dialect : Dialect}
      {program : Program} (held : tree.Holds arguments.inputPath source)
      (chosen : Chooses tree arguments.tables dialect)
      (assembled : assemble dialect source = .ok program)
      (created : tree.CanCreate arguments.outputPath)
      (kept : tree.Saved arguments.outputPath program.text.toUTF8 after)
      (exitCode : outcome.exitCode = 0) : Ending arguments tree outcome after

variable {arguments : Arguments} {tree : FileTree}

/-! ### Stages on a tree -/

theorem sourceOf_read_eq_ok_iff (plain : tree.IsPlain) {path source : String} :
    sourceOf path (tree.read path) = .ok source ↔ tree.Holds path source := by
  unfold FileTree.Holds
  rw [← FileTree.read_eq_ok_iff plain]
  cases tree.read path with
  | error reason => simp [sourceOf]
  | ok bytes =>
      rw [Except.ok.injEq, ← fromUTF8?_eq_some_iff, sourceOf]
      cases String.fromUTF8? bytes <;> simp

/-- The dialect of a run on a tree. -/
def dialectIn (tree : FileTree) : Option String → Except FileFault Dialect
  | none => .ok .hack
  | some path => dialectOf path (tree.read path)

theorem dialectIn_eq_ok_iff (plain : tree.IsPlain) {tables : Option String} {dialect : Dialect} :
    dialectIn tree tables = .ok dialect ↔ Chooses tree tables dialect := by
  cases tables with
  | none =>
      constructor
      · rintro ⟨⟩
        exact .builtIn
      · rintro ⟨⟩
        rfl
  | some path =>
      simp only [dialectIn]
      constructor
      · intro chosen
        cases read : tree.read path with
        | error reason =>
            rw [read] at chosen
            cases reason <;> cases chosen
        | ok bytes =>
            rw [read, dialectOf] at chosen
            cases described : Dialect.ofDocument bytes with
            | error fault =>
                rw [described] at chosen
                cases chosen
            | ok other =>
                rw [described] at chosen
                cases chosen
                exact .document ((FileTree.read_eq_ok_iff plain).mp read) described
      · intro chosen
        cases chosen with
        | document held described =>
            rw [(FileTree.read_eq_ok_iff plain).mpr held, dialectOf, described]
            rfl

theorem path_of_dialectIn_error {tables : Option String} {fault : FileFault}
    (failed : dialectIn tree tables = .error fault) : tables = some fault.path := by
  cases tables with
  | none => cases failed
  | some path =>
      simp only [dialectIn] at failed
      cases read : tree.read path with
      | error reason =>
          rw [read] at failed
          cases reason <;> cases failed <;> rfl
      | ok bytes =>
          rw [read, dialectOf] at failed
          cases described : Dialect.ofDocument bytes with
          | error unfit =>
              rw [described] at failed
              cases failed
              rfl
          | ok dialect =>
              rw [described] at failed
              cases failed

theorem of_sourceOf_error {path : String} {result : Except FileError ByteArray} {fault : FileFault}
    (unread : sourceOf path result = .error fault) :
    fault.action = .openFile ∧ fault.path = path := by
  unfold sourceOf at unread
  split at unread
  · cases unread
    exact ⟨rfl, rfl⟩
  · split at unread
    · cases unread
    · cases unread
      exact ⟨rfl, rfl⟩

/-! ### Runs on a tree -/

theorem run_bind {α β : Type} (first : StateM FileTree α) (next : α → StateM FileTree β)
    (tree : FileTree) :
    (first >>= next).run tree = (next (first.run tree).1).run (first.run tree).2 :=
  rfl

theorem run_map {α β : Type} (f : α → β) (stage : StateM FileTree α) (tree : FileTree) :
    (f <$> stage).run tree = (f (stage.run tree).1, (stage.run tree).2) :=
  rfl

theorem run_readSource (path : String) (tree : FileTree) :
    (readSource path : StateM FileTree _).run tree = (sourceOf path (tree.read path), tree) :=
  rfl

theorem run_readDialect (tables : Option String) (tree : FileTree) :
    (readDialect tables : StateM FileTree _).run tree = (dialectIn tree tables, tree) := by
  cases tables <;> rfl

theorem run_of_unreadable {fault : FileFault}
    (unread : sourceOf arguments.inputPath (tree.read arguments.inputPath) = .error fault) :
    (assembleFile arguments : StateM FileTree Outcome).run tree =
      (aborted (readingLines arguments.inputPath) arguments.inputPath "" (.ofFile fault),
        tree) := by
  simp only [assembleFile, run_bind, run_readSource, unread]
  rfl

theorem run_of_unloadable {source : String} {fault : FileFault}
    (read : sourceOf arguments.inputPath (tree.read arguments.inputPath) = .ok source)
    (unloaded : dialectIn tree arguments.tables = .error fault) :
    (assembleFile arguments : StateM FileTree Outcome).run tree =
      (aborted (readingLines arguments.inputPath) arguments.inputPath source (.ofFile fault),
        tree) := by
  simp only [assembleFile, run_bind, run_readSource, read, run_readDialect, unloaded]
  rfl

theorem run_of_faulty {source : String} {dialect : Dialect} {fault : Fault}
    (read : sourceOf arguments.inputPath (tree.read arguments.inputPath) = .ok source)
    (loaded : dialectIn tree arguments.tables = .ok dialect)
    (rejected : assemble dialect source = .error fault) :
    (assembleFile arguments : StateM FileTree Outcome).run tree =
      (aborted (readingLines arguments.inputPath ++ assemblingLines) arguments.inputPath source
        (.ofProgram fault), tree) := by
  simp only [assembleFile, run_bind, run_readSource, read, run_readDialect, loaded, rejected]
  rfl

theorem run_save (path : String) (bytes : ByteArray) (tree : FileTree) :
    (FileAccess.save path bytes : StateM FileTree _).run tree =
      match tree.save path bytes with
      | .ok after => (.ok (), after)
      | .error reason => (.error reason, tree) := by
  change StateT.run (match tree.save path bytes with
    | .ok saved => (do set saved; return .ok () : StateM FileTree (Except SaveError Unit))
    | .error reason => return .error reason) tree = _
  cases tree.save path bytes <;> rfl

theorem run_saveWords (path : String) (program : Program) (tree : FileTree) :
    (saveWords path program : StateM FileTree _).run tree =
      match tree.save path program.text.toUTF8 with
      | .ok after => (.ok (), after)
      | .error reason => (savedAt path (.error reason), tree) := by
  unfold saveWords
  rw [run_map, run_save]
  cases tree.save path program.text.toUTF8 <;> rfl

theorem run_of_uncreated {source : String} {dialect : Dialect} {program : Program}
    {reason : FileError}
    (read : sourceOf arguments.inputPath (tree.read arguments.inputPath) = .ok source)
    (loaded : dialectIn tree arguments.tables = .ok dialect)
    (assembled : assemble dialect source = .ok program)
    (refused : tree.save arguments.outputPath program.text.toUTF8 = .error (.create reason)) :
    (assembleFile arguments : StateM FileTree Outcome).run tree =
      (aborted (readingLines arguments.inputPath ++ assemblingLines ++
          savingLines program arguments.outputPath) arguments.inputPath source
        (.ofFile ⟨.createFile, arguments.outputPath, .refused reason⟩), tree) := by
  simp only [assembleFile, run_bind, run_readSource, read, run_readDialect, loaded, assembled,
    run_saveWords, refused]
  rfl

theorem run_of_saved {source : String} {dialect : Dialect} {program : Program}
    {after : FileTree}
    (read : sourceOf arguments.inputPath (tree.read arguments.inputPath) = .ok source)
    (loaded : dialectIn tree arguments.tables = .ok dialect)
    (assembled : assemble dialect source = .ok program)
    (saved : tree.save arguments.outputPath program.text.toUTF8 = .ok after) :
    ∃ lines, (assembleFile arguments : StateM FileTree Outcome).run tree = (⟨0, lines⟩, after) := by
  simp only [assembleFile, run_bind, run_readSource, read, run_readDialect, loaded, assembled,
    run_saveWords, saved]
  exact ⟨_, rfl⟩

/-! ### Endings -/

theorem reports_aborted (shown : List String) (input source : String) (failure : Failure) :
    (aborted shown input source failure).Reports input source failure :=
  ⟨rfl, shown, [Text.styled [.red, .bold] "Assembly aborted"], rfl⟩

/-- Every run ends in one of the five ways, and in the same way with and without a listing. -/
theorem exists_ending (arguments : Arguments) (plain : tree.IsPlain) :
    ∃ outcome after,
      (assembleFile arguments : StateM FileTree Outcome).run tree = (outcome, after) ∧
      Ending arguments tree outcome after ∧
      ∀ dump, ∃ lines, (assembleFile { arguments with dump } : StateM FileTree Outcome).run tree =
        (⟨outcome.exitCode, lines⟩, after) := by
  cases read : sourceOf arguments.inputPath (tree.read arguments.inputPath) with
  | error fault =>
      obtain ⟨action, path⟩ := of_sourceOf_error read
      refine ⟨_, _, run_of_unreadable read, .unreadable ?_ action path (reports_aborted _ _ _ _),
        fun dump => ⟨_, run_of_unreadable read⟩⟩
      intro source held
      rw [(sourceOf_read_eq_ok_iff plain).mpr held] at read
      cases read
  | ok source =>
  have held := (sourceOf_read_eq_ok_iff plain).mp read
  cases loaded : dialectIn tree arguments.tables with
  | error fault =>
      refine ⟨_, _, run_of_unloadable read loaded,
        .unloadable held ?_ (path_of_dialectIn_error loaded) (reports_aborted _ _ _ _),
        fun dump => ⟨_, run_of_unloadable read loaded⟩⟩
      intro dialect chosen
      rw [(dialectIn_eq_ok_iff plain).mpr chosen] at loaded
      cases loaded
  | ok dialect =>
  have chosen := (dialectIn_eq_ok_iff plain).mp loaded
  cases assembled : assemble dialect source with
  | error fault =>
      exact ⟨_, _, run_of_faulty read loaded assembled,
        .faulty held chosen assembled (reports_aborted _ _ _ _),
        fun dump => ⟨_, run_of_faulty read loaded assembled⟩⟩
  | ok program =>
  rcases tree.save_cases plain arguments.outputPath program.text.toUTF8 with
    ⟨location, located, free, saved⟩ | ⟨refused, reason, unsaved⟩
  · obtain ⟨lines, ran⟩ := run_of_saved read loaded assembled saved
    exact ⟨_, _, ran,
      .saved held chosen assembled ⟨location, located, free⟩
        (FileTree.saved_insert located free _) rfl,
      fun dump => run_of_saved read loaded assembled saved⟩
  · exact ⟨_, _, run_of_uncreated read loaded assembled unsaved,
      .uncreated held chosen assembled refused rfl rfl (reports_aborted _ _ _ _),
      fun dump => ⟨_, run_of_uncreated read loaded assembled unsaved⟩⟩

/-- With the default output path, a run changes the input file only if it has the extension of the
output. -/
theorem Ending.input_unchanged {outcome : Outcome} {after : FileTree}
    (ending : Ending arguments tree outcome after) (default : arguments.output = none) :
    after.nodeAt? arguments.inputPath = tree.nodeAt? arguments.inputPath ∨
      Path.HasExtension arguments.inputPath "hack" := by
  cases ending with
  | unreadable => exact .inl rfl
  | unloadable => exact .inl rfl
  | faulty => exact .inl rfl
  | uncreated => exact .inl rfl
  | saved held chosen assembled created kept exitCode =>
      obtain ⟨location, located, free⟩ := created
      have changed : arguments.outputPath = Path.withExtension arguments.inputPath "hack" := by
        rw [Arguments.outputPath, default, Option.getD_none]
      by_cases same : tree.locate arguments.inputPath = tree.locate arguments.outputPath
      · obtain ⟨_, _, _, _, _, _, _, reached⟩ := FileTree.exists_of_locateFile located
        rw [reached] at same
        rw [changed] at located
        exact .inr (FileTree.hasExtension_of_same_location (by decide) (by decide) same located)
      · exact .inl (kept.elsewhere _ same)

/-- A tree with a file and nothing else. -/
def oneFile (name text : String) : FileTree :=
  ⟨[([], .directory), ([name], .file text.toUTF8)], []⟩

theorem isPlain_oneFile (name text : String) : (oneFile name text).IsPlain := by
  refine FileTree.isPlain_of_nodes fun entry member hasRoom device => ?_
  simp only [oneFile, List.mem_cons, List.not_mem_nil, or_false] at member
  rcases member with rfl | rfl <;> cases device

end Run

end HackAssembler
