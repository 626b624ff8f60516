import HackAssembler.Disassembly
import HackAssembler.Proofs.SourceLines
import HackAssembler.Proofs.WellFormed

/-! # Assembling what was disassembled

A word shows as the code that it was assembled from, or as a load of its value. So the code of all
words is again a source, and it has the same words and no symbols of its own
(`reassemble_disassembly`).
-/

namespace HackAssembler

variable {dialect : Dialect}

/-! ### The code of a word -/

theorem Dialect.mnemonicText_of_pattern? {field : Field} {mnemonic : String} {pattern : Nat}
    (known : dialect.pattern? field mnemonic = some pattern) :
    dialect.mnemonicText field pattern = mnemonic := by
  have named : dialect.mnemonic? field pattern = some mnemonic :=
    Codebook.mnemonic?_of_pattern? known
  rw [mnemonicText, named, Option.getD_some]

/-- A field that may be absent shows as it was written, because no mnemonic has the pattern of its
absence. -/
theorem Dialect.optionalMnemonic_of_fieldPattern? {field : Field} {mnemonic : Option String}
    {pattern : Nat} (optional : field ≠ .comp)
    (known : dialect.fieldPattern? field mnemonic = some pattern) :
    dialect.optionalMnemonic field pattern = mnemonic := by
  cases mnemonic with
  | none =>
      cases known
      rfl
  | some mnemonic =>
      have unreserved : field.reserves pattern = false := Codebook.reserves_of_pattern? known
      have present : pattern ≠ Field.noOp := by
        simpa [Field.reserves, optional] using unreserved
      rw [optionalMnemonic, if_neg present, mnemonicText_of_pattern? known]

theorem Encodes.disassemble_compute {symbols : List (String × Symbol)} {computation : Computation}
    {word : Word} (encodes : Encodes dialect symbols (.compute computation) word) :
    word.disassemble dialect = .compute computation := by
  cases encodes with
  | compute comp_known dest_known jump_known =>
      simp only [Word.disassemble, dialect.mnemonicText_of_pattern? comp_known,
        dialect.optionalMnemonic_of_fieldPattern? (by decide) dest_known,
        dialect.optionalMnemonic_of_fieldPattern? (by decide) jump_known, Computation.mnemonic?]

/-- What is read from the code of a word. -/
def Word.reread (dialect : Dialect) : Word → Instruction
  | address value => .load (.written (toString value))
  | compute comp dest jump => (compute comp dest jump).disassemble dialect

theorem Word.code_reread (dialect : Dialect) (word : Word) :
    (word.reread dialect).code = word.code dialect := by
  cases word with
  | address value => rfl
  | compute comp dest jump => rfl

theorem Operand.value?_toString (symbols : List (String × Symbol)) (value : Nat) :
    (Operand.written (toString value)).value? symbols = some value := by
  simp only [Operand.value?, Text.isNumeral_toString, ↓reduceIte, Text.numeralValue_toString]

/-- What is read from the code of a word stands for the word. -/
theorem Encodes.reread {symbols others : List (String × Symbol)} {body : Instruction} {word : Word}
    (encodes : Encodes dialect symbols body word) :
    Encodes dialect others (word.reread dialect) word := by
  cases body with
  | load operand =>
      cases encodes
      exact .load (Operand.value?_toString others _)
  | compute computation =>
      have shown := encodes.disassemble_compute
      cases encodes with
      | compute comp_known dest_known jump_known =>
          simp only [Word.reread, shown]
          exact .compute comp_known dest_known jump_known

theorem Word.symbol?_reread {symbols : List (String × Symbol)} {body : Instruction} {word : Word}
    (encodes : Encodes dialect symbols body word) (line : Nat) :
    Located.symbol? ⟨line, word.reread dialect⟩ = none := by
  cases encodes with
  | load valued => simp only [Word.reread, Located.symbol?, Text.isNumeral_toString, ↓reduceIte]
  | compute comp_known dest_known jump_known => rfl

theorem Word.readsBack_reread {source : String} {line : Nat} {symbols : List (String × Symbol)}
    {body : Instruction} {word : Word} (said : Source.Says source line (.instruction body))
    (encodes : Encodes dialect symbols body word) :
    Source.ReadsBack (.instruction (word.reread dialect)) := by
  cases body with
  | load operand =>
      cases encodes with
      | @load _ value _ =>
          exact .load (.of_isNumeral (Text.isNumeral_toString value))
  | compute computation =>
      have shown := encodes.disassemble_compute
      cases encodes with
      | compute comp_known dest_known jump_known =>
          simp only [Word.reread, shown]
          exact said.readsBack

/-! ### The words of a program -/

/-- A word shows as the code on the line of its computation, or as a load of the value of its
operand. -/
def ShowsAs (dialect : Dialect) (source : String) (symbols : List (String × Symbol))
    (located : Located Instruction) (word : Word) : Prop :=
  match located.item with
  | .compute _ => Source.codeAt? source located.line = some (word.code dialect)
  | .load operand =>
      ∃ value, operand.value? symbols = some value ∧ word.code dialect = "@" ++ toString value

theorem Operand.value?_evaluated (operand : Operand) (symbols : List (String × Symbol)) :
    operand.evaluated.value? symbols = operand.value? symbols := by
  cases operand with
  | literal value => rfl
  | written text =>
      by_cases numeral : Text.isNumeral text = true
      · simp only [Operand.evaluated, Operand.value?, numeral, ↓reduceIte]
      · simp only [Operand.evaluated, numeral, Bool.false_eq_true, ↓reduceIte]

theorem Encodes.showsAs {source : String} {symbols : List (String × Symbol)}
    {located : Located Instruction} {word : Word}
    (said : Source.Says source located.line (.instruction located.item))
    (encodes : Encodes dialect symbols located.item word) :
    ShowsAs dialect source symbols ⟨located.line, located.item.evaluated⟩ word := by
  obtain ⟨line, item⟩ := located
  cases item with
  | load operand =>
      cases encodes with
      | @load _ value valued =>
          exact ⟨value, (operand.value?_evaluated symbols).trans valued, rfl⟩
  | compute computation =>
      obtain ⟨code, written, read⟩ := said
      have shown : word.code dialect = code := by
        rw [Word.code, encodes.disassemble_compute]
        exact Statement.code_of_read read
      rw [← shown] at written
      exact written

theorem exists_mem_of_forall₂ {α β : Type} {relation : α → β → Prop} {firsts : List α}
    {seconds : List β} (all : List.Forall₂ relation firsts seconds) {second : β}
    (member : second ∈ seconds) : ∃ first ∈ firsts, relation first second := by
  induction all with
  | nil => cases member
  | cons head _ ih =>
      rcases List.mem_cons.mp member with rfl | later
      · exact ⟨_, List.mem_cons_self, head⟩
      · obtain ⟨first, inFirsts, related⟩ := ih later
        exact ⟨first, List.mem_cons_of_mem _ inFirsts, related⟩

/-- Each word comes from an instruction on a line of the source. -/
theorem Program.Means.exists_of_mem_words {source : String} {program : Program}
    (means : program.Means dialect (Source.readable source)) {word : Word}
    (member : word ∈ program.words) :
    ∃ located ∈ HackAssembler.instructions (Source.readable source),
      Source.Says source located.line (.instruction located.item) ∧
        Encodes dialect program.symbols.toList located.item word := by
  obtain ⟨located, inProgram, encodes⟩ := exists_mem_of_forall₂ means.words member
  exact ⟨located, inProgram,
    Source.mem_readable_iff.mp (mem_instructions.mp inProgram), encodes⟩

theorem Program.Means.forall₂_showsAs {source : String} {program : Program}
    (means : program.Means dialect (Source.readable source)) :
    List.Forall₂ (ShowsAs dialect source program.symbols.toList) program.instructions
      program.words := by
  rw [means.instructions, evaluateNumerals, List.forall₂_map_left_iff]
  have said : ∀ located ∈ HackAssembler.instructions (Source.readable source),
      Source.Says source located.line (.instruction located.item) := by
    intro located member
    exact Source.mem_readable_iff.mp (mem_instructions.mp member)
  have both := (List.forall₂_and_left _ _).mpr ⟨said, means.words⟩
  exact both.imp fun located word pair => pair.2.showsAs pair.1

/-! ### The second run -/

namespace Program

/-- The code of all words of a program, one on a line. -/
def disassembly (dialect : Dialect) (program : Program) : String :=
  "\n".intercalate (program.words.map (Word.code dialect))

/-- The instructions that are read from the code of all words. -/
def reread (dialect : Dialect) (program : Program) : List (Located Instruction) :=
  program.words.zipIdx.map fun (word, line) => ⟨line, word.reread dialect⟩

theorem disassembly_eq_ofStatements (dialect : Dialect) (program : Program) :
    program.disassembly dialect =
      Source.ofStatements (program.words.map fun word => .instruction (word.reread dialect)) := by
  unfold disassembly Source.ofStatements
  rw [List.map_map]
  congr 1
  refine List.map_congr_left fun word _ => ?_
  exact (word.code_reread dialect).symm

variable {source : String} {program : Program}

theorem Means.readBack (means : program.Means dialect (Source.readable source)) :
    ∀ statement ∈ program.words.map fun word => Statement.instruction (word.reread dialect),
      Source.ReadsBack statement := by
  intro statement member
  obtain ⟨word, inWords, rfl⟩ := List.mem_map.mp member
  obtain ⟨located, _, said, encodes⟩ := means.exists_of_mem_words inWords
  exact Word.readsBack_reread said encodes

theorem Means.readable_disassembly (means : program.Means dialect (Source.readable source)) :
    Source.readable (program.disassembly dialect) =
      (program.reread dialect).map Located.statement := by
  rw [disassembly_eq_ofStatements, Source.readable_ofStatements means.readBack]
  unfold reread
  rw [List.zipIdx_map, List.map_map, List.map_map]
  rfl

theorem mem_reread {located : Located Instruction} (member : located ∈ program.reread dialect) :
    ∃ word ∈ program.words, located.item = word.reread dialect := by
  obtain ⟨⟨word, line⟩, inside, rfl⟩ := List.mem_map.mp member
  exact ⟨word, List.fst_mem_of_mem_zipIdx inside, rfl⟩

theorem Means.symbolEntries_reread (means : program.Means dialect (Source.readable source)) :
    symbolEntries dialect ((program.reread dialect).map Located.statement) =
      dialect.predefinedEntries := by
  -- Loads come back as numerals, which are no names.
  have unused : symbolUses (program.reread dialect) = [] := by
    refine List.filterMap_eq_nil_iff.mpr fun located member => ?_
    obtain ⟨word, inWords, reread⟩ := mem_reread member
    obtain ⟨_, _, _, encodes⟩ := means.exists_of_mem_words inWords
    have numeral := Word.symbol?_reread encodes located.line
    rw [← reread] at numeral
    exact numeral
  unfold symbolEntries variableEntries
  rw [labelEntries_map_statement, instructions_map_statement, unused]
  simp [freshUses]

theorem Means.wellFormed_reread (means : program.Means dialect (Source.readable source))
    (wellFormed : WellFormed dialect (Source.readable source)) :
    WellFormed dialect ((program.reread dialect).map Located.statement) := by
  apply WellFormed.of_instructions
  · intro located member operand loads
    obtain ⟨word, inWords, reread⟩ := mem_reread member
    obtain ⟨⟨line, body⟩, inProgram, _, encodes⟩ := means.exists_of_mem_words inWords
    rw [reread] at loads
    cases body with
    | compute computation =>
        cases encodes
        cases loads
    | load written =>
        obtain ⟨value, valued, fits⟩ := wellFormed.operands_fit _ inProgram written rfl
        rw [← means.symbols] at valued
        cases encodes.unique (.load valued)
        cases loads
        exact ⟨value, Operand.value?_toString _ value, fits⟩
  · intro located member computation computes
    obtain ⟨word, inWords, reread⟩ := mem_reread member
    obtain ⟨⟨line, body⟩, inProgram, _, encodes⟩ := means.exists_of_mem_words inWords
    rw [reread] at computes
    cases body with
    | load written =>
        cases encodes
        cases computes
    | compute written =>
        have shown := encodes.disassemble_compute
        have known := wellFormed.mnemonics_known _ inProgram written rfl
        cases encodes
        simp only [Word.reread, shown] at computes
        cases computes
        exact known

/-- Words of what is read from the code of words are these words. -/
theorem Means.words_eq_of_reread (means : program.Means dialect (Source.readable source))
    {symbols : List (String × Symbol)} {words : List Word}
    (encodes : List.Forall₂ (fun located word => Encodes dialect symbols located.item word)
      (program.reread dialect) words) : words = program.words := by
  have stand : ∀ pair ∈ program.words.zipIdx,
      Encodes dialect symbols (pair.1.reread dialect) pair.1 := by
    intro pair member
    obtain ⟨_, _, _, original⟩ :=
      means.exists_of_mem_words (List.fst_mem_of_mem_zipIdx member)
    exact original.reread
  rw [reread, List.forall₂_map_left_iff] at encodes
  have same := ((List.forall₂_and_left _ _).mpr ⟨stand, encodes⟩).imp
    fun pair word both => both.1.unique both.2
  rw [← List.forall₂_map_left_iff (R := (· = ·)), List.forall₂_eq_eq_eq,
    List.zipIdx_map_fst] at same
  exact same.symm

end Program

/-- **Disassembling undoes assembling.** The words of an accepted source show as the code of its
computations and as loads of values, and this code is accepted with the same words and without
symbols of its own. -/
theorem reassemble_disassembly {source : String} {program : Program}
    (assembled : assemble dialect source = .ok program) :
    List.Forall₂ (ShowsAs dialect source program.symbols.toList) program.instructions
        program.words ∧
      ∃ again, assemble dialect (program.disassembly dialect) = .ok again ∧
        again.words = program.words ∧ again.symbols.toList = dialect.predefinedEntries := by
  have verdict := assemble_verdict dialect source
  rw [assembled] at verdict
  obtain ⟨flawless, _, means⟩ := verdict.of_ok
  have wellFormed := (flaws_eq_nil_iff.mp flawless).2
  have read := means.readable_disassembly
  have accepted : flaws dialect (program.disassembly dialect) = [] := by
    refine flaws_eq_nil_iff.mpr ⟨?_, ?_⟩
    · rw [Program.disassembly_eq_ofStatements]
      exact Source.forall_read_ofStatements means.readBack
    · rw [read]
      exact means.wellFormed_reread wellFormed
  obtain ⟨again, reassembled, _, meansAgain⟩ :=
    (assemble_verdict dialect (program.disassembly dialect)).of_flawless accepted
  rw [read] at meansAgain
  have words := meansAgain.words
  rw [instructions_map_statement] at words
  refine ⟨means.forall₂_showsAs, again, reassembled, means.words_eq_of_reread words, ?_⟩
  rw [meansAgain.symbols]
  exact means.symbolEntries_reread

theorem reassemble_disassembly_forward_label :
    ∃ program again, assemble .hack "@x\n D = D + A // sum\n@END\nM=D\n(END)\n0;JMP" = .ok program ∧
      assemble .hack (program.disassembly .hack) = .ok again ∧ again.words = program.words ∧
      again.symbols.toList = Dialect.hack.predefinedEntries := by
  obtain ⟨program, assembled, _⟩ :=
    (assemble_verdict .hack "@x\n D = D + A // sum\n@END\nM=D\n(END)\n0;JMP").of_flawless (by
      simp only [flaws, statementFlaws, symbolEntries, boundNames, Dialect.predefinedEntries_hack]
      decide +kernel)
  obtain ⟨_, again, reassembled, words, symbols⟩ := reassemble_disassembly assembled
  exact ⟨program, again, assembled, reassembled, words, symbols⟩

end HackAssembler
