import HackAssembler.Proofs.AssembledWords
import HackAssembler.Proofs.FirstFlaw
import HackAssembler.Proofs.WellFormed

/-! # References to labels

A load refers to a label by its name, on any line of the source, and its word loads the number of
instructions before the declaration (`assemble_label_reference`). A label may be named by a numeral,
but no load refers to it, since a numeral always stands for its value.
-/

namespace HackAssembler

open Source

variable {dialect : Dialect} {source : String} {program : Program}

/-- A declared label is among the labels of a source, with the number of instructions before it. -/
theorem mem_labelEntries_of_says {line : Nat} {name : String}
    (declares : Says source line (.label name)) :
    (name, ⟨.label, (instructions (before source line)).length, some line⟩) ∈
      labelEntries (readable source) := by
  refine List.mem_filterMap.mpr ⟨(before source line, ⟨line, .label name⟩), ?_, rfl⟩
  exact (mem_withEarlier_iff_of_ascend (readable_ascend source)).mpr
    ⟨mem_readable_iff.mpr declares, rfl⟩

theorem exists_says_of_mem_labelEntries {name : String} {symbol : Symbol}
    (member : (name, symbol) ∈ labelEntries (readable source)) :
    ∃ line, symbol = ⟨.label, (instructions (before source line)).length, some line⟩ ∧
      Says source line (.label name) := by
  obtain ⟨⟨earlier, line, item⟩, paired, bound⟩ := List.mem_filterMap.mp member
  obtain ⟨listed, rfl⟩ := (mem_withEarlier_iff_of_ascend (readable_ascend source)).mp paired
  cases item with
  | instruction body => cases bound
  | label name =>
      cases bound
      exact ⟨line, rfl, mem_readable_iff.mp listed⟩

/-- In an accepted source the value of a label is the number of instructions before it. -/
theorem Program.Means.lookup_label (means : program.Means dialect (readable source)) {line : Nat}
    {name : String} (declares : Says source line (.label name)) :
    program.symbols.toList.lookup name =
      some ⟨.label, (HackAssembler.instructions (before source line)).length, some line⟩ := by
  have entry := mem_labelEntries_of_says declares
  refine OrderedMap.lookup_eq_some_of_mem program.symbols.nodup_names ?_
  rw [means.symbols]
  exact List.mem_append_left _ (List.mem_append_right _ entry)

/-- A load on a line of an accepted source has a word, which loads the value of its operand. -/
theorem Program.Means.exists_load (means : program.Means dialect (readable source)) {line : Nat}
    {text : String} (loads : Says source line (.instruction (.load (.written text)))) :
    ∃ position value : Nat, program.instructions[position]?.map Located.line = some line ∧
      program.words[position]? = some (.address value) ∧
      (Operand.written text).value? program.symbols.toList = some value := by
  obtain ⟨position, word, present, worded, encodes⟩ :=
    means.exists_position (mem_instructions_readable.mpr loads)
  cases encodes with
  | @load _ value valued =>
      refine ⟨position, value, ?_, worded, valued⟩
      rw [present, Option.map_some]

theorem exists_says_of_assemble (assembled : assemble dialect source = .ok program) {line : Nat}
    {code : String} (written : codeAt? source line = some code) (nonempty : code.isEmpty = false) :
    ∃ statement, Statement.read code = .ok statement ∧ Says source line statement := by
  have verdict := assemble_verdict dialect source
  rw [assembled] at verdict
  obtain ⟨statement, read⟩ :=
    (flaws_eq_nil_iff.mp verdict.of_ok.1).1 _ (mem_codeLines.mpr ⟨written, nonempty⟩)
  exact ⟨statement, read, code, written, read⟩

theorem says_label_of_assemble (assembled : assemble dialect source = .ok program) {line : Nat}
    {name : String} (written : codeAt? source line = some ("(" ++ name ++ ")")) :
    Says source line (.label name) := by
  obtain ⟨statement, read, said⟩ := exists_says_of_assemble assembled written (by simp)
  rwa [Statement.eq_label_of_read read] at said

theorem says_load_of_assemble (assembled : assemble dialect source = .ok program) {line : Nat}
    {text : String} (written : codeAt? source line = some ("@" ++ text)) :
    Says source line (.instruction (.load (.written text))) := by
  obtain ⟨statement, read, said⟩ := exists_says_of_assemble assembled written (by simp)
  have nonempty : text ≠ "" := by
    rintro rfl
    cases read
  exact ⟨_, written, Statement.read_load_iff.mpr ⟨text, rfl, nonempty, rfl⟩⟩

/-- **Labels can be referred to.** If a line of an accepted source declares a label and a line loads
its name, the word of that load has the number of instructions before the declaration. Only if the
name is a numeral, the word has the value of the numeral instead. -/
theorem assemble_label_reference (assembled : assemble dialect source = .ok program)
    {declaration reference : Nat} {name : String}
    (declared : codeAt? source declaration = some ("(" ++ name ++ ")"))
    (referred : codeAt? source reference = some ("@" ++ name)) :
    ∃ position value : Nat, program.instructions[position]?.map Located.line = some reference ∧
      program.words[position]? = some (.address value) ∧
      (Text.isNumeral name = false →
        value = (instructions (before source declaration)).length) ∧
      (Text.isNumeral name = true → value = Text.numeralValue name) := by
  have declares := says_label_of_assemble assembled declared
  have loads := says_load_of_assemble assembled referred
  have verdict := assemble_verdict dialect source
  rw [assembled] at verdict
  have means := verdict.of_ok.2.2
  obtain ⟨position, value, present, worded, valued⟩ := means.exists_load loads
  refine ⟨position, value, present, worded, ?_, ?_⟩
  · intro symbolic
    simp only [Operand.value?, symbolic, means.lookup_label declares, Bool.false_eq_true,
      ↓reduceIte, Option.map_some, Option.some.injEq] at valued
    exact valued.symm
  · intro numeral
    simp only [Operand.value?, numeral, ↓reduceIte, Option.some.injEq] at valued
    exact valued.symm

/-- A label can be referred to before its declaration. -/
theorem assemble_label_reference_forward :
    ∃ (program : Program) (position : Nat),
      assemble .hack " @ END // below\n0;JMP\n\n(END)\n@END" = .ok program ∧
        program.instructions[position]?.map Located.line = some 0 ∧
        program.words[position]? = some (.address 2) := by
  obtain ⟨program, assembled, _⟩ :=
    (assemble_verdict .hack " @ END // below\n0;JMP\n\n(END)\n@END").of_flawless (by
      simp only [flaws, statementFlaws, symbolEntries, boundNames, Dialect.predefinedEntries_hack]
      decide +kernel)
  have declared : codeAt? " @ END // below\n0;JMP\n\n(END)\n@END" 3 =
      some ("(" ++ "END" ++ ")") := by decide +kernel
  have referred : codeAt? " @ END // below\n0;JMP\n\n(END)\n@END" 0 = some ("@" ++ "END") := by
    decide +kernel
  obtain ⟨position, value, present, worded, symbolic, _⟩ :=
    assemble_label_reference assembled declared referred
  refine ⟨program, position, assembled, present, ?_⟩
  rw [worded, symbolic (by decide)]
  exact congrArg (fun address => some (Word.address address)) (by decide +kernel)

/-- A load of a numeral does not refer to the label of that name. -/
theorem assemble_numeral_label :
    codeAt? "(5)\n@5" 0 = some ("(" ++ "5" ++ ")") ∧ codeAt? "(5)\n@5" 1 = some ("@" ++ "5") ∧
      (instructions (before "(5)\n@5" 0)).length = 0 ∧
      ∃ program, assemble .hack "(5)\n@5" = .ok program ∧ program.words = [.address 5] := by
  refine ⟨by decide +kernel, by decide +kernel, by decide +kernel, ?_⟩
  apply exists_words_of_flawless <;>
    simp only [flaws, statementFlaws, symbolEntries, boundNames, Dialect.predefinedEntries_hack] <;>
    decide +kernel

end HackAssembler
