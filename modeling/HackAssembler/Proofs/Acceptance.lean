import HackAssembler.Proofs.SourceLines
import HackAssembler.Proofs.UnusedLabel

/-! # Acceptance

Assembling accepts exactly the sources whose lines are statements that are well formed
(`assemble_ok_iff`). So there are at most as many variables as addresses that can be loaded, while a
label to which nothing refers may stand behind more instructions.
-/

namespace HackAssembler

variable {dialect : Dialect}

/-! ### Variables of accepted programs -/

theorem length_variables_of_means {statements : List (Located Statement)} {program : Program}
    (means : program.Means dialect statements) :
    (program.symbols.ofKind .variable).length =
      (freshUses (boundNames dialect statements)
        (symbolUses (instructions statements))).length := by
  unfold SymbolTable.ofKind
  rw [means.symbols, filter_symbolEntries_variable]
  simp [variableEntries]

/-! ### Labels behind many instructions -/

def zeros (count : Nat) : List (Located Instruction) :=
  (List.range count).map fun line => ⟨line, .load (.written "0")⟩

def zerosThenLabel (count : Nat) (name : String) : List Statement :=
  List.replicate count (.instruction (.load (.written "0"))) ++ [.label name]

theorem zipIdx_zerosThenLabel (count : Nat) (name : String) :
    ((zerosThenLabel count name).zipIdx.map fun (statement, line) =>
        (⟨line, statement⟩ : Located Statement)) =
      (zeros count).map Located.statement ++ [⟨count, .label name⟩] := by
  unfold zerosThenLabel zeros
  rw [List.zipIdx_append, List.map_append, List.map_map]
  congr 1
  · apply List.ext_getElem
    · simp
    · intro line inside _
      simp [Located.statement]
  · simp

theorem length_zeros (count : Nat) : (zeros count).length = count := by
  simp [zeros]

theorem item_of_mem_zeros {count : Nat} {located : Located Instruction}
    (member : located ∈ zeros count) : located.item = .load (.written "0") := by
  obtain ⟨_, _, rfl⟩ := List.mem_map.mp member
  rfl

theorem wellFormed_zeros (dialect : Dialect) (count : Nat) :
    WellFormed dialect ((zeros count).map Located.statement) := by
  apply WellFormed.of_instructions
  · intro located member operand loads
    rw [item_of_mem_zeros member] at loads
    cases loads
    exact ⟨0, rfl, Nat.zero_le _⟩
  · intro located member computation computes
    rw [item_of_mem_zeros member] at computes
    cases computes

theorem symbolUses_zeros (count : Nat) : symbolUses (zeros count) = [] := by
  refine List.filterMap_eq_nil_iff.mpr ?_
  intro located member
  have loads := item_of_mem_zeros member
  obtain ⟨line, item⟩ := located
  cases loads
  rfl

theorem wellFormed_zeros_label {count : Nat} {name : String}
    (new : dialect.symbol? name = none) (fits : count ≤ symbolMax) :
    WellFormed dialect ((zeros count).map Located.statement ++ [⟨count, .label name⟩]) := by
  have program : instructions ((zeros count).map Located.statement ++ []) = zeros count := by
    rw [List.append_nil, instructions_map_statement]
  apply (wellFormed_insert_label_iff (by rw [program, symbolUses_zeros]; simp)).mpr
  rw [List.append_nil, labelEntries_map_statement, instructions_map_statement]
  refine ⟨wellFormed_zeros dialect count, new, List.not_mem_nil, ?_⟩
  rw [length_zeros]
  exact fits

/-! ### Acceptance -/

theorem assemble_ok_iff_wellFormed (dialect : Dialect) (source : String) :
    (∃ program, assemble dialect source = .ok program) ↔
      (∀ written ∈ Source.codeLines source,
        ∃ statement, Statement.read written.item = .ok statement) ∧
      WellFormed dialect (Source.readable source) := by
  rw [(assemble_verdict dialect source).exists_ok_iff, flaws_eq_nil_iff]

/-- An accepted program has at most as many variables as there are addresses for them. -/
theorem length_variables_le {source : String} {program : Program}
    (assembled : assemble dialect source = .ok program) :
    (program.symbols.ofKind .variable).length ≤ 32752 := by
  have wellFormed := ((assemble_ok_iff_wellFormed dialect source).mp ⟨program, assembled⟩).2
  have verdict := assemble_verdict dialect source
  rw [assembled] at verdict
  rw [length_variables_of_means verdict.of_ok.2.2]
  exact wellFormed.length_freshUses_le

theorem exists_assemble_label {name : String} {address : Nat} (fits : address ≤ symbolMax)
    (readBack : Source.ReadsBack (.label name)) (new : dialect.symbol? name = none) :
    ∃ source program, assemble dialect source = .ok program ∧
      (name, ⟨.label, address, some address⟩) ∈ program.symbols.toList := by
  let source := Source.ofStatements (zerosThenLabel address name)
  have allReadBack : ∀ statement ∈ zerosThenLabel address name, Source.ReadsBack statement := by
    intro statement member
    rcases List.mem_append.mp member with zero | last
    · rw [List.eq_of_mem_replicate zero]
      exact ⟨⟨by decide, by decide⟩, by decide⟩
    · rw [List.mem_singleton.mp last]
      exact readBack
  have statements := Source.readable_ofStatements allReadBack
  rw [zipIdx_zerosThenLabel] at statements
  have wellFormed : WellFormed dialect (Source.readable source) := by
    rw [statements]
    exact wellFormed_zeros_label new fits
  obtain ⟨program, assembled⟩ := (assemble_ok_iff_wellFormed dialect source).mpr
    ⟨Source.forall_read_ofStatements allReadBack, wellFormed⟩
  have verdict := assemble_verdict dialect source
  rw [assembled] at verdict
  refine ⟨source, program, assembled, ?_⟩
  rw [verdict.of_ok.2.2.symbols, statements, symbolEntries, labelEntries_append_singleton,
    labelEntries_map_statement]
  simp [labelBinding?, instructions_map_statement, length_zeros]

/-- **Acceptance.** A source is accepted exactly when its lines with code are statements and these
are well formed. No accepted program has more than 32752 variables. A label to which nothing refers
only has to be new and behind at most 65535 instructions, and each such address occurs. -/
theorem assemble_ok_iff (dialect : Dialect) :
    (∀ source, (∃ program, assemble dialect source = .ok program) ↔
      (∀ written ∈ Source.codeLines source,
        ∃ statement, Statement.read written.item = .ok statement) ∧
      WellFormed dialect (Source.readable source)) ∧
    (∀ source program, assemble dialect source = .ok program →
      (program.symbols.ofKind .variable).length ≤ 32752) ∧
    (∀ source before line name after,
      Source.readable source = before ++ ⟨line, .label name⟩ :: after →
      name ∉ (symbolUses (instructions (before ++ after))).map Located.item →
      ((∃ program, assemble dialect source = .ok program) ↔
        (∀ written ∈ Source.codeLines source,
          ∃ statement, Statement.read written.item = .ok statement) ∧
        WellFormed dialect (before ++ after) ∧ dialect.symbol? name = none ∧
          name ∉ (labelEntries (before ++ after)).map Prod.fst ∧
          (instructions before).length ≤ 65535)) ∧
    ∀ name address, Source.ReadsBack (.label name) → dialect.symbol? name = none →
      address ≤ 65535 →
      ∃ source program, assemble dialect source = .ok program ∧
        (name, ⟨.label, address, some address⟩) ∈ program.symbols.toList := by
  refine ⟨assemble_ok_iff_wellFormed dialect, fun _ _ => length_variables_le, ?_, ?_⟩
  · intro source before line name after statements unused
    rw [assemble_ok_iff_wellFormed, statements, wellFormed_insert_label_iff unused]
    rfl
  · intro name address readBack new fits
    exact exists_assemble_label fits readBack new

/-- A label may stand behind more instructions than can be loaded. -/
theorem assemble_ok_iff_distant_label :
    ∃ source program, assemble .hack source = .ok program ∧
      ("END", ⟨.label, 40000, some 40000⟩) ∈ program.symbols.toList := by
  have new : Dialect.hack.symbol? "END" = none := by
    rw [Dialect.symbol?_eq_none_iff, Dialect.predefinedEntries_hack]
    decide
  have readBack : Source.ReadsBack (.label "END") := ⟨⟨by decide, by decide⟩, by decide⟩
  exact (assemble_ok_iff .hack).2.2.2 "END" 40000 readBack new (by decide)

end HackAssembler
