import HackAssembler.Failure
import HackAssembler.Proofs.FlawOrder
import HackAssembler.Proofs.Passes

/-! # The first flaw of a source

What can be wrong with a source is said of its lines, without the passes that look for it
(`HasFlaw`). Assembling fails with the first of all flaws in the order of stages, lines and places
on a line (`assemble_error_first`).
-/

namespace HackAssembler

/-- The statements on the lines before a line. -/
def Source.before (source : String) (line : Nat) : List (Located Statement) :=
  (readable source).filter fun statement => statement.line < line

open Source in
/-- Something is wrong with a line of a source. -/
inductive HasFlaw (dialect : Dialect) (source : String) : Flaw → Prop
  /-- The code of the line is no statement. -/
  | malformed {line : Nat} {code : String} {malformation : Malformation}
      (written : codeAt? source line = some code) (nonempty : code.isEmpty = false)
      (rejected : Statement.read code = .error malformation) :
      HasFlaw dialect source ⟨.reading, 0, ⟨.malformed malformation.message, line⟩⟩
  /-- A label stands behind too many instructions. -/
  | distantLabel {line : Nat} {name : String} (said : Says source line (.label name))
      (distant : symbolMax < (instructions (before source line)).length) :
      HasFlaw dialect source ⟨.labelling, 0, ⟨.addressOverflow (.written name), line⟩⟩
  /-- A label has the name of a predefined symbol. -/
  | predefinedLabel {line address : Nat} {name : String} (said : Says source line (.label name))
      (predefined : dialect.symbol? name = some address) :
      HasFlaw dialect source ⟨.labelling, 1, ⟨.duplicateLabel name none, line⟩⟩
  /-- A label is declared on an earlier line, and there for the first time. -/
  | repeatedLabel {line earlier : Nat} {name : String} (said : Says source line (.label name))
      (new : dialect.symbol? name = none) (smaller : earlier < line)
      (declared : Says source earlier (.label name))
      (first : ∀ other, other < earlier → ¬ Says source other (.label name)) :
      HasFlaw dialect source ⟨.labelling, 1, ⟨.duplicateLabel name (some earlier), line⟩⟩
  /-- A numeral is too large. -/
  | largeNumeral {line : Nat} {text : String}
      (said : Says source line (.instruction (.load (.written text))))
      (numeral : Text.isNumeral text = true) (large : addressMax < Text.numeralValue text) :
      HasFlaw dialect source ⟨.allocation, 0, ⟨.addressOverflow (.written text), line⟩⟩
  /-- A variable is used for the first time when there are `variableMax` others already. -/
  | lateVariable {line : Nat} {name : String}
      (said : Says source line (.instruction (.load (.written name))))
      (symbolic : Text.isNumeral name = false)
      (fresh : IsFresh (boundNames dialect (readable source))
        (symbolUses (instructions (before source line))) name)
      (full : (freshUses (boundNames dialect (readable source))
        (symbolUses (instructions (before source line)))).length = variableMax) :
      HasFlaw dialect source ⟨.allocation, 0, ⟨.addressOverflow (.written name), line⟩⟩
  /-- The value of a symbol is too large to be loaded. -/
  | largeSymbol {line : Nat} {name : String} {symbol : Symbol}
      (said : Says source line (.instruction (.load (.written name))))
      (symbolic : Text.isNumeral name = false)
      (bound : (symbolEntries dialect (readable source)).lookup name = some symbol)
      (large : addressMax < symbol.value) :
      HasFlaw dialect source ⟨.encoding, 0, ⟨.addressOverflow (.symbol name symbol.value), line⟩⟩
  /-- A field has a mnemonic that the dialect does not know. -/
  | unknownMnemonic {line : Nat} {computation : Computation} {field : Field} {mnemonic : String}
      (said : Says source line (.instruction (.compute computation)))
      (present : computation.mnemonic? field = some mnemonic)
      (unknown : dialect.pattern? field mnemonic = none) :
      HasFlaw dialect source
        ⟨.encoding, field.slot, ⟨.unresolvedMnemonic field mnemonic, line⟩⟩

example : variableMax = 65519 := by decide

namespace Source

/-- The instructions of a source are those that its lines say. -/
theorem mem_instructions_readable {source : String} {line : Nat} {body : Instruction} :
    (⟨line, body⟩ : Located Instruction) ∈ instructions (readable source) ↔
      Says source line (.instruction body) := by
  rw [mem_instructions, mem_readable_iff]

theorem Says.written {source : String} {line : Nat} {operand : Operand}
    (said : Says source line (.instruction (.load operand))) :
    ∃ text, operand = .written text := by
  obtain ⟨code, _, read⟩ := said
  obtain ⟨text, written, _⟩ := Statement.read_load_iff.mp read
  exact ⟨text, written⟩

/-- The label of an earlier line is found at its first declaration. -/
theorem lookup_labelEntries_before {source : String} {line : Nat} {name : String}
    {prev : Option Nat} :
    ((labelEntries (before source line)).lookup name).map Symbol.line = some prev ↔
      ∃ earlier, earlier < line ∧ Says source earlier (.label name) ∧
        (∀ other, other < earlier → ¬ Says source other (.label name)) ∧ prev = some earlier := by
  have ascend : (before source line).Pairwise fun first second => first.line < second.line :=
    (readable_ascend source).filter _
  rw [map_line_lookup_labelEntries, Option.map_eq_some_iff]
  constructor
  · intro bound
    obtain ⟨⟨earlier, item⟩, found, rfl⟩ := bound
    obtain ⟨member, labelled, smallest⟩ := (find?_eq_some_iff_of_ascend ascend).mp found
    cases of_decide_eq_true labelled
    obtain ⟨declared, smaller⟩ := List.mem_filter.mp member
    have less : earlier < line := of_decide_eq_true smaller
    refine ⟨earlier, less, mem_readable_iff.mp declared, fun other otherLess said => ?_, rfl⟩
    have otherMember : (⟨other, .label name⟩ : Located Statement) ∈ before source line :=
      List.mem_filter.mpr
        ⟨mem_readable_iff.mpr said, decide_eq_true (Nat.lt_trans otherLess less)⟩
    simpa using smallest _ otherMember otherLess
  · intro declared
    obtain ⟨earlier, less, said, first, rfl⟩ := declared
    refine ⟨⟨earlier, .label name⟩, (find?_eq_some_iff_of_ascend ascend).mpr ⟨?_, ?_, ?_⟩, rfl⟩
    · exact List.mem_filter.mpr ⟨mem_readable_iff.mpr said, decide_eq_true less⟩
    · exact decide_eq_true rfl
    · intro statement member otherLess
      obtain ⟨other, item⟩ := statement
      refine decide_eq_false ?_
      intro labelled
      subst labelled
      exact first other otherLess (mem_readable_iff.mp (List.mem_filter.mp member).1)

end Source

/-! ### Each flaw in the list -/

open Source

variable {dialect : Dialect} {source : String} {flaw : Flaw}

theorem mem_readingFlaws_iff :
    flaw ∈ (codeLines source).flatMap readingFlaws ↔
      ∃ line code malformation, codeAt? source line = some code ∧ code.isEmpty = false ∧
        Statement.read code = .error malformation ∧
        flaw = ⟨.reading, 0, ⟨.malformed malformation.message, line⟩⟩ := by
  rw [List.mem_flatMap]
  constructor
  · intro listed
    obtain ⟨⟨line, code⟩, member, reported⟩ := listed
    obtain ⟨written, nonempty⟩ := mem_codeLines.mp member
    cases outcome : Statement.read code with
    | ok statement => simp [readingFlaws, outcome] at reported
    | error malformation =>
        simp only [readingFlaws, outcome, List.mem_singleton] at reported
        exact ⟨line, code, malformation, written, nonempty, outcome, reported⟩
  · intro present
    obtain ⟨line, code, malformation, written, nonempty, rejected, rfl⟩ := present
    refine ⟨⟨line, code⟩, mem_codeLines.mpr ⟨written, nonempty⟩, ?_⟩
    simp only [readingFlaws, rejected, List.mem_singleton]

/-- A label has a name that is known at its line: it is predefined, or declared before. -/
theorem map_line_lookup_known {line : Nat} {name : String} {prev : Option Nat} :
    ((dialect.predefinedEntries ++ labelEntries (before source line)).lookup name).map Symbol.line =
        some prev ↔
      (∃ address, dialect.symbol? name = some address ∧ prev = none) ∨
        dialect.symbol? name = none ∧
          ∃ earlier, earlier < line ∧ Says source earlier (.label name) ∧
            (∀ other, other < earlier → ¬ Says source other (.label name)) ∧
            prev = some earlier := by
  rw [List.lookup_append, dialect.lookup_predefinedEntries, ← lookup_labelEntries_before]
  cases dialect.symbol? name with
  | none => simp
  | some address => simp [eq_comm]

theorem mem_labelStage_iff :
    (flaw ∈ (withEarlier (readable source)).flatMap fun pair =>
        labelFlaws dialect.predefinedEntries pair.1 pair.2) ↔
      ∃ line name, Says source line (.label name) ∧
        flaw ∈ labelFlaws dialect.predefinedEntries (before source line) ⟨line, .label name⟩ := by
  rw [List.mem_flatMap]
  constructor
  · intro listed
    obtain ⟨⟨earlier, line, item⟩, paired, reported⟩ := listed
    obtain ⟨member, rfl⟩ := (mem_withEarlier_iff_of_ascend (readable_ascend source)).mp paired
    obtain ⟨name, rfl, _⟩ := mem_labelFlaws.mp reported
    exact ⟨line, name, mem_readable_iff.mp member, reported⟩
  · intro present
    obtain ⟨line, name, said, reported⟩ := present
    refine ⟨(before source line, ⟨line, .label name⟩), ?_, reported⟩
    exact (mem_withEarlier_iff_of_ascend (readable_ascend source)).mpr
      ⟨mem_readable_iff.mpr said, rfl⟩

theorem mem_allocationStage_iff {known : List String} :
    (flaw ∈ (withEarlier (instructions (readable source))).flatMap fun pair =>
        allocationFlaws known pair.1 pair.2) ↔
      ∃ line text, Says source line (.instruction (.load (.written text))) ∧
        flaw ∈ allocationFlaws known (instructions (before source line))
          ⟨line, .load (.written text)⟩ := by
  have ascend := instructions_ascend (readable_ascend source)
  have same : ∀ line, instructions (before source line) =
      (instructions (readable source)).filter fun located => located.line < line := by
    intro line
    exact instructions_filter_line _ _
  rw [List.mem_flatMap]
  constructor
  · intro listed
    obtain ⟨⟨earlier, line, body⟩, paired, reported⟩ := listed
    obtain ⟨member, rfl⟩ := (mem_withEarlier_iff_of_ascend ascend).mp paired
    obtain ⟨text, rfl, _⟩ := mem_allocationFlaws.mp reported
    rw [← same] at reported
    exact ⟨line, text, mem_instructions_readable.mp member, reported⟩
  · intro present
    obtain ⟨line, text, said, reported⟩ := present
    refine ⟨(instructions (before source line), ⟨line, .load (.written text)⟩), ?_, reported⟩
    exact (mem_withEarlier_iff_of_ascend ascend).mpr
      ⟨mem_instructions_readable.mpr said, same line⟩

theorem mem_encodingStage_iff {symbols : List (String × Symbol)} :
    flaw ∈ (instructions (readable source)).flatMap (encodingFlaws dialect symbols) ↔
      ∃ line body, Says source line (.instruction body) ∧
        flaw ∈ encodingFlaws dialect symbols ⟨line, body⟩ := by
  rw [List.mem_flatMap]
  constructor
  · intro listed
    obtain ⟨⟨line, body⟩, member, reported⟩ := listed
    exact ⟨line, body, mem_instructions_readable.mp member, reported⟩
  · intro present
    obtain ⟨line, body, said, reported⟩ := present
    exact ⟨⟨line, body⟩, mem_instructions_readable.mpr said, reported⟩

theorem mem_flaws :
    flaw ∈ flaws dialect source ↔
      flaw ∈ (codeLines source).flatMap readingFlaws ∨
      (flaw ∈ (withEarlier (readable source)).flatMap fun pair =>
        labelFlaws dialect.predefinedEntries pair.1 pair.2) ∨
      (flaw ∈ (withEarlier (instructions (readable source))).flatMap fun pair =>
        allocationFlaws (boundNames dialect (readable source)) pair.1 pair.2) ∨
      flaw ∈ (instructions (readable source)).flatMap
        (encodingFlaws dialect (symbolEntries dialect (readable source))) := by
  unfold flaws statementFlaws
  rw [List.mem_append, List.mem_append, List.mem_append]

theorem hasFlaw_of_mem_flaws (member : flaw ∈ flaws dialect source) :
    HasFlaw dialect source flaw := by
  rcases mem_flaws.mp member with reading | labelling | allocation | encoding
  · obtain ⟨line, code, malformation, written, nonempty, rejected, rfl⟩ :=
      mem_readingFlaws_iff.mp reading
    exact .malformed written nonempty rejected
  · obtain ⟨line, name, said, reported⟩ := mem_labelStage_iff.mp labelling
    obtain ⟨_, ⟨⟩, ⟨distant, rfl⟩ | ⟨prev, found, rfl⟩⟩ := mem_labelFlaws.mp reported
    · exact .distantLabel said distant
    · rcases map_line_lookup_known.mp found with
        ⟨address, predefined, rfl⟩ | ⟨new, earlier, less, declared, first, rfl⟩
      · exact .predefinedLabel said predefined
      · exact .repeatedLabel said new less declared first
  · obtain ⟨line, text, said, reported⟩ := mem_allocationStage_iff.mp allocation
    obtain ⟨_, ⟨⟩, condition, rfl⟩ := mem_allocationFlaws.mp reported
    cases numeral : Text.isNumeral text with
    | true =>
        simp only [numeral, ↓reduceIte] at condition
        exact .largeNumeral said numeral condition
    | false =>
        simp only [numeral, Bool.false_eq_true, ↓reduceIte] at condition
        exact .lateVariable said numeral condition.1 condition.2
  · obtain ⟨line, body, said, reported⟩ := mem_encodingStage_iff.mp encoding
    cases body with
    | load operand =>
        obtain ⟨text, rfl⟩ := said.written
        have oversized : flaw ∈ operandFlaws (symbolEntries dialect (readable source)) line
            (.written text) := reported
        rcases mem_operandFlaws.mp oversized with
          ⟨_, ⟨⟩, _⟩ | ⟨_, symbol, ⟨⟩, symbolic, bound, large, rfl⟩
        exact .largeSymbol said symbolic bound large
    | compute computation =>
        obtain ⟨field, unknown⟩ := mem_encodingFlaws_compute.mp reported
        obtain ⟨mnemonic, present, absent, rfl⟩ := mem_mnemonicFlaws.mp unknown
        exact .unknownMnemonic said present absent

theorem mem_flaws_of_hasFlaw (has : HasFlaw dialect source flaw) :
    flaw ∈ flaws dialect source := by
  apply mem_flaws.mpr
  cases has with
  | malformed written nonempty rejected =>
      exact Or.inl (mem_readingFlaws_iff.mpr ⟨_, _, _, written, nonempty, rejected, rfl⟩)
  | distantLabel said distant =>
      refine Or.inr (Or.inl (mem_labelStage_iff.mpr ⟨_, _, said, ?_⟩))
      exact mem_labelFlaws.mpr ⟨_, rfl, Or.inl ⟨distant, rfl⟩⟩
  | predefinedLabel said predefined =>
      refine Or.inr (Or.inl (mem_labelStage_iff.mpr ⟨_, _, said, ?_⟩))
      refine mem_labelFlaws.mpr ⟨_, rfl, Or.inr ⟨_, ?_, rfl⟩⟩
      exact map_line_lookup_known.mpr (Or.inl ⟨_, predefined, rfl⟩)
  | repeatedLabel said new smaller declared first =>
      refine Or.inr (Or.inl (mem_labelStage_iff.mpr ⟨_, _, said, ?_⟩))
      refine mem_labelFlaws.mpr ⟨_, rfl, Or.inr ⟨_, ?_, rfl⟩⟩
      exact map_line_lookup_known.mpr (Or.inr ⟨new, _, smaller, declared, first, rfl⟩)
  | largeNumeral said numeral large =>
      refine Or.inr (Or.inr (Or.inl (mem_allocationStage_iff.mpr ⟨_, _, said, ?_⟩)))
      refine mem_allocationFlaws.mpr ⟨_, rfl, ?_, rfl⟩
      simp only [numeral, ↓reduceIte]
      exact large
  | lateVariable said symbolic fresh full =>
      refine Or.inr (Or.inr (Or.inl (mem_allocationStage_iff.mpr ⟨_, _, said, ?_⟩)))
      refine mem_allocationFlaws.mpr ⟨_, rfl, ?_, rfl⟩
      simp only [symbolic, Bool.false_eq_true, ↓reduceIte]
      exact ⟨fresh, full⟩
  | largeSymbol said symbolic bound large =>
      refine Or.inr (Or.inr (Or.inr (mem_encodingStage_iff.mpr ⟨_, _, said, ?_⟩)))
      exact mem_operandFlaws.mpr (Or.inr ⟨_, _, rfl, symbolic, bound, large, rfl⟩)
  | @unknownMnemonic line computation field mnemonic said present unknown =>
      refine Or.inr (Or.inr (Or.inr (mem_encodingStage_iff.mpr ⟨_, _, said, ?_⟩)))
      refine mem_encodingFlaws_compute.mpr ⟨field, ?_⟩
      exact mem_mnemonicFlaws.mpr ⟨_, present, unknown, rfl⟩

/-! ### The flaw that is reported -/

theorem HasFlaw.line_lt (has : HasFlaw dialect source flaw) :
    flaw.fault.line < (Text.lines source).length := by
  cases has with
  | malformed written _ _ => exact lt_length_of_codeAt? written
  | distantLabel said _ => exact said.lt_length
  | predefinedLabel said _ => exact said.lt_length
  | repeatedLabel said _ _ _ _ => exact said.lt_length
  | largeNumeral said _ _ => exact said.lt_length
  | lateVariable said _ _ _ => exact said.lt_length
  | largeSymbol said _ _ _ => exact said.lt_length
  | unknownMnemonic said _ _ => exact said.lt_length

theorem HasFlaw.cause_ne_undefinedSymbol (has : HasFlaw dialect source flaw) (name : String) :
    flaw.fault.cause ≠ .undefinedSymbol name := by
  intro undefined
  cases has <;> cases undefined

/-- **The first flaw is reported.** The fault of a source that cannot be assembled is at one of its
lines, is not an undefined symbol, and is the one that comes before everything else that is
wrong. -/
theorem assemble_error_first {fault : Fault} (failed : assemble dialect source = .error fault) :
    (∃ flaw, HasFlaw dialect source flaw ∧ flaw.fault = fault ∧
      ∀ other, HasFlaw dialect source other → other ≠ flaw → flaw.Precedes other) ∧
    (∃ line, (Failure.ofProgram fault).line? = some line ∧
      line < (Text.lines source).length) ∧
    ∀ name, fault.cause ≠ .undefinedSymbol name := by
  have verdict := assemble_verdict dialect source
  rw [failed] at verdict
  obtain ⟨flaw, later, listed, rfl⟩ := verdict.of_error
  have ordered := flaws_ordered dialect source
  rw [listed] at ordered
  have has : HasFlaw dialect source flaw := by
    apply hasFlaw_of_mem_flaws
    rw [listed]
    exact List.mem_cons_self
  refine ⟨⟨flaw, has, rfl, ?_⟩, ⟨_, rfl, has.line_lt⟩, has.cause_ne_undefinedSymbol⟩
  intro other otherHas different
  have member := mem_flaws_of_hasFlaw otherHas
  rw [listed, List.mem_cons] at member
  rcases member with same | inLater
  · exact absurd same different
  · exact List.rel_of_pairwise_cons ordered inLater

/-- A label is reported before numerals and mnemonics that stand on earlier lines, and before a
later label with a predefined name. -/
theorem assemble_error_first_repeated_label :
    assemble .hack "(A)\n@99999\nX=D;Y\n(A)\n(SP)" = .error ⟨.duplicateLabel "A" (some 0), 3⟩ ∧
      ∃ flaw, HasFlaw .hack "(A)\n@99999\nX=D;Y\n(A)\n(SP)" flaw ∧
        flaw.fault = ⟨.duplicateLabel "A" (some 0), 3⟩ ∧
        ∀ other, HasFlaw .hack "(A)\n@99999\nX=D;Y\n(A)\n(SP)" other → other ≠ flaw →
          flaw.Precedes other := by
  have failed : assemble .hack "(A)\n@99999\nX=D;Y\n(A)\n(SP)" =
      .error ⟨.duplicateLabel "A" (some 0), 3⟩ := by
    have verdict := assemble_verdict .hack "(A)\n@99999\nX=D;Y\n(A)\n(SP)"
    have first : (flaws .hack "(A)\n@99999\nX=D;Y\n(A)\n(SP)").head? =
        some ⟨.labelling, 1, ⟨.duplicateLabel "A" (some 0), 3⟩⟩ := by
      simp only [flaws, statementFlaws, symbolEntries, boundNames, Dialect.predefinedEntries_hack]
      decide +kernel
    exact verdict.of_head? first
  exact ⟨failed, (assemble_error_first failed).1⟩

end HackAssembler
