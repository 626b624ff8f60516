import HackAssembler.Proofs.Passes
import Mathlib.Data.List.Nodup

/-! # Well-formed statements

Statements without flaws are described by conditions on the statements as a whole: which labels may
be declared, which values may be loaded, and which mnemonics may be used. There is no condition on
the number of variables, which follows from the one on their values
(`WellFormed.length_freshUses_le`).
-/

namespace HackAssembler

/-- The conditions under which statements can be assembled. -/
structure WellFormed (dialect : Dialect) (statements : List (Located Statement)) : Prop where
  labels_distinct : ((labelEntries statements).map Prod.fst).Nodup
  labels_new : ∀ entry ∈ labelEntries statements, dialect.symbol? entry.1 = none
  labels_fit : ∀ entry ∈ labelEntries statements, entry.2.value ≤ symbolMax
  operands_fit : ∀ located ∈ instructions statements, ∀ operand, located.item = .load operand →
    ∃ value, operand.value? (symbolEntries dialect statements) = some value ∧ value ≤ addressMax
  mnemonics_known : ∀ located ∈ instructions statements, ∀ computation,
    located.item = .compute computation →
      ∀ field mnemonic, computation.mnemonic? field = some mnemonic →
        ∃ pattern, dialect.pattern? field mnemonic = some pattern

/-! ### Names -/

theorem Dialect.nodup_predefinedEntries (dialect : Dialect) :
    (dialect.predefinedEntries.map Prod.fst).Nodup := by
  rw [← dialect.toList_symbolTable]
  exact dialect.symbolTable.nodup_names

/-- A dialect predefines a symbol exactly when an entry carries its name. -/
theorem Dialect.symbol?_eq_none_iff {dialect : Dialect} {name : String} :
    dialect.symbol? name = none ↔ name ∉ dialect.predefinedEntries.map Prod.fst := by
  unfold symbol? predefinedEntries
  rw [OrderedMap.get?_eq_none_iff, List.map_map]
  rfl

theorem nodup_boundNames_iff {dialect : Dialect} {statements : List (Located Statement)} :
    (boundNames dialect statements).Nodup ↔
      ((labelEntries statements).map Prod.fst).Nodup ∧
        ∀ entry ∈ labelEntries statements, dialect.symbol? entry.1 = none := by
  unfold boundNames
  rw [List.map_append, List.nodup_append]
  simp only [dialect.nodup_predefinedEntries, true_and, Dialect.symbol?_eq_none_iff]
  refine and_congr_right fun _ => ⟨?_, ?_⟩
  · intro apart entry member known
    exact apart _ known _ (List.mem_map_of_mem member) rfl
  · intro new name known other label same
    obtain ⟨entry, member, rfl⟩ := List.mem_map.mp label
    exact new entry member (same ▸ known)

theorem nodup_names_freshUses (known : List String) (uses : List (Located String)) :
    ((freshUses known uses).map Located.item).Nodup := by
  induction uses using List.reverseRecOn with
  | nil => exact List.nodup_nil
  | append_singleton uses use ih =>
      rw [freshUses_append_singleton]
      by_cases fresh : IsFresh known uses use.item
      · rw [if_pos fresh, List.map_append, List.map_singleton, ← List.concat_eq_append,
          List.nodup_concat, mem_names_freshUses]
        exact ⟨fun met => fresh.2 met.2, ih⟩
      · rw [if_neg fresh, List.append_nil]
        exact ih

/-- If labels have new and distinct names, then so have all symbols. -/
theorem nodup_symbolEntries {dialect : Dialect} {statements : List (Located Statement)}
    (distinct : (boundNames dialect statements).Nodup) :
    ((symbolEntries dialect statements).map Prod.fst).Nodup := by
  unfold symbolEntries
  rw [List.map_append, map_fst_variableEntries, List.nodup_append]
  refine ⟨distinct, nodup_names_freshUses _ _, ?_⟩
  intro name bound other used same
  subst same
  exact (mem_names_freshUses.mp used).1 bound

/-! ### Labels -/

theorem labelFlaws_label_eq_nil_iff {known : List (String × Symbol)}
    {earlier : List (Located Statement)} {line : Nat} {name : String} :
    labelFlaws known earlier ⟨line, .label name⟩ = [] ↔
      (instructions earlier).length ≤ symbolMax ∧
        name ∉ (known ++ labelEntries earlier).map Prod.fst := by
  unfold labelFlaws
  rw [List.append_eq_nil_iff, Option.toList_eq_nil_iff, Option.map_eq_none_iff,
    List.lookup_eq_none_iff]
  refine and_congr ?_ ?_
  · by_cases fits : (instructions earlier).length ≤ symbolMax <;> simp [fits]
  · simp only [bne_iff_ne, List.mem_map, not_exists, not_and]
    exact ⟨fun apart entry member same => apart entry member same.symm,
      fun apart entry member same => apart entry member same.symm⟩

/-- The label pass has nothing to report if the labels are few, new and distinct. -/
theorem flatMap_labelFlaws_eq_nil_iff {known : List (String × Symbol)}
    (distinct : (known.map Prod.fst).Nodup) (program : List (Located Statement)) :
    ((withEarlier program).flatMap fun (earlier, statement) =>
        labelFlaws known earlier statement) = [] ↔
      ((known ++ labelEntries program).map Prod.fst).Nodup ∧
        ∀ entry ∈ labelEntries program, entry.2.value ≤ symbolMax := by
  induction program using List.reverseRecOn with
  | nil => simpa [labelEntries] using distinct
  | append_singleton program statement ih =>
      rw [withEarlier_append_singleton, List.flatMap_append, List.append_eq_nil_iff, ih,
        List.flatMap_singleton]
      obtain ⟨line, item⟩ := statement
      cases item with
      | instruction body =>
          rw [labelEntries_append_singleton]
          simp [labelFlaws, labelBinding?]
      | label name =>
          have names : (known ++ labelEntries (program ++ [⟨line, .label name⟩])).map Prod.fst =
              ((known ++ labelEntries program).map Prod.fst).concat name := by
            rw [labelEntries_append_singleton]
            simp [labelBinding?]
          rw [labelFlaws_label_eq_nil_iff, names, List.nodup_concat,
            labelEntries_append_singleton]
          simp only [labelBinding?, Option.toList_some, List.mem_append, List.mem_singleton, or_imp,
            forall_and, forall_eq]
          tauto

/-! ### Operands and mnemonics -/

theorem numeralsFit_append_singleton {program : List (Located Instruction)}
    {located : Located Instruction} :
    NumeralsFit (program ++ [located]) ↔
      NumeralsFit program ∧ ∀ text, located.item = .load (.written text) →
        Text.isNumeral text = true → Text.numeralValue text ≤ addressMax := by
  constructor
  · intro fit
    exact ⟨fun other member => fit other (List.mem_append_left _ member), fit located (by simp)⟩
  · intro fit
    exact fit.1.append fit.2

theorem length_freshUses_le_append (known : List String)
    (program later : List (Located Instruction)) :
    (freshUses known (symbolUses program)).length ≤
      (freshUses known (symbolUses (program ++ later))).length := by
  unfold symbolUses
  rw [List.filterMap_append]
  exact (freshUses_isPrefix known _ _).length_le

/-- Nothing is reported of an instruction if its numeral fits and, unless there are too many
variables before it, there are not too many with it. -/
theorem allocationFlaws_eq_nil_iff {known : List String} {earlier : List (Located Instruction)}
    {located : Located Instruction} :
    allocationFlaws known earlier located = [] ↔
      (∀ text, located.item = .load (.written text) → Text.isNumeral text = true →
        Text.numeralValue text ≤ addressMax) ∧
      ((freshUses known (symbolUses earlier)).length ≤ variableMax →
        (freshUses known (symbolUses (earlier ++ [located]))).length ≤ variableMax) := by
  obtain ⟨line, item⟩ := located
  cases item with
  | compute computation =>
      rw [freshUses_append_of_no_use known earlier rfl]
      simp [allocationFlaws]
  | load operand =>
      cases operand with
      | literal value =>
          rw [freshUses_append_of_no_use known earlier rfl]
          simp [allocationFlaws]
      | written text =>
          by_cases numeral : Text.isNumeral text = true
          · rw [freshUses_append_of_no_use known earlier (by simp [Located.symbol?, numeral])]
            simp [allocationFlaws, numeral]
          · by_cases fresh : IsFresh known (symbolUses earlier) text
            · rw [freshUses_append_of_fresh numeral fresh, List.length_append]
              simp only [allocationFlaws, numeral, fresh, true_and, Bool.false_eq_true, ↓reduceIte,
                ite_eq_right_iff, List.cons_ne_nil, imp_false, Instruction.load.injEq,
                Operand.written.injEq, forall_eq', false_implies, List.length_singleton]
              omega
            · rw [freshUses_append_of_not_fresh numeral fresh]
              simp [allocationFlaws, numeral, fresh]

/-- The allocation pass has nothing to report if the numerals fit and the variables are few. -/
theorem flatMap_allocationFlaws_eq_nil_iff {known : List String}
    {program : List (Located Instruction)} :
    ((withEarlier program).flatMap fun (earlier, located) =>
        allocationFlaws known earlier located) = [] ↔
      NumeralsFit program ∧ (freshUses known (symbolUses program)).length ≤ variableMax := by
  induction program using List.reverseRecOn with
  | nil => simp [NumeralsFit, symbolUses, freshUses]
  | append_singleton program located ih =>
      rw [withEarlier_append_singleton, List.flatMap_append, List.append_eq_nil_iff, ih,
        List.flatMap_singleton, allocationFlaws_eq_nil_iff, numeralsFit_append_singleton]
      have grown := length_freshUses_le_append known program [located]
      constructor
      · intro flawless
        obtain ⟨⟨fit, few⟩, fits, still⟩ := flawless
        exact ⟨⟨fit, fits⟩, still few⟩
      · intro good
        obtain ⟨⟨fit, fits⟩, few⟩ := good
        exact ⟨⟨fit, Nat.le_trans grown few⟩, fits, fun _ => few⟩

theorem mnemonicFlaws_eq_nil_iff {dialect : Dialect} {line : Nat} {field : Field}
    {mnemonic : Option String} :
    mnemonicFlaws dialect line field mnemonic = [] ↔
      ∀ text, mnemonic = some text → ∃ pattern, dialect.pattern? field text = some pattern := by
  cases mnemonic with
  | none => simp [mnemonicFlaws]
  | some mnemonic =>
      simp only [mnemonicFlaws, Option.some.injEq, forall_eq']
      cases dialect.pattern? field mnemonic <;> simp

theorem encodingFlaws_compute_eq_nil_iff {dialect : Dialect} {symbols : List (String × Symbol)}
    {line : Nat} {computation : Computation} :
    encodingFlaws dialect symbols ⟨line, .compute computation⟩ = [] ↔
      ∀ field mnemonic, computation.mnemonic? field = some mnemonic →
        ∃ pattern, dialect.pattern? field mnemonic = some pattern := by
  simp only [encodingFlaws, List.append_eq_nil_iff, mnemonicFlaws_eq_nil_iff]
  constructor
  · intro known field
    obtain ⟨comp, dest, jump⟩ := known
    cases field with
    | comp => exact comp
    | dest => exact dest
    | jump => exact jump
  · intro known
    exact ⟨known .comp, known .dest, known .jump⟩

/-- A covered operand has a value, and nothing is reported of it if the value fits. -/
theorem operandFlaws_eq_nil_iff {symbols : List (String × Symbol)} {line : Nat}
    {operand : Operand} (covered : Covered symbols ⟨line, .load operand⟩) :
    operandFlaws symbols line operand = [] ↔
      ∃ value, operand.value? symbols = some value ∧ value ≤ addressMax := by
  cases operand with
  | literal value => simp [operandFlaws, Operand.value?]
  | written text =>
      by_cases numeral : Text.isNumeral text = true
      · simpa [operandFlaws, Operand.value?, numeral] using covered.numeral text rfl numeral
      · have named := covered.symbol ⟨line, text⟩
          (by simp only [Located.symbol?, numeral, Bool.false_eq_true, ↓reduceIte])
        cases found : symbols.lookup text with
        | none =>
            rw [List.lookup_eq_none_iff] at found
            obtain ⟨entry, member, same⟩ := List.mem_map.mp named
            exact absurd same.symm (bne_iff_ne.mp (found entry member))
        | some symbol => simp [operandFlaws, Operand.value?, numeral, found]

/-- Without labels there are conditions on the instructions only. -/
theorem WellFormed.of_instructions {dialect : Dialect} {program : List (Located Instruction)}
    (operands_fit : ∀ located ∈ program, ∀ operand, located.item = .load operand →
      ∃ value, operand.value? (symbolEntries dialect (program.map Located.statement)) = some value ∧
        value ≤ addressMax)
    (mnemonics_known : ∀ located ∈ program, ∀ computation, located.item = .compute computation →
      ∀ field mnemonic, computation.mnemonic? field = some mnemonic →
        ∃ pattern, dialect.pattern? field mnemonic = some pattern) :
    WellFormed dialect (program.map Located.statement) where
  labels_distinct := by
    rw [labelEntries_map_statement]
    exact List.nodup_nil
  labels_new := by
    rw [labelEntries_map_statement]
    exact List.forall_mem_nil _
  labels_fit := by
    rw [labelEntries_map_statement]
    exact List.forall_mem_nil _
  operands_fit := by
    rw [instructions_map_statement]
    exact operands_fit
  mnemonics_known := by
    rw [instructions_map_statement]
    exact mnemonics_known

/-! ### Flawless statements -/

/-- Well-formed statements have at most as many variables as there are addresses from the first one
to the largest that can be loaded. -/
theorem WellFormed.length_freshUses_le {dialect : Dialect} {statements : List (Located Statement)}
    (wellFormed : WellFormed dialect statements) :
    (freshUses (boundNames dialect statements) (symbolUses (instructions statements))).length ≤
      addressMax + 1 - firstVariable := by
  -- One variable more, and the value of the last one would be too large for its first use.
  by_contra many
  have inside : addressMax + 1 - firstVariable <
      (freshUses (boundNames dialect statements) (symbolUses (instructions statements))).length :=
    Nat.lt_of_not_le many
  let use := (freshUses (boundNames dialect statements)
    (symbolUses (instructions statements)))[addressMax + 1 - firstVariable]
  have entry : (use.item, ⟨.variable, addressMax + 1, some use.line⟩) ∈
      symbolEntries dialect statements := by
    refine List.mem_append_right _
      (List.mem_map.mpr ⟨(use, addressMax + 1 - firstVariable), ?_, rfl⟩)
    exact List.mem_zipIdx_iff_getElem?.mpr (List.getElem?_eq_getElem inside)
  have distinct := nodup_symbolEntries
    (nodup_boundNames_iff.mpr ⟨wellFormed.labels_distinct, wellFormed.labels_new⟩)
  have found := OrderedMap.lookup_eq_some_of_mem distinct entry
  obtain ⟨located, member, used⟩ :=
    List.mem_filterMap.mp (mem_of_mem_freshUses (List.getElem_mem inside))
  obtain ⟨rfl, symbolic⟩ := Located.symbol?_eq_some_iff.mp used
  obtain ⟨value, valued, fits⟩ := wellFormed.operands_fit _ member _ rfl
  simp only [Operand.value?, symbolic, Bool.false_eq_true, ↓reduceIte, use, found,
    Option.map_some, Option.some.injEq] at valued
  omega

/-- Statements have no flaws exactly when they are well formed. -/
theorem statementFlaws_eq_nil_iff {dialect : Dialect} {statements : List (Located Statement)} :
    statementFlaws dialect statements = [] ↔ WellFormed dialect statements := by
  unfold statementFlaws
  rw [List.append_eq_nil_iff, List.append_eq_nil_iff,
    flatMap_labelFlaws_eq_nil_iff dialect.nodup_predefinedEntries,
    flatMap_allocationFlaws_eq_nil_iff, List.flatMap_eq_nil_iff]
  constructor
  · intro flawless
    obtain ⟨⟨names, values⟩, ⟨fit, _⟩, encoding⟩ := flawless
    obtain ⟨distinct, new⟩ := nodup_boundNames_iff.mp names
    refine ⟨distinct, new, values, ?_, ?_⟩
    · intro located member operand loads
      obtain ⟨line, item⟩ := located
      cases loads
      exact (operandFlaws_eq_nil_iff (covered_of_variableEntries fit _ member)).mp
        (encoding _ member)
    · intro located member computation computes
      obtain ⟨line, item⟩ := located
      cases computes
      exact encodingFlaws_compute_eq_nil_iff.mp (encoding _ member)
  · intro wellFormed
    have few : (freshUses (boundNames dialect statements)
        (symbolUses (instructions statements))).length ≤ variableMax :=
      Nat.le_trans wellFormed.length_freshUses_le (by decide)
    have fit : NumeralsFit (instructions statements) := by
      intro located member text loaded numeral
      obtain ⟨value, valued, fits⟩ := wellFormed.operands_fit located member _ loaded
      simp only [Operand.value?, numeral, ↓reduceIte, Option.some.injEq] at valued
      exact valued ▸ fits
    have names := nodup_boundNames_iff.mpr
      ⟨wellFormed.labels_distinct, wellFormed.labels_new⟩
    refine ⟨⟨names, wellFormed.labels_fit⟩, ⟨fit, few⟩, ?_⟩
    intro located member
    obtain ⟨line, item⟩ := located
    cases item with
    | load operand =>
        exact (operandFlaws_eq_nil_iff (covered_of_variableEntries fit _ member)).mpr
          (wellFormed.operands_fit _ member _ rfl)
    | compute computation =>
        exact encodingFlaws_compute_eq_nil_iff.mpr (wellFormed.mnemonics_known _ member _ rfl)

/-- Well-formed statements are translated to what they mean. -/
theorem WellFormed.exists_translate {dialect : Dialect} {statements : List (Located Statement)}
    (wellFormed : WellFormed dialect statements) :
    ∃ program, translate dialect statements = .ok program ∧ program.Means dialect statements :=
  (translate_verdict dialect statements).of_flawless (statementFlaws_eq_nil_iff.mpr wellFormed)

theorem wellFormed_of_translate {dialect : Dialect} {statements : List (Located Statement)}
    {program : Program} (translated : translate dialect statements = .ok program) :
    WellFormed dialect statements ∧ program.Means dialect statements := by
  have verdict := translate_verdict dialect statements
  rw [translated] at verdict
  obtain ⟨flawless, means⟩ := verdict.of_ok
  exact ⟨statementFlaws_eq_nil_iff.mp flawless, means⟩

theorem flatMap_readingFlaws_eq_nil_iff {source : String} :
    (Source.codeLines source).flatMap readingFlaws = [] ↔
      ∀ written ∈ Source.codeLines source,
        ∃ statement, Statement.read written.item = .ok statement := by
  rw [List.flatMap_eq_nil_iff]
  refine forall_congr' fun written => imp_congr_right fun _ => ?_
  unfold readingFlaws
  cases Statement.read written.item <;> simp

/-- A source has no flaws exactly when each of its lines with code is a statement and the statements
are well formed. -/
theorem flaws_eq_nil_iff {dialect : Dialect} {source : String} :
    flaws dialect source = [] ↔
      (∀ written ∈ Source.codeLines source,
        ∃ statement, Statement.read written.item = .ok statement) ∧
      WellFormed dialect (Source.readable source) := by
  unfold flaws
  rw [List.append_eq_nil_iff, flatMap_readingFlaws_eq_nil_iff, statementFlaws_eq_nil_iff]

/-- A source that is assembled has well-formed statements on all its lines with code, and it is
assembled to what they mean. -/
theorem wellFormed_of_assemble {dialect : Dialect} {source : String} {program : Program}
    (assembled : assemble dialect source = .ok program) :
    (∀ written ∈ Source.codeLines source,
      ∃ statement, Statement.read written.item = .ok statement) ∧
    WellFormed dialect (Source.readable source) ∧
    program.Means dialect (Source.readable source) := by
  have verdict := assemble_verdict dialect source
  rw [assembled] at verdict
  obtain ⟨flawless, _, means⟩ := verdict.of_ok
  obtain ⟨read, wellFormed⟩ := flaws_eq_nil_iff.mp flawless
  exact ⟨read, wellFormed, means⟩

end HackAssembler
