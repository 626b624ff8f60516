import HackAssembler.Proofs.SourceLines

/-! # The order of flaws

The flaws of a source are listed in their order: by stage, then by line, and on one line by their
place (`flaws_ordered`). So the flaw that is reported comes before all others.
-/

namespace HackAssembler

def Flaw.IsAt (flaw : Flaw) (stage : Stage) (line : Nat) : Prop :=
  flaw.stage = stage ∧ flaw.fault.line = line

/-- Along ascending lines, what one stage can report is ordered if it is so on each line. -/
theorem pairwise_flatMap_precedes {α : Type} {items : List α} {line : α → Nat} (stage : Stage)
    {flawsAt : α → List Flaw}
    (ascend : items.Pairwise fun first second => line first < line second)
    (located : ∀ item, ∀ flaw ∈ flawsAt item, flaw.IsAt stage (line item))
    (ordered : ∀ item, (flawsAt item).Pairwise Flaw.Precedes) :
    (items.flatMap flawsAt).Pairwise Flaw.Precedes := by
  rw [List.pairwise_flatMap]
  refine ⟨fun item _ => ordered item, ascend.imp fun before flaw member other otherMember => ?_⟩
  obtain ⟨stageFirst, lineFirst⟩ := located _ flaw member
  obtain ⟨stageSecond, lineSecond⟩ := located _ other otherMember
  refine .of_line (by rw [stageFirst, stageSecond]) ?_
  rw [lineFirst, lineSecond]
  exact before

/-! ### The flaws of one line -/

theorem ite_singleton_ordered (condition : Prop) [Decidable condition] (flaw : Flaw) :
    (if condition then [flaw] else []).Pairwise Flaw.Precedes := by
  split
  · exact List.pairwise_singleton _ _
  · exact .nil

theorem ite_nil_ordered (condition : Prop) [Decidable condition] (flaw : Flaw) :
    (if condition then [] else [flaw]).Pairwise Flaw.Precedes := by
  split
  · exact .nil
  · exact List.pairwise_singleton _ _

theorem readingFlaws_isAt (written : Located String) :
    ∀ flaw ∈ readingFlaws written, flaw.IsAt .reading written.line := by
  intro flaw member
  unfold readingFlaws at member
  cases outcome : Statement.read written.item with
  | ok statement => simp [outcome] at member
  | error malformation =>
      simp only [outcome, List.mem_singleton] at member
      rw [member]
      exact ⟨rfl, rfl⟩

theorem readingFlaws_ordered (written : Located String) :
    (readingFlaws written).Pairwise Flaw.Precedes := by
  unfold readingFlaws
  cases Statement.read written.item with
  | ok statement => exact .nil
  | error malformation => exact List.pairwise_singleton _ _

/-- A label can be reported as too far before it is reported as a duplicate. -/
theorem mem_labelFlaws {known : List (String × Symbol)} {earlier : List (Located Statement)}
    {statement : Located Statement} {flaw : Flaw} :
    flaw ∈ labelFlaws known earlier statement ↔
      ∃ name, statement.item = .label name ∧
        ((symbolMax < (instructions earlier).length ∧
            flaw = ⟨.labelling, 0, ⟨.addressOverflow (.written name), statement.line⟩⟩) ∨
          ∃ prev, ((known ++ labelEntries earlier).lookup name).map Symbol.line = some prev ∧
            flaw = ⟨.labelling, 1, ⟨.duplicateLabel name prev, statement.line⟩⟩) := by
  obtain ⟨line, item⟩ := statement
  cases item with
  | instruction body => simp [labelFlaws]
  | label name =>
      simp only [labelFlaws, List.mem_append, Option.mem_toList, Option.map_eq_some_iff,
        Statement.label.injEq, exists_eq_left']
      refine or_congr ?_ ?_
      · by_cases fits : (instructions earlier).length ≤ symbolMax
        · simp [fits, Nat.not_lt.mpr fits]
        · simp [fits, Nat.lt_of_not_le fits]
      · constructor
        · intro known
          obtain ⟨symbol, found, rfl⟩ := known
          exact ⟨_, ⟨symbol, found, rfl⟩, rfl⟩
        · intro known
          obtain ⟨_, ⟨symbol, found, rfl⟩, rfl⟩ := known
          exact ⟨symbol, found, rfl⟩

theorem labelFlaws_isAt (known : List (String × Symbol))
    (pair : List (Located Statement) × Located Statement) :
    ∀ flaw ∈ labelFlaws known pair.1 pair.2, flaw.IsAt .labelling pair.2.line := by
  intro flaw member
  obtain ⟨name, _, ⟨_, rfl⟩ | ⟨prev, _, rfl⟩⟩ := mem_labelFlaws.mp member
  · exact ⟨rfl, rfl⟩
  · exact ⟨rfl, rfl⟩

theorem labelFlaws_ordered (known : List (String × Symbol))
    (pair : List (Located Statement) × Located Statement) :
    (labelFlaws known pair.1 pair.2).Pairwise Flaw.Precedes := by
  obtain ⟨earlier, line, item⟩ := pair
  cases item with
  | instruction body => exact .nil
  | label name =>
      simp only [labelFlaws]
      refine List.pairwise_append.mpr ⟨ite_nil_ordered _ _, ?_, ?_⟩
      · cases (known ++ labelEntries earlier).lookup name with
        | none => exact .nil
        | some symbol => exact List.pairwise_singleton _ _
      · intro flaw distant other duplicate
        by_cases fits : (instructions earlier).length ≤ symbolMax
        · simp [fits] at distant
        · simp only [fits, ↓reduceIte, List.mem_singleton] at distant
          obtain ⟨symbol, _, rfl⟩ := Option.map_eq_some_iff.mp (Option.mem_toList.mp duplicate)
          subst distant
          exact Or.inr ⟨rfl, Or.inr ⟨rfl, Nat.zero_lt_one⟩⟩

theorem mem_allocationFlaws {known : List String} {earlier : List (Located Instruction)}
    {located : Located Instruction} {flaw : Flaw} :
    flaw ∈ allocationFlaws known earlier located ↔
      ∃ text, located.item = .load (.written text) ∧
        (if Text.isNumeral text then addressMax < Text.numeralValue text
          else IsFresh known (symbolUses earlier) text ∧
            (freshUses known (symbolUses earlier)).length = variableMax) ∧
        flaw = ⟨.allocation, 0, ⟨.addressOverflow (.written text), located.line⟩⟩ := by
  obtain ⟨line, item⟩ := located
  cases item with
  | compute computation => simp [allocationFlaws]
  | load operand =>
      cases operand with
      | literal value => simp [allocationFlaws]
      | written text =>
          simp only [allocationFlaws, List.mem_ite_nil_right, List.mem_singleton,
            Instruction.load.injEq, Operand.written.injEq, exists_eq_left']

theorem allocationFlaws_isAt (known : List String)
    (pair : List (Located Instruction) × Located Instruction) :
    ∀ flaw ∈ allocationFlaws known pair.1 pair.2, flaw.IsAt .allocation pair.2.line := by
  intro flaw member
  obtain ⟨text, _, _, rfl⟩ := mem_allocationFlaws.mp member
  exact ⟨rfl, rfl⟩

theorem allocationFlaws_ordered (known : List String)
    (pair : List (Located Instruction) × Located Instruction) :
    (allocationFlaws known pair.1 pair.2).Pairwise Flaw.Precedes := by
  unfold allocationFlaws
  split
  · exact ite_singleton_ordered _ _
  · exact .nil

theorem mem_mnemonicFlaws {dialect : Dialect} {line : Nat} {field : Field}
    {mnemonic : Option String} {flaw : Flaw} :
    flaw ∈ mnemonicFlaws dialect line field mnemonic ↔
      ∃ text, mnemonic = some text ∧ dialect.pattern? field text = none ∧
        flaw = ⟨.encoding, field.slot, ⟨.unresolvedMnemonic field text, line⟩⟩ := by
  cases mnemonic with
  | none => simp [mnemonicFlaws]
  | some text =>
      simp only [mnemonicFlaws, Option.some.injEq, exists_eq_left']
      cases dialect.pattern? field text with
      | none => simp
      | some pattern => simp

theorem mnemonicFlaws_ordered (dialect : Dialect) (line : Nat) (field : Field)
    (mnemonic : Option String) :
    (mnemonicFlaws dialect line field mnemonic).Pairwise Flaw.Precedes := by
  unfold mnemonicFlaws
  split
  · exact .nil
  · split
    · exact .nil
    · exact List.pairwise_singleton _ _

/-- The mnemonics of one computation are reported in the order of their fields. -/
theorem mnemonicFlaws_precede {dialect : Dialect} {line : Nat} {field later : Field}
    {mnemonic other : Option String} (ordered : field.slot < later.slot) {first second : Flaw}
    (atFirst : first ∈ mnemonicFlaws dialect line field mnemonic)
    (atSecond : second ∈ mnemonicFlaws dialect line later other) : first.Precedes second := by
  obtain ⟨_, _, _, rfl⟩ := mem_mnemonicFlaws.mp atFirst
  obtain ⟨_, _, _, rfl⟩ := mem_mnemonicFlaws.mp atSecond
  exact Or.inr ⟨rfl, Or.inr ⟨rfl, ordered⟩⟩

theorem mem_operandFlaws {symbols : List (String × Symbol)} {line : Nat} {operand : Operand}
    {flaw : Flaw} :
    flaw ∈ operandFlaws symbols line operand ↔
      (∃ value, operand = .literal value ∧ addressMax < value ∧
        flaw = ⟨.encoding, 0, ⟨.addressOverflow (.written (toString value)), line⟩⟩) ∨
      ∃ text symbol, operand = .written text ∧ Text.isNumeral text = false ∧
        symbols.lookup text = some symbol ∧ addressMax < symbol.value ∧
        flaw = ⟨.encoding, 0, ⟨.addressOverflow (.symbol text symbol.value), line⟩⟩ := by
  cases operand with
  | literal value =>
      by_cases fits : value ≤ addressMax
      · simp [operandFlaws, fits, Nat.not_lt.mpr fits]
      · simp [operandFlaws, fits, Nat.lt_of_not_le fits]
  | written text =>
      by_cases numeral : Text.isNumeral text = true
      · simp [operandFlaws, numeral]
      · cases found : symbols.lookup text with
        | none => simp [operandFlaws, found]
        | some symbol =>
            by_cases fits : symbol.value ≤ addressMax
            · simp [operandFlaws, numeral, found, fits, Nat.not_lt.mpr fits]
            · simp [operandFlaws, numeral, found, fits, Nat.lt_of_not_le fits]

theorem operandFlaws_ordered (symbols : List (String × Symbol)) (line : Nat) (operand : Operand) :
    (operandFlaws symbols line operand).Pairwise Flaw.Precedes := by
  unfold operandFlaws
  split
  · exact ite_nil_ordered _ _
  · split
    · exact .nil
    · split
      · exact ite_nil_ordered _ _
      · exact .nil

theorem mem_encodingFlaws_compute {dialect : Dialect} {symbols : List (String × Symbol)}
    {line : Nat} {computation : Computation} {flaw : Flaw} :
    flaw ∈ encodingFlaws dialect symbols ⟨line, .compute computation⟩ ↔
      ∃ field, flaw ∈ mnemonicFlaws dialect line field (computation.mnemonic? field) := by
  simp only [encodingFlaws, List.mem_append]
  constructor
  · intro reported
    rcases reported with comp | dest | jump
    · exact ⟨.comp, comp⟩
    · exact ⟨.dest, dest⟩
    · exact ⟨.jump, jump⟩
  · intro reported
    obtain ⟨field, member⟩ := reported
    cases field with
    | comp => exact Or.inl member
    | dest => exact Or.inr (Or.inl member)
    | jump => exact Or.inr (Or.inr member)

theorem encodingFlaws_isAt (dialect : Dialect) (symbols : List (String × Symbol))
    (located : Located Instruction) :
    ∀ flaw ∈ encodingFlaws dialect symbols located, flaw.IsAt .encoding located.line := by
  obtain ⟨line, item⟩ := located
  intro flaw member
  cases item with
  | load operand =>
      rcases mem_operandFlaws.mp member with ⟨_, _, _, rfl⟩ | ⟨_, _, _, _, _, _, rfl⟩
      · exact ⟨rfl, rfl⟩
      · exact ⟨rfl, rfl⟩
  | compute computation =>
      obtain ⟨field, reported⟩ := mem_encodingFlaws_compute.mp member
      obtain ⟨_, _, _, rfl⟩ := mem_mnemonicFlaws.mp reported
      exact ⟨rfl, rfl⟩

theorem encodingFlaws_ordered (dialect : Dialect) (symbols : List (String × Symbol))
    (located : Located Instruction) :
    (encodingFlaws dialect symbols located).Pairwise Flaw.Precedes := by
  obtain ⟨line, item⟩ := located
  cases item with
  | load operand => exact operandFlaws_ordered symbols line operand
  | compute computation =>
      refine List.pairwise_append.mpr ⟨mnemonicFlaws_ordered _ _ _ _, ?_, ?_⟩
      · refine List.pairwise_append.mpr
          ⟨mnemonicFlaws_ordered _ _ _ _, mnemonicFlaws_ordered _ _ _ _, ?_⟩
        intro first atDest second atJump
        exact mnemonicFlaws_precede (by decide) atDest atJump
      · intro first atComp second later
        rcases List.mem_append.mp later with atDest | atJump
        · exact mnemonicFlaws_precede (by decide) atComp atDest
        · exact mnemonicFlaws_precede (by decide) atComp atJump

/-! ### All flaws of a source -/

/-- What one stage reports comes before what a later stage reports. -/
theorem pairwise_append_precedes {first second : List Flaw} (rank : Nat)
    (orderedFirst : first.Pairwise Flaw.Precedes) (orderedSecond : second.Pairwise Flaw.Precedes)
    (upTo : ∀ flaw ∈ first, flaw.stage.rank ≤ rank)
    (beyond : ∀ flaw ∈ second, rank < flaw.stage.rank) :
    (first ++ second).Pairwise Flaw.Precedes := by
  refine List.pairwise_append.mpr ⟨orderedFirst, orderedSecond, ?_⟩
  intro flaw member other otherMember
  exact Or.inl (Nat.lt_of_le_of_lt (upTo flaw member) (beyond other otherMember))

theorem stage_of_mem_flatMap {α : Type} {items : List α} {line : α → Nat} {stage : Stage}
    {flawsAt : α → List Flaw}
    (located : ∀ item, ∀ flaw ∈ flawsAt item, flaw.IsAt stage (line item)) {flaw : Flaw}
    (member : flaw ∈ items.flatMap flawsAt) : flaw.stage = stage := by
  obtain ⟨item, _, reported⟩ := List.mem_flatMap.mp member
  exact (located item flaw reported).1

theorem stage_of_mem_encoding {dialect : Dialect} {symbols : List (String × Symbol)}
    {program : List (Located Instruction)} {flaw : Flaw}
    (member : flaw ∈ program.flatMap (encodingFlaws dialect symbols)) :
    flaw.stage = .encoding :=
  stage_of_mem_flatMap (encodingFlaws_isAt dialect symbols) member

theorem stage_of_mem_allocation {known : List String} {program : List (Located Instruction)}
    {flaw : Flaw}
    (member : flaw ∈ (withEarlier program).flatMap fun pair =>
      allocationFlaws known pair.1 pair.2) :
    flaw.stage = .allocation :=
  stage_of_mem_flatMap (allocationFlaws_isAt known) member

theorem stage_of_mem_labelling {known : List (String × Symbol)}
    {statements : List (Located Statement)} {flaw : Flaw}
    (member : flaw ∈ (withEarlier statements).flatMap fun pair =>
      labelFlaws known pair.1 pair.2) :
    flaw.stage = .labelling :=
  stage_of_mem_flatMap (labelFlaws_isAt known) member

theorem rank_of_mem_statementFlaws {dialect : Dialect} {statements : List (Located Statement)}
    {flaw : Flaw} (member : flaw ∈ statementFlaws dialect statements) :
    Stage.reading.rank < flaw.stage.rank := by
  rcases List.mem_append.mp member with labelling | later
  · rw [stage_of_mem_labelling labelling]
    decide
  · rcases List.mem_append.mp later with allocation | encoding
    · rw [stage_of_mem_allocation allocation]
      decide
    · rw [stage_of_mem_encoding encoding]
      decide

theorem statementFlaws_ordered {dialect : Dialect} {statements : List (Located Statement)}
    (ascend : statements.Pairwise fun first second => first.line < second.line) :
    (statementFlaws dialect statements).Pairwise Flaw.Precedes := by
  have programAscends := instructions_ascend ascend
  have labelling := pairwise_flatMap_precedes .labelling (withEarlier_ascend ascend)
    (labelFlaws_isAt dialect.predefinedEntries) (labelFlaws_ordered dialect.predefinedEntries)
  have allocation := pairwise_flatMap_precedes .allocation (withEarlier_ascend programAscends)
    (allocationFlaws_isAt (boundNames dialect statements))
    (allocationFlaws_ordered (boundNames dialect statements))
  have encoding := pairwise_flatMap_precedes .encoding programAscends
    (encodingFlaws_isAt dialect (symbolEntries dialect statements))
    (encodingFlaws_ordered dialect (symbolEntries dialect statements))
  refine pairwise_append_precedes Stage.labelling.rank labelling ?_ ?_ ?_
  · refine pairwise_append_precedes Stage.allocation.rank allocation encoding ?_ ?_
    · intro flaw member
      exact Nat.le_of_eq (congrArg Stage.rank (stage_of_mem_allocation member))
    · intro flaw member
      rw [stage_of_mem_encoding member]
      decide
  · intro flaw member
    exact Nat.le_of_eq (congrArg Stage.rank (stage_of_mem_labelling member))
  · intro flaw member
    rcases List.mem_append.mp member with allocated | encoded
    · rw [stage_of_mem_allocation allocated]
      decide
    · rw [stage_of_mem_encoding encoded]
      decide

/-- The flaws of a source are listed in their order, with none twice. -/
theorem flaws_ordered (dialect : Dialect) (source : String) :
    (flaws dialect source).Pairwise Flaw.Precedes := by
  have reading := pairwise_flatMap_precedes .reading (Source.codeLines_ascend source)
    readingFlaws_isAt readingFlaws_ordered
  have rest : (statementFlaws dialect (Source.readable source)).Pairwise Flaw.Precedes :=
    statementFlaws_ordered (Source.readable_ascend source)
  refine pairwise_append_precedes Stage.reading.rank reading rest ?_ ?_
  · intro flaw member
    exact Nat.le_of_eq (congrArg Stage.rank (stage_of_mem_flatMap readingFlaws_isAt member))
  · intro flaw member
    exact rank_of_mem_statementFlaws member

end HackAssembler
