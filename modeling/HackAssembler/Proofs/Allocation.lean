import HackAssembler.Proofs.FlawOrder
import HackAssembler.Proofs.Outcomes
import HackAssembler.Proofs.WellFormed

/-! # Allocating variables in any table

The allocation pass may start from any table of symbols and go over any instructions. It stops at
the first instruction that overflows (`Overflows`): a numeral that is too large, or the first use of
a name when the addresses are used up. If there is none, it adds the fresh names as variables and
replaces the numerals by their values (`Evaluates`), and a second pass finds nothing left to do.
`resolveVariables_outcome` puts this together.
-/

namespace HackAssembler

/-- The operand of an instruction behind others has no address: it is a numeral that is too large,
or it is a fresh name and as many names as there are addresses are fresh before it. -/
inductive Overflows (known : List String) (earlier : List (Located Instruction))
    (text : String) : Prop
  | largeNumeral (numeral : Text.isNumeral text = true) (large : 32767 < Text.numeralValue text)
  | lateVariable (symbolic : Text.isNumeral text = false)
      (fresh : IsFresh known (symbolUses earlier) text)
      (full : (freshUses known (symbolUses earlier)).length = 65519)

/-- What the allocation pass makes of an instruction: a numeral is replaced by its value, and every
other instruction stays as it is. -/
inductive Evaluates : Located Instruction → Located Instruction → Prop
  | numeral {line : Nat} {text : String} (numeral : Text.isNumeral text = true) :
      Evaluates ⟨line, .load (.written text)⟩ ⟨line, .load (.literal (Text.numeralValue text))⟩
  | other {located : Located Instruction}
      (symbolic : ∀ text, located.item = .load (.written text) → Text.isNumeral text = false) :
      Evaluates located located

variable {symbols resolved : SymbolTable} {program evaluated : List (Located Instruction)}

/-! ### Where the pass stops -/

theorem mem_allocationFlaws_iff_overflows {known : List String}
    {earlier : List (Located Instruction)} {located : Located Instruction} {flaw : Flaw} :
    flaw ∈ allocationFlaws known earlier located ↔
      ∃ text, located.item = .load (.written text) ∧ Overflows known earlier text ∧
        flaw = ⟨.allocation, 0, ⟨.addressOverflow (.written text), located.line⟩⟩ := by
  rw [mem_allocationFlaws]
  refine exists_congr fun text => and_congr_right fun _ => and_congr_left fun _ => ?_
  constructor
  · intro condition
    cases numeral : Text.isNumeral text with
    | true =>
        rw [numeral, if_pos rfl] at condition
        exact .largeNumeral numeral condition
    | false =>
        rw [numeral, if_neg Bool.false_ne_true] at condition
        exact .lateVariable numeral condition.1 condition.2
  · intro overflows
    cases overflows with
    | largeNumeral numeral large =>
        rw [if_pos numeral]
        exact large
    | lateVariable symbolic fresh full =>
        rw [symbolic, if_neg Bool.false_ne_true]
        exact ⟨fresh, full⟩

/-- The pass goes through exactly if the numerals fit and the fresh names are no more than there are
addresses for them. -/
theorem resolveVariables_ok_iff :
    (∃ result, resolveVariables symbols program = .ok result) ↔
      NumeralsFit program ∧
        (freshUses (symbols.toList.map Prod.fst) (symbolUses program)).length ≤ variableMax := by
  rw [(resolveVariables_verdict symbols program).exists_ok_iff, flatMap_allocationFlaws_eq_nil_iff]

theorem resolveVariables_error_iff :
    (∃ fault, resolveVariables symbols program = .error fault) ↔
      (∃ located ∈ program, ∃ text, located.item = .load (.written text) ∧
        Text.isNumeral text = true ∧ 32767 < Text.numeralValue text) ∨
      65520 ≤ (freshUses (symbols.toList.map Prod.fst) (symbolUses program)).length := by
  have rejected : (∃ fault, resolveVariables symbols program = .error fault) ↔
      ¬ ∃ result, resolveVariables symbols program = .ok result := by
    cases resolveVariables symbols program <;> simp
  rw [rejected, resolveVariables_ok_iff, not_and_or, Nat.not_le]
  refine or_congr ?_ Iff.rfl
  simp only [NumeralsFit, not_forall, Nat.not_le, exists_prop]
  rfl

/-- The pass fails at the first instruction that overflows. -/
theorem first_overflow_of_error {fault : Fault}
    (failed : resolveVariables symbols program = .error fault) :
    ∃ earlier line text later, program = earlier ++ ⟨line, .load (.written text)⟩ :: later ∧
      fault = ⟨.addressOverflow (.written text), line⟩ ∧
      Overflows (symbols.toList.map Prod.fst) earlier text ∧
      ∀ before located, (before, located) ∈ withEarlier earlier → ∀ other,
        located.item = .load (.written other) →
          ¬ Overflows (symbols.toList.map Prod.fst) before other := by
  have verdict : Verdict _ ((withEarlier program).flatMap fun pair =>
      allocationFlaws (symbols.toList.map Prod.fst) pair.1 pair.2) (.error fault) :=
    failed ▸ resolveVariables_verdict symbols program
  obtain ⟨earlier, ⟨line, item⟩, later, flaw, split, first, rfl, none⟩ := verdict.exists_first
  obtain ⟨text, rfl, overflows, rfl⟩ :=
    mem_allocationFlaws_iff_overflows.mp (List.mem_of_mem_head? first)
  refine ⟨earlier, line, text, later, split, rfl, overflows, ?_⟩
  intro before located paired other loads overflowsBefore
  have reported := mem_allocationFlaws_iff_overflows.mpr ⟨other, loads, overflowsBefore, rfl⟩
  rw [none _ paired] at reported
  cases reported

/-! ### What the pass leaves -/

theorem evaluates_evaluated (located : Located Instruction) :
    Evaluates located ⟨located.line, located.item.evaluated⟩ := by
  obtain ⟨line, item⟩ := located
  cases item with
  | compute computation =>
      exact .other fun text loads => by cases loads
  | load operand =>
      cases operand with
      | literal value =>
          exact .other fun text loads => by cases loads
      | written text =>
          cases numeral : Text.isNumeral text with
          | true =>
              simp only [Instruction.evaluated, Operand.evaluated, numeral, ↓reduceIte]
              exact .numeral numeral
          | false =>
              simp only [Instruction.evaluated, Operand.evaluated, numeral, Bool.false_eq_true,
                ↓reduceIte]
              exact .other fun other loads => by cases loads; exact numeral

theorem forall₂_evaluates (program : List (Located Instruction)) :
    List.Forall₂ Evaluates program (evaluateNumerals program) := by
  unfold evaluateNumerals
  rw [List.forall₂_map_right_iff, List.forall₂_same]
  exact fun located _ => evaluates_evaluated located

theorem Instruction.evaluated_evaluated (body : Instruction) :
    body.evaluated.evaluated = body.evaluated := by
  cases body with
  | compute computation => rfl
  | load operand =>
      cases operand with
      | literal value => rfl
      | written text =>
          by_cases numeral : Text.isNumeral text = true
          · simp [evaluated, Operand.evaluated, numeral]
          · simp [evaluated, Operand.evaluated, numeral]

theorem evaluateNumerals_evaluateNumerals (program : List (Located Instruction)) :
    evaluateNumerals (evaluateNumerals program) = evaluateNumerals program := by
  unfold evaluateNumerals
  rw [List.map_map]
  refine List.map_congr_left fun located _ => ?_
  simp only [Function.comp_apply, Instruction.evaluated_evaluated]

/-- An operand that is still written after the pass is a name that the program uses there. -/
theorem exists_use_of_mem_evaluateNumerals {located : Located Instruction} {name : String}
    (member : located ∈ evaluateNumerals program) (loads : located.item = .load (.written name)) :
    ∃ original ∈ program, original.symbol? = some ⟨located.line, name⟩ := by
  obtain ⟨⟨line, item⟩, inside, rfl⟩ := List.mem_map.mp member
  refine ⟨_, inside, Located.symbol?_eq_some_iff.mpr ?_⟩
  cases item with
  | compute computation => cases loads
  | load operand =>
      cases operand with
      | literal value => cases loads
      | written text =>
          by_cases numeral : Text.isNumeral text = true
          · simp [Instruction.evaluated, Operand.evaluated, numeral] at loads
          · simp only [Instruction.evaluated, Operand.evaluated, numeral, Bool.false_eq_true,
              ↓reduceIte, Instruction.load.injEq, Operand.written.injEq] at loads
            subst loads
            exact ⟨rfl, numeral⟩

/-- What can be reported of an instruction while it is encoded is not an undefined symbol. -/
theorem cause_ne_undefinedSymbol_of_mem_encodingFlaws {dialect : Dialect}
    {entries : List (String × Symbol)} {located : Located Instruction} {flaw : Flaw}
    (reported : flaw ∈ encodingFlaws dialect entries located) (name : String) :
    flaw.fault.cause ≠ .undefinedSymbol name := by
  obtain ⟨line, item⟩ := located
  intro undefined
  cases item with
  | load operand =>
      rcases mem_operandFlaws.mp reported with ⟨_, _, _, rfl⟩ | ⟨_, _, _, _, _, _, rfl⟩
      · cases undefined
      · cases undefined
  | compute computation =>
      obtain ⟨field, ofField⟩ := mem_encodingFlaws_compute.mp reported
      obtain ⟨_, _, _, rfl⟩ := mem_mnemonicFlaws.mp ofField
      cases undefined

/-- With a table that covers a program, encoding meets no undefined symbol. -/
theorem encodeAll_ne_undefinedSymbol {dialect : Dialect} {fault : Fault}
    (covered : ∀ located ∈ program, Covered resolved.toList located)
    (failed : encodeAll resolved dialect (evaluateNumerals program) = .error fault)
    (name : String) : fault.cause ≠ .undefinedSymbol name := by
  have verdict := encodeAll_verdict dialect covered
  rw [failed] at verdict
  obtain ⟨flaw, later, listed, rfl⟩ := verdict.of_error
  have member : flaw ∈ program.flatMap (encodingFlaws dialect resolved.toList) := by
    rw [listed]
    exact List.mem_cons_self
  obtain ⟨located, _, reported⟩ := List.mem_flatMap.mp member
  exact cause_ne_undefinedSymbol_of_mem_encodingFlaws reported name

/-! ### Passing again -/

theorem VariableState.next_of_contained {state : VariableState} {located : Located Instruction}
    (contained : ∀ name, located.item = .load (.written name) →
      Text.isNumeral name = false ∧ state.symbols.contains name = true) :
    state.next located = .ok state := by
  obtain ⟨line, item⟩ := located
  cases item with
  | compute computation => rfl
  | load operand =>
      cases operand with
      | literal value => rfl
      | written text =>
          obtain ⟨symbolic, known⟩ := contained text rfl
          simp only [VariableState.next, VariableState.use, symbolic, known, Bool.false_eq_true,
            ↓reduceIte]

/-- A table that has all names of a program is left as it is. -/
theorem bindVariables_of_contained
    (contained : ∀ located ∈ program, ∀ name, located.item = .load (.written name) →
      Text.isNumeral name = false ∧ resolved.contains name = true) :
    resolved.bindVariables program = .ok resolved := by
  have still : program.foldlM VariableState.next ⟨resolved, firstVariable⟩ =
      .ok ⟨resolved, firstVariable⟩ :=
    foldlM_eq_ok_of_forall_eq_ok fun located member =>
      VariableState.next_of_contained (contained located member)
  unfold SymbolTable.bindVariables
  rw [still]
  rfl

end HackAssembler
