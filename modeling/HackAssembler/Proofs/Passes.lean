import HackAssembler.Proofs.Flaws

/-! # The passes and their flaws

Each pass over the statements keeps a state, and the state is a matter of the statements that it has
seen: the label pass holds their labels and counts their instructions, and the allocation pass holds
their variables and the address after the last of them. From what one step does to such a state,
each pass gives a verdict on its flaws, and together they give one on all flaws of a source
(`assemble_verdict`).
-/

namespace HackAssembler

/-! ### Labels -/

/-- The state of the label pass after the given statements. -/
structure LabelState.Follows (state : LabelState) (known : List (String × Symbol))
    (earlier : List (Located Statement)) : Prop where
  symbols : state.symbols.toList = known ++ labelEntries earlier
  address : state.address = (instructions earlier).length

theorem LabelState.next_verdict {known : List (String × Symbol)}
    {earlier : List (Located Statement)} {state : LabelState}
    (follows : state.Follows known earlier) (statement : Located Statement) :
    Verdict (fun next => next.Follows known (earlier ++ [statement]))
      (labelFlaws known earlier statement) (state.next statement) := by
  obtain ⟨line, item⟩ := statement
  obtain ⟨symbols, address⟩ := state
  obtain ⟨entries, counted⟩ := follows
  simp only at entries counted
  subst counted
  cases item with
  | instruction body =>
      refine .accepted ⟨?_, ?_⟩
      · rw [labelEntries_append_singleton, ← List.append_assoc, ← entries]
        exact (List.append_nil _).symm
      · rw [instructions_append, List.length_append]
        rfl
  | label name =>
      have earlierEntry : (known ++ labelEntries earlier).lookup name = symbols.get? name := by
        rw [← entries, OrderedMap.lookup_toList]
      by_cases fits : (instructions earlier).length ≤ symbolMax
      · simp only [labelFlaws, LabelState.next, fits, ↓reduceIte, List.nil_append, earlierEntry,
          Nat.not_lt.mpr fits, OrderedMap.getThenInsertIfNew?_eq]
        cases old : symbols.get? name with
        | some symbol => exact .rejected _ []
        | none =>
            refine .accepted ⟨?_, ?_⟩
            · rw [labelEntries_append_singleton, ← List.append_assoc, ← entries]
              exact OrderedMap.toList_insertIfNew_of_new old
            · rw [instructions_append, List.length_append]
              rfl
      · simp only [labelFlaws, LabelState.next, fits, ↓reduceIte, List.singleton_append,
          Nat.lt_of_not_le fits]
        exact .rejected _ _

theorem resolveLabels_verdict (known : SymbolTable) (program : List (Located Statement)) :
    Verdict
      (fun resolved => resolved.1.toList = known.toList ++ labelEntries program ∧
        resolved.2 = instructions program)
      ((withEarlier program).flatMap fun (earlier, statement) =>
        labelFlaws known.toList earlier statement)
      (resolveLabels known program) := by
  have started : LabelState.Follows ⟨known, 0⟩ known.toList [] :=
    ⟨(List.append_nil _).symm, rfl⟩
  have passed := Verdict.foldlM
    (fun earlier (state : LabelState) => state.Follows known.toList earlier) started
    (fun _ statement _ follows => LabelState.next_verdict follows statement) program
  have bound : Verdict (fun symbols => symbols.toList = known.toList ++ labelEntries program) _
      (known.bindLabels program) :=
    passed.map LabelState.symbols fun _ follows => follows.symbols
  exact bound.map (fun symbols => (symbols, instructions program)) fun _ entries =>
    ⟨entries, rfl⟩

/-! ### Variables -/

/-- The numerals of a program fit an address word. -/
def NumeralsFit (program : List (Located Instruction)) : Prop :=
  ∀ located ∈ program, ∀ text, located.item = .load (.written text) →
    Text.isNumeral text = true → Text.numeralValue text ≤ addressMax

/-- The state of the allocation pass after the given instructions. -/
structure VariableState.Follows (state : VariableState) (known : List (String × Symbol))
    (earlier : List (Located Instruction)) : Prop where
  symbols : state.symbols.toList = known ++ variableEntries (known.map Prod.fst) earlier
  free : state.free =
    firstVariable + (freshUses (known.map Prod.fst) (symbolUses earlier)).length
  room : (freshUses (known.map Prod.fst) (symbolUses earlier)).length ≤ variableMax
  numerals : NumeralsFit earlier

theorem NumeralsFit.append {program : List (Located Instruction)} (fit : NumeralsFit program)
    {located : Located Instruction} (fits : ∀ text, located.item = .load (.written text) →
      Text.isNumeral text = true → Text.numeralValue text ≤ addressMax) :
    NumeralsFit (program ++ [located]) := by
  intro other member
  rcases List.mem_append.mp member with before | last
  · exact fit other before
  · rw [List.mem_singleton.mp last]
    exact fits

/-- The state stays as it is at an instruction that uses no name for the first time. -/
theorem VariableState.Follows.append_of_no_first_use {known : List (String × Symbol)}
    {earlier : List (Located Instruction)} {state : VariableState}
    (follows : state.Follows known earlier) {located : Located Instruction}
    (unchanged : freshUses (known.map Prod.fst) (symbolUses (earlier ++ [located])) =
      freshUses (known.map Prod.fst) (symbolUses earlier))
    (fits : ∀ text, located.item = .load (.written text) →
      Text.isNumeral text = true → Text.numeralValue text ≤ addressMax) :
    state.Follows known (earlier ++ [located]) where
  symbols := by
    rw [follows.symbols, variableEntries, variableEntries, unchanged]
  free := by
    rw [follows.free, unchanged]
  room := by
    rw [unchanged]
    exact follows.room
  numerals := follows.numerals.append fits

theorem freshUses_append_of_no_use (known : List String) (earlier : List (Located Instruction))
    {located : Located Instruction} (unused : located.symbol? = none) :
    freshUses known (symbolUses (earlier ++ [located])) =
      freshUses known (symbolUses earlier) := by
  rw [symbolUses_append_singleton, unused]
  exact congrArg (freshUses known) (List.append_nil _)

/-- The table after some instructions contains the names known before and those used in them. -/
theorem VariableState.Follows.contains_iff {known : List (String × Symbol)}
    {earlier : List (Located Instruction)} {state : VariableState}
    (follows : state.Follows known earlier) (text : String) :
    state.symbols.contains text = true ↔
      ¬ IsFresh (known.map Prod.fst) (symbolUses earlier) text := by
  rw [OrderedMap.contains_iff_mem_names, follows.symbols, List.map_append, List.mem_append,
    map_fst_variableEntries, mem_names_freshUses]
  unfold IsFresh
  tauto

theorem freshUses_append_of_fresh {known : List String} {earlier : List (Located Instruction)}
    {line : Nat} {text : String} (symbolic : ¬ Text.isNumeral text = true)
    (fresh : IsFresh known (symbolUses earlier) text) :
    freshUses known (symbolUses (earlier ++ [⟨line, .load (.written text)⟩])) =
      freshUses known (symbolUses earlier) ++ [⟨line, text⟩] := by
  rw [symbolUses_append_singleton]
  simp only [Located.symbol?, symbolic, Bool.false_eq_true, ↓reduceIte, Option.toList_some]
  rw [freshUses_append_singleton, if_pos fresh]

theorem freshUses_append_of_not_fresh {known : List String}
    {earlier : List (Located Instruction)} {line : Nat} {text : String}
    (symbolic : ¬ Text.isNumeral text = true)
    (met : ¬ IsFresh known (symbolUses earlier) text) :
    freshUses known (symbolUses (earlier ++ [⟨line, .load (.written text)⟩])) =
      freshUses known (symbolUses earlier) := by
  rw [symbolUses_append_singleton]
  simp only [Located.symbol?, symbolic, Bool.false_eq_true, ↓reduceIte, Option.toList_some]
  rw [freshUses_append_singleton, if_neg met, List.append_nil]

theorem VariableState.use_verdict {known : List (String × Symbol)}
    {earlier : List (Located Instruction)} {state : VariableState}
    (follows : state.Follows known earlier) (line : Nat) (text : String) :
    Verdict (fun next => next.Follows known (earlier ++ [⟨line, .load (.written text)⟩]))
      (allocationFlaws (known.map Prod.fst) earlier ⟨line, .load (.written text)⟩)
      (state.use line text) := by
  have contains := follows.contains_iff text
  obtain ⟨symbols, free⟩ := state
  have entries := follows.symbols
  have counted := follows.free
  have room := follows.room
  simp only at contains entries counted
  by_cases numeral : Text.isNumeral text = true
  · by_cases fits : Text.numeralValue text ≤ addressMax
    · simp only [allocationFlaws, VariableState.use, numeral, fits, Nat.not_lt.mpr fits,
        ↓reduceIte]
      refine .accepted (follows.append_of_no_first_use ?_ ?_)
      · exact freshUses_append_of_no_use _ _ (by simp only [Located.symbol?, numeral, ↓reduceIte])
      · intro text same _
        cases same
        exact fits
    · simp only [allocationFlaws, VariableState.use, numeral, fits, Nat.lt_of_not_le fits,
        ↓reduceIte]
      exact .rejected _ _
  · by_cases fresh : IsFresh (known.map Prod.fst) (symbolUses earlier) text
    · have new : symbols.get? text = none := by
        rw [OrderedMap.get?_eq_none_iff, ← OrderedMap.contains_iff_mem_names, contains]
        exact not_not_intro fresh
      -- The pass checks the address after the new one, so the last address is never given.
      by_cases full : (freshUses (known.map Prod.fst) (symbolUses earlier)).length = variableMax
      · have exhausted : symbolMax < free + 1 := by
          simp only [variableMax, symbolMax, firstVariable] at *
          omega
        simp only [allocationFlaws, VariableState.use, numeral, fresh, full, contains, exhausted,
          not_true_eq_false, and_self, Bool.false_eq_true, ↓reduceIte]
        exact .rejected _ _
      · have available : ¬ symbolMax < free + 1 := by
          simp only [variableMax, symbolMax, firstVariable] at *
          omega
        simp only [allocationFlaws, VariableState.use, numeral, fresh, full, contains, available,
          not_true_eq_false, and_false, Bool.false_eq_true, ↓reduceIte]
        refine .accepted ⟨?_, ?_, ?_, follows.numerals.append ?_⟩
        · rw [OrderedMap.toList_insertIfNew_of_new new, entries, List.append_assoc, counted]
          simp only [variableEntries, freshUses_append_of_fresh numeral fresh, List.zipIdx_append,
            List.map_append]
          simp
        · rw [freshUses_append_of_fresh numeral fresh, List.length_append, counted]
          rfl
        · rw [freshUses_append_of_fresh numeral fresh, List.length_append]
          exact Nat.lt_of_le_of_ne room full
        · intro other same isNumeral
          cases same
          exact absurd isNumeral numeral
    · simp only [allocationFlaws, VariableState.use, numeral, fresh, contains, not_false_eq_true,
        false_and, Bool.false_eq_true, ↓reduceIte]
      refine .accepted (follows.append_of_no_first_use ?_ ?_)
      · exact freshUses_append_of_not_fresh numeral fresh
      · intro other same isNumeral
        cases same
        exact absurd isNumeral numeral

theorem VariableState.next_verdict {known : List (String × Symbol)}
    {earlier : List (Located Instruction)} {state : VariableState}
    (follows : state.Follows known earlier) (located : Located Instruction) :
    Verdict (fun next => next.Follows known (earlier ++ [located]))
      (allocationFlaws (known.map Prod.fst) earlier located) (state.next located) := by
  obtain ⟨line, item⟩ := located
  cases item with
  | compute computation =>
      refine .accepted (follows.append_of_no_first_use ?_ ?_)
      · exact freshUses_append_of_no_use _ _ rfl
      · intro text absurd
        cases absurd
  | load operand =>
      cases operand with
      | literal value =>
          refine .accepted (follows.append_of_no_first_use ?_ ?_)
          · exact freshUses_append_of_no_use _ _ rfl
          · intro text absurd
            cases absurd
      | written text => exact VariableState.use_verdict follows line text

theorem resolveVariables_verdict (known : SymbolTable) (program : List (Located Instruction)) :
    Verdict
      (fun resolved => resolved.1.toList =
          known.toList ++ variableEntries (known.toList.map Prod.fst) program ∧
        NumeralsFit program ∧ resolved.2 = evaluateNumerals program)
      ((withEarlier program).flatMap fun (earlier, located) =>
        allocationFlaws (known.toList.map Prod.fst) earlier located)
      (resolveVariables known program) := by
  have started : VariableState.Follows ⟨known, firstVariable⟩ known.toList [] :=
    ⟨(List.append_nil _).symm, rfl, Nat.zero_le _, by simp [NumeralsFit]⟩
  have passed := Verdict.foldlM
    (fun earlier (state : VariableState) => state.Follows known.toList earlier) started
    (fun _ located _ follows => VariableState.next_verdict follows located) program
  have bound : Verdict (fun symbols => symbols.toList =
        known.toList ++ variableEntries (known.toList.map Prod.fst) program ∧
      NumeralsFit program) _ (known.bindVariables program) :=
    passed.map VariableState.symbols fun _ follows => ⟨follows.symbols, follows.numerals⟩
  exact bound.map (fun symbols => (symbols, evaluateNumerals program)) fun _ resolved =>
    ⟨resolved.1, resolved.2, rfl⟩

/-! ### Words -/

theorem Word.load_verdict (value : Nat) (oversized : Oversized) (line : Nat) :
    Verdict (· = .address value)
      (if value ≤ addressMax then [] else [⟨.encoding, 0, ⟨.addressOverflow oversized, line⟩⟩])
      (Word.load value oversized line) := by
  unfold Word.load
  by_cases fits : value ≤ addressMax
  · simp only [fits, ↓reduceIte]
    exact .accepted rfl
  · simp only [fits, ↓reduceIte]
    exact .rejected _ _

/-- An instruction is covered by a table when its numeral fits and its name is in the table. -/
structure Covered (symbols : List (String × Symbol)) (located : Located Instruction) : Prop where
  numeral : ∀ text, located.item = .load (.written text) → Text.isNumeral text = true →
    Text.numeralValue text ≤ addressMax
  symbol : ∀ use, located.symbol? = some use → use.item ∈ symbols.map Prod.fst

theorem Operand.encode_verdict (dialect : Dialect) {symbols : SymbolTable} {line : Nat}
    {operand : Operand} (covered : Covered symbols.toList ⟨line, .load operand⟩) :
    Verdict (Encodes dialect symbols.toList (.load operand))
      (operandFlaws symbols.toList line operand) (operand.evaluated.encode symbols line) := by
  cases operand with
  | literal value =>
      have loaded := Word.load_verdict value (.written (toString value)) line
      exact loaded.imp fun word same => same ▸ .load rfl
  | written text =>
      by_cases numeral : Text.isNumeral text = true
      · simp only [operandFlaws, Operand.evaluated, Operand.encode, numeral, ↓reduceIte]
        have fits := covered.numeral text rfl numeral
        simp only [Word.load, fits, ↓reduceIte]
        exact .accepted (.load (by simp only [Operand.value?, numeral, ↓reduceIte]))
      · have named := covered.symbol ⟨line, text⟩
          (by simp only [Located.symbol?, numeral, Bool.false_eq_true, ↓reduceIte])
        obtain ⟨symbol, found⟩ : ∃ symbol, symbols.get? text = some symbol := by
          rw [← Option.isSome_iff_exists, Option.isSome_iff_ne_none, ne_eq,
            OrderedMap.get?_eq_none_iff]
          exact not_not_intro named
        simp only [operandFlaws, Operand.evaluated, Operand.encode, numeral, Bool.false_eq_true,
          ↓reduceIte, OrderedMap.lookup_toList, SymbolTable.value?, found, Option.map_some]
        have loaded := Word.load_verdict symbol.value (.symbol text symbol.value) line
        refine loaded.imp fun word same => same ▸ .load ?_
        simp only [Operand.value?, numeral, Bool.false_eq_true, ↓reduceIte,
          OrderedMap.lookup_toList, found, Option.map_some]

theorem Dialect.resolveOptional_verdict (dialect : Dialect) (line : Nat) (field : Field)
    (mnemonic : Option String) :
    Verdict (fun pattern => dialect.fieldPattern? field mnemonic = some pattern)
      (mnemonicFlaws dialect line field mnemonic)
      (dialect.resolveOptional line field mnemonic) := by
  cases mnemonic with
  | none => exact .accepted rfl
  | some mnemonic =>
      simp only [mnemonicFlaws, Dialect.resolveOptional, Dialect.resolve, Dialect.fieldPattern?]
      cases known : dialect.pattern? field mnemonic with
      | some pattern => exact .accepted rfl
      | none => exact .rejected _ _

/-- The mnemonics of a computation are resolved field by field. -/
theorem Computation.encode_verdict (dialect : Dialect) (symbols : List (String × Symbol))
    (line : Nat) (computation : Computation) :
    Verdict (Encodes dialect symbols (.compute computation))
      (encodingFlaws dialect symbols ⟨line, .compute computation⟩)
      (computation.encode dialect line) := by
  refine (dialect.resolveOptional_verdict line .comp _).bind fun comp comp_known => ?_
  refine (dialect.resolveOptional_verdict line .dest _).bind fun dest dest_known => ?_
  refine (dialect.resolveOptional_verdict line .jump _).map _ fun jump jump_known => ?_
  exact .compute comp_known dest_known jump_known

theorem encode_verdict {dialect : Dialect} {symbols : SymbolTable} {located : Located Instruction}
    (covered : Covered symbols.toList located) :
    Verdict (Encodes dialect symbols.toList located.item)
      (encodingFlaws dialect symbols.toList located)
      (encode symbols dialect ⟨located.line, located.item.evaluated⟩) := by
  obtain ⟨line, item⟩ := located
  cases item with
  | load operand => exact Operand.encode_verdict dialect covered
  | compute computation => exact Computation.encode_verdict dialect symbols.toList line computation

theorem encodeAll_verdict (dialect : Dialect) {symbols : SymbolTable}
    {program : List (Located Instruction)}
    (covered : ∀ located ∈ program, Covered symbols.toList located) :
    Verdict
      (List.Forall₂ (fun located word => Encodes dialect symbols.toList located.item word) program)
      (program.flatMap (encodingFlaws dialect symbols.toList))
      (encodeAll symbols dialect (evaluateNumerals program)) := by
  unfold encodeAll evaluateNumerals
  rw [List.mapM_map]
  exact Verdict.mapM fun located member => encode_verdict (covered located member)

/-! ### Assembling -/

/-- After the allocation pass the table covers every instruction. -/
theorem covered_of_variableEntries {known : List (String × Symbol)}
    {program : List (Located Instruction)} (fit : NumeralsFit program)
    (located : Located Instruction) (member : located ∈ program) :
    Covered (known ++ variableEntries (known.map Prod.fst) program) located where
  numeral := fit located member
  symbol := by
    intro use used
    have inUses : use.item ∈ (symbolUses program).map Located.item :=
      List.mem_map_of_mem (List.mem_filterMap.mpr ⟨located, member, used⟩)
    rw [List.map_append, List.mem_append, map_fst_variableEntries, mem_names_freshUses]
    by_cases bound : use.item ∈ known.map Prod.fst
    · exact Or.inl bound
    · exact Or.inr ⟨bound, inUses⟩

/-- The passes over statements judge their flaws and leave what they mean. -/
theorem translate_verdict (dialect : Dialect) (statements : List (Located Statement)) :
    Verdict (Program.Means dialect statements) (statementFlaws dialect statements)
      (translate dialect statements) := by
  have labelled := resolveLabels_verdict dialect.symbolTable statements
  rw [dialect.toList_symbolTable] at labelled
  refine labelled.bind ?_
  intro resolved bound
  obtain ⟨labels, written⟩ := resolved
  obtain ⟨labelTable, rfl⟩ := bound
  have allocated := resolveVariables_verdict labels (instructions statements)
  rw [labelTable] at allocated
  refine allocated.bind ?_
  intro resolved bound
  obtain ⟨symbols, evaluated⟩ := resolved
  obtain ⟨table, fit, rfl⟩ := bound
  -- The table is final now, so all names of the program can be looked up in it.
  have whole : symbols.toList = symbolEntries dialect statements := table
  have covered : ∀ located ∈ instructions statements, Covered symbols.toList located := by
    rw [table]
    exact covered_of_variableEntries fit
  have encoded := encodeAll_verdict dialect covered
  rw [← whole]
  refine encoded.map _ fun words encodes => ?_
  exact { symbols := whole, instructions := rfl, words := encodes }

/-- A line of a source is read as a statement. -/
def ReadAs (written : Located String) (statement : Located Statement) : Prop :=
  statement.line = written.line ∧ Statement.read written.item = .ok statement.item

theorem readLine_verdict (written : Located String) :
    Verdict (ReadAs written) (readingFlaws written) (Source.readLine written) := by
  unfold readingFlaws Source.readLine
  cases read : Statement.read written.item with
  | ok statement => exact .accepted ⟨rfl, read⟩
  | error malformation => exact .rejected _ _

/-- If every line can be read, the statements that can be read are all statements. -/
theorem readable_of_readAs {source : String} {statements : List (Located Statement)}
    (read : List.Forall₂ ReadAs (Source.codeLines source) statements) :
    statements = Source.readable source := by
  unfold Source.readable
  generalize Source.codeLines source = lines at read
  induction read with
  | nil => rfl
  | @cons written statement _ _ head _ ih =>
      obtain ⟨line, item⟩ := head
      rw [List.filterMap_cons, item, ← line, ← ih]
      rfl

theorem statements_verdict (source : String) :
    Verdict (fun statements => List.Forall₂ ReadAs (Source.codeLines source) statements)
      ((Source.codeLines source).flatMap readingFlaws) (Source.statements source) :=
  Verdict.mapM fun written _ => readLine_verdict written

/-- Assembling accepts exactly the sources without flaws, with what their statements mean, and
rejects every other for its first flaw. -/
theorem assemble_verdict (dialect : Dialect) (source : String) :
    Verdict
      (fun program => List.Forall₂ ReadAs (Source.codeLines source) (Source.readable source) ∧
        program.Means dialect (Source.readable source))
      (flaws dialect source) (assemble dialect source) := by
  rw [assemble_eq_bind_translate]
  refine (statements_verdict source).bind fun statements read => ?_
  cases readable_of_readAs read
  exact (translate_verdict dialect _).imp fun program means => ⟨read, means⟩

end HackAssembler
