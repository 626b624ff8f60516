import HackAssembler.Proofs.Agreement
import HackAssembler.Proofs.AssembledWords
import HackAssembler.Proofs.SourceLines

/-! # Relevant entries of a dialect

An entry of a dialect is relevant to a source when a statement of the source names its symbol or has
its mnemonic. Symbol tables that agree on the names of a program are taken by every step of the
passes to tables that agree on them again, or to the same fault. So entries that are not relevant
make no difference, and neither does the order of those that are (`assemble_relevant_entries`).
-/

namespace HackAssembler

/-- The name that a statement uses: that of the label it declares or of the symbol it loads. -/
def Statement.name? : Statement → Option String
  | label name => some name
  | instruction (.load (.written text)) => if Text.isNumeral text then none else some text
  | instruction _ => none

/-- The mnemonic in a field of a statement that is a computation with this field. -/
def Statement.mnemonic? : Statement → Field → Option String
  | instruction (.compute computation), field => computation.mnemonic? field
  | _, _ => none

/-- Two dialects give the name and the mnemonics of a statement the same address and patterns. -/
structure Dialect.AgreeOn (first second : Dialect) (statement : Statement) : Prop where
  symbols : ∀ name ∈ statement.name?, first.symbol? name = second.symbol? name
  patterns : ∀ field, ∀ mnemonic ∈ statement.mnemonic? field,
    first.pattern? field mnemonic = second.pattern? field mnemonic

/-- Two dialects have the same entries for the name and the mnemonics of a statement, at whatever
places and among whatever other entries. -/
structure Dialect.ShareEntries (first second : Dialect) (statement : Statement) : Prop where
  symbols : ∀ name ∈ statement.name?, ∀ address,
    (name, address) ∈ first.symbols.toList ↔ (name, address) ∈ second.symbols.toList
  patterns : ∀ field, ∀ mnemonic ∈ statement.mnemonic? field, ∀ pattern,
    (mnemonic, pattern) ∈ (first.codebook field).entries ↔
      (mnemonic, pattern) ∈ (second.codebook field).entries

theorem Dialect.ShareEntries.agreeOn {first second : Dialect} {statement : Statement}
    (share : first.ShareEntries second statement) : first.AgreeOn second statement where
  symbols := by
    intro name used
    refine Option.ext fun address => ?_
    exact OrderedMap.get?_eq_some_iff.trans
      ((share.symbols name used address).trans OrderedMap.get?_eq_some_iff.symm)
  patterns := by
    intro field mnemonic used
    refine Option.ext fun pattern => ?_
    exact Codebook.pattern?_eq_some_iff.trans
      ((share.patterns field mnemonic used pattern).trans Codebook.pattern?_eq_some_iff.symm)

/-! ### Symbol tables -/

variable {named : String → Prop}

/-- Two symbol tables say the same of some names. -/
def SymbolTable.AgreeOn (first second : SymbolTable) (named : String → Prop) : Prop :=
  ∀ name, named name → first.get? name = second.get? name

namespace SymbolTable.AgreeOn

variable {first second : SymbolTable}

theorem contains (agree : first.AgreeOn second named) {name : String} (member : named name) :
    first.contains name = second.contains name := by
  rw [Bool.eq_iff_iff, OrderedMap.contains_iff, OrderedMap.contains_iff]
  simp only [← OrderedMap.get?_eq_some_iff, agree name member]

theorem insertIfNew (agree : first.AgreeOn second named) {name : String} (member : named name)
    (new : first.get? name = none) (symbol : Symbol) :
    SymbolTable.AgreeOn (first.insertIfNew name symbol) (second.insertIfNew name symbol) named := by
  have otherNew : second.get? name = none := (agree name member).symm.trans new
  intro other otherMember
  rw [OrderedMap.get?_insertIfNew_of_new new, OrderedMap.get?_insertIfNew_of_new otherNew,
    agree other otherMember]

end SymbolTable.AgreeOn

theorem Dialect.symbolTable_agreeOn {first second : Dialect}
    (symbols : ∀ name, named name → first.symbol? name = second.symbol? name) :
    first.symbolTable.AgreeOn second.symbolTable named := by
  intro name member
  unfold symbolTable
  rw [OrderedMap.get?_mapValues, OrderedMap.get?_mapValues]
  exact congrArg (Option.map _) (symbols name member)

/-! ### Labels -/

structure LabelState.AgreeOn (first second : LabelState) (named : String → Prop) : Prop where
  symbols : first.symbols.AgreeOn second.symbols named
  address : first.address = second.address

theorem LabelState.next_agreeOn {first second : LabelState} (states : first.AgreeOn second named)
    (statement : Located Statement) (names : ∀ name ∈ statement.item.name?, named name) :
    Agree Eq (fun next other => next.AgreeOn other named) (first.next statement)
      (second.next statement) := by
  obtain ⟨symbols, _⟩ := first
  obtain ⟨otherSymbols, address⟩ := second
  obtain ⟨tables, rfl⟩ := states
  obtain ⟨line, item⟩ := statement
  simp only at tables
  cases item with
  | instruction body => exact .accepted ⟨tables, rfl⟩
  | label name =>
      have member := names name rfl
      simp only [LabelState.next, OrderedMap.getThenInsertIfNew?_eq, ← tables name member]
      split
      · exact .rejected rfl
      · cases earlier : symbols.get? name with
        | none => exact .accepted ⟨tables.insertIfNew member earlier _, rfl⟩
        | some symbol => exact .rejected rfl

theorem resolveLabels_agreeOn {first second : SymbolTable} (tables : first.AgreeOn second named)
    {program : List (Located Statement)}
    (names : ∀ statement ∈ program, ∀ name ∈ statement.item.name?, named name) :
    Agree Eq
      (fun resolved other => resolved.1.AgreeOn other.1 named ∧
        resolved.2 = instructions program ∧ other.2 = instructions program)
      (resolveLabels first program) (resolveLabels second program) := by
  have started : LabelState.AgreeOn ⟨first, 0⟩ ⟨second, 0⟩ named := ⟨tables, rfl⟩
  have passed := Agree.foldlM_self (fun statement member _ _ states =>
    LabelState.next_agreeOn states statement (names statement member)) started
  have bound : Agree Eq (fun symbols other => SymbolTable.AgreeOn symbols other named)
      (first.bindLabels program) (second.bindLabels program) :=
    passed.map LabelState.symbols LabelState.symbols fun _ _ states => states.symbols
  exact bound.map (fun symbols => (symbols, instructions program))
    (fun symbols => (symbols, instructions program)) fun _ _ tables => ⟨tables, rfl, rfl⟩

/-! ### Variables -/

structure VariableState.AgreeOn (first second : VariableState) (named : String → Prop) : Prop where
  symbols : first.symbols.AgreeOn second.symbols named
  free : first.free = second.free

theorem VariableState.use_agreeOn {first second : VariableState}
    (states : first.AgreeOn second named) (line : Nat) {text : String}
    (names : ¬ Text.isNumeral text = true → named text) :
    Agree Eq (fun next other => next.AgreeOn other named) (first.use line text)
      (second.use line text) := by
  obtain ⟨symbols, _⟩ := first
  obtain ⟨otherSymbols, free⟩ := second
  obtain ⟨tables, rfl⟩ := states
  simp only at tables
  unfold VariableState.use
  by_cases numeral : Text.isNumeral text = true
  · simp only [numeral, ↓reduceIte]
    split
    · exact .accepted ⟨tables, rfl⟩
    · exact .rejected rfl
  · simp only [numeral, Bool.false_eq_true, ↓reduceIte, ← tables.contains (names numeral)]
    split
    · exact .accepted ⟨tables, rfl⟩
    · next unknown =>
        have new : symbols.get? text = none := by
          rw [OrderedMap.get?_eq_none_iff, ← OrderedMap.contains_iff_mem_names]
          exact unknown
        split
        · exact .rejected rfl
        · exact .accepted ⟨tables.insertIfNew (names numeral) new _, rfl⟩

theorem VariableState.next_agreeOn {first second : VariableState}
    (states : first.AgreeOn second named) (located : Located Instruction)
    (names : ∀ name ∈ (Statement.instruction located.item).name?, named name) :
    Agree Eq (fun next other => next.AgreeOn other named) (first.next located)
      (second.next located) := by
  obtain ⟨line, item⟩ := located
  cases item with
  | compute computation => exact .accepted states
  | load operand =>
      cases operand with
      | literal value => exact .accepted states
      | written text =>
          exact VariableState.use_agreeOn states line fun symbolic => names text (if_neg symbolic)

theorem resolveVariables_agreeOn {first second : SymbolTable}
    (tables : first.AgreeOn second named) {program : List (Located Instruction)}
    (names : ∀ located ∈ program, ∀ name ∈ (Statement.instruction located.item).name?,
      named name) :
    Agree Eq
      (fun resolved other => resolved.1.AgreeOn other.1 named ∧
        resolved.2 = evaluateNumerals program ∧ other.2 = evaluateNumerals program)
      (resolveVariables first program) (resolveVariables second program) := by
  have started : VariableState.AgreeOn ⟨first, firstVariable⟩ ⟨second, firstVariable⟩ named :=
    ⟨tables, rfl⟩
  have passed := Agree.foldlM_self (fun located member _ _ states =>
    VariableState.next_agreeOn states located (names located member)) started
  have bound : Agree Eq (fun symbols other => SymbolTable.AgreeOn symbols other named)
      (first.bindVariables program) (second.bindVariables program) :=
    passed.map VariableState.symbols VariableState.symbols fun _ _ states => states.symbols
  exact bound.map (fun symbols => (symbols, evaluateNumerals program))
    (fun symbols => (symbols, evaluateNumerals program)) fun _ _ tables => ⟨tables, rfl, rfl⟩

/-! ### Words -/

theorem Computation.encode_agreeOn {first second : Dialect} {computation : Computation}
    (agree : first.AgreeOn second (.instruction (.compute computation))) (line : Nat) :
    computation.encode first line = computation.encode second line := by
  have same : ∀ field, first.resolveOptional line field (computation.mnemonic? field) =
      second.resolveOptional line field (computation.mnemonic? field) := by
    intro field
    cases present : computation.mnemonic? field with
    | none => rfl
    | some mnemonic =>
        simp only [Dialect.resolveOptional, Dialect.resolve,
          agree.patterns field mnemonic present]
  have comp : first.resolve line .comp computation.comp =
      second.resolve line .comp computation.comp := same .comp
  have dest : first.resolveOptional line .dest computation.dest =
      second.resolveOptional line .dest computation.dest := same .dest
  have jump : first.resolveOptional line .jump computation.jump =
      second.resolveOptional line .jump computation.jump := same .jump
  simp only [Computation.encode, comp, dest, jump]

theorem encode_agreeOn {first second : Dialect} {symbols others : SymbolTable}
    (tables : symbols.AgreeOn others named) (located : Located Instruction)
    (names : ∀ name ∈ (Statement.instruction located.item).name?, named name)
    (agree : first.AgreeOn second (.instruction located.item)) :
    encode symbols first ⟨located.line, located.item.evaluated⟩ =
      encode others second ⟨located.line, located.item.evaluated⟩ := by
  obtain ⟨line, item⟩ := located
  cases item with
  | compute computation => exact Computation.encode_agreeOn agree line
  | load operand =>
      cases operand with
      | literal value => rfl
      | written text =>
          by_cases numeral : Text.isNumeral text = true
          · simp only [Instruction.evaluated, Operand.evaluated, numeral, ↓reduceIte, encode,
              Operand.encode]
          · have same := tables text (names text (if_neg numeral))
            simp only [Instruction.evaluated, Operand.evaluated, numeral, Bool.false_eq_true,
              ↓reduceIte, encode, Operand.encode, SymbolTable.value?, same]

theorem encodeAll_agreeOn {first second : Dialect} {symbols others : SymbolTable}
    (tables : symbols.AgreeOn others named) {program : List (Located Instruction)}
    (names : ∀ located ∈ program, ∀ name ∈ (Statement.instruction located.item).name?, named name)
    (agree : ∀ located ∈ program, first.AgreeOn second (.instruction located.item)) :
    encodeAll symbols first (evaluateNumerals program) =
      encodeAll others second (evaluateNumerals program) := by
  unfold encodeAll evaluateNumerals
  rw [List.mapM_map, List.mapM_map]
  induction program with
  | nil => rfl
  | cons located program ih =>
      obtain ⟨namesHead, namesTail⟩ := List.forall_mem_cons.mp names
      obtain ⟨agreeHead, agreeTail⟩ := List.forall_mem_cons.mp agree
      rw [List.mapM_cons, List.mapM_cons, ih namesTail agreeTail]
      simp only [Function.comp_apply, encode_agreeOn tables located namesHead agreeHead]

/-! ### Assembling -/

/-- Statements are translated to the same words under dialects that agree on them. -/
theorem translate_agreeOn {first second : Dialect} {statements : List (Located Statement)}
    (agree : ∀ statement ∈ statements, first.AgreeOn second statement.item) :
    Agree Eq (fun program other => program.words = other.words) (translate first statements)
      (translate second statements) := by
  -- The names are those of the whole program, so that each pass hands on what the next one needs.
  let named := fun name => ∃ statement ∈ statements, name ∈ statement.item.name?
  have names : ∀ statement ∈ statements, ∀ name ∈ statement.item.name?, named name :=
    fun statement member name used => ⟨statement, member, used⟩
  have tables : first.symbolTable.AgreeOn second.symbolTable named := by
    refine Dialect.symbolTable_agreeOn fun name member => ?_
    obtain ⟨statement, inside, used⟩ := member
    exact (agree statement inside).symbols name used
  refine (resolveLabels_agreeOn tables names).bind ?_
  rintro ⟨labels, written⟩ ⟨otherLabels, otherWritten⟩ ⟨labelTables, rfl, rfl⟩
  have namesOfInstructions : ∀ located ∈ instructions statements,
      ∀ name ∈ (Statement.instruction located.item).name?, named name :=
    fun located member => names _ (mem_instructions.mp member)
  refine (resolveVariables_agreeOn labelTables namesOfInstructions).bind ?_
  rintro ⟨symbols, evaluated⟩ ⟨otherSymbols, otherEvaluated⟩ ⟨symbolTables, rfl, rfl⟩
  have words := encodeAll_agreeOn symbolTables namesOfInstructions fun located member =>
    agree _ (mem_instructions.mp member)
  simp only [words]
  cases encodeAll otherSymbols second (evaluateNumerals (instructions statements)) with
  | ok words => exact .accepted rfl
  | error fault => exact .rejected rfl

open Source

/-- A source is assembled to the same words under dialects that agree on its statements. -/
theorem assemble_agreeOn {first second : Dialect} {source : String}
    (agree : ∀ line statement, Says source line statement → first.AgreeOn second statement) :
    (assemble first source).map Program.words = (assemble second source).map Program.words := by
  have read : Agree Eq (fun listed other => listed = readable source ∧ other = readable source)
      (statements source) (statements source) := by
    have verdict := statements_verdict source
    cases outcome : statements source with
    | error fault => exact .rejected rfl
    | ok listed =>
        rw [outcome] at verdict
        have listedAll := readable_of_readAs verdict.of_ok.2
        exact .accepted ⟨listedAll, listedAll⟩
  rw [assemble_eq_bind_translate, assemble_eq_bind_translate]
  refine (read.bind ?_).map_eq
  rintro _ _ ⟨rfl, rfl⟩
  refine translate_agreeOn fun statement member => ?_
  exact agree statement.line statement.item (mem_readable_iff.mp member)

/-- **Only relevant entries count.** If two dialects say the same of the labels and symbols of a
source, whether these are predefined and at which addresses, and give its mnemonics the same
patterns, then the source has the same words under both or the same fault. It is enough that they
have the same entries for them, in whatever order and among whatever other entries. -/
theorem assemble_relevant_entries (first second : Dialect) (source : String) :
    ((∀ line statement, Says source line statement → first.AgreeOn second statement) →
      (assemble first source).map Program.words = (assemble second source).map Program.words) ∧
    ((∀ line statement, Says source line statement → first.ShareEntries second statement) →
      (assemble first source).map Program.words = (assemble second source).map Program.words) := by
  refine ⟨assemble_agreeOn, fun share => assemble_agreeOn fun line statement said => ?_⟩
  exact (share line statement said).agreeOn

/-- With fewer symbols in another order, and without jumps, a program that does not use them has the
same words, and a repeated label is the same fault. -/
theorem assemble_relevant_entries_reordered :
    ∃ other : Dialect, other.symbols.toList = [("KBD", 5), ("R1", 1), ("SP", 0)] ∧
      other.jump.entries = [] ∧
      (assemble .hack "@i\n@R1\nD=A\n(END)\n@END").map Program.words =
        .ok [.address 16, .address 1, .compute 0b0110000 0b010 0, .address 3] ∧
      (assemble other "@i\n@R1\nD=A\n(END)\n@END").map Program.words =
        .ok [.address 16, .address 1, .compute 0b0110000 0b010 0, .address 3] ∧
      (assemble other "@i\n@R1\nD=A\n(END)\n@END\n(END)").map Program.words =
        .error ⟨.duplicateLabel "END" (some 3), 5⟩ := by
  let other : Dialect := { Dialect.hack with
    symbols := .ofList [("KBD", 5), ("R1", 1), ("SP", 0)], jump := .empty .jump }
  have symbols : other.symbols.toList = [("KBD", 5), ("R1", 1), ("SP", 0)] :=
    OrderedMap.toList_ofList (by decide)
  have lookups : ∀ name ∈ ["i", "R1", "END"],
      Dialect.hack.symbols.toList.lookup name = other.symbols.toList.lookup name := by
    rw [symbols, show Dialect.hack.symbols.toList = _ from Dialect.toList_hackSymbols]
    decide +kernel
  let statements : List Statement := [.instruction (.load (.written "i")),
    .instruction (.load (.written "R1")), .instruction (.compute ⟨some "D", "A", none⟩),
    .label "END", .instruction (.load (.written "END"))]
  have names : ∀ statement ∈ statements, ∀ name ∈ statement.name?, name ∈ ["i", "R1", "END"] := by
    decide +kernel
  have noJumps : ∀ statement ∈ statements, statement.mnemonic? .jump = none := by decide +kernel
  have share : ∀ statement ∈ statements, Dialect.hack.ShareEntries other statement := by
    intro statement member
    refine ⟨fun name used address => ?_, fun field mnemonic used pattern => ?_⟩
    · rw [← OrderedMap.get?_eq_some_iff, ← OrderedMap.get?_eq_some_iff, ← OrderedMap.lookup_toList,
        ← OrderedMap.lookup_toList, lookups name (names statement member name used)]
    · cases field with
      | comp => exact Iff.refl ((mnemonic, pattern) ∈ Dialect.hackComp.entries)
      | dest => exact Iff.refl ((mnemonic, pattern) ∈ Dialect.hackDest.entries)
      | jump =>
          rw [noJumps statement member] at used
          cases used
  have said : ∀ source, (readable source).map Located.item ⊆ statements →
      ∀ line statement, Says source line statement → Dialect.hack.ShareEntries other statement := by
    intro source listed line statement spoken
    exact share statement (listed (List.mem_map_of_mem (mem_readable_iff.mpr spoken)))
  have shareAccepted := said "@i\n@R1\nD=A\n(END)\n@END" (by decide +kernel)
  have shareRejected := said "@i\n@R1\nD=A\n(END)\n@END\n(END)" (by decide +kernel)
  have words : (assemble .hack "@i\n@R1\nD=A\n(END)\n@END").map Program.words =
      .ok [.address 16, .address 1, .compute 0b0110000 0b010 0, .address 3] := by
    have encoded : ∃ program, assemble .hack "@i\n@R1\nD=A\n(END)\n@END" = .ok program ∧
        program.words = [.address 16, .address 1, .compute 0b0110000 0b010 0, .address 3] := by
      apply exists_words_of_flawless <;>
        simp only [flaws, statementFlaws, symbolEntries, boundNames,
          Dialect.predefinedEntries_hack] <;>
        decide +kernel
    obtain ⟨program, assembled, words⟩ := encoded
    rw [assembled, ← words]
    rfl
  have fault : (assemble .hack "@i\n@R1\nD=A\n(END)\n@END\n(END)").map Program.words =
      .error ⟨.duplicateLabel "END" (some 3), 5⟩ := by
    have first : (flaws .hack "@i\n@R1\nD=A\n(END)\n@END\n(END)").head? =
        some ⟨.labelling, 1, ⟨.duplicateLabel "END" (some 3), 5⟩⟩ := by
      simp only [flaws, statementFlaws, symbolEntries, boundNames, Dialect.predefinedEntries_hack]
      decide +kernel
    rw [(assemble_verdict .hack _).of_head? first]
    rfl
  refine ⟨other, symbols, rfl, words, ?_, ?_⟩
  · rw [← words]
    exact ((assemble_relevant_entries .hack other _).1
      fun line statement spoken => (shareAccepted line statement spoken).agreeOn).symm
  · rw [← fault]
    exact ((assemble_relevant_entries .hack other _).2 shareRejected).symm

end HackAssembler
