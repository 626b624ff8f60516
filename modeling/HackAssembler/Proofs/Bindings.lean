import HackAssembler.Dialect.Hack
import HackAssembler.Proofs.Earlier
import HackAssembler.Resolution.Variables

/-! # What a program binds

The symbols of a program are read off its statements. A label stands for the number of instructions
before its declaration. A variable is a name that an operand uses and that is neither predefined nor
a label anywhere in the program; the variables are numbered in the order of their first uses. The
table of symbols is the predefined ones, then the labels, then the variables (`symbolEntries`).
-/

namespace HackAssembler

/-- The predefined symbols of a dialect, as entries of a symbol table. -/
def Dialect.predefinedEntries (dialect : Dialect) : List (String × Symbol) :=
  dialect.symbols.toList.map fun (name, address) => (name, ⟨.predefined, address, none⟩)

/-- The entry of the label that a statement declares, given the statements before it. -/
def labelBinding? (earlier : List (Located Statement)) :
    Located Statement → Option (String × Symbol)
  | ⟨line, .label name⟩ => some (name, ⟨.label, (instructions earlier).length, some line⟩)
  | ⟨_, .instruction _⟩ => none

/-- The entries of the labels of a program, in the order of their declarations. -/
def labelEntries (program : List (Located Statement)) : List (String × Symbol) :=
  (withEarlier program).filterMap fun (earlier, statement) => labelBinding? earlier statement

/-- The name that an instruction uses: a written operand that is no numeral. -/
def Located.symbol? : Located Instruction → Option (Located String)
  | ⟨line, .load (.written text)⟩ => if Text.isNumeral text then none else some ⟨line, text⟩
  | _ => none

/-- The uses of names in a program, in order. -/
def symbolUses (program : List (Located Instruction)) : List (Located String) :=
  program.filterMap Located.symbol?

/-- A use is fresh when its name is neither known nor used before. -/
def IsFresh (known : List String) (earlier : List (Located String)) (name : String) : Prop :=
  name ∉ known ∧ name ∉ earlier.map Located.item

instance (known : List String) (earlier : List (Located String)) (name : String) :
    Decidable (IsFresh known earlier name) :=
  inferInstanceAs (Decidable (_ ∧ _))

/-- The first uses of the names that are not known, in order. -/
def freshUses (known : List String) (uses : List (Located String)) : List (Located String) :=
  ((withEarlier uses).filter fun (earlier, use) => IsFresh known earlier use.item).map Prod.snd

/-- The entries of the variables of a program, in the order of their first uses. -/
def variableEntries (known : List String) (program : List (Located Instruction)) :
    List (String × Symbol) :=
  (freshUses known (symbolUses program)).zipIdx.map fun (use, rank) =>
    (use.item, ⟨.variable, firstVariable + rank, some use.line⟩)

/-- The names of predefined symbols and labels. -/
def boundNames (dialect : Dialect) (program : List (Located Statement)) : List String :=
  (dialect.predefinedEntries ++ labelEntries program).map Prod.fst

/-- The symbols of a program. -/
def symbolEntries (dialect : Dialect) (program : List (Located Statement)) :
    List (String × Symbol) :=
  dialect.predefinedEntries ++ labelEntries program ++
    variableEntries (boundNames dialect program) (instructions program)

theorem Dialect.toList_symbolTable (dialect : Dialect) :
    dialect.symbolTable.toList = dialect.predefinedEntries := by
  simp only [symbolTable, OrderedMap.toList_mapValues, predefinedEntries]

theorem Dialect.lookup_predefinedEntries (dialect : Dialect) (name : String) :
    dialect.predefinedEntries.lookup name =
      (dialect.symbol? name).map fun address => ⟨.predefined, address, none⟩ := by
  rw [← toList_symbolTable, OrderedMap.lookup_toList]
  exact OrderedMap.get?_mapValues _ _ _

theorem Dialect.predefinedEntries_hack :
    hack.predefinedEntries =
      ([("SP", 0), ("LCL", 1), ("ARG", 2), ("THIS", 3), ("THAT", 4)] ++
        (List.range 16).map (fun register => ("R" ++ toString register, register)) ++
        [("SCREEN", screenAddress), ("KBD", keyboardAddress)]).map fun (name, address) =>
          (name, ⟨.predefined, address, none⟩) :=
  congrArg (List.map _) toList_hackSymbols

/-! ### Programs without labels -/

def Located.statement (located : Located Instruction) : Located Statement :=
  ⟨located.line, .instruction located.item⟩

theorem instructions_map_statement (program : List (Located Instruction)) :
    instructions (program.map Located.statement) = program := by
  unfold instructions
  rw [List.filterMap_map]
  exact List.filterMap_some

theorem labelEntries_map_statement (program : List (Located Instruction)) :
    labelEntries (program.map Located.statement) = [] := by
  refine List.filterMap_eq_nil_iff.mpr ?_
  intro pair paired
  obtain ⟨earlier, statement⟩ := pair
  have member : statement ∈ program.map Located.statement := by
    rw [← map_snd_withEarlier (program.map Located.statement)]
    exact List.mem_map_of_mem paired
  obtain ⟨located, _, rfl⟩ := List.mem_map.mp member
  rfl

/-! ### A statement more -/

theorem instructions_append (first second : List (Located Statement)) :
    instructions (first ++ second) = instructions first ++ instructions second :=
  List.filterMap_append

theorem labelEntries_append_singleton (program : List (Located Statement))
    (statement : Located Statement) :
    labelEntries (program ++ [statement]) =
      labelEntries program ++ (labelBinding? program statement).toList := by
  unfold labelEntries
  rw [withEarlier_append_singleton, List.filterMap_append, List.filterMap_cons,
    List.filterMap_nil]
  cases entry : labelBinding? program statement <;> simp [entry]

theorem map_line_lookup_labelEntries (program : List (Located Statement)) (name : String) :
    ((labelEntries program).lookup name).map Symbol.line =
      (program.find? fun statement => statement.item = .label name).map fun statement =>
        some statement.line := by
  induction program using List.reverseRecOn with
  | nil => rfl
  | append_singleton program statement ih =>
      rw [labelEntries_append_singleton, List.lookup_append, Option.map_or, ih,
        List.find?_append, Option.map_or]
      congr 1
      obtain ⟨line, item⟩ := statement
      cases item with
      | instruction body => rfl
      | label other =>
          by_cases same : name = other
          · simp [labelBinding?, same]
          · simp [labelBinding?, List.lookup_cons, beq_false_of_ne same, Ne.symm same]

/-- The instructions that use a name are the loads of a text that is no numeral. -/
theorem Located.symbol?_eq_some_iff {located : Located Instruction} {use : Located String} :
    located.symbol? = some use ↔
      located = ⟨use.line, .load (.written use.item)⟩ ∧ ¬ Text.isNumeral use.item = true := by
  obtain ⟨line, item⟩ := located
  obtain ⟨useLine, text⟩ := use
  cases item with
  | compute computation => simp [symbol?]
  | load operand =>
      cases operand with
      | literal value => simp [symbol?]
      | written operand =>
          by_cases numeral : Text.isNumeral operand = true
          · simp only [symbol?, numeral, ↓reduceIte, reduceCtorEq, false_iff]
            rintro ⟨⟨⟩, symbolic⟩
            exact symbolic numeral
          · simp only [symbol?, numeral, Bool.false_eq_true, ↓reduceIte, Option.some.injEq]
            constructor
            · rintro ⟨⟩
              exact ⟨rfl, numeral⟩
            · rintro ⟨⟨⟩, _⟩
              rfl

theorem symbolUses_append_singleton (program : List (Located Instruction))
    (located : Located Instruction) :
    symbolUses (program ++ [located]) = symbolUses program ++ located.symbol?.toList := by
  unfold symbolUses
  rw [List.filterMap_append, List.filterMap_cons, List.filterMap_nil]
  cases located.symbol? <;> rfl

theorem freshUses_append_singleton (known : List String) (uses : List (Located String))
    (use : Located String) :
    freshUses known (uses ++ [use]) =
      freshUses known uses ++ if IsFresh known uses use.item then [use] else [] := by
  unfold freshUses
  rw [withEarlier_append_singleton, List.filter_append, List.map_append]
  by_cases fresh : IsFresh known uses use.item <;> simp [fresh]

/-- Which uses are first ones does not depend on the uses behind them. -/
theorem freshUses_isPrefix (known : List String) (uses later : List (Located String)) :
    freshUses known uses <+: freshUses known (uses ++ later) := by
  induction later using List.reverseRecOn with
  | nil => exact (List.append_nil uses).symm ▸ List.prefix_rfl
  | append_singleton later use ih =>
      rw [← List.append_assoc, freshUses_append_singleton]
      exact ih.trans (List.prefix_append _ _)

theorem mem_of_mem_freshUses {known : List String} {uses : List (Located String)}
    {use : Located String} (member : use ∈ freshUses known uses) : use ∈ uses := by
  obtain ⟨pair, filtered, rfl⟩ := List.mem_map.mp member
  rw [← map_snd_withEarlier uses]
  exact List.mem_map_of_mem (List.mem_filter.mp filtered).1

/-- A name has a first use exactly when it is used and not known. -/
theorem mem_names_freshUses {known : List String} {uses : List (Located String)} {name : String} :
    name ∈ (freshUses known uses).map Located.item ↔
      name ∉ known ∧ name ∈ uses.map Located.item := by
  induction uses using List.reverseRecOn with
  | nil => simp [freshUses]
  | append_singleton uses use ih =>
      rw [freshUses_append_singleton, List.map_append, List.mem_append, ih, List.map_append,
        List.mem_append]
      by_cases fresh : IsFresh known uses use.item
      · simp only [fresh, ↓reduceIte, List.map_cons, List.map_nil, List.mem_singleton]
        constructor
        · intro met
          rcases met with ⟨new, used⟩ | rfl
          · exact ⟨new, Or.inl used⟩
          · exact ⟨fresh.1, Or.inr rfl⟩
        · intro met
          obtain ⟨new, used | rfl⟩ := met
          · exact Or.inl ⟨new, used⟩
          · exact Or.inr rfl
      · simp only [fresh, ↓reduceIte, List.map_nil, List.not_mem_nil, or_false, List.map_cons,
          List.mem_singleton]
        refine and_congr_right fun new => ⟨Or.inl, ?_⟩
        intro met
        rcases met with used | rfl
        · exact used
        · exact Decidable.byContradiction fun unused => fresh ⟨new, unused⟩

theorem map_fst_variableEntries (known : List String) (program : List (Located Instruction)) :
    (variableEntries known program).map Prod.fst =
      (freshUses known (symbolUses program)).map Located.item := by
  calc (variableEntries known program).map Prod.fst
      = ((freshUses known (symbolUses program)).zipIdx.map Prod.fst).map Located.item := by
        simp only [variableEntries, List.map_map, Function.comp_def]
    _ = (freshUses known (symbolUses program)).map Located.item := by
        rw [List.zipIdx_map_fst]

theorem kind_of_mem_variableEntries {known : List String} {program : List (Located Instruction)}
    {entry : String × Symbol} (member : entry ∈ variableEntries known program) :
    entry.2.kind = .variable := by
  obtain ⟨_, _, rfl⟩ := List.mem_map.mp member
  rfl

theorem kind_of_mem_predefinedEntries {dialect : Dialect} {entry : String × Symbol}
    (member : entry ∈ dialect.predefinedEntries) : entry.2.kind = .predefined := by
  obtain ⟨_, _, rfl⟩ := List.mem_map.mp member
  rfl

theorem kind_of_mem_labelEntries {statements : List (Located Statement)} {entry : String × Symbol}
    (member : entry ∈ labelEntries statements) : entry.2.kind = .label := by
  obtain ⟨⟨earlier, line, item⟩, _, bound⟩ := List.mem_filterMap.mp member
  cases item with
  | instruction body => cases bound
  | label name =>
      cases bound
      rfl

/-- A filter for a kind keeps entries that all have this kind and drops those that all have
another. -/
theorem filter_kind_eq_ite {entries : List (String × Symbol)} {kind : Symbol.Kind}
    (alike : ∀ entry ∈ entries, entry.2.kind = kind) (other : Symbol.Kind) :
    entries.filter (fun entry => entry.2.kind = other) = if kind = other then entries else [] := by
  by_cases same : kind = other
  · rw [if_pos same]
    exact List.filter_eq_self.mpr fun entry member =>
      decide_eq_true ((alike entry member).trans same)
  · rw [if_neg same]
    refine List.filter_eq_nil_iff.mpr fun entry member kept => same ?_
    exact (alike entry member).symm.trans (of_decide_eq_true kept)

/-- The variables of a symbol table are those that the program uses. -/
theorem filter_symbolEntries_variable (dialect : Dialect)
    (statements : List (Located Statement)) :
    (symbolEntries dialect statements).filter (fun entry => entry.2.kind = .variable) =
      variableEntries (boundNames dialect statements) (instructions statements) := by
  unfold symbolEntries
  rw [List.filter_append, List.filter_append,
    filter_kind_eq_ite fun _ => kind_of_mem_predefinedEntries,
    filter_kind_eq_ite fun _ => kind_of_mem_labelEntries,
    filter_kind_eq_ite fun _ => kind_of_mem_variableEntries]
  rfl

/-- The labels of a symbol table are those that the program declares. -/
theorem filter_symbolEntries_label (dialect : Dialect) (statements : List (Located Statement)) :
    (symbolEntries dialect statements).filter (fun entry => entry.2.kind = .label) =
      labelEntries statements := by
  unfold symbolEntries
  rw [List.filter_append, List.filter_append,
    filter_kind_eq_ite fun _ => kind_of_mem_predefinedEntries,
    filter_kind_eq_ite fun _ => kind_of_mem_labelEntries,
    filter_kind_eq_ite fun _ => kind_of_mem_variableEntries]
  exact List.append_nil _

end HackAssembler
