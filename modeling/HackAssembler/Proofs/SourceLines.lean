import HackAssembler.Proofs.CleanCode
import HackAssembler.Proofs.Flaws
import HackAssembler.Proofs.Reading

/-! # Lines of a source and their statements

The statements that are read from a source are those that its lines say, each with its line
(`mem_readable_iff`), and their lines ascend.
-/

namespace HackAssembler

namespace Source

/-- The code of a line of a source. -/
def codeAt? (source : String) (line : Nat) : Option String :=
  (Text.lines source)[line]?.map fun text => String.ofList (code text)

/-- A line of a source says a statement. -/
def Says (source : String) (line : Nat) (statement : Statement) : Prop :=
  ∃ code, codeAt? source line = some code ∧ Statement.read code = .ok statement

theorem lt_length_of_codeAt? {source : String} {line : Nat} {code : String}
    (written : codeAt? source line = some code) : line < (Text.lines source).length := by
  obtain ⟨text, present, _⟩ := Option.map_eq_some_iff.mp written
  exact (List.getElem?_eq_some_iff.mp present).1

theorem Says.lt_length {source : String} {line : Nat} {statement : Statement}
    (said : Says source line statement) : line < (Text.lines source).length := by
  obtain ⟨_, written, _⟩ := said
  exact lt_length_of_codeAt? written

/-- A line says one statement at most. -/
theorem Says.unique {source : String} {line : Nat} {statement other : Statement}
    (said : Says source line statement) (otherSaid : Says source line other) :
    statement = other := by
  obtain ⟨code, written, read⟩ := said
  obtain ⟨otherCode, otherWritten, otherRead⟩ := otherSaid
  cases written.symm.trans otherWritten
  cases read.symm.trans otherRead
  rfl

theorem mem_codeLines {source : String} {line : Nat} {code : String} :
    (⟨line, code⟩ : Located String) ∈ codeLines source ↔
      codeAt? source line = some code ∧ code.isEmpty = false := by
  unfold codeLines codeAt?
  rw [List.mem_filter, List.mem_map, Option.map_eq_some_iff]
  simp only [Bool.not_eq_true']
  refine and_congr_left fun _ => ⟨?_, ?_⟩
  · intro listed
    obtain ⟨⟨text, position⟩, member, same⟩ := listed
    cases same
    exact ⟨text, List.mem_zipIdx_iff_getElem?.mp member, rfl⟩
  · intro written
    obtain ⟨text, present, rfl⟩ := written
    exact ⟨(text, line), List.mem_zipIdx_iff_getElem?.mpr present, rfl⟩

theorem not_isEmpty_of_read {code : String} {statement : Statement}
    (read : Statement.read code = .ok statement) : code.isEmpty = false := by
  by_contra empty
  rw [Bool.not_eq_false, String.isEmpty_iff] at empty
  subst empty
  cases read

/-- The statements that are read are those that the lines say. -/
theorem mem_readable_iff {source : String} {line : Nat} {statement : Statement} :
    (⟨line, statement⟩ : Located Statement) ∈ readable source ↔ Says source line statement := by
  unfold readable
  rw [List.mem_filterMap]
  constructor
  · intro listed
    obtain ⟨⟨position, code⟩, member, given⟩ := listed
    obtain ⟨said, read, same⟩ := Option.map_eq_some_iff.mp given
    cases same
    refine ⟨code, (mem_codeLines.mp member).1, ?_⟩
    cases outcome : Statement.read code with
    | ok _ =>
        rw [outcome] at read
        cases read
        rfl
    | error _ =>
        rw [outcome] at read
        cases read
  · intro said
    obtain ⟨code, written, read⟩ := said
    refine ⟨⟨line, code⟩, mem_codeLines.mpr ⟨written, not_isEmpty_of_read read⟩, ?_⟩
    simp only [read, Except.toOption, Option.map_some]

/-! ### Sources made of statements -/

/-- A statement is read back from its code. -/
structure ReadsBack (statement : Statement) : Prop where
  clean : IsClean statement.code
  read : Statement.read statement.code = .ok statement

theorem ReadsBack.load {text : String} (clean : IsClean text) :
    ReadsBack (.instruction (.load (.written text))) := by
  refine ⟨clean.load, Statement.read_load_iff.mpr ⟨text, rfl, ?_, rfl⟩⟩
  rintro rfl
  cases clean.nonempty

theorem Says.readsBack {source : String} {line : Nat} {statement : Statement}
    (said : Says source line statement) : ReadsBack statement := by
  obtain ⟨code, written, read⟩ := said
  have same : statement.code = code := Statement.code_of_read read
  have inSource : (⟨line, code⟩ : Located String) ∈ codeLines source :=
    mem_codeLines.mpr ⟨written, not_isEmpty_of_read read⟩
  refine ⟨?_, ?_⟩
  · rw [same]
    exact IsClean.of_mem_codeLines inSource
  · rw [same]
    exact read

def ofStatements (statements : List Statement) : String :=
  "\n".intercalate (statements.map Statement.code)

theorem codeLines_ofStatements {statements : List Statement}
    (readBack : ∀ statement ∈ statements, ReadsBack statement) :
    codeLines (ofStatements statements) =
      statements.zipIdx.map fun (statement, line) => ⟨line, statement.code⟩ := by
  have clean : ∀ text ∈ statements.map Statement.code, IsClean text := by
    intro text member
    obtain ⟨statement, inside, rfl⟩ := List.mem_map.mp member
    exact (readBack statement inside).clean
  unfold ofStatements
  rw [codeLines_intercalate clean, List.zipIdx_map, List.map_map]
  rfl

theorem readable_ofStatements {statements : List Statement}
    (readBack : ∀ statement ∈ statements, ReadsBack statement) :
    readable (ofStatements statements) =
      statements.zipIdx.map fun (statement, line) => ⟨line, statement⟩ := by
  unfold readable
  rw [codeLines_ofStatements readBack, List.filterMap_map, ← List.filterMap_eq_map]
  refine List.filterMap_congr ?_
  intro located member
  obtain ⟨statement, line⟩ := located
  have back := (readBack statement (List.fst_mem_of_mem_zipIdx member)).read
  simp only [Function.comp_apply, back, Except.toOption, Option.map_some]

theorem forall_read_ofStatements {statements : List Statement}
    (readBack : ∀ statement ∈ statements, ReadsBack statement) :
    ∀ written ∈ codeLines (ofStatements statements),
      ∃ statement, Statement.read written.item = .ok statement := by
  intro written member
  rw [codeLines_ofStatements readBack] at member
  obtain ⟨⟨statement, line⟩, inside, rfl⟩ := List.mem_map.mp member
  exact ⟨statement, (readBack statement (List.fst_mem_of_mem_zipIdx inside)).read⟩

/-! ### The lines ascend -/

theorem codeLines_ascend (source : String) :
    (codeLines source).Pairwise fun first second => first.line < second.line := by
  unfold codeLines
  refine (List.pairwise_map.mpr ?_).filter _
  have positions : ((Text.lines source).zipIdx.map Prod.snd).Pairwise (· < ·) := by
    rw [List.zipIdx_map_snd]
    exact List.pairwise_lt_range'
  exact List.pairwise_map.mp positions

theorem readable_ascend (source : String) :
    (readable source).Pairwise fun first second => first.line < second.line := by
  refine (codeLines_ascend source).filterMap _ ?_
  intro first second before statement read other otherRead
  obtain ⟨_, _, rfl⟩ := Option.map_eq_some_iff.mp read
  obtain ⟨_, _, rfl⟩ := Option.map_eq_some_iff.mp otherRead
  exact before

end Source

theorem mem_instructions {statements : List (Located Statement)}
    {located : Located Instruction} :
    located ∈ instructions statements ↔
      (⟨located.line, .instruction located.item⟩ : Located Statement) ∈ statements := by
  unfold instructions
  rw [List.mem_filterMap]
  constructor
  · intro listed
    obtain ⟨⟨line, item⟩, member, given⟩ := listed
    cases item with
    | label name => cases given
    | instruction body =>
        cases given
        exact member
  · intro member
    exact ⟨_, member, rfl⟩

theorem instructions_ascend {statements : List (Located Statement)}
    (ascend : statements.Pairwise fun first second => first.line < second.line) :
    (instructions statements).Pairwise fun first second => first.line < second.line := by
  refine ascend.filterMap _ ?_
  rintro ⟨line, item⟩ ⟨otherLine, other⟩ before located given otherLocated otherGiven
  cases item with
  | label name => cases given
  | instruction body =>
      cases other with
      | label name => cases otherGiven
      | instruction otherBody =>
          cases given
          cases otherGiven
          exact before

theorem withEarlier_ascend {α : Type} {items : List (Located α)}
    (ascend : items.Pairwise fun first second => first.line < second.line) :
    (withEarlier items).Pairwise fun first second => first.2.line < second.2.line := by
  have mapped : ((withEarlier items).map Prod.snd).Pairwise
      fun first second => first.line < second.line := by
    rw [map_snd_withEarlier]
    exact ascend
  rw [List.pairwise_map] at mapped
  exact mapped

theorem withEarlier_of_mem {α : Type} {items : List α} {item : α} (member : item ∈ items) :
    ∃ earlier, (earlier, item) ∈ withEarlier items := by
  rw [← map_snd_withEarlier items] at member
  obtain ⟨⟨earlier, _⟩, paired, rfl⟩ := List.mem_map.mp member
  exact ⟨earlier, paired⟩

/-- The labels of statements have the names that they declare. -/
theorem mem_names_labelEntries {statements : List (Located Statement)} {name : String} :
    name ∈ (labelEntries statements).map Prod.fst ↔
      ∃ line, (⟨line, .label name⟩ : Located Statement) ∈ statements := by
  constructor
  · intro named
    obtain ⟨entry, member, rfl⟩ := List.mem_map.mp named
    obtain ⟨⟨earlier, line, item⟩, paired, bound⟩ := List.mem_filterMap.mp member
    cases item with
    | instruction body => cases bound
    | label name =>
        cases bound
        obtain ⟨later, rfl⟩ := mem_withEarlier.mp paired
        exact ⟨line, List.mem_append_right _ List.mem_cons_self⟩
  · intro declared
    obtain ⟨line, member⟩ := declared
    obtain ⟨earlier, paired⟩ := withEarlier_of_mem member
    exact List.mem_map.mpr ⟨_, List.mem_filterMap.mpr ⟨_, paired, rfl⟩, rfl⟩

/-- The symbols that statements use are those that they load. -/
theorem mem_names_symbolUses {statements : List (Located Statement)} {name : String} :
    name ∈ (symbolUses (instructions statements)).map Located.item ↔
      ∃ line, (⟨line, .instruction (.load (.written name))⟩ : Located Statement) ∈ statements ∧
        ¬ Text.isNumeral name = true := by
  simp only [List.mem_map, symbolUses, List.mem_filterMap, Located.symbol?_eq_some_iff]
  constructor
  · intro used
    obtain ⟨use, ⟨located, member, rfl, symbolic⟩, rfl⟩ := used
    exact ⟨use.line, mem_instructions.mp member, symbolic⟩
  · intro loaded
    obtain ⟨line, member, symbolic⟩ := loaded
    exact ⟨⟨line, name⟩, ⟨_, mem_instructions.mpr member, rfl, symbolic⟩, rfl⟩

/-- In ascending order, what stands before an item is what has a smaller line. -/
theorem mem_withEarlier_iff_of_ascend {α : Type} {items earlier : List (Located α)}
    {item : Located α} (ascend : items.Pairwise fun first second => first.line < second.line) :
    (earlier, item) ∈ withEarlier items ↔
      item ∈ items ∧ earlier = items.filter fun other => other.line < item.line := by
  have smaller : ∀ before, (before, item) ∈ withEarlier items →
      item ∈ items ∧ before = items.filter fun other => other.line < item.line := by
    intro before paired
    obtain ⟨later, rfl⟩ := mem_withEarlier.mp paired
    refine ⟨List.mem_append_right _ List.mem_cons_self, ?_⟩
    obtain ⟨_, rest, across⟩ := List.pairwise_append.mp ascend
    have less : ∀ other ∈ before, other.line < item.line := by
      intro other member
      exact across other member item List.mem_cons_self
    have notLess : ∀ other ∈ later, ¬ other.line < item.line := by
      intro other member
      exact Nat.not_lt.mpr (Nat.le_of_lt (List.rel_of_pairwise_cons rest member))
    rw [List.filter_append, List.filter_eq_self.mpr (by simpa using less), List.filter_cons,
      List.filter_eq_nil_iff.mpr (by simpa using notLess)]
    simp
  constructor
  · exact smaller earlier
  · intro given
    obtain ⟨member, rfl⟩ := given
    obtain ⟨before, paired⟩ := withEarlier_of_mem member
    rw [← (smaller before paired).2]
    exact paired

/-- In ascending order, the first item of a kind is the one on the smallest line. -/
theorem find?_eq_some_iff_of_ascend {α : Type} {items : List (Located α)} {item : Located α}
    {kind : Located α → Bool}
    (ascend : items.Pairwise fun first second => first.line < second.line) :
    items.find? kind = some item ↔
      item ∈ items ∧ kind item = true ∧
        ∀ other ∈ items, other.line < item.line → kind other = false := by
  rw [List.find?_eq_some_iff_append]
  constructor
  · intro found
    obtain ⟨ofKind, earlier, later, rfl, none⟩ := found
    have paired : (earlier, item) ∈ withEarlier (earlier ++ item :: later) :=
      mem_withEarlier.mpr ⟨later, rfl⟩
    obtain ⟨member, same⟩ := (mem_withEarlier_iff_of_ascend ascend).mp paired
    refine ⟨member, ofKind, fun other otherMember before => ?_⟩
    have inEarlier : other ∈ earlier := by
      rw [same]
      exact List.mem_filter.mpr ⟨otherMember, decide_eq_true before⟩
    simpa using none other inEarlier
  · intro first
    obtain ⟨member, ofKind, smallest⟩ := first
    obtain ⟨earlier, paired⟩ := withEarlier_of_mem member
    obtain ⟨later, split⟩ := mem_withEarlier.mp paired
    refine ⟨ofKind, earlier, later, split, fun other before => ?_⟩
    rw [((mem_withEarlier_iff_of_ascend ascend).mp paired).2] at before
    obtain ⟨otherMember, less⟩ := List.mem_filter.mp before
    simpa using smallest other otherMember (of_decide_eq_true less)

theorem instructions_filter_line (statements : List (Located Statement)) (line : Nat) :
    instructions (statements.filter fun statement => statement.line < line) =
      (instructions statements).filter fun located => located.line < line := by
  unfold instructions
  rw [List.filterMap_filter, List.filter_filterMap]
  refine List.filterMap_congr ?_
  intro statement _
  obtain ⟨position, item⟩ := statement
  cases item with
  | label name => simp [Located.instruction?]
  | instruction body =>
      by_cases before : position < line
      · simp [Located.instruction?, before, Option.filter]
      · simp [Located.instruction?, before, Option.filter]

end HackAssembler
