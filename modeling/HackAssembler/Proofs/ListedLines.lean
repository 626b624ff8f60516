import HackAssembler.Proofs.LabelReferences
import HackAssembler.Proofs.ListedRows
import HackAssembler.Proofs.ShownWords

/-! # Lines of listings

Every line of a text has a line of its own in a listing of any program (`Listing.IsOf`), and what
stands there follows from the instructions and labels of the program (`Program.Shows`). For an
accepted source these are all words of the program, each on the line that it comes from, and all
labels (`Listing.IsFull`). `listing_aligned` puts this together.
-/

namespace HackAssembler

open Source

/-- One of the first `count` instructions of a program is on a line. -/
def Program.Occupies (program : Program) (count line : Nat) : Prop :=
  ∃ position < count, program.instructions[position]?.map Located.line = some line

/-- What a listing shows for a line of a text when it shows the first `count` instructions of a
program. An instruction goes before labels, and a later label before an earlier one. -/
inductive Program.Shows (program : Program) (dialect : Dialect) (count line : Nat)
    (text : List Char) : String → Prop
  | word {position : Nat} {word : Word} (counted : position < count)
      (here : program.instructions[position]?.map Located.line = some line)
      (worded : program.words[position]? = some word) :
      Shows program dialect count line text (Listing.Row.text dialect ⟨position, line, word⟩ text)
  | label {name : String} {symbol : Symbol} (free : ¬ program.Occupies count line)
      (last : ((program.symbols.ofKind .label).filter fun entry =>
        entry.2.line = some line).getLast? = some (name, symbol)) :
      Shows program dialect count line text (Listing.labelText line name symbol.value)
  | plain (free : ¬ program.Occupies count line)
      (unlabelled : ∀ entry ∈ program.symbols.ofKind .label, entry.2.line ≠ some line) :
      Shows program dialect count line text (Listing.plainText line text)

/-- A listing of a program beside a text, with the first `count` instructions. -/
structure Listing.IsOf (program : Program) (dialect : Dialect) (path source : String) (count : Nat)
    (listing : List String) : Prop where
  length : listing.length =
    1 + (Text.lines source).length + 1 + (program.symbols.ofKind .variable).length
  head : listing.head? = some (title path)
  shows : ∀ line text, (Text.lines source)[line]? = some text →
    ∃ shown, listing[line + 1]? = some shown ∧ program.Shows dialect count line text shown ∧
      ∀ address bits, shownWord? shown = some (address, bits) ↔
        ∃ position word, position < count ∧
          program.instructions[position]?.map Located.line = some line ∧
          program.words[position]? = some word ∧
          address = Text.hexadecimal position ∧ bits = word.bits
  words : listing.filterMap shownWord? =
    (program.words.take count).zipIdx.map fun (word, position) =>
      (Text.hexadecimal position, word.bits)
  tail : listing.drop ((Text.lines source).length + 1) =
    rule :: (program.symbols.ofKind .variable).map fun (name, symbol) => variableText name symbol

/-- A listing has all words of a program in their order, each beside its line of the source, and
all labels beside their declarations. -/
structure Listing.IsFull (program : Program) (dialect : Dialect) (source : String)
    (listing : List String) : Prop where
  length_words : program.words.length = program.instructions.length
  words : listing.filterMap shownWord? = program.words.zipIdx.map fun (word, position) =>
    (Text.hexadecimal position, word.bits)
  beside : ∀ position word, program.words[position]? = some word → ∃ line text body,
    Says source line (.instruction body) ∧
      program.instructions[position]? = some ⟨line, body.evaluated⟩ ∧
      (Text.lines source)[line]? = some text ∧
      listing[line + 1]? = some (Row.text dialect ⟨position, line, word⟩ text)
  labels : ∀ line name, Says source line (.label name) → ∃ address,
    address = (instructions (before source line)).length ∧
      program.symbols.get? name = some ⟨.label, address, some line⟩ ∧
      listing[line + 1]? = some (labelText line name address)

namespace Listing

variable {dialect : Dialect} {program : Program} {source path : String} {line : Nat}
  {text : List Char} {row : Row}

/-! ### The lines of a text -/

/-- The lines of a listing beside the lines of the text. -/
def textLines (program : Program) (dialect : Dialect) (source : String) : List String :=
  (Text.lines source).zipIdx.map fun (text, line) =>
    lineText dialect (rowsByLine program) (labelsByLine program.symbols) line text

theorem listing_eq (program : Program) (dialect : Dialect) (path source : String) :
    program.listing dialect path source =
      title path :: (textLines program dialect source ++ rule ::
        (program.symbols.ofKind .variable).map fun entry => variableText entry.1 entry.2) := by
  unfold Program.listing
  rw [List.append_assoc, List.append_assoc]
  rfl

theorem length_textLines (program : Program) (dialect : Dialect) (source : String) :
    (textLines program dialect source).length = (Text.lines source).length := by
  simp only [textLines, List.length_map, List.length_zipIdx]

theorem length_listing (program : Program) (dialect : Dialect) (path source : String) :
    (program.listing dialect path source).length =
      1 + (Text.lines source).length + 1 + (program.symbols.ofKind .variable).length := by
  rw [listing_eq, List.length_cons, List.length_append, List.length_cons, List.length_map,
    length_textLines]
  omega

theorem getElem?_listing_text (program : Program) (dialect : Dialect) (path : String)
    (present : (Text.lines source)[line]? = some text) :
    (program.listing dialect path source)[line + 1]? =
      some (lineText dialect (rowsByLine program) (labelsByLine program.symbols) line text) := by
  have inside : line < (textLines program dialect source).length := by
    rw [length_textLines]
    exact (List.getElem?_eq_some_iff.mp present).1
  rw [listing_eq, List.getElem?_cons_succ, List.getElem?_append_left inside]
  simp only [textLines, List.getElem?_map, List.getElem?_zipIdx, present, Option.map_some,
    Nat.zero_add]

/-- What can be read off a line is what is shown of its row. -/
theorem shownWord?_lineText (program : Program) (dialect : Dialect) (line : Nat)
    (text : List Char) :
    shownWord? (lineText dialect (rowsByLine program) (labelsByLine program.symbols) line text) =
      (rowsByLine program)[line]?.map fun row =>
        (Text.hexadecimal row.address, row.word.bits) := by
  unfold lineText
  cases (rowsByLine program)[line]? with
  | some row => exact shownWord?_text dialect row text
  | none =>
      cases (labelsByLine program.symbols)[line]? with
      | some label => exact shownWord?_labelText line label.1 label.2
      | none => exact shownWord?_plainText line text

theorem lineText_shows {lines : Nat} (inside : line < lines) (text : List Char) :
    program.Shows dialect (placedRows program lines).length line text
      (lineText dialect (rowsByLine program) (labelsByLine program.symbols) line text) := by
  unfold lineText
  cases shown : (rowsByLine program)[line]? with
  | some row =>
      obtain ⟨rfl, counted, here, worded⟩ := (getElem?_rowsByLine_iff_placed inside).mp shown
      exact .word counted here worded
  | none =>
      have free : ¬ program.Occupies (placedRows program lines).length line := by
        intro occupied
        obtain ⟨position, counted, here⟩ := occupied
        have present := List.getElem?_eq_getElem counted
        obtain ⟨_, _, same, worded⟩ := getElem?_placedRows.mp present
        have row : (rowsByLine program)[line]? = some ⟨position, line, _⟩ :=
          (getElem?_rowsByLine_iff_placed inside).mpr ⟨rfl, counted, here, worded⟩
        rw [shown] at row
        cases row
      rw [getElem?_labelsByLine]
      cases last : ((program.symbols.ofKind .label).filter fun entry =>
          entry.2.line = some line).getLast? with
      | some entry => exact .label free last
      | none =>
          refine .plain free fun entry labelled same => ?_
          rw [List.getLast?_eq_none_iff, List.filter_eq_nil_iff] at last
          exact last entry labelled (decide_eq_true same)

theorem shownWord?_lineText_eq_some_iff {lines : Nat} (inside : line < lines) (text : List Char)
    (address bits : String) :
    shownWord? (lineText dialect (rowsByLine program) (labelsByLine program.symbols) line text) =
        some (address, bits) ↔
      ∃ position word, position < (placedRows program lines).length ∧
        program.instructions[position]?.map Located.line = some line ∧
        program.words[position]? = some word ∧
        address = Text.hexadecimal position ∧ bits = word.bits := by
  rw [shownWord?_lineText, Option.map_eq_some_iff]
  refine ⟨?_, ?_⟩
  · intro read
    obtain ⟨row, shown, same⟩ := read
    obtain ⟨_, counted, here, worded⟩ := (getElem?_rowsByLine_iff_placed inside).mp shown
    cases same
    exact ⟨row.address, row.word, counted, here, worded, rfl, rfl⟩
  · intro placed
    obtain ⟨position, word, counted, here, worded, rfl, rfl⟩ := placed
    exact ⟨⟨position, line, word⟩,
      (getElem?_rowsByLine_iff_placed inside).mpr ⟨rfl, counted, here, worded⟩, rfl⟩

/-- Read off a listing are the first words of the program, with their addresses. -/
theorem filterMap_listing (program : Program) (dialect : Dialect) (path source : String) :
    (program.listing dialect path source).filterMap shownWord? =
      (program.words.take (placedRows program (Text.lines source).length).length).zipIdx.map
        fun (word, address) => (Text.hexadecimal address, word.bits) := by
  have bindings : ((program.symbols.ofKind .variable).map fun entry =>
      variableText entry.1 entry.2).filterMap shownWord? = [] := by
    rw [List.filterMap_eq_nil_iff, List.forall_mem_map]
    intro entry _
    exact shownWord?_variableText entry.1 entry.2
  rw [listing_eq, List.filterMap_cons, shownWord?_title, List.filterMap_append,
    List.filterMap_cons, shownWord?_rule, bindings, List.append_nil, ← map_word_placedRows,
    List.map_map]
  -- Only lines of the text are left, and these are gone through by their numbers.
  calc (textLines program dialect source).filterMap shownWord?
      = ((Text.lines source).zipIdx.map Prod.snd).filterMap fun line =>
          (rowsByLine program)[line]?.map fun row =>
            (Text.hexadecimal row.address, row.word.bits) := by
        unfold textLines
        rw [List.filterMap_map, List.filterMap_map]
        refine List.filterMap_congr fun pair _ => ?_
        exact shownWord?_lineText program dialect pair.2 pair.1
    _ = ((List.range' 0 (Text.lines source).length).filterMap fun line =>
          (rowsByLine program)[line]?).map fun row =>
            (Text.hexadecimal row.address, row.word.bits) := by
        rw [List.zipIdx_map_snd, List.map_filterMap]
    _ = (placedRows program (Text.lines source).length).map fun row =>
          (Text.hexadecimal row.address, row.word.bits) := by
        rw [filterMap_rowsByLine]

/-- A row that is shown stands on its line of the text. -/
theorem exists_listing_row (dialect : Dialect) (path : String)
    (placed : row ∈ placedRows program (Text.lines source).length) :
    ∃ text, (Text.lines source)[row.line]? = some text ∧
      (program.listing dialect path source)[row.line + 1]? = some (row.text dialect text) := by
  obtain ⟨inside, shown⟩ := mem_placedRows.mp placed
  have present := List.getElem?_eq_getElem inside
  refine ⟨_, present, ?_⟩
  rw [getElem?_listing_text program dialect path present]
  simp only [lineText, shown]

theorem isOf_listing (program : Program) (dialect : Dialect) (path source : String) :
    IsOf program dialect path source (placedRows program (Text.lines source).length).length
      (program.listing dialect path source) where
  length := length_listing program dialect path source
  head := by rw [listing_eq, List.head?_cons]
  shows := by
    intro line text present
    have inside : line < (Text.lines source).length := (List.getElem?_eq_some_iff.mp present).1
    exact ⟨_, getElem?_listing_text program dialect path present, lineText_shows inside text,
      shownWord?_lineText_eq_some_iff inside text⟩
  words := filterMap_listing program dialect path source
  tail := by
    rw [listing_eq, List.drop_succ_cons, ← length_textLines program dialect source,
      List.drop_left]

end Listing

/-! ### Listings of accepted sources -/

namespace Program.Means

variable {dialect : Dialect} {program : Program} {source : String}

/-- An instruction of the program comes from its line of the source. -/
theorem exists_says (means : program.Means dialect (readable source))
    {located : Located Instruction} (member : located ∈ program.instructions) :
    ∃ body, Says source located.line (.instruction body) ∧ located.item = body.evaluated := by
  rw [means.instructions] at member
  obtain ⟨written, listed, rfl⟩ := List.mem_map.mp member
  exact ⟨written.item, mem_instructions_readable.mp listed, rfl⟩

theorem length_words (means : program.Means dialect (readable source)) :
    program.words.length = program.instructions.length := by
  rw [means.instructions, evaluateNumerals, List.length_map, means.words.length_eq]

/-- All instructions of an accepted source are placed. -/
theorem places (means : program.Means dialect (readable source)) :
    program.Places (Text.lines source).length program.instructions.length where
  instructions := Nat.le_refl _
  words := Nat.le_of_eq means.length_words.symm
  ascend := by
    rw [List.take_length, means.instructions, evaluateNumerals, List.map_map]
    exact List.pairwise_map.mpr (instructions_ascend (readable_ascend source))
  inside := by
    rw [List.take_length, List.forall_mem_map]
    intro located member
    obtain ⟨_, said, _⟩ := means.exists_says member
    exact said.lt_length

theorem placedRows_eq (means : program.Means dialect (readable source)) :
    Listing.placedRows program (Text.lines source).length = Listing.rows program := by
  have all := (Listing.isGreatest_length_placedRows program _).2 means.places
  rw [Listing.placedRows_eq_take]
  refine List.take_of_length_le (Nat.le_trans ?_ all)
  rw [Listing.length_rows]
  exact Nat.min_le_left _ _

theorem ofKind_label (means : program.Means dialect (readable source)) :
    program.symbols.ofKind .label = labelEntries (readable source) := by
  unfold SymbolTable.ofKind
  rw [means.symbols, filter_symbolEntries_label]

/-- The last label on the line of a declaration is the one that is declared there. -/
theorem last_label (means : program.Means dialect (readable source)) {line : Nat} {name : String}
    (declares : Says source line (.label name)) :
    ((program.symbols.ofKind .label).filter fun entry => entry.2.line = some line).getLast? =
      some (name, ⟨.label, (HackAssembler.instructions (before source line)).length,
        some line⟩) := by
  have declared := mem_labelEntries_of_says declares
  rw [means.ofKind_label]
  refine Listing.getLast?_eq_some_of_unique
    (List.mem_filter.mpr ⟨declared, decide_eq_true rfl⟩) ?_
  intro other listed
  obtain ⟨labelled, here⟩ := List.mem_filter.mp listed
  obtain ⟨otherName, symbol⟩ := other
  obtain ⟨otherLine, rfl, said⟩ := exists_says_of_mem_labelEntries labelled
  have same : otherLine = line := Option.some.inj (of_decide_eq_true here)
  subst same
  cases said.unique declares
  rfl

/-- What a listing shows for the line of a declaration is the label. -/
theorem labelText_of_shows (means : program.Means dialect (readable source)) {other : Dialect}
    {line count : Nat} {name shown : String} {text : List Char}
    (declares : Says source line (.label name))
    (shows : program.Shows other count line text shown) :
    shown = Listing.labelText line name
      (HackAssembler.instructions (before source line)).length := by
  cases shows with
  | word _ here _ =>
      obtain ⟨located, present, rfl⟩ := Option.map_eq_some_iff.mp here
      obtain ⟨body, said, _⟩ := means.exists_says (List.mem_of_getElem? present)
      cases said.unique declares
  | label _ last =>
      cases (means.last_label declares).symm.trans last
      rfl
  | plain _ unlabelled =>
      obtain ⟨labelled, here⟩ := List.mem_filter.mp
        (List.mem_of_getLast? (means.last_label declares))
      exact absurd (of_decide_eq_true here) (unlabelled _ labelled)

theorem isFull_listing (means : program.Means dialect (readable source)) (shown : Dialect)
    (path : String) :
    Listing.IsFull program shown source (program.listing shown path source) where
  length_words := means.length_words
  words := by
    rw [Listing.filterMap_listing, means.placedRows_eq, Listing.length_rows, means.length_words,
      Nat.min_self, ← means.length_words, List.take_length]
  beside := by
    intro position word worded
    obtain ⟨located, present⟩ : ∃ located, program.instructions[position]? = some located := by
      refine ⟨_, List.getElem?_eq_getElem ?_⟩
      rw [← means.length_words]
      exact (List.getElem?_eq_some_iff.mp worded).1
    obtain ⟨body, said, evaluated⟩ := means.exists_says (List.mem_of_getElem? present)
    have row : (Listing.placedRows program (Text.lines source).length)[position]? =
        some ⟨position, located.line, word⟩ := by
      rw [means.placedRows_eq, Listing.getElem?_rows, present]
      exact ⟨rfl, rfl, worded⟩
    obtain ⟨text, written, listed⟩ :=
      Listing.exists_listing_row shown path (List.mem_of_getElem? row)
    refine ⟨located.line, text, body, said, ?_, written, listed⟩
    rw [present, ← evaluated]
  labels := by
    intro line name declares
    have inside := declares.lt_length
    refine ⟨_, rfl, ?_, ?_⟩
    · rw [← OrderedMap.lookup_toList]
      exact means.lookup_label declares
    · rw [Listing.getElem?_listing_text program shown path (List.getElem?_eq_getElem inside),
        means.labelText_of_shows declares (Listing.lineText_shows inside _)]

end Program.Means

end HackAssembler
