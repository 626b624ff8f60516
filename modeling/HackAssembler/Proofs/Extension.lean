import HackAssembler.Proofs.AssembledWords
import HackAssembler.Proofs.Concatenation
import HackAssembler.Proofs.Layout
import HackAssembler.Proofs.SourceLines
import HackAssembler.Proofs.UnusedLabel

/-! # Extended sources

Code that is appended to a source does not disturb what stands before it, as long as it declares no
label that is a symbol there. The lines of the first source are the first lines of the whole, also
where its last line ends with a carriage return (`Source.codeLines_append_line`), and what its
statements bind is bound in the whole (`symbolEntries_subset_append`). So its words come first among
those of the whole, and its symbols are there unchanged (`assemble_append_undisturbed`).
-/

namespace HackAssembler

variable {dialect : Dialect}

/-! ### Statements before others -/

section

variable {first second : List (Located Statement)}

/-- The words of statements come first among those of more statements that keep their symbols. -/
theorem Program.Means.words_isPrefix {part whole : Program} (meansPart : part.Means dialect first)
    (means : whole.Means dialect (first ++ second))
    (lookups : ∀ name symbol, (symbolEntries dialect first).lookup name = some symbol →
      (symbolEntries dialect (first ++ second)).lookup name = some symbol) :
    part.words <+: whole.words := by
  have same : ∀ located ∈ HackAssembler.instructions first, ∀ use, located.symbol? = some use →
      part.symbols.toList.lookup use.item = whole.symbols.toList.lookup use.item := by
    intro located member use named
    obtain ⟨symbol, found⟩ := exists_lookup_of_use dialect (List.mem_filterMap.mpr
      ⟨located, member, named⟩)
    rw [meansPart.symbols, means.symbols, found, lookups _ _ found]
  have front := List.forall₂_take (HackAssembler.instructions first).length means.words
  rw [instructions_append, List.take_left] at front
  have words : whole.words.take (HackAssembler.instructions first).length = part.words := by
    refine meansPart.words_eq (((List.forall₂_and_left _ _).mpr ⟨same, front⟩).imp ?_)
    intro located word both
    exact both.2.congr both.1 fun _ _ _ _ _ => rfl
  rw [← words]
  exact List.take_prefix _ _

variable (unused : ∀ name ∈ (labelEntries second).map Prod.fst,
  name ∉ (symbolUses (instructions first)).map Located.item)

include unused

/-- Statements have the same symbols before others that declare none of the names they use. -/
theorem symbolEntries_subset_append (dialect : Dialect) :
    symbolEntries dialect first ⊆ symbolEntries dialect (first ++ second) := by
  have fresh : freshUses (boundNames dialect (first ++ second)) (symbolUses (instructions first)) =
      freshUses (boundNames dialect first) (symbolUses (instructions first)) := by
    refine freshUses_congr fun use member => ?_
    have other : use.item ∉ (labelEntries second).map Prod.fst :=
      fun declared => unused _ declared (List.mem_map_of_mem member)
    simp only [boundNames_append, List.mem_append, other, or_false]
  have allocated : variableEntries (boundNames dialect first) (instructions first) <+:
      variableEntries (boundNames dialect (first ++ second)) (instructions (first ++ second)) := by
    have earlier := variableEntries_isPrefix (boundNames dialect (first ++ second))
      (instructions first) (instructions second)
    rwa [variableEntries, fresh, ← variableEntries, ← instructions_append] at earlier
  have labels : labelEntries first <+: labelEntries (first ++ second) := by
    rw [labelEntries_append]
    exact List.prefix_append _ _
  intro entry member
  unfold symbolEntries at member ⊢
  simp only [List.mem_append] at member ⊢
  rcases member with (predefined | label) | used
  · exact Or.inl (Or.inl predefined)
  · exact Or.inl (Or.inr (labels.subset label))
  · exact Or.inr (allocated.subset used)

theorem WellFormed.lookup_append (wellFormed : WellFormed dialect (first ++ second))
    {name : String} {symbol : Symbol}
    (found : (symbolEntries dialect first).lookup name = some symbol) :
    (symbolEntries dialect (first ++ second)).lookup name = some symbol :=
  OrderedMap.lookup_eq_some_of_mem wellFormed.nodup_names
    (symbolEntries_subset_append unused dialect (OrderedMap.mem_of_lookup_eq_some found))

theorem WellFormed.isPart_append (wellFormed : WellFormed dialect (first ++ second)) :
    IsPart dialect first (first ++ second) where
  names := by
    rw [labelEntries_append, List.map_append]
    exact List.sublist_append_left _ _
  labels := by
    intro entry member
    rw [labelEntries_append]
    exact ⟨entry, List.mem_append_left _ member, Nat.le_refl _⟩
  instructions := by
    rw [instructions_append]
    exact fun _ member => List.mem_append_left _ member
  symbols := fun _ _ symbol found =>
    ⟨symbol, wellFormed.lookup_append unused found, Nat.le_refl _⟩

end

/-! ### Lines before others -/

/-- An item on a line that is farther down by a distance. -/
def Located.moveBy {α : Type} (distance : Nat) (located : Located α) : Located α :=
  { located with line := located.line + distance }

namespace Source

theorem locateCode_append (first second : List (List Char)) :
    locateCode (first ++ second) =
      locateCode first ++ (locateCode second).map (Located.moveBy first.length) := by
  unfold locateCode
  rw [List.zipIdx_append, List.map_append, List.filter_append, Nat.zero_add]
  congr 1
  rw [List.zipIdx_eq_map_add (i := first.length), List.map_map, List.filter_map, List.filter_map,
    List.map_map]
  refine List.map_congr_left fun written _ => ?_
  simp only [Function.comp_apply, Located.moveBy, Nat.add_comm]

/-- The lines behind a line feed are those of the text behind it, farther down. -/
theorem codeLines_append_line (first second : String) :
    codeLines (first ++ "\n" ++ second) =
      codeLines first ++
        (codeLines second).map (Located.moveBy (first.toList.splitOn '\n').length) := by
  have parts : (first ++ "\n" ++ second).toList.splitOn '\n' =
      first.toList.splitOn '\n' ++ second.toList.splitOn '\n' := by
    rw [String.toList_append, String.toList_append, List.append_assoc]
    exact List.splitOn_append_cons_self _ _
  rw [codeLines_eq_locateCode, codeLines_eq_locateCode, codeLines_eq_locateCode, parts,
    List.map_append, locateCode_append, List.length_map]

theorem readable_append_line (first second : String) :
    readable (first ++ "\n" ++ second) =
      readable first ++
        (readable second).map (Located.moveBy (first.toList.splitOn '\n').length) := by
  unfold readable
  rw [codeLines_append_line, List.filterMap_append, List.filterMap_map, List.map_filterMap]
  congr 2
  funext written
  simp only [Function.comp_apply, Located.moveBy, Option.map_map]
  rfl

end Source

/-! ### Sources before others -/

/-- Labels that a source does not use as symbols are not used by its statements, on whatever lines
the labels stand. -/
theorem not_mem_symbolUses_of_says {first second : String}
    (unused : ∀ name line other, Source.Says second line (.label name) →
      Source.Says first other (.instruction (.load (.written name))) →
        Text.isNumeral name = true)
    (distance : Nat) :
    ∀ name ∈ (labelEntries ((Source.readable second).map (Located.moveBy distance))).map Prod.fst,
      name ∉ (symbolUses (instructions (Source.readable first))).map Located.item := by
  intro name declared used
  obtain ⟨_, moved⟩ := mem_names_labelEntries.mp declared
  obtain ⟨⟨line, item⟩, declares, same⟩ := List.mem_map.mp moved
  cases same
  obtain ⟨other, loads, symbolic⟩ := mem_names_symbolUses.mp used
  exact symbolic (unused name line other (Source.mem_readable_iff.mp declares)
    (Source.mem_readable_iff.mp loads))

/-- **Appended code disturbs nothing.** If a source with another one behind it is assembled, and the
other declares no label that is a symbol in the first, then the first is assembled by itself. Its
words are the first ones of the whole, and every symbol that it has is the same in the whole. -/
theorem assemble_append_undisturbed {first second : String} {whole : Program}
    (unused : ∀ name line other, Source.Says second line (.label name) →
      Source.Says first other (.instruction (.load (.written name))) →
        Text.isNumeral name = true)
    (assembled : assemble dialect (first ++ "\n" ++ second) = .ok whole) :
    ∃ part, assemble dialect first = .ok part ∧ part.words <+: whole.words ∧
      ∀ name symbol, part.symbols.get? name = some symbol →
        whole.symbols.get? name = some symbol := by
  obtain ⟨readWhole, wellFormed, means⟩ := wellFormed_of_assemble assembled
  have apart := not_mem_symbolUses_of_says unused (first.toList.splitOn '\n').length
  rw [Source.readable_append_line] at wellFormed means
  -- From here on the lines of the second source do not matter.
  generalize (Source.readable second).map (Located.moveBy _) = later at apart wellFormed means
  have read : ∀ written ∈ Source.codeLines first,
      ∃ statement, Statement.read written.item = .ok statement := by
    rw [Source.codeLines_append_line] at readWhole
    exact fun written member => readWhole written (List.mem_append_left _ member)
  obtain ⟨part, assembledPart, _, meansPart⟩ := (assemble_verdict dialect first).of_flawless
    (flaws_eq_nil_iff.mpr ⟨read, wellFormed.of_part (wellFormed.isPart_append apart)⟩)
  have lookups : ∀ name symbol,
      (symbolEntries dialect (Source.readable first)).lookup name = some symbol →
        (symbolEntries dialect (Source.readable first ++ later)).lookup name = some symbol :=
    fun _ _ => wellFormed.lookup_append apart
  refine ⟨part, assembledPart, meansPart.words_isPrefix means lookups, ?_⟩
  intro name symbol found
  rw [← OrderedMap.lookup_toList, meansPart.symbols] at found
  rw [← OrderedMap.lookup_toList, means.symbols]
  exact lookups name symbol found

/-- A line feed behind a carriage return at the end of a source makes one line ending of both. The
label has the text of an operand before it, which is a numeral and so no symbol. -/
theorem assemble_append_undisturbed_carriage_return :
    ∃ part whole, assemble .hack "@i\n@100\nD=A\r" = .ok part ∧
      assemble .hack ("@i\n@100\nD=A\r" ++ "\n" ++ "(100)\n@j\n@i") = .ok whole ∧
      part.words = [.address 16, .address 100, .compute 0b0110000 0b010 0] ∧
      whole.words = part.words ++ [.address 17, .address 16] ∧
      part.symbols.get? "i" = some ⟨.variable, 16, some 0⟩ ∧
      whole.symbols.get? "i" = some ⟨.variable, 16, some 0⟩ := by
  have flawless : flaws .hack ("@i\n@100\nD=A\r" ++ "\n" ++ "(100)\n@j\n@i") = [] := by
    simp only [flaws, statementFlaws, symbolEntries, boundNames, Dialect.predefinedEntries_hack]
    decide +kernel
  obtain ⟨whole, assembled, wordsWhole⟩ := exists_words_of_flawless
    flawless (show _ = List.map some [.address 16, .address 100, .compute 0b0110000 0b010 0,
      .address 17, .address 16] by
      simp only [symbolEntries, boundNames, Dialect.predefinedEntries_hack]
      decide +kernel)
  have declared : Source.readable "(100)\n@j\n@i" = [⟨0, .label "100"⟩,
      ⟨1, .instruction (.load (.written "j"))⟩, ⟨2, .instruction (.load (.written "i"))⟩] := by
    decide +kernel
  have unused : ∀ name line other, Source.Says "(100)\n@j\n@i" line (.label name) →
      Source.Says "@i\n@100\nD=A\r" other (.instruction (.load (.written name))) →
        Text.isNumeral name = true := by
    intro name line other declares _
    rw [← Source.mem_readable_iff, declared] at declares
    obtain ⟨rfl, rfl⟩ : line = 0 ∧ name = "100" := by simpa using declares
    decide +kernel
  obtain ⟨part, assembledPart, _, symbols⟩ := assemble_append_undisturbed unused assembled
  have means := (wellFormed_of_assemble assembledPart).2.2
  have wordsPart : part.words = [.address 16, .address 100, .compute 0b0110000 0b010 0] := by
    apply means.words_eq_of_word?
    simp only [symbolEntries, boundNames, Dialect.predefinedEntries_hack]
    decide +kernel
  have used : part.symbols.get? "i" = some ⟨.variable, 16, some 0⟩ := by
    rw [← OrderedMap.lookup_toList, means.symbols]
    simp only [symbolEntries, boundNames, Dialect.predefinedEntries_hack]
    decide +kernel
  refine ⟨part, whole, assembledPart, assembled, wordsPart, ?_, used, symbols _ _ used⟩
  rw [wordsWhole, wordsPart]
  rfl

end HackAssembler
