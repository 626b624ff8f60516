import HackAssembler.Proofs.AssembledWords
import HackAssembler.Proofs.Concatenation
import HackAssembler.Proofs.UnusedLabel

/-! # Relocation

Statements that use no symbols can be put anywhere into a program, and taken out again: the labels
behind them move by the number of their instructions, and so do the values that loads of these
labels have. All other words and the variables stay as they are (`translate_insert`).
-/

namespace HackAssembler

variable {dialect : Dialect}

/-- Statements stand apart from those before and behind them: none of their operands is a symbol,
and no operand of the others is a label of theirs. -/
structure StandsApart (before inserted after : List (Located Statement)) : Prop where
  fixed : ∀ located ∈ instructions inserted, located.symbol? = none
  unused : ∀ name ∈ (labelEntries inserted).map Prod.fst,
    name ∉ (symbolUses (instructions (before ++ after))).map Located.item

/-- The word of an instruction when the labels of the given names have moved by a distance. -/
def Located.relocate (moved : List String) (distance : Nat) (located : Located Instruction)
    (word : Word) : Word :=
  match located.symbol?, word with
  | some use, .address value =>
      if use.item ∈ moved then .address (value + distance) else .address value
  | _, word => word

/-- The words of a program when the labels of the given names have moved by a distance. -/
def Program.relocatedWords (moved : List String) (distance : Nat) (program : Program) :
    List Word :=
  List.zipWith (Located.relocate moved distance) program.instructions program.words

/-- What a name stands for when the labels of the given names have moved by a distance. -/
def Symbol.relocate (moved : List String) (distance : Nat) (name : String) (symbol : Symbol) :
    Symbol :=
  if name ∈ moved then symbol.moveBy distance else symbol

theorem Symbol.value_le_relocate (moved : List String) (distance : Nat) (name : String)
    (symbol : Symbol) : symbol.value ≤ (symbol.relocate moved distance name).value := by
  unfold relocate
  split
  · exact Nat.le_add_right _ _
  · exact Nat.le_refl _

section

variable {before inserted after : List (Located Statement)}

theorem instructions_between (before inserted after : List (Located Statement)) :
    instructions (before ++ inserted ++ after) =
      instructions before ++ instructions inserted ++ instructions after := by
  rw [instructions_append, instructions_append]

theorem labelEntries_between (before inserted after : List (Located Statement)) :
    labelEntries (before ++ inserted ++ after) =
      labelEntries before ++ moveEntries (instructions before).length (labelEntries inserted) ++
        moveEntries (instructions inserted).length
          (moveEntries (instructions before).length (labelEntries after)) := by
  rw [labelEntries_append, labelEntries_append, instructions_append, List.length_append,
    moveEntries_moveEntries]

theorem names_sublist_between (before inserted after : List (Located Statement)) :
    ((labelEntries (before ++ after)).map Prod.fst).Sublist
      ((labelEntries (before ++ inserted ++ after)).map Prod.fst) := by
  rw [labelEntries_append, labelEntries_between]
  simp only [List.map_append, map_fst_moveEntries]
  exact (List.sublist_append_left _ _).append (List.Sublist.refl _)

theorem StandsApart.symbolUses_eq_nil (apart : StandsApart before inserted after) :
    symbolUses (instructions inserted) = [] :=
  List.filterMap_eq_nil_iff.mpr apart.fixed

/-- The others have the same variables as without the statements between them. -/
theorem StandsApart.variableEntries_eq (apart : StandsApart before inserted after)
    (dialect : Dialect) :
    variableEntries (boundNames dialect (before ++ inserted ++ after))
        (instructions (before ++ inserted ++ after)) =
      variableEntries (boundNames dialect (before ++ after)) (instructions (before ++ after)) := by
  have uses : symbolUses (instructions (before ++ inserted ++ after)) =
      symbolUses (instructions (before ++ after)) := by
    rw [instructions_between, instructions_append, symbolUses_append, symbolUses_append,
      apart.symbolUses_eq_nil, List.append_nil, symbolUses_append]
  unfold variableEntries
  rw [uses, freshUses_congr]
  intro use member
  have other : use.item ∉ (labelEntries inserted).map Prod.fst := by
    intro declared
    exact apart.unused _ declared (List.mem_map_of_mem member)
  simp only [boundNames_append, List.mem_append, other, or_false]

theorem not_mem_names_of_bound (distinct : (boundNames dialect (before ++ after)).Nodup)
    {name : String} (bound : name ∈ boundNames dialect before) :
    name ∉ (labelEntries after).map Prod.fst := by
  rw [boundNames_append] at distinct
  exact fun declared => (List.nodup_append.mp distinct).2.2 name bound name declared rfl

theorem WellFormed.nodup_boundNames_others
    (wellFormed : WellFormed dialect (before ++ inserted ++ after)) :
    (boundNames dialect (before ++ after)).Nodup := by
  refine wellFormed.nodup_boundNames.sublist ?_
  rw [boundNames_append, boundNames_append, boundNames_append]
  exact (List.sublist_append_left _ _).append (List.Sublist.refl _)

/-- Every symbol of the others is there, at its new place. -/
theorem StandsApart.relocate_mem (apart : StandsApart before inserted after)
    (distinct : (boundNames dialect (before ++ after)).Nodup) {name : String} {symbol : Symbol}
    (member : (name, symbol) ∈ symbolEntries dialect (before ++ after)) :
    (name, symbol.relocate ((labelEntries after).map Prod.fst) (instructions inserted).length
      name) ∈ symbolEntries dialect (before ++ inserted ++ after) := by
  have unmoved : ∀ entry ∈ dialect.predefinedEntries ++ labelEntries before,
      entry.1 ∉ (labelEntries after).map Prod.fst :=
    fun entry bound => not_mem_names_of_bound distinct (List.mem_map_of_mem bound)
  unfold symbolEntries at member ⊢
  rw [labelEntries_append] at member
  rw [labelEntries_between, apart.variableEntries_eq dialect]
  simp only [List.mem_append] at member unmoved ⊢
  -- Of the four kinds of symbols only the labels behind the insertion move.
  rcases member with (predefined | first | second) | allocated
  · rw [Symbol.relocate, if_neg (unmoved _ (Or.inl predefined))]
    exact Or.inl (Or.inl predefined)
  · rw [Symbol.relocate, if_neg (unmoved _ (Or.inr first))]
    exact Or.inl (Or.inr (Or.inl (Or.inl first)))
  · have declared : name ∈ (labelEntries after).map Prod.fst := by
      rw [← map_fst_moveEntries (instructions before).length]
      exact List.mem_map_of_mem second
    rw [Symbol.relocate, if_pos declared]
    exact Or.inl (Or.inr (Or.inr (List.mem_map.mpr ⟨_, second, rfl⟩)))
  · have new : name ∉ (labelEntries after).map Prod.fst := by
      have named : name ∈ (variableEntries _ _).map Prod.fst := List.mem_map_of_mem allocated
      rw [map_fst_variableEntries, mem_names_freshUses, boundNames_append] at named
      exact fun declared => named.1 (List.mem_append_right _ declared)
    rw [Symbol.relocate, if_neg new]
    exact Or.inr allocated

theorem StandsApart.lookup_relocate (apart : StandsApart before inserted after)
    (wellFormed : WellFormed dialect (before ++ inserted ++ after)) {name : String}
    {symbol : Symbol}
    (found : (symbolEntries dialect (before ++ after)).lookup name = some symbol) :
    (symbolEntries dialect (before ++ inserted ++ after)).lookup name =
      some (symbol.relocate ((labelEntries after).map Prod.fst) (instructions inserted).length
        name) := by
  have entry := apart.relocate_mem wellFormed.nodup_boundNames_others
    (OrderedMap.mem_of_lookup_eq_some found)
  exact OrderedMap.lookup_eq_some_of_mem wellFormed.nodup_names entry

/-! ### The parts of a program -/

theorem StandsApart.isPart_others (apart : StandsApart before inserted after)
    (wellFormed : WellFormed dialect (before ++ inserted ++ after)) :
    IsPart dialect (before ++ after) (before ++ inserted ++ after) where
  names := names_sublist_between before inserted after
  labels := by
    intro entry member
    rw [labelEntries_append] at member
    rw [labelEntries_between]
    rcases List.mem_append.mp member with first | second
    · exact ⟨entry, List.mem_append_left _ (List.mem_append_left _ first), Nat.le_refl _⟩
    · refine ⟨_, List.mem_append_right _ (List.mem_map.mpr ⟨entry, second, rfl⟩), ?_⟩
      exact Nat.le_add_right _ _
  instructions := by
    rw [instructions_append, instructions_between]
    exact List.append_subset.mpr ⟨fun _ member => List.mem_append_left _
      (List.mem_append_left _ member), fun _ member => List.mem_append_right _ member⟩
  symbols := by
    intro use _ symbol found
    exact ⟨_, apart.lookup_relocate wellFormed found, Symbol.value_le_relocate _ _ _ _⟩

theorem StandsApart.isPart_inserted (apart : StandsApart before inserted after) :
    IsPart dialect inserted (before ++ inserted ++ after) where
  names := by
    rw [labelEntries_between]
    simp only [List.map_append, map_fst_moveEntries]
    exact (List.sublist_append_right _ _).trans (List.sublist_append_left _ _)
  labels := by
    intro entry member
    rw [labelEntries_between]
    refine ⟨_, List.mem_append_left _ (List.mem_append_right _
      (List.mem_map.mpr ⟨entry, member, rfl⟩)), ?_⟩
    exact Nat.le_add_right _ _
  instructions := by
    rw [instructions_between]
    exact fun _ member => List.mem_append_left _ (List.mem_append_right _ member)
  symbols := by
    intro use used
    rw [apart.symbolUses_eq_nil] at used
    cases used

end

/-! ### Words -/

theorem Located.symbol?_evaluated (located : Located Instruction) :
    Located.symbol? ⟨located.line, located.item.evaluated⟩ = located.symbol? := by
  obtain ⟨line, item⟩ := located
  cases item with
  | compute computation => rfl
  | load operand =>
      cases operand with
      | literal value => rfl
      | written text =>
          by_cases numeral : Text.isNumeral text = true
          · simp only [Instruction.evaluated, Operand.evaluated, Located.symbol?, numeral,
              ↓reduceIte]
          · simp only [Instruction.evaluated, Operand.evaluated, numeral, Bool.false_eq_true,
              ↓reduceIte]

theorem Program.Means.relocatedWords_eq {statements : List (Located Statement)} {program : Program}
    (means : program.Means dialect statements) (moved : List String) (distance : Nat) :
    program.relocatedWords moved distance =
      List.zipWith (Located.relocate moved distance) (HackAssembler.instructions statements)
        program.words := by
  have unevaluated : ∀ located : Located Instruction,
      Located.relocate moved distance ⟨located.line, located.item.evaluated⟩ =
        located.relocate moved distance := by
    intro located
    funext word
    unfold Located.relocate
    rw [located.symbol?_evaluated]
  rw [relocatedWords, means.instructions, evaluateNumerals, List.zipWith_map_left]
  simp only [unevaluated]

/-- An instruction stands for its relocated word when its name stands for the relocated symbol. -/
theorem Encodes.relocate {symbols others : List (String × Symbol)} {moved : List String}
    {distance : Nat} {located : Located Instruction} {word : Word}
    (encodes : Encodes dialect symbols located.item word)
    (lookups : ∀ name symbol, symbols.lookup name = some symbol →
      others.lookup name = some (symbol.relocate moved distance name)) :
    Encodes dialect others located.item (located.relocate moved distance word) := by
  cases used : located.symbol? with
  | none =>
      have kept : located.relocate moved distance word = word := by
        unfold Located.relocate
        rw [used]
      rw [kept]
      refine encodes.congr ?_ fun _ _ _ _ _ => rfl
      rintro use named
      rw [used] at named
      cases named
  | some use =>
      obtain ⟨rfl, symbolic⟩ := Located.symbol?_eq_some_iff.mp used
      cases encodes with
      | @load _ value valued =>
          simp only [Operand.value?, symbolic, Bool.false_eq_true, ↓reduceIte] at valued
          obtain ⟨symbol, found, rfl⟩ := Option.map_eq_some_iff.mp valued
          have value : (Operand.written use.item).value? others =
              some (symbol.relocate moved distance use.item).value := by
            simp only [Operand.value?, symbolic, Bool.false_eq_true, ↓reduceIte,
              lookups _ _ found, Option.map_some]
          unfold Located.relocate
          rw [used]
          by_cases declared : use.item ∈ moved
          · simp only [declared, ↓reduceIte]
            rw [Symbol.relocate, if_pos declared] at value
            exact .load value
          · simp only [declared, ↓reduceIte]
            rw [Symbol.relocate, if_neg declared] at value
            exact .load value

theorem Encodes.forall₂_relocate {symbols others : List (String × Symbol)} {moved : List String}
    {distance : Nat} {program : List (Located Instruction)} {words : List Word}
    (encodes : List.Forall₂ (fun located word => Encodes dialect symbols located.item word)
      program words)
    (lookups : ∀ name symbol, symbols.lookup name = some symbol →
      others.lookup name = some (symbol.relocate moved distance name)) :
    List.Forall₂ (fun located word => Encodes dialect others located.item word) program
      (List.zipWith (Located.relocate moved distance) program words) := by
  induction encodes with
  | nil => exact .nil
  | cons head _ ih => exact .cons (head.relocate lookups) ih

/-! ### Insertion -/

/-- The words of statements that stand apart stand between those of the others. -/
theorem StandsApart.words_eq {before inserted after : List (Located Statement)}
    {whole others part : Program} {moved : List String} {distance : Nat}
    (apart : StandsApart before inserted after)
    (means : whole.Means dialect (before ++ inserted ++ after))
    (meansOthers : others.Means dialect (before ++ after))
    (meansPart : part.Means dialect inserted)
    (lookups : ∀ name symbol, others.symbols.toList.lookup name = some symbol →
      whole.symbols.toList.lookup name = some (symbol.relocate moved distance name)) :
    whole.words = (others.relocatedWords moved distance).take (instructions before).length ++
      part.words ++ (others.relocatedWords moved distance).drop (instructions before).length := by
  have stand := Encodes.forall₂_relocate meansOthers.words lookups
  rw [← meansOthers.relocatedWords_eq, instructions_append] at stand
  have first := List.forall₂_take (instructions before).length stand
  have second := List.forall₂_drop (instructions before).length stand
  rw [List.take_left] at first
  rw [List.drop_left] at second
  have middle : List.Forall₂
      (fun located word => Encodes dialect whole.symbols.toList located.item word)
      (instructions inserted) part.words := by
    refine ((List.forall₂_and_left _ _).mpr ⟨apart.fixed, meansPart.words⟩).imp ?_
    intro located word both
    refine both.2.congr ?_ fun _ _ _ _ _ => rfl
    rw [both.1]
    rintro use ⟨⟩
  refine (means.words_eq ?_).symm
  rw [instructions_between]
  exact List.rel_append (List.rel_append first middle) second

/-- **Insertion and relocation.** If a program with statements that stand apart is translated, then
so are the others without them, and these statements alone. Their words stand between the words of
the others, of which only loads of labels behind them have changed, by the number of instructions
that were inserted. By that number these labels have moved; the other labels and the variables have
not. -/
theorem translate_insert {before inserted after : List (Located Statement)} {whole : Program}
    (apart : StandsApart before inserted after)
    (translated : translate dialect (before ++ inserted ++ after) = .ok whole) :
    ∃ others part, translate dialect (before ++ after) = .ok others ∧
      translate dialect inserted = .ok part ∧
      others.words.length = (instructions (before ++ after)).length ∧
      part.words.length = (instructions inserted).length ∧
      (let relocated := others.relocatedWords ((labelEntries after).map Prod.fst)
        (instructions inserted).length
      whole.words = relocated.take (instructions before).length ++ part.words ++
        relocated.drop (instructions before).length) ∧
      whole.symbols.ofKind .variable = others.symbols.ofKind .variable ∧
      (∀ name ∈ (labelEntries before).map Prod.fst, ∃ symbol,
        others.symbols.get? name = some symbol ∧ whole.symbols.get? name = some symbol) ∧
      ∀ name ∈ (labelEntries after).map Prod.fst, ∃ symbol,
        others.symbols.get? name = some symbol ∧
          whole.symbols.get? name = some (symbol.moveBy (instructions inserted).length) := by
  obtain ⟨wellFormed, means⟩ := wellFormed_of_translate translated
  obtain ⟨others, translatedOthers, meansOthers⟩ :=
    (wellFormed.of_part (apart.isPart_others wellFormed)).exists_translate
  obtain ⟨part, translatedPart, meansPart⟩ :=
    (wellFormed.of_part apart.isPart_inserted).exists_translate
  have lookups : ∀ name symbol, others.symbols.toList.lookup name = some symbol →
      whole.symbols.toList.lookup name = some (symbol.relocate ((labelEntries after).map Prod.fst)
        (instructions inserted).length name) := by
    intro name symbol found
    rw [meansOthers.symbols] at found
    rw [means.symbols]
    exact apart.lookup_relocate wellFormed found
  have exists_symbol : ∀ name ∈ boundNames dialect (before ++ after),
      ∃ symbol, others.symbols.toList.lookup name = some symbol := by
    rw [meansOthers.symbols]
    exact fun name bound => exists_lookup_of_bound bound
  refine ⟨others, part, translatedOthers, translatedPart, meansOthers.words.length_eq.symm,
    meansPart.words.length_eq.symm, ?_, ?_, ?_, ?_⟩
  · exact apart.words_eq means meansOthers meansPart lookups
  · unfold SymbolTable.ofKind
    rw [means.symbols, meansOthers.symbols, filter_symbolEntries_variable,
      filter_symbolEntries_variable, apart.variableEntries_eq]
  · intro name declared
    have bound : name ∈ boundNames dialect before := by
      unfold boundNames
      rw [List.map_append]
      exact List.mem_append_right _ declared
    have unmoved := not_mem_names_of_bound wellFormed.nodup_boundNames_others bound
    rw [boundNames_append] at exists_symbol
    obtain ⟨symbol, found⟩ := exists_symbol name (List.mem_append_left _ bound)
    have foundInWhole := lookups name symbol found
    rw [Symbol.relocate, if_neg unmoved] at foundInWhole
    rw [OrderedMap.lookup_toList] at found foundInWhole
    exact ⟨symbol, found, foundInWhole⟩
  · intro name declared
    rw [boundNames_append] at exists_symbol
    obtain ⟨symbol, found⟩ := exists_symbol name (List.mem_append_right _ declared)
    have foundInWhole := lookups name symbol found
    rw [Symbol.relocate, if_pos declared] at foundInWhole
    rw [OrderedMap.lookup_toList] at found foundInWhole
    exact ⟨symbol, found, foundInWhole⟩

/-- Two instructions and a label in the middle of a program move the label at its end, and with it a
load on either side of them. -/
theorem translate_insert_middle :
    ∃ whole others,
      translate .hack ([⟨0, .instruction (.load (.written "END"))⟩,
          ⟨1, .instruction (.load (.written "i"))⟩, ⟨2, .label "LOOP"⟩] ++
        [⟨3, .label "HERE"⟩, ⟨4, .instruction (.load (.written "7"))⟩,
          ⟨5, .instruction (.compute ⟨some "D", "A", none⟩)⟩] ++
        [⟨6, .instruction (.load (.written "LOOP"))⟩,
          ⟨7, .instruction (.load (.written "END"))⟩, ⟨8, .label "END"⟩,
          ⟨9, .instruction (.load (.written "i"))⟩]) = .ok whole ∧
      translate .hack ([⟨0, .instruction (.load (.written "END"))⟩,
          ⟨1, .instruction (.load (.written "i"))⟩, ⟨2, .label "LOOP"⟩] ++
        [⟨6, .instruction (.load (.written "LOOP"))⟩,
          ⟨7, .instruction (.load (.written "END"))⟩, ⟨8, .label "END"⟩,
          ⟨9, .instruction (.load (.written "i"))⟩]) = .ok others ∧
      others.words = [.address 4, .address 16, .address 2, .address 4, .address 16] ∧
      whole.words = [.address 6, .address 16, .address 7, .compute 0b0110000 0b010 0, .address 2,
        .address 6, .address 16] := by
  let before : List (Located Statement) := [⟨0, .instruction (.load (.written "END"))⟩,
    ⟨1, .instruction (.load (.written "i"))⟩, ⟨2, .label "LOOP"⟩]
  let inserted : List (Located Statement) := [⟨3, .label "HERE"⟩,
    ⟨4, .instruction (.load (.written "7"))⟩, ⟨5, .instruction (.compute ⟨some "D", "A", none⟩)⟩]
  let after : List (Located Statement) := [⟨6, .instruction (.load (.written "LOOP"))⟩,
    ⟨7, .instruction (.load (.written "END"))⟩, ⟨8, .label "END"⟩,
    ⟨9, .instruction (.load (.written "i"))⟩]
  have apart : StandsApart before inserted after := ⟨by decide +kernel, by decide +kernel⟩
  have flawless : statementFlaws .hack (before ++ inserted ++ after) = [] := by
    simp only [statementFlaws, symbolEntries, boundNames, Dialect.predefinedEntries_hack]
    decide +kernel
  obtain ⟨whole, translated, _⟩ := (translate_verdict .hack _).of_flawless flawless
  obtain ⟨others, part, translatedOthers, translatedPart, _, _, words, _⟩ :=
    translate_insert apart translated
  have meansOthers := (wellFormed_of_translate translatedOthers).2
  have wordsOthers : others.words =
      [.address 4, .address 16, .address 2, .address 4, .address 16] := by
    apply meansOthers.words_eq_of_word?
    simp only [symbolEntries, boundNames, Dialect.predefinedEntries_hack]
    decide +kernel
  have wordsPart : part.words = [.address 7, .compute 0b0110000 0b010 0] := by
    apply (wellFormed_of_translate translatedPart).2.words_eq_of_word?
    simp only [symbolEntries, boundNames, Dialect.predefinedEntries_hack]
    decide +kernel
  refine ⟨whole, others, translated, translatedOthers, wordsOthers, ?_⟩
  simp only [meansOthers.relocatedWords_eq, wordsOthers, wordsPart] at words
  rw [words]
  decide +kernel

end HackAssembler
