import HackAssembler.Proofs.AssembledWords
import HackAssembler.Proofs.BinaryNumerals
import HackAssembler.Proofs.DecimalNumerals
import HackAssembler.Proofs.SourceLines
import HackAssembler.Proofs.WellFormed

/-! # Programs of one load

What an operand stands for shows in the program that does nothing but load it. An operand of digits
only is the number that it spells, of whatever length it is, and overflows if the number does not
fit. Every other operand is a symbol, also if it has digits in it: it is looked up among the
predefined symbols, and if it is none of them it is the first variable. `assemble_single_load` says
so for every operand that can be written, and tells when two numerals are loaded by the same word.
-/

namespace HackAssembler

variable {dialect : Dialect} {text : String}

/-! ### Words of loads -/

/-- The word of a load has a zero and then the fifteen digits of the value. -/
theorem Word.bits_address {value : Nat} (fits : value ≤ 32767) :
    (address value).bits = "0" ++ Text.binary 15 value := by
  have whole : (address value).toNat = value := Nat.mod_eq_of_lt (by omega)
  have high : value / 2 ^ 15 = 0 := by omega
  have opening : Text.binaryDigits 1 0 = "0".toList := rfl
  apply String.toList_injective
  rw [bits, whole, String.toList_append, Text.toList_binary, Text.toList_binary,
    Text.binaryDigits_add 1 15, high, opening]

theorem Word.toNat_eq_of_bits_eq {first second : Word} (same : first.bits = second.bits) :
    first.toNat = second.toNat := by
  have digits : Text.binaryDigits 16 first.toNat = Text.binaryDigits 16 second.toNat := by
    simpa only [bits, Text.toList_binary] using congrArg String.toList same
  have read := congrArg Text.binaryValue? digits
  rw [Text.binaryValue?_binaryDigits first.toNat_lt,
    Text.binaryValue?_binaryDigits second.toNat_lt] at read
  exact Option.some.inj read

/-! ### One statement -/

/-- The statements of a program that does nothing but load an operand. -/
def singleLoad (text : String) : List (Located Statement) :=
  [⟨0, .instruction (.load (.written text))⟩]

theorem assemble_eq_translate_singleLoad (clean : Source.IsClean text) :
    assemble dialect ("@" ++ text) = translate dialect (singleLoad text) := by
  have readBack : ∀ statement ∈ [Statement.instruction (.load (.written text))],
      Source.ReadsBack statement := List.forall_mem_singleton.mpr (.load clean)
  have source : Source.ofStatements [.instruction (.load (.written text))] = "@" ++ text := rfl
  obtain ⟨statements, read, readAs⟩ :=
    (statements_verdict (Source.ofStatements [.instruction (.load (.written text))])).of_flawless
      (flatMap_readingFlaws_eq_nil_iff.mpr (Source.forall_read_ofStatements readBack))
  have same : statements = singleLoad text :=
    (readable_of_readAs readAs).trans (Source.readable_ofStatements readBack)
  rw [← source, assemble_eq_bind_translate, read, same]
  rfl

theorem symbolEntries_singleLoad (dialect : Dialect) (text : String) :
    symbolEntries dialect (singleLoad text) = dialect.predefinedEntries ++
      variableEntries (dialect.predefinedEntries.map Prod.fst)
        [⟨0, .load (.written text)⟩] := by
  have noLabels : labelEntries (singleLoad text) = [] :=
    labelEntries_map_statement [⟨0, .load (.written text)⟩]
  unfold symbolEntries boundNames
  rw [noLabels, List.append_nil]
  rfl

theorem variableEntries_of_known {known : List String} (bound : text ∈ known) :
    variableEntries known [⟨0, .load (.written text)⟩] = [] := by
  by_cases numeral : Text.isNumeral text = true <;>
    simp [variableEntries, symbolUses, Located.symbol?, freshUses, withEarlier, IsFresh, numeral,
      bound]

theorem variableEntries_of_new {known : List String} (symbolic : Text.isNumeral text = false)
    (new : text ∉ known) :
    variableEntries known [⟨0, .load (.written text)⟩] = [(text, ⟨.variable, 16, some 0⟩)] := by
  simp [variableEntries, symbolUses, Located.symbol?, freshUses, withEarlier, IsFresh, symbolic,
    new, firstVariable]

/-- Of a single load, only a numeral can be reported while variables are allocated, since all
addresses are left. -/
theorem statementFlaws_singleLoad (dialect : Dialect) (text : String) :
    statementFlaws dialect (singleLoad text) =
      (if Text.isNumeral text = true ∧ addressMax < Text.numeralValue text then
        [⟨.allocation, 0, ⟨.addressOverflow (.written text), 0⟩⟩] else []) ++
      operandFlaws (symbolEntries dialect (singleLoad text)) 0 (.written text) := by
  have none : (freshUses (boundNames dialect (singleLoad text)) (symbolUses [])).length ≠
      variableMax := by
    simp [symbolUses, freshUses, variableMax, symbolMax, firstVariable]
  unfold statementFlaws
  by_cases numeral : Text.isNumeral text = true <;>
    simp [singleLoad, labelFlaws, withEarlier, instructions, Located.instruction?, allocationFlaws,
      encodingFlaws, numeral]
  exact fun _ => none

/-- A single load without flaws has the word of its value. -/
theorem exists_translate_singleLoad {value : Nat}
    (flawless : statementFlaws dialect (singleLoad text) = [])
    (valued : (Operand.written text).value? (symbolEntries dialect (singleLoad text)) =
      some value) :
    ∃ program, translate dialect (singleLoad text) = .ok program ∧
      program.words = [.address value] ∧
      program.symbols.toList = symbolEntries dialect (singleLoad text) := by
  obtain ⟨program, translated, means⟩ := (translate_verdict dialect _).of_flawless flawless
  refine ⟨program, translated, means.words_eq_of_word? ?_, means.symbols⟩
  exact congrArg (fun result => [Option.map Word.address result]) valued

/-! ### Numerals -/

theorem statementFlaws_singleLoad_numeral (numeral : Text.isNumeral text = true) :
    statementFlaws dialect (singleLoad text) =
      if addressMax < Text.numeralValue text then
        [⟨.allocation, 0, ⟨.addressOverflow (.written text), 0⟩⟩] else [] := by
  rw [statementFlaws_singleLoad]
  simp [operandFlaws, numeral]

theorem exists_words_of_numeral (dialect : Dialect) (numeral : Text.isNumeral text = true)
    (fits : Text.numeralValue text ≤ addressMax) :
    ∃ program, assemble dialect ("@" ++ text) = .ok program ∧
      program.words = [.address (Text.numeralValue text)] := by
  rw [assemble_eq_translate_singleLoad (.of_isNumeral numeral)]
  have valued : (Operand.written text).value? (symbolEntries dialect (singleLoad text)) =
      some (Text.numeralValue text) := by simp only [Operand.value?, numeral, ↓reduceIte]
  obtain ⟨program, translated, words, _⟩ := exists_translate_singleLoad
    (by rw [statementFlaws_singleLoad_numeral numeral, if_neg (Nat.not_lt.mpr fits)]) valued
  exact ⟨program, translated, words⟩

theorem assemble_large_numeral (numeral : Text.isNumeral text = true)
    (large : addressMax < Text.numeralValue text) :
    assemble dialect ("@" ++ text) = .error ⟨.addressOverflow (.written text), 0⟩ := by
  rw [assemble_eq_translate_singleLoad (.of_isNumeral numeral)]
  have verdict := translate_verdict dialect (singleLoad text)
  rw [statementFlaws_singleLoad_numeral numeral, if_pos large] at verdict
  exact verdict.of_head? rfl

/-- Two numerals are loaded by the same word exactly if they spell the same number and it fits. -/
theorem same_word_iff_of_numerals {other : String} (numeral : Text.isNumeral text = true)
    (otherNumeral : Text.isNumeral other = true) :
    (∃ first second, assemble dialect ("@" ++ text) = .ok first ∧
      assemble dialect ("@" ++ other) = .ok second ∧
      first.words.map Word.bits = second.words.map Word.bits) ↔
      Text.numeralValue text = Text.numeralValue other ∧ Text.numeralValue text ≤ addressMax := by
  constructor
  · intro same
    obtain ⟨first, second, assembled, otherAssembled, bits⟩ := same
    have fits : Text.numeralValue text ≤ addressMax := by
      by_contra large
      rw [assemble_large_numeral numeral (Nat.lt_of_not_le large)] at assembled
      cases assembled
    have otherFits : Text.numeralValue other ≤ addressMax := by
      by_contra large
      rw [assemble_large_numeral otherNumeral (Nat.lt_of_not_le large)] at otherAssembled
      cases otherAssembled
    obtain ⟨_, again, words⟩ := exists_words_of_numeral dialect numeral fits
    cases assembled.symm.trans again
    obtain ⟨_, again, otherWords⟩ := exists_words_of_numeral dialect otherNumeral otherFits
    cases otherAssembled.symm.trans again
    rw [words, otherWords] at bits
    have numbers := Word.toNat_eq_of_bits_eq (List.cons.inj bits).1
    simp only [Word.toNat, addressMax] at numbers fits otherFits
    exact ⟨by omega, fits⟩
  · intro same
    obtain ⟨value, fits⟩ := same
    obtain ⟨first, assembled, words⟩ := exists_words_of_numeral dialect numeral fits
    obtain ⟨second, otherAssembled, otherWords⟩ :=
      exists_words_of_numeral dialect otherNumeral (value ▸ fits)
    exact ⟨first, second, assembled, otherAssembled, by rw [words, otherWords, value]⟩

/-! ### Symbols -/

theorem statementFlaws_singleLoad_symbol (symbolic : Text.isNumeral text = false) {symbol : Symbol}
    (bound : (symbolEntries dialect (singleLoad text)).lookup text = some symbol) :
    statementFlaws dialect (singleLoad text) =
      if symbol.value ≤ addressMax then []
      else [⟨.encoding, 0, ⟨.addressOverflow (.symbol text symbol.value), 0⟩⟩] := by
  rw [statementFlaws_singleLoad]
  simp [operandFlaws, symbolic, bound]

theorem exists_words_of_symbol (clean : Source.IsClean text)
    (symbolic : Text.isNumeral text = false) {symbol : Symbol}
    (bound : (symbolEntries dialect (singleLoad text)).lookup text = some symbol)
    (fits : symbol.value ≤ addressMax) :
    ∃ program, assemble dialect ("@" ++ text) = .ok program ∧
      program.words = [.address symbol.value] ∧
      program.symbols.toList = symbolEntries dialect (singleLoad text) := by
  rw [assemble_eq_translate_singleLoad clean]
  have valued : (Operand.written text).value? (symbolEntries dialect (singleLoad text)) =
      some symbol.value := by
    simp only [Operand.value?, symbolic, bound, Bool.false_eq_true, ↓reduceIte, Option.map_some]
  refine exists_translate_singleLoad ?_ valued
  rw [statementFlaws_singleLoad_symbol symbolic bound, if_pos fits]

theorem assemble_large_symbol (clean : Source.IsClean text)
    (symbolic : Text.isNumeral text = false) {symbol : Symbol}
    (bound : (symbolEntries dialect (singleLoad text)).lookup text = some symbol)
    (large : addressMax < symbol.value) :
    assemble dialect ("@" ++ text) = .error ⟨.addressOverflow (.symbol text symbol.value), 0⟩ := by
  rw [assemble_eq_translate_singleLoad clean]
  have verdict := translate_verdict dialect (singleLoad text)
  rw [statementFlaws_singleLoad_symbol symbolic bound, if_neg (Nat.not_le.mpr large)] at verdict
  exact verdict.of_head? rfl

/-- A predefined operand makes no symbol more. -/
theorem symbolEntries_singleLoad_of_predefined {address : Nat}
    (predefined : dialect.symbol? text = some address) :
    symbolEntries dialect (singleLoad text) = dialect.predefinedEntries ∧
      (symbolEntries dialect (singleLoad text)).lookup text =
        some ⟨.predefined, address, none⟩ := by
  have known : text ∈ dialect.predefinedEntries.map Prod.fst := by
    by_contra new
    rw [Dialect.symbol?_eq_none_iff.mpr new] at predefined
    cases predefined
  have entries : symbolEntries dialect (singleLoad text) = dialect.predefinedEntries := by
    rw [symbolEntries_singleLoad, variableEntries_of_known known, List.append_nil]
  refine ⟨entries, ?_⟩
  rw [entries, dialect.lookup_predefinedEntries, predefined]
  rfl

/-- An operand that is not predefined is the first variable. -/
theorem symbolEntries_singleLoad_of_new (symbolic : Text.isNumeral text = false)
    (new : dialect.symbol? text = none) :
    symbolEntries dialect (singleLoad text) =
        dialect.predefinedEntries ++ [(text, ⟨.variable, 16, some 0⟩)] ∧
      (symbolEntries dialect (singleLoad text)).lookup text = some ⟨.variable, 16, some 0⟩ := by
  have entries : symbolEntries dialect (singleLoad text) =
      dialect.predefinedEntries ++ [(text, ⟨.variable, 16, some 0⟩)] := by
    rw [symbolEntries_singleLoad,
      variableEntries_of_new symbolic (Dialect.symbol?_eq_none_iff.mp new)]
  refine ⟨entries, ?_⟩
  rw [entries, List.lookup_append, dialect.lookup_predefinedEntries, new]
  simp

/-- **Single loads.** An operand of digits spells a number: if it is at most 32767, the one word of
the program is a zero and the fifteen digits of the number, and otherwise the operand overflows. An
operand with another character is a symbol: it has its predefined value, which may overflow, or it
is a variable. Two numerals are loaded by the same word exactly if they spell one number that
fits. -/
theorem assemble_single_load (dialect : Dialect) {text : String} (clean : Source.IsClean text) :
    (text.toList.all Char.isDigit = true → ∃ value, Text.Spells text value ∧
      (value ≤ 32767 → ∃ program rest, assemble dialect ("@" ++ text) = .ok program ∧
        program.words.map Word.bits = ["0" ++ rest] ∧ rest.length = 15 ∧
        Text.binaryValue? rest.toList = some value) ∧
      (32767 < value →
        assemble dialect ("@" ++ text) = .error ⟨.addressOverflow (.written text), 0⟩)) ∧
    (text.toList.all Char.isDigit = false →
      (∀ address, dialect.symbol? text = some address →
        (address ≤ 32767 → ∃ program, assemble dialect ("@" ++ text) = .ok program ∧
          program.words = [.address address] ∧
          program.symbols.toList = dialect.predefinedEntries) ∧
        (32767 < address → assemble dialect ("@" ++ text) =
          .error ⟨.addressOverflow (.symbol text address), 0⟩)) ∧
      (dialect.symbol? text = none → ∃ program, assemble dialect ("@" ++ text) = .ok program ∧
        program.words = [.address 16] ∧ program.symbols.toList =
          dialect.predefinedEntries ++ [(text, ⟨.variable, 16, some 0⟩)])) ∧
    ∀ first second value other, Text.Spells first value → Text.Spells second other →
      ((∃ program otherProgram, assemble dialect ("@" ++ first) = .ok program ∧
        assemble dialect ("@" ++ second) = .ok otherProgram ∧
        program.words.map Word.bits = otherProgram.words.map Word.bits) ↔
        value = other ∧ value ≤ 32767) := by
  have nonempty : text.toList ≠ [] := by simpa using clean.nonempty
  refine ⟨?_, ?_, ?_⟩
  · intro digits
    have numeral := Text.isNumeral_iff.mpr ⟨nonempty, List.all_eq_true.mp digits⟩
    refine ⟨_, Text.spells_iff.mpr ⟨numeral, rfl⟩, ?_, assemble_large_numeral numeral⟩
    intro fits
    obtain ⟨program, assembled, words⟩ := exists_words_of_numeral dialect numeral fits
    refine ⟨program, Text.binary 15 (Text.numeralValue text), assembled, ?_, ?_, ?_⟩
    · rw [words, List.map_singleton, Word.bits_address fits]
    · rw [← String.length_toList, Text.toList_binary, Text.length_binaryDigits]
    · rw [Text.toList_binary, Text.binaryValue?_binaryDigits (by omega)]
  · intro notDigits
    have symbolic : Text.isNumeral text = false := by
      rw [← Bool.not_eq_true, Text.isNumeral_iff, not_and]
      intro _ digits
      rw [List.all_eq_true.mpr digits] at notDigits
      cases notDigits
    refine ⟨fun address predefined => ?_, fun new => ?_⟩
    · obtain ⟨entries, bound⟩ := symbolEntries_singleLoad_of_predefined predefined
      refine ⟨fun fits => ?_, assemble_large_symbol clean symbolic bound⟩
      rw [← entries]
      exact exists_words_of_symbol clean symbolic bound fits
    · obtain ⟨entries, bound⟩ := symbolEntries_singleLoad_of_new symbolic new
      rw [← entries]
      exact exists_words_of_symbol clean symbolic bound (by decide)
  · intro first second value other spells otherSpells
    obtain ⟨numeral, rfl⟩ := Text.spells_iff.mp spells
    obtain ⟨otherNumeral, rfl⟩ := Text.spells_iff.mp otherSpells
    exact same_word_iff_of_numerals numeral otherNumeral

/-- Zeros in front of a numeral do not make it overflow. -/
theorem assemble_single_load_zeros :
    ∃ program rest, assemble .hack "@000000032767" = .ok program ∧
      program.words.map Word.bits = ["0" ++ rest] ∧ rest.length = 15 ∧
      Text.binaryValue? rest.toList = some 32767 := by
  have clean : Source.IsClean "000000032767" := .of_isNumeral (by decide)
  obtain ⟨value, spells, loaded, _⟩ := (assemble_single_load .hack clean).1 (by decide)
  have same : value = 32767 := (Text.spells_iff.mp spells).2.symm.trans (by decide)
  subst same
  exact loaded (Nat.le_refl _)

end HackAssembler
