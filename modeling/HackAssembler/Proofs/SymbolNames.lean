import HackAssembler.Proofs.Renaming
import HackAssembler.Proofs.WellFormed
import Mathlib.Logic.Equiv.Basic

/-! # Symbol names are only names

When the symbols of a program get other names, nothing else changes: the statements are translated
to the same words, each symbol keeps its place, its kind, its value and its line, and a fault is the
same one but for the name that it tells (`translate_renameSymbols`). Two names that are neither
numerals nor predefined may also trade places (`IsRenaming.swap`).
-/

namespace HackAssembler

def renameSymbols (rename : String → String) (statements : List (Located Statement)) :
    List (Located Statement) :=
  statements.map fun located => ⟨located.line, located.item.rename rename⟩

def SymbolTable.renamedEntries (symbols : SymbolTable) (rename : String → String) :
    List (String × Symbol) :=
  symbols.toList.map fun (name, symbol) => (rename name, symbol)

def Fault.Cause.rename (rename : String → String) : Fault.Cause → Fault.Cause
  | duplicateLabel name earlier => duplicateLabel (rename name) earlier
  | malformed reason => malformed reason
  | unresolvedMnemonic field mnemonic => unresolvedMnemonic field mnemonic
  | addressOverflow operand => addressOverflow (operand.rename rename)
  | undefinedSymbol name => undefinedSymbol (rename name)

def Fault.rename (rename : String → String) (fault : Fault) : Fault :=
  ⟨fault.cause.rename rename, fault.line⟩

/-! ### What is alike on the same lines -/

variable {dialect : Dialect} {rename : String → String}

theorem Symbol.Alike.eq {first second : Symbol} (alike : first.Alike Eq second) :
    second = first := by
  obtain ⟨kind, value, line⟩ := first
  obtain ⟨_, _, otherLine⟩ := second
  obtain ⟨rfl, rfl, lines⟩ := alike
  cases lines with
  | none => rfl
  | some same => rw [same]

theorem SymbolTable.Alike.toList_eq {first second : SymbolTable}
    (alike : first.Alike rename Eq second) : second.toList = first.renamedEntries rename := by
  unfold renamedEntries
  rw [← List.forall₂_eq_eq_eq, List.forall₂_map_right_iff]
  refine List.Forall₂.imp (fun entry other same => ?_) (List.Forall₂.flip alike)
  obtain ⟨name, symbol⟩ := entry
  exact Prod.ext same.name same.symbol.eq

theorem Fault.Cause.Alike.eq {first second : Fault.Cause} (alike : first.Alike rename Eq second) :
    second = first.rename rename := by
  cases alike with
  | @duplicateLabel name earlier other lines =>
      cases lines with
      | none => rfl
      | some same => rw [same, Cause.rename]
  | malformed reason => rfl
  | unresolvedMnemonic field mnemonic => rfl
  | addressOverflow operand => rfl
  | undefinedSymbol name => rfl

theorem Fault.Alike.eq {first second : Fault} (alike : first.Alike rename Eq second) :
    second = first.rename rename := by
  unfold Fault.rename
  rw [← alike.cause.eq, alike.line]

/-! ### Trading two names -/

/-- Two names may trade places if they are neither numerals nor predefined. -/
theorem IsRenaming.swap {first second : String} (firstSymbolic : Text.isNumeral first = false)
    (secondSymbolic : Text.isNumeral second = false) (firstNew : dialect.symbol? first = none)
    (secondNew : dialect.symbol? second = none) :
    IsRenaming dialect (Equiv.swap first second) where
  injective := (Equiv.swap first second).injective
  numeral := by
    intro text numeral
    apply Equiv.swap_apply_of_ne_of_ne
    · rintro rfl
      simp [firstSymbolic] at numeral
    · rintro rfl
      simp [secondSymbolic] at numeral
  predefined := by
    intro name address known
    apply Equiv.swap_apply_of_ne_of_ne
    · rintro rfl
      simp [firstNew] at known
    · rintro rfl
      simp [secondNew] at known

/-! ### Programs with other names -/

/-- **Names are only names.** A program whose symbols have been renamed is translated to the same
words, with the same symbols under their new names in the same order, or it fails with the same
fault, which tells the new name. -/
theorem translate_renameSymbols (renames : IsRenaming dialect rename)
    (statements : List (Located Statement)) :
    Agree (fun fault other => other = fault.rename rename)
      (fun program other => other.words = program.words ∧
        other.symbols.toList = program.symbols.renamedEntries rename)
      (translate dialect statements) (translate dialect (renameSymbols rename statements)) := by
  have alike : List.Forall₂ (Located.Alike Eq (Statement.rename rename)) statements
      (renameSymbols rename statements) := by
    unfold renameSymbols
    rw [List.forall₂_map_right_iff, List.forall₂_same]
    exact fun located _ => ⟨rfl, rfl⟩
  refine (translate_agree renames alike).imp ?_ ?_
  · intro fault other same
    exact same.eq
  · intro program other same
    exact ⟨same.words.symm, same.symbols.toList_eq⟩

/-- A label and a variable trade their names, and with them the loads that refer to them. -/
theorem translate_renameSymbols_swap :
    ∃ program other,
      translate .hack [⟨0, .instruction (.load (.written "END"))⟩,
        ⟨1, .instruction (.load (.written "x"))⟩, ⟨2, .label "END"⟩,
        ⟨3, .instruction (.compute ⟨none, "0", some "JMP"⟩)⟩] = .ok program ∧
      translate .hack [⟨0, .instruction (.load (.written "x"))⟩,
        ⟨1, .instruction (.load (.written "END"))⟩, ⟨2, .label "x"⟩,
        ⟨3, .instruction (.compute ⟨none, "0", some "JMP"⟩)⟩] = .ok other ∧
      other.words = program.words ∧
      other.symbols.toList = Dialect.hack.predefinedEntries ++
        [("x", ⟨.label, 2, some 2⟩), ("END", ⟨.variable, 16, some 1⟩)] := by
  let statements : List (Located Statement) := [⟨0, .instruction (.load (.written "END"))⟩,
    ⟨1, .instruction (.load (.written "x"))⟩, ⟨2, .label "END"⟩,
    ⟨3, .instruction (.compute ⟨none, "0", some "JMP"⟩)⟩]
  have new : ∀ name ∈ ["END", "x"], Dialect.hack.symbol? name = none := by
    simp only [Dialect.symbol?_eq_none_iff, Dialect.predefinedEntries_hack]
    decide
  have renames : IsRenaming .hack (Equiv.swap "END" "x") :=
    .swap (by decide) (by decide) (new "END" (by simp)) (new "x" (by simp))
  obtain ⟨program, translated, means⟩ := (translate_verdict .hack statements).of_flawless (by
    simp only [statementFlaws, symbolEntries, boundNames, Dialect.predefinedEntries_hack]
    decide +kernel)
  have agree := translate_renameSymbols renames statements
  rw [translated] at agree
  obtain ⟨other, otherTranslated, words, symbols⟩ := agree.of_ok
  refine ⟨program, other, translated, ?_, words, ?_⟩
  · rw [← otherTranslated]
    exact congrArg (translate .hack) (by decide +kernel)
  · rw [symbols, SymbolTable.renamedEntries, means.symbols]
    simp only [symbolEntries, boundNames, Dialect.predefinedEntries_hack]
    decide +kernel

end HackAssembler
