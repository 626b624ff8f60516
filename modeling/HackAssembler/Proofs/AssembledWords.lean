import HackAssembler.Proofs.Passes
import Mathlib.Data.List.Forall2
import Mathlib.Data.Option.Basic

/-! # The words of assembled programs

The word of an instruction can be computed from the symbols of the program, without the passes
(`Instruction.word?`). The words of an assembled program are those of its instructions, each at the
position of its instruction (`Program.Means.exists_position`).
-/

namespace HackAssembler

variable {dialect : Dialect}

/-- The word of an instruction, if its operand has a value or its mnemonics have patterns. -/
def Instruction.word? (dialect : Dialect) (symbols : List (String × Symbol)) :
    Instruction → Option Word
  | load operand => (operand.value? symbols).map .address
  | compute computation => do
    let comp ← dialect.fieldPattern? .comp (computation.mnemonic? .comp)
    let dest ← dialect.fieldPattern? .dest (computation.mnemonic? .dest)
    let jump ← dialect.fieldPattern? .jump (computation.mnemonic? .jump)
    return .compute comp dest jump

theorem Encodes.word?_eq {symbols : List (String × Symbol)} {body : Instruction} {word : Word}
    (encodes : Encodes dialect symbols body word) : body.word? dialect symbols = some word := by
  cases encodes with
  | load valued => simp only [Instruction.word?, valued, Option.map_some]
  | compute comp_known dest_known jump_known =>
      simp only [Instruction.word?, comp_known, dest_known, jump_known]
      rfl

/-- An instruction stands for the same word wherever its name has the same symbol and its mnemonics
have the same patterns. -/
theorem Encodes.congr {other : Dialect} {symbols others : List (String × Symbol)}
    {located : Located Instruction} {word : Word}
    (encodes : Encodes dialect symbols located.item word)
    (lookups : ∀ use, located.symbol? = some use →
      others.lookup use.item = symbols.lookup use.item)
    (patterns : ∀ computation, located.item = .compute computation → ∀ field mnemonic,
      computation.mnemonic? field = some mnemonic →
        other.pattern? field mnemonic = dialect.pattern? field mnemonic) :
    Encodes other others located.item word := by
  obtain ⟨line, item⟩ := located
  cases encodes with
  | @load operand value valued =>
      refine .load (Eq.trans ?_ valued)
      cases operand with
      | literal number => rfl
      | written text =>
          by_cases numeral : Text.isNumeral text = true
          · simp only [Operand.value?, numeral, ↓reduceIte]
          · have used : Located.symbol? ⟨line, .load (.written text)⟩ = some ⟨line, text⟩ := by
              simp only [Located.symbol?, numeral, Bool.false_eq_true, ↓reduceIte]
            simp only [Operand.value?, numeral, Bool.false_eq_true, ↓reduceIte,
              lookups ⟨line, text⟩ used]
  | @compute computation comp dest jump comp_known dest_known jump_known =>
      have same : ∀ field, other.fieldPattern? field (computation.mnemonic? field) =
          dialect.fieldPattern? field (computation.mnemonic? field) := by
        intro field
        cases present : computation.mnemonic? field with
        | none => rfl
        | some mnemonic => exact patterns computation rfl field mnemonic present
      exact .compute ((same .comp).trans comp_known) ((same .dest).trans dest_known)
        ((same .jump).trans jump_known)

/-- The words that the instructions of a program stand for are its words. -/
theorem Program.Means.words_eq {statements : List (Located Statement)} {program : Program}
    (means : program.Means dialect statements) {words : List Word}
    (encodes : List.Forall₂
      (fun located word => Encodes dialect program.symbols.toList located.item word)
      (HackAssembler.instructions statements) words) : words = program.words :=
  List.right_unique_forall₂' (fun _ _ _ first second => first.unique second) encodes means.words

/-- Every instruction of a program has its word at its position. -/
theorem Program.Means.exists_position {statements : List (Located Statement)} {program : Program}
    (means : program.Means dialect statements) {located : Located Instruction}
    (member : located ∈ HackAssembler.instructions statements) :
    ∃ (position : Nat) (word : Word),
      program.instructions[position]? = some ⟨located.line, located.item.evaluated⟩ ∧
      program.words[position]? = some word ∧
      Encodes dialect program.symbols.toList located.item word := by
  obtain ⟨position, inside, rfl⟩ := List.mem_iff_getElem.mp member
  have otherInside : position < program.words.length := means.words.length_eq ▸ inside
  refine ⟨position, program.words[position], ?_, List.getElem?_eq_getElem otherInside, ?_⟩
  · rw [means.instructions, evaluateNumerals, List.getElem?_map, List.getElem?_eq_getElem inside,
      Option.map_some]
  · exact means.words.get inside otherInside

/-- The words of a program are those that are computed from its statements. -/
theorem Program.Means.words_eq_of_word? {statements : List (Located Statement)} {program : Program}
    {words : List Word} (means : program.Means dialect statements)
    (encoded : (HackAssembler.instructions statements).map (fun located =>
      located.item.word? dialect (symbolEntries dialect statements)) = words.map some) :
    program.words = words := by
  apply List.map_injective_iff.mpr (Option.some_injective Word)
  rw [← encoded, ← means.symbols, ← List.forall₂_eq_eq_eq]
  exact List.rel_map (fun _ _ encodes => encodes.word?_eq.symm) means.words.flip

/-- A source without flaws has the words that are computed from its statements. -/
theorem exists_words_of_flawless {source : String} {words : List Word}
    (flawless : flaws dialect source = [])
    (encoded : (instructions (Source.readable source)).map (fun located =>
      located.item.word? dialect (symbolEntries dialect (Source.readable source))) =
        words.map some) :
    ∃ program, assemble dialect source = .ok program ∧ program.words = words := by
  obtain ⟨program, assembled, _, means⟩ := (assemble_verdict dialect source).of_flawless flawless
  exact ⟨program, assembled, means.words_eq_of_word? encoded⟩

end HackAssembler
