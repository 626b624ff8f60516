import HackAssembler.Listing
import HackAssembler.Proofs.Grammar
import HackAssembler.Proofs.OutputText

/-! # Reading a listing

The address and the word that a line of a listing shows can be read off its text (`shownWord?`).
They are those of the row of the line, and a line that is not of a row shows none.
-/

namespace HackAssembler

namespace Text

theorem exists_of_mem_toDigits {base value : Nat} (large : 1 < base) {digit : Char}
    (member : digit ∈ Nat.toDigits base value) : ∃ d < base, digit = Nat.digitChar d := by
  induction value using Nat.strongRecOn with
  | ind value ih =>
      rw [Nat.toDigits_eq_if large] at member
      split at member
      · next small =>
          rw [List.mem_singleton] at member
          exact ⟨value, small, member⟩
      · next tall =>
          rcases List.mem_append.mp member with higher | last
          · exact ih (value / base) (Nat.div_lt_self (by omega) large) higher
          · rw [List.mem_singleton] at last
            exact ⟨value % base, Nat.mod_lt _ (by omega), last⟩

theorem bracket_not_mem_hexadecimal (value : Nat) : ']' ∉ (hexadecimal value).toList := by
  unfold hexadecimal padLeft
  rw [String.toList_ofList, List.mem_append, not_or]
  refine ⟨fun padding => absurd (List.eq_of_mem_replicate padding) (by decide), fun digits => ?_⟩
  obtain ⟨digit, member, same⟩ := List.mem_map.mp digits
  obtain ⟨d, small, rfl⟩ := exists_of_mem_toDigits (by decide) member
  have apart : ∀ d : Fin 16, (Nat.digitChar d).toUpper ≠ ']' := by decide
  exact apart ⟨d, small⟩ same

end Text

namespace Listing

/-- The address and the word that a line of a listing shows. The line opens with a bracket, the
address goes up to the closing bracket, and behind a space come the sixteen digits of the word. -/
def shownWord? (shown : String) : Option (String × String) :=
  match shown.toList with
  | '[' :: rest => (splitFirst? ']' rest).map fun (address, behind) =>
      (String.ofList address, String.ofList ((behind.drop 1).take 16))
  | _ => none

/-- The row of a line shows its own address and word. -/
@[simp] theorem shownWord?_text (dialect : Dialect) (row : Row) (text : List Char) :
    shownWord? (row.text dialect text) = some (Text.hexadecimal row.address, row.word.bits) := by
  obtain ⟨rest, written⟩ : ∃ rest, (row.text dialect text).toList =
      '[' :: ((Text.hexadecimal row.address).toList ++ ']' :: ' ' ::
        (row.word.bits.toList ++ rest)) := by
    unfold Row.text
    simp [toString]
  have split := splitFirst?_append (Text.bracket_not_mem_hexadecimal row.address)
    (' ' :: (row.word.bits.toList ++ rest))
  unfold shownWord?
  rw [written]
  simp only [split, Option.map_some, List.drop_succ_cons, List.drop_zero,
    List.take_left' row.word.length_bits, String.ofList_toList]

theorem shownWord?_eq_none {shown : String} (opens : shown.toList.head? ≠ some '[') :
    shownWord? shown = none := by
  unfold shownWord?
  split
  · next rest written =>
      rw [written] at opens
      exact absurd rfl opens
  · rfl

@[simp] theorem shownWord?_labelText (line : Nat) (name : String) (value : Nat) :
    shownWord? (labelText line name value) = none := by
  apply shownWord?_eq_none
  unfold labelText margin
  simp [toString]

@[simp] theorem shownWord?_plainText (line : Nat) (text : List Char) :
    shownWord? (plainText line text) = none := by
  apply shownWord?_eq_none
  unfold plainText margin
  simp [toString]

@[simp] theorem shownWord?_title (path : String) : shownWord? (title path) = none := by
  apply shownWord?_eq_none
  unfold title
  simp

@[simp] theorem shownWord?_rule : shownWord? rule = none := by
  apply shownWord?_eq_none
  unfold rule
  simp

@[simp] theorem shownWord?_variableText (name : String) (symbol : Symbol) :
    shownWord? (variableText name symbol) = none := by
  apply shownWord?_eq_none
  unfold variableText Text.styled
  simp [Text.Style.select]

end Listing

end HackAssembler
