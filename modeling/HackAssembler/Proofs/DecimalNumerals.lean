import HackAssembler.Text.Numeral
import Mathlib.Data.List.Induction

/-! # Decimal numerals

A numeral is a number in decimal behind any number of zeros, and what it stands for is that number
(`Text.spells_iff`). So a numeral has one value, however long it is, and numerals of one value
differ in the number of their zeros only.
-/

namespace HackAssembler.Text

/-- A text spells a number when it is the number in decimal behind any number of zeros. -/
def Spells (text : String) (value : Nat) : Prop :=
  ∃ zeros, text = String.ofList (List.replicate zeros '0') ++ toString value

theorem decimalValue_append_singleton (digits : List Char) (digit : Char) :
    decimalValue (digits ++ [digit]) =
      10 * decimalValue digits + (digit.toNat - '0'.toNat) := by
  unfold decimalValue
  rw [List.foldl_append, List.foldl_cons, List.foldl_nil]

/-- Zeros in front of a numeral do not count. -/
theorem decimalValue_replicate_zero_append (zeros : Nat) (digits : List Char) :
    decimalValue (List.replicate zeros '0' ++ digits) = decimalValue digits := by
  induction zeros with
  | zero => rfl
  | succ zeros ih => exact ih

theorem eq_digitChar_of_isDigit {digit : Char} (isDigit : digit.isDigit = true) :
    digit.toNat - '0'.toNat < 10 ∧ digit = (digit.toNat - '0'.toNat).digitChar := by
  have zero : '0'.toNat = 48 := rfl
  have nine : '9'.toNat = 57 := rfl
  obtain ⟨least, most⟩ := Char.isDigit_iff_toNat.mp isDigit
  have small : digit.toNat - '0'.toNat < 10 := by omega
  refine ⟨small, Char.toNat_inj.mp ?_⟩
  rw [Nat.toNat_digitChar_of_lt_ten small]
  omega

/-- Digits are the digits of their value behind zeros. -/
theorem exists_replicate_append_toDigits {digits : List Char} (nonempty : digits ≠ [])
    (isDigits : ∀ digit ∈ digits, digit.isDigit = true) :
    ∃ zeros, digits = List.replicate zeros '0' ++ Nat.toDigits 10 (decimalValue digits) := by
  induction digits using List.reverseRecOn with
  | nil => exact absurd rfl nonempty
  | append_singleton digits digit ih =>
      obtain ⟨small, written⟩ := eq_digitChar_of_isDigit (isDigits digit (by simp))
      have last : [digit] = Nat.toDigits 10 (digit.toNat - '0'.toNat) := by
        rw [Nat.toDigits_of_lt_base small, ← written]
      rw [decimalValue_append_singleton, last]
      by_cases first : digits = []
      · subst first
        refine ⟨0, ?_⟩
        simp [decimalValue]
      · obtain ⟨zeros, earlier⟩ :=
          ih first fun other member => isDigits other (List.mem_append_left _ member)
        by_cases nothing : decimalValue digits = 0
        · -- So far there are only zeros, and the last of them is now in front of a digit.
          rw [nothing] at earlier
          refine ⟨zeros + 1, ?_⟩
          rw [nothing, Nat.mul_zero, Nat.zero_add, List.replicate_succ', earlier]
          rfl
        · refine ⟨zeros, ?_⟩
          rw [← Nat.toDigits_append_toDigits (by decide) (Nat.pos_of_ne_zero nothing) small,
            ← List.append_assoc, ← earlier]

/-- A text spells a number exactly if it is a numeral with that value. -/
theorem spells_iff {text : String} {value : Nat} :
    Spells text value ↔ isNumeral text = true ∧ numeralValue text = value := by
  constructor
  · intro spelled
    obtain ⟨zeros, rfl⟩ := spelled
    obtain ⟨nonempty, isDigits⟩ := isNumeral_iff.mp (isNumeral_toString value)
    have written : (String.ofList (List.replicate zeros '0') ++ toString value).toList =
        List.replicate zeros '0' ++ (toString value).toList := by
      rw [String.toList_append, String.toList_ofList]
    refine ⟨isNumeral_iff.mpr ⟨?_, ?_⟩, ?_⟩
    · rw [written]
      exact List.append_ne_nil_of_right_ne_nil _ nonempty
    · intro digit member
      rw [written, List.mem_append] at member
      rcases member with zero | digitOfValue
      · rw [List.eq_of_mem_replicate zero]
        decide
      · exact isDigits digit digitOfValue
    · rw [numeralValue, written, decimalValue_replicate_zero_append]
      exact numeralValue_toString value
  · intro numeral
    obtain ⟨isNumeral, rfl⟩ := numeral
    obtain ⟨nonempty, isDigits⟩ := isNumeral_iff.mp isNumeral
    obtain ⟨zeros, split⟩ := exists_replicate_append_toDigits nonempty isDigits
    refine ⟨zeros, String.toList_injective ?_⟩
    rw [String.toList_append, String.toList_ofList, Nat.toString_eq_repr, Nat.toList_repr]
    exact split

end HackAssembler.Text
