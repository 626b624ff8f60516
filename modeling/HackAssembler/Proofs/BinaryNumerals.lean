import HackAssembler.Text.Numeral
import Mathlib.Algebra.Group.Nat.Defs
import Mathlib.Data.List.Induction

/-! # Binary numerals

A number below a power of two has exactly one way to be written in that many binary digits, and
reading them gives the number back (`Text.binaryValue?_eq_some_iff`). The digits of a number are
those of its high part followed by those of its low part, so fields of a word can be told apart in
its digits (`Text.binaryDigits_add`).
-/

namespace HackAssembler.Text

/-- Digits that are so many zeros and ones. -/
structure IsBinary (width : Nat) (digits : List Char) : Prop where
  length_eq : digits.length = width
  binary : ∀ digit ∈ digits, digit = '0' ∨ digit = '1'

/-! ### Writing -/

theorem zero_eq_bitDigit_iff {bit : Nat} : '0' = bitDigit bit ↔ bit = 0 := by
  by_cases clear : bit = 0 <;> simp [bitDigit, clear]

theorem one_eq_bitDigit_iff {bit : Nat} : '1' = bitDigit bit ↔ bit ≠ 0 := by
  by_cases clear : bit = 0 <;> simp [bitDigit, clear]

theorem bitDigit_eq_zero_or_one (bit : Nat) : bitDigit bit = '0' ∨ bitDigit bit = '1' := by
  by_cases clear : bit = 0 <;> simp [bitDigit, clear]

@[simp]
theorem length_binaryDigits (width value : Nat) : (binaryDigits width value).length = width := by
  induction width generalizing value with
  | zero => rfl
  | succ width ih => simp [binaryDigits, ih]

theorem isBinary_binaryDigits (width value : Nat) : IsBinary width (binaryDigits width value) := by
  refine ⟨length_binaryDigits width value, ?_⟩
  induction width generalizing value with
  | zero =>
      intro digit member
      cases member
  | succ width ih =>
      intro digit member
      rcases List.mem_append.mp member with high | low
      · exact ih (value / 2) digit high
      · rw [List.mem_singleton.mp low]
        exact bitDigit_eq_zero_or_one _

/-- The digits of a number are those of its high part and then those of its low part. -/
theorem binaryDigits_add (high low value : Nat) :
    binaryDigits (high + low) value =
      binaryDigits high (value / 2 ^ low) ++ binaryDigits low value := by
  induction low generalizing value with
  | zero => simp [binaryDigits]
  | succ low ih =>
      have halved : value / 2 / 2 ^ low = value / 2 ^ (low + 1) := by
        rw [Nat.div_div_eq_div_mul, Nat.pow_succ']
      rw [← Nat.add_assoc, binaryDigits, ih, halved, binaryDigits, List.append_assoc]

/-! ### Reading -/

/-- A digit is written after a number exactly if it is the last digit of the result. -/
theorem appendBinary?_eq_some_iff {value result : Nat} {digit : Char} :
    appendBinary? value digit = some result ↔
      value = result / 2 ∧ digit = bitDigit (result % 2) := by
  unfold appendBinary?
  by_cases zero : digit = '0'
  · rw [if_pos zero, zero, Option.some.injEq, zero_eq_bitDigit_iff]
    omega
  · by_cases one : digit = '1'
    · rw [if_neg zero, if_pos one, one, Option.some.injEq, one_eq_bitDigit_iff]
      omega
    · rw [if_neg zero, if_neg one]
      rcases bitDigit_eq_zero_or_one (result % 2) with low | low <;> simp [low, zero, one]

theorem binaryValue?_append_singleton (digits : List Char) (digit : Char) :
    binaryValue? (digits ++ [digit]) =
      (binaryValue? digits).bind fun value => appendBinary? value digit := by
  unfold binaryValue?
  rw [List.foldlM_append]
  simp

/-- Digits spell a number exactly if they are the digits of the number in their width. -/
theorem binaryValue?_eq_some_iff {digits : List Char} {value : Nat} :
    binaryValue? digits = some value ↔
      digits = binaryDigits digits.length value ∧ value < 2 ^ digits.length := by
  -- By induction at the end of the digits, where both reading and writing put the lowest bit.
  induction digits using List.reverseRecOn generalizing value with
  | nil =>
      simp only [binaryValue?, List.foldlM_nil, Option.pure_def, Option.some.injEq,
        List.length_nil, binaryDigits, true_and, Nat.pow_zero]
      omega
  | append_singleton digits digit ih =>
      simp only [binaryValue?_append_singleton, Option.bind_eq_some_iff, ih,
        appendBinary?_eq_some_iff, List.length_append, List.length_singleton, binaryDigits,
        Nat.pow_succ]
      constructor
      · intro spelled
        obtain ⟨_, ⟨high, fits⟩, rfl, rfl⟩ := spelled
        exact ⟨by rw [← high], by omega⟩
      · intro written
        obtain ⟨same, fits⟩ := written
        obtain ⟨high, low⟩ := List.append_inj' same rfl
        exact ⟨value / 2, ⟨high, by omega⟩, rfl, List.singleton_inj.mp low⟩

/-- What is written of a number that fits is read back. -/
theorem binaryValue?_binaryDigits {width value : Nat} (fits : value < 2 ^ width) :
    binaryValue? (binaryDigits width value) = some value := by
  rw [binaryValue?_eq_some_iff, length_binaryDigits]
  exact ⟨rfl, fits⟩

/-- Every list of binary digits spells a number. -/
theorem exists_binaryValue?_iff {digits : List Char} :
    (∃ value, binaryValue? digits = some value) ↔
      ∀ digit ∈ digits, digit = '0' ∨ digit = '1' := by
  constructor
  · intro spelled
    obtain ⟨value, read⟩ := spelled
    rw [(binaryValue?_eq_some_iff.mp read).1]
    exact (isBinary_binaryDigits _ _).binary
  · induction digits using List.reverseRecOn with
    | nil => exact fun _ => ⟨0, rfl⟩
    | append_singleton digits digit ih =>
        intro binary
        obtain ⟨value, read⟩ := ih fun other member => binary other (List.mem_append_left _ member)
        rw [binaryValue?_append_singleton, read]
        rcases binary digit (by simp) with rfl | rfl
        · exact ⟨2 * value, rfl⟩
        · exact ⟨2 * value + 1, rfl⟩

end HackAssembler.Text
