/-! # Numerals

Decimal numerals are non-empty runs of the ten ASCII digits, of any length and with any number of
leading zeros. Words and patterns are written in a fixed number of binary digits.
-/

namespace HackAssembler.Text

/-- A text is a numeral when it is non-empty and consists of ASCII digits. -/
def isNumeral (text : String) : Bool :=
  !text.toList.isEmpty && text.toList.all Char.isDigit

/-- The number that a list of ASCII digits spells in decimal. -/
def decimalValue (digits : List Char) : Nat :=
  digits.foldl (fun value digit => 10 * value + (digit.toNat - '0'.toNat)) 0

def numeralValue (text : String) : Nat :=
  decimalValue text.toList

theorem isNumeral_iff {text : String} :
    isNumeral text = true ↔ text.toList ≠ [] ∧ ∀ digit ∈ text.toList, digit.isDigit = true := by
  unfold isNumeral
  rw [Bool.and_eq_true, Bool.not_eq_true', List.isEmpty_eq_false_iff, List.all_eq_true]

theorem isNumeral_toString (value : Nat) : isNumeral (toString value) = true := by
  rw [isNumeral_iff, Nat.toString_eq_repr, Nat.toList_repr]
  refine ⟨Nat.toDigits_ne_nil, fun digit member => ?_⟩
  exact Nat.isDigit_of_mem_toDigits (by decide) (by decide) member

theorem numeralValue_toString (value : Nat) : numeralValue (toString value) = value := by
  unfold numeralValue decimalValue
  rw [Nat.toString_eq_repr, Nat.toList_repr, ← Nat.ofDigitChars_eq_foldl]
  exact Nat.ofDigitChars_ten_toDigits

def bitDigit (bit : Nat) : Char :=
  if bit = 0 then '0' else '1'

/-- The low `width` bits of a number, the most significant first. -/
def binaryDigits : Nat → Nat → List Char
  | 0, _ => []
  | width + 1, value => binaryDigits width (value / 2) ++ [bitDigit (value % 2)]

def binary (width value : Nat) : String :=
  String.ofList (binaryDigits width value)

theorem toList_binary (width value : Nat) :
    (binary width value).toList = binaryDigits width value :=
  String.toList_ofList

/-- The number that results when a binary digit is written after a number. -/
def appendBinary? (value : Nat) (digit : Char) : Option Nat :=
  if digit = '0' then some (2 * value) else if digit = '1' then some (2 * value + 1) else none

/-- The number that binary digits spell; `none` if one of them is not `0` or `1`. -/
def binaryValue? (digits : List Char) : Option Nat :=
  digits.foldlM appendBinary? 0

theorem foldlM_appendBinary?_lt {digits : List Char} {start value : Nat}
    (spelled : digits.foldlM appendBinary? start = some value) :
    value < (start + 1) <<< digits.length := by
  induction digits generalizing start with
  | nil =>
    simp only [List.foldlM_nil, Option.pure_def, Option.some.injEq] at spelled
    simp [spelled]
  | cons digit digits smaller =>
    obtain ⟨next, appended, rest⟩ := Option.bind_eq_some_iff.mp spelled
    have doubled : next + 1 ≤ (start + 1) * 2 := by
      simp only [appendBinary?] at appended
      split at appended
      · cases appended; omega
      · split at appended
        · cases appended; omega
        · cases appended
    have bounded := smaller rest
    rw [Nat.shiftLeft_eq] at bounded
    rw [List.length_cons, Nat.shiftLeft_eq, Nat.pow_succ', ← Nat.mul_assoc]
    exact Nat.lt_of_lt_of_le bounded (Nat.mul_le_mul_right _ doubled)

/-- So many binary digits spell a number below that power of two. -/
theorem binaryValue?_lt {digits : List Char} {value : Nat}
    (spelled : binaryValue? digits = some value) : value < 1 <<< digits.length := by
  simpa using foldlM_appendBinary?_lt spelled

/-- A text filled up with a character on the left to a number of characters. -/
def padLeft (width : Nat) (fill : Char) (text : List Char) : List Char :=
  List.replicate (width - text.length) fill ++ text

/-- A text filled up with spaces on the right to a number of characters. -/
def padRight (width : Nat) (text : List Char) : List Char :=
  text ++ List.replicate (width - text.length) ' '

def hexadecimal (value : Nat) : String :=
  String.ofList (padLeft 4 '0' ((Nat.toDigits 16 value).map Char.toUpper))

/-- A decimal number filled up with spaces on the left to a number of characters. -/
def decimal (width value : Nat) : String :=
  String.ofList (padLeft width ' ' (Nat.toDigits 10 value))

example : hexadecimal 26 = "001A" := by decide

example : decimal 4 99999 = "99999" := by decide

end HackAssembler.Text
