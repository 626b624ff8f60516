import HackAssembler.Machine.Field
import HackAssembler.Text.Numeral

/-! # Machine words

A word is sixteen bits. `0vvvvvvvvvvvvvvv` loads an address, and `111accccccdddjjj` computes. A word
whose first bit is set is read as a computation whatever its second and third bit are.
-/

namespace HackAssembler

/-- The largest value that an address word can load. -/
def addressMax : Nat := 0x7FFF

/-- A machine word by its parts. -/
inductive Word where
  | address (value : Nat)
  /-- Computes, with the patterns of the three fields; of each only the low bits fit. -/
  | compute (comp dest jump : Nat)
  deriving DecidableEq, Repr

namespace Word

def toNat : Word → Nat
  | address value => value % 0x8000
  | compute comp dest jump =>
      0xE000 + comp % Field.comp.capacity * 0x40 + dest % Field.dest.capacity * 8 +
        jump % Field.jump.capacity

def ofNat (number : Nat) : Word :=
  if number < 0x8000 then address number
  else compute (number / 0x40 % Field.comp.capacity) (number / 8 % Field.dest.capacity)
    (number % Field.jump.capacity)

def bits (word : Word) : String :=
  Text.binary 16 word.toNat

theorem toNat_lt (word : Word) : word.toNat < 0x10000 := by
  cases word <;>
    simp only [toNat, Field.capacity_comp, Field.capacity_dest, Field.capacity_jump] <;>
    omega

/-- A computation whose patterns fit their fields is read back from its number. -/
theorem ofNat_toNat_compute {comp dest jump : Nat} (compFits : comp < Field.comp.capacity)
    (destFits : dest < Field.dest.capacity) (jumpFits : jump < Field.jump.capacity) :
    ofNat (compute comp dest jump).toNat = compute comp dest jump := by
  simp only [Field.capacity_comp, Field.capacity_dest, Field.capacity_jump] at *
  simp only [toNat, ofNat, Field.capacity_comp, Field.capacity_dest, Field.capacity_jump,
    Nat.mod_eq_of_lt compFits, Nat.mod_eq_of_lt destFits, Nat.mod_eq_of_lt jumpFits]
  rw [if_neg (by omega)]
  congr 1 <;> omega

/-- A load of a value that fits is read back from its number. -/
theorem ofNat_toNat_address {value : Nat} (fits : value ≤ addressMax) :
    ofNat (address value).toNat = address value := by
  simp only [addressMax] at fits
  have whole : (address value).toNat = value := Nat.mod_eq_of_lt (by omega)
  rw [whole, ofNat, if_pos (by omega)]

end Word

end HackAssembler
