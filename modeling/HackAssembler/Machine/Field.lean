/-! # Fields of a computation

A computation word `111accccccdddjjj` has three fields that are written as mnemonics: what is
computed, where the result goes, and when to jump.
-/

namespace HackAssembler

inductive Field where
  | comp
  | dest
  | jump
  deriving DecidableEq, Repr

namespace Field

def name : Field → String
  | comp => "comp"
  | dest => "dest"
  | jump => "jump"

def width : Field → Nat
  | comp => 7
  | dest => 3
  | jump => 3

def capacity (field : Field) : Nat :=
  1 <<< field.width

@[simp]
theorem capacity_comp : comp.capacity = 0x80 := rfl

@[simp]
theorem capacity_dest : dest.capacity = 8 := rfl

@[simp]
theorem capacity_jump : jump.capacity = 8 := rfl

def mask (field : Field) : Nat :=
  field.capacity - 1

/-- The pattern of an absent destination or jump. -/
def noOp : Nat := 0

/-- A pattern is reserved in the fields that may be absent if it stands for their absence. -/
def reserves (field : Field) (pattern : Nat) : Bool :=
  field != comp && pattern == noOp

end Field

end HackAssembler
