/-! # Terminal styles

Colours, bold and underlined text as terminal control sequences. Several attributes are switched on
in order and switched off in the same order.
-/

namespace HackAssembler.Text

inductive Style where
  | red
  | green
  | yellow
  | blue
  | cyan
  | bold
  | underline
  deriving DecidableEq, Repr

namespace Style

/-- The numbers that switch an attribute on and off. All colours are switched off alike. -/
def codes : Style → Nat × Nat
  | red => (31, 39)
  | green => (32, 39)
  | yellow => (33, 39)
  | blue => (34, 39)
  | cyan => (36, 39)
  | bold => (1, 22)
  | underline => (4, 24)

def select (code : Nat) : String :=
  "\x1b[" ++ toString code ++ "m"

end Style

/-- A text between the sequences that switch the attributes on and off. -/
def styled (styles : List Style) (text : String) : String :=
  String.join (styles.map fun style => Style.select style.codes.1) ++ text ++
    String.join (styles.map fun style => Style.select style.codes.2)

end HackAssembler.Text
