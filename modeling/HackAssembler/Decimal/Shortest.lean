/-! # The shortest decimal of a double

A finite double stands for every real number that is rounded to it. Its shortest decimal is the
multiple of the largest power of ten among these numbers, and of two such multiples the one nearer
to the double. All comparisons are made on natural numbers, so nothing is rounded on the way.
-/

namespace HackAssembler.Decimal

/-- A finite double by its sign and its absolute value `mantissa * 2 ^ exponent`. -/
structure Dyadic where
  negative : Bool
  mantissa : Nat
  exponent : Int

/-- The least mantissa of a double that has all its fifty-three mantissa bits. -/
def leastNormal : Nat := 1 <<< 52

def Dyadic.ofFloat (number : Float) : Dyadic :=
  let bits := number.toBits.toNat
  let biased := (bits >>> 52) % 0x800
  let fraction := bits % leastNormal
  { negative := bits >>> 63 = 1
    mantissa := if biased = 0 then fraction else fraction + leastNormal
    exponent := if biased = 0 then -1074 else Int.ofNat biased - 1075 }

/-- The numbers around a double, as numerators over one denominator. -/
structure Neighbourhood where
  low : Nat
  centre : Nat
  high : Nat
  denominator : Nat
  closed : Bool

/-- The numbers that are rounded to a double: up to half a unit of the last bit away, and only a
quarter below a power of two, where the doubles lie closer. -/
def Dyadic.neighbourhood (number : Dyadic) : Neighbourhood :=
  let quarter := number.exponent - 2
  let scale := 1 <<< quarter.toNat
  let below := if number.mantissa = leastNormal ∧ number.exponent ≠ -1074 then 1 else 2
  { low := (4 * number.mantissa - below) * scale
    centre := 4 * number.mantissa * scale
    high := (4 * number.mantissa + 2) * scale
    denominator := 1 <<< (-quarter).toNat
    closed := number.mantissa % 2 = 0 }

/-- The multiple of a power of ten nearest to a double among those that are rounded to it; an even
multiple if two are equally near. -/
def Neighbourhood.nearest? (around : Neighbourhood) (power : Int) : Option Nat :=
  let up := Nat.pow 10 (-power).toNat
  let unit := around.denominator * Nat.pow 10 power.toNat
  let inside (multiple : Nat) : Bool :=
    multiple ≠ 0 && if around.closed then
      around.low * up ≤ multiple * unit && multiple * unit ≤ around.high * up
    else around.low * up < multiple * unit && multiple * unit < around.high * up
  let below := around.centre * up / unit
  let rest := around.centre * up % unit
  let above := below + 1
  match inside below, inside above with
  | true, true =>
    if 2 * rest < unit ∨ (2 * rest = unit ∧ below % 2 = 0) then some below else some above
  | true, false => some below
  | false, true => some above
  | false, false => none

/-- The powers of ten that can be the unit of a shortest decimal, the largest first. -/
def powers : List Int :=
  (List.range 640).map fun step => 310 - Int.ofNat step

/-- The digits and the unit of the shortest decimal of a double other than zero. -/
def Dyadic.shortest (number : Dyadic) : Nat × Int :=
  let around := number.neighbourhood
  (powers.findSome? fun power =>
    (around.nearest? power).map fun multiple => (multiple, power)).getD (0, 0)

structure Format where
  mostWhole : Int
  mostZeros : Int

def withPoint (digits : List Char) (whole : Nat) : List Char :=
  digits.take whole ++ ['.'] ++ digits.drop whole

/-- A positive decimal in a format. The point always has a digit on both sides, and an exponent
stands after one digit. -/
def Format.write (format : Format) (multiple : Nat) (power : Int) : List Char :=
  let digits := Nat.toDigits 10 multiple
  let whole : Int := digits.length + power
  if 0 ≤ power ∧ whole ≤ format.mostWhole then
    digits ++ List.replicate power.toNat '0' ++ ['.', '0']
  else if 0 < whole ∧ whole ≤ format.mostWhole then withPoint digits whole.toNat
  else if whole ≤ 0 ∧ -format.mostZeros ≤ whole then
    ['0', '.'] ++ List.replicate (-whole).toNat '0' ++ digits
  else
    (if digits.length = 1 then digits else withPoint digits 1) ++ ['e'] ++
      (toString (whole - 1)).toList

def Format.float (format : Format) (number : Float) : String :=
  let parts := Dyadic.ofFloat number
  let magnitude :=
    if parts.mantissa = 0 then ['0', '.', '0']
    else format.write parts.shortest.1 parts.shortest.2
  String.ofList (if parts.negative then '-' :: magnitude else magnitude)

end HackAssembler.Decimal
