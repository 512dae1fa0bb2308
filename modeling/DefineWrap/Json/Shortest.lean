/-
The shortest decimal that reads back as a given binary number.

Every decimal inside the interval of reals that round to a binary number reads
back as that number. The decimals with a fixed last place form a grid, and a
coarser grid has shorter numerals, so the digits are found on the coarsest grid
that has a point in the interval. Since the interval contains the number itself,
it is enough to look at the two grid points next to the number. If both lie in
the interval the nearer one is taken, and on a tie the even one.

All comparisons are made on natural numbers: the number is scaled by four, so
that the ends of the interval (a half, or below a power of two a quarter, of the
distance to the neighbour) are whole.
-/
import DefineWrap.Json.Binary

set_option autoImplicit false

namespace DefineWrap

/-- A decimal numeral `digits * 10 ^ exponent`. -/
structure Decimal where
  digits : Nat
  exponent : Int
  deriving DecidableEq, Repr

namespace Binary64

/-! ## The rounding interval -/

/-- Four times the mantissa, the unit in which the interval is measured. -/
def centre (x : Binary64) : Nat := 4 * x.mantissa

/-- The upper end of the rounding interval. -/
def upperEnd (x : Binary64) : Nat := x.centre + 2

/-- The lower end: the neighbour below a full mantissa is only half as far away. -/
def lowerEnd (x : Binary64) : Nat :=
  if x.mantissa = fullMantissa ∧ minExponent < x.exponent then x.centre - 1 else x.centre - 2

/-- Whether the numeral `digits * 10 ^ place` lies in the rounding interval. The
ends belong to it exactly if the mantissa is even. -/
def roundsTo (x : Binary64) (digits : Nat) (place : Int) : Bool :=
  let binary := x.exponent - 2
  let point := digits * Nat.pow 10 place.toNat * Nat.pow 2 (-binary).toNat
  let unit := Nat.pow 10 (-place).toNat * Nat.pow 2 binary.toNat
  if x.mantissa % 2 = 0 then x.lowerEnd * unit ≤ point && point ≤ x.upperEnd * unit
  else x.lowerEnd * unit < point && point < x.upperEnd * unit

/-! ## The search -/

/-- The digits on the grid of the multiples of `10 ^ place`, if a point of that
grid reads back. -/
def digitsAt (x : Binary64) (place : Int) : Option Nat :=
  let num := x.ratio.1 * Nat.pow 10 (-place).toNat
  let den := x.ratio.2 * Nat.pow 10 place.toNat
  let below := num / den
  match x.roundsTo below place, x.roundsTo (below + 1) place with
  | true, true => some (divideToEven num den)
  | true, false => some below
  | false, true => some (below + 1)
  | false, false => none

/-- Looks for digits from the given place downwards, at most `steps` places. -/
def searchDown (x : Binary64) : Nat → Int → Option Decimal
  | 0, _ => none
  | steps + 1, place =>
    match x.digitsAt place with
    | some digits => some ⟨digits, place⟩
    | none => searchDown x steps (place - 1)

/-- A decimal place beyond the leading digit. The factor is a lower bound of the
decimal logarithm of two for negative exponents and close enough above it for
positive ones, so two places of reserve suffice. -/
def startPlace (x : Binary64) : Int :=
  ((x.mantissa.log2 : Int) + x.exponent) * 30103 / 100000 + 2

/-- The shortest numeral of a number other than zero. Seventeen digits always
read back, so the search ends within the given number of places. -/
def shortest (x : Binary64) : Decimal :=
  (x.searchDown 24 x.startPlace).getD ⟨x.mantissa, 0⟩

end Binary64

end DefineWrap
