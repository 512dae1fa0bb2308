/-
Numbers in binary floating point, as exact data.

A finite number of the 64-bit format is a sign, a mantissa below `2 ^ 53` and an
exponent of two. It is kept as these three, and not as a machine word, because
everything that is done to such a number here (rounding a quotient, multiplying,
dividing, printing) is then arithmetic on natural numbers, which can be reasoned
about.

The one operation everything goes through is `Binary64.ofRatio`: the nearest
number of the format to a quotient of naturals, ties to the even mantissa. A
product or a quotient of two numbers is a quotient of naturals, so each is
rounded once, as the format demands.
-/

set_option autoImplicit false

namespace DefineWrap

/-- A finite number of the 64-bit binary format: `± mantissa * 2 ^ exponent`. -/
structure Binary64 where
  negative : Bool
  mantissa : Nat
  exponent : Int
  deriving DecidableEq, Repr

namespace Binary64

/-! ## Limits of the format -/

/-- The exponent of the numbers closest to zero. -/
def minExponent : Int := -1074

/-- The largest exponent of a full mantissa. -/
def maxExponent : Int := 971

/-- The least full mantissa: 53 binary digits. -/
def fullMantissa : Nat := 0x10000000000000

/-- Zero keeps its sign. -/
def zero (negative : Bool) : Binary64 := ⟨negative, 0, minExponent⟩

/-- The sign does not matter for being zero. -/
def isZero (x : Binary64) : Bool := x.mantissa == 0

/-- The same number with the given sign. -/
def withSign (x : Binary64) (negative : Bool) : Binary64 := { x with negative := negative }

/-! ## Rounding -/

/-- `num / den` to the nearest natural number; a half goes to the even neighbour. -/
def divideToEven (num den : Nat) : Nat :=
  let quotient := num / den
  let twice := 2 * (num % den)
  if twice < den then quotient
  else if den < twice then quotient + 1
  else quotient + quotient % 2

/-- `num / den / 2 ^ exponent` as a quotient of naturals: the power of two joins
the side on which its exponent is positive. -/
def descale (num den : Nat) (exponent : Int) : Nat × Nat :=
  (num * Nat.pow 2 (-exponent).toNat, den * Nat.pow 2 exponent.toNat)

/-- The exponent at which `num / den` has a full mantissa, or the least exponent
of the format if that is larger. The logarithms fix the exponent up to one. -/
def exponentOf (num den : Nat) : Int :=
  let guess : Int := (num.log2 : Int) - (den.log2 : Int) - 52
  let scaled := descale num den guess
  let exact := if scaled.1 / scaled.2 < fullMantissa then guess - 1 else guess
  max exact minExponent

/-- The number of the format nearest to `num / den`, or nothing if that lies
beyond the largest one. Rounding up may fill the mantissa; it then moves to the
next exponent. -/
def ofRatio (negative : Bool) (num den : Nat) : Option Binary64 :=
  if num = 0 then some (zero negative)
  else
    let exponent := exponentOf num den
    let scaled := descale num den exponent
    let rounded := divideToEven scaled.1 scaled.2
    if rounded = 0 then some (zero negative)
    else
      let carried := rounded = 2 * fullMantissa
      let mantissa := if carried then fullMantissa else rounded
      let exponent := if carried then exponent + 1 else exponent
      if maxExponent < exponent then none else some ⟨negative, mantissa, exponent⟩

/-- The absolute value as a quotient of naturals. -/
def ratio (x : Binary64) : Nat × Nat :=
  (x.mantissa * Nat.pow 2 x.exponent.toNat, Nat.pow 2 (-x.exponent).toNat)

/-! ## Arithmetic -/

/-- The rounded product, or nothing if it lies beyond the format. -/
def multiply (x y : Binary64) : Option Binary64 :=
  ofRatio (x.negative != y.negative) (x.ratio.1 * y.ratio.1) (x.ratio.2 * y.ratio.2)

/-- The rounded quotient, or nothing if it lies beyond the format. -/
def divide (x y : Binary64) : Option Binary64 :=
  ofRatio (x.negative != y.negative) (x.ratio.1 * y.ratio.2) (x.ratio.2 * y.ratio.1)

/-- The nearest number to a natural number, if there is one. -/
def ofNat? (n : Nat) : Option Binary64 := ofRatio false n 1

end Binary64

end DefineWrap
