/-
Numbers of a JSON text: how a numeral is split, what number it denotes, and how
a number is written.

A numeral without fraction and exponent that fits a signed or an unsigned 64-bit
word stays an integer. Every other numeral denotes a binary floating point
number, and it is found in a fixed way: as many leading digits as fit 64 bits
are taken as one natural number, that is rounded, and then multiplied or divided
once by the rounded power of ten (by `10 ^ 308` repeatedly, if the power is
smaller than that). This is at most a few units from the nearest number, and it
is the rule, so it is written out here and not replaced by a correctly rounded
conversion.
-/
import DefineWrap.Json.Fault
import DefineWrap.Json.Shortest

set_option autoImplicit false

namespace DefineWrap

/-- A number of a JSON value. -/
inductive Number where
  /-- An integer of at most 64 bits, signed or unsigned. -/
  | integer (value : Int)
  /-- Any other number. -/
  | real (value : Binary64)
  deriving DecidableEq, Repr

/-- A numeral, split into its parts. -/
structure Numeral where
  negative : Bool
  whole : List Char
  fraction : Option (List Char)
  exponent : Option Int
  deriving DecidableEq, Repr

/-! ## Splitting a numeral -/

/-- The fault at a place where a digit is missing: the text may simply have ended. -/
def missingDigit : List Char → Fault
  | [] => .truncated
  | _ :: _ => .malformed

/-- The value of a decimal digit. -/
def digitValue (c : Char) : Nat := c.toNat - '0'.toNat

/-- The natural number that digits denote. -/
def digitsValue (digits : List Char) : Nat :=
  digits.foldl (fun value c => value * 10 + digitValue c) 0

namespace Numeral

/-- Reads the fraction after a point. -/
def scanFraction : List Char → Except Fault (Option (List Char) × List Char)
  | '.' :: rest =>
    let digits := rest.takeWhile Char.isDigit
    let rest := rest.dropWhile Char.isDigit
    if digits.isEmpty then .error (missingDigit rest) else .ok (some digits, rest)
  | rest => .ok (none, rest)

/-- Splits a sign off an exponent. -/
def scanSign : List Char → Bool × List Char
  | '+' :: rest => (false, rest)
  | '-' :: rest => (true, rest)
  | rest => (false, rest)

/-- Reads the exponent after its mark. -/
def scanExponent : List Char → Except Fault (Option Int × List Char)
  | [] => .ok (none, [])
  | mark :: rest =>
    if mark = 'e' ∨ mark = 'E' then
      let (negative, rest) := scanSign rest
      let digits := rest.takeWhile Char.isDigit
      let rest := rest.dropWhile Char.isDigit
      if digits.isEmpty then .error (missingDigit rest)
      else
        let value : Int := digitsValue digits
        .ok (some (if negative then -value else value), rest)
    else .ok (none, mark :: rest)

/-- Reads one numeral, as long as it goes. Only a lone zero may begin with a zero. -/
def scan (text : List Char) : Except Fault (Numeral × List Char) := do
  let (negative, text) := match text with
    | '-' :: rest => (true, rest)
    | rest => (false, rest)
  let whole := text.takeWhile Char.isDigit
  let text := text.dropWhile Char.isDigit
  if whole.isEmpty then .error (missingDigit text)
  else if whole.head? = some '0' ∧ whole.length ≠ 1 then .error .malformed
  else
    let (fraction, text) ← scanFraction text
    let (exponent, text) ← scanExponent text
    return (⟨negative, whole, fraction, exponent⟩, text)

/-! ## What a numeral denotes -/

/-- The largest unsigned 64-bit word. -/
def maxWord : Nat := 0xFFFFFFFFFFFFFFFF

/-- Leading digits taken as one word, and the power of ten they are to be
multiplied with. `full` says that no further digit of this run fits. -/
structure Leading where
  word : Nat
  power : Int
  full : Bool

/-- Takes the digits before the point. A digit that no longer fits counts as one
power of ten, and so does every digit after it. -/
def takeWhole (digits : List Char) : Leading :=
  digits.foldl
    (fun l c =>
      let next := l.word * 10 + digitValue c
      if l.full ∨ maxWord < next then ⟨l.word, l.power + 1, true⟩ else ⟨next, l.power, false⟩)
    ⟨0, 0, false⟩

/-- Takes the digits after the point. A digit that no longer fits is dropped, and
so is every digit after it. -/
def takeFraction (leading : Leading) (digits : List Char) : Leading :=
  digits.foldl
    (fun l c =>
      let next := l.word * 10 + digitValue c
      if l.full ∨ maxWord < next then ⟨l.word, l.power, true⟩ else ⟨next, l.power - 1, false⟩)
    ⟨leading.word, leading.power, false⟩

/-- The largest power of ten that a number of the format can come near. -/
def maxPower : Nat := 308

/-- The number nearest to `10 ^ power`, for powers up to the largest. -/
def powerOfTen (power : Nat) : Binary64 :=
  (Binary64.ofNat? (Nat.pow 10 power)).getD (Binary64.zero false)

/-- Multiplies by a power of ten; nothing if the result lies beyond the format. -/
def scaleUp (x : Binary64) (power : Nat) : Option Binary64 :=
  if power ≤ maxPower then x.multiply (powerOfTen power)
  else if x.isZero then some x
  else none

/-- Divides by the largest power of ten the given number of times, or until
nothing is left to divide. -/
def divideLargest (x : Binary64) : Nat → Option Binary64
  | 0 => some x
  | times + 1 =>
    if x.isZero then some x
    else (x.divide (powerOfTen maxPower)).bind (divideLargest · times)

/-- Divides by a power of ten; one beyond the largest is taken in several steps,
of which only the last may be smaller than the largest. -/
def scaleDown (x : Binary64) (power : Nat) : Option Binary64 :=
  let times := (power - 1) / maxPower
  (divideLargest x times).bind fun y => y.divide (powerOfTen (power - times * maxPower))

/-- Multiplies by `10 ^ power`, for a power of either sign. -/
def scale (x : Binary64) (power : Int) : Option Binary64 :=
  if 0 ≤ power then scaleUp x power.toNat else scaleDown x (-power).toNat

/-- The floating point number of a word times a power of ten. -/
def toReal (negative : Bool) (word : Nat) (power : Int) : Except Fault Number :=
  match (Binary64.ofNat? word).bind (scale · power) with
  | some x => .ok (.real (x.withSign negative))
  | none => .error .malformed

/-- The number that a numeral denotes; a number beyond the format is a fault of
the text. Zero with a minus sign is no integer, since an integer would lose the
sign. -/
def value (n : Numeral) : Except Fault Number :=
  let whole := takeWhole n.whole
  match n.fraction, n.exponent with
  | none, none =>
    if whole.full then toReal n.negative whole.word whole.power
    else if ¬ n.negative then .ok (.integer whole.word)
    else if 0 < whole.word ∧ whole.word ≤ 0x8000000000000000 then .ok (.integer (-whole.word))
    else toReal true whole.word 0
  | fraction, exponent =>
    let leading := takeFraction whole (fraction.getD [])
    toReal n.negative leading.word (leading.power + exponent.getD 0)

end Numeral

/-! ## Writing a number -/

namespace Number

/-- The digits of a natural number in base ten. -/
def digitsOf (n : Nat) : List Char := Nat.toDigits 10 n

/-- An integer: a minus sign where needed, and digits. -/
def integerText (value : Int) : List Char :=
  if value < 0 then '-' :: digitsOf value.natAbs else digitsOf value.natAbs

/-- Which numbers are written without an exponent, by the exponent of their
leading digit: those from `0.00001` up to below `10 ^ 16`. -/
def isPlain (leading : Int) : Bool := -5 ≤ leading && leading < 16

/-- A numeral without exponent. It always has a point and a digit on both sides. -/
def plainText (digits : List Char) (exponent : Int) : List Char :=
  let point := (digits.length : Int) + exponent
  if 0 ≤ exponent then digits ++ List.replicate exponent.toNat '0' ++ ['.', '0']
  else if 0 < point then digits.take point.toNat ++ '.' :: digits.drop point.toNat
  else '0' :: '.' :: (List.replicate (-point).toNat '0' ++ digits)

/-- A numeral with exponent. One digit stands before the point, and the exponent
always has a sign. -/
def scientificText (digits : List Char) (leading : Int) : List Char :=
  let fraction := digits.drop 1
  let sign := if leading < 0 then '-' else '+'
  digits.take 1 ++ (if fraction.isEmpty then [] else '.' :: fraction) ++
    'e' :: sign :: digitsOf leading.natAbs

/-- The text of the absolute value of a floating point number. -/
def magnitudeText (x : Binary64) : List Char :=
  if x.isZero then ['0', '.', '0']
  else
    let decimal := x.shortest
    let digits := digitsOf decimal.digits
    let leading := (digits.length : Int) + decimal.exponent - 1
    if isPlain leading then plainText digits decimal.exponent else scientificText digits leading

/-- The text of a number. It reads back as the same number for every integer. -/
def text : Number → List Char
  | .integer value => integerText value
  | .real x => if x.negative then '-' :: magnitudeText x else magnitudeText x

end Number

end DefineWrap
