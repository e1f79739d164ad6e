import Presence.Binary64.Decimal

/-!
Contract: decimal text of binary64 numbers with a given number of digits.

Owns: the three forms of such text: `positionalText` with a number of places after the point,
`scientificText` with an exponent, and `generalText`, which takes either by the size of the number.

Does not own: the fewest digits that read back (`Presence.Binary64.Decimal`).

The digits are those of the number itself, rounded once, a tie going to the even neighbour.
-/

namespace Presence.Binary64

/-- How many powers of ten a magnitude is next to. -/
def countAt (magnitude : Rat) (exponent : Int) : Nat :=
  let (n, d) := scaleByTen magnitude.num.natAbs magnitude.den (-exponent)
  roundHalfEven n d

/-- No binary64 number has more places after its point, nor more digits in all that are not
noughts at their end. -/
def mostDigits : Nat := 1074

/-- A point before some digits; no digits have a point only if it is kept. -/
def afterPoint (keepsPoint : Bool) (fraction : List Char) : List Char :=
  if fraction.isEmpty && !keepsPoint then [] else '.' :: fraction

/-- A magnitude with some places after the point. -/
def positionalText (magnitude : Rat) (places : Nat) (keepsPoint : Bool) : List Char :=
  let exact := min places mostDigits
  let text := Nat.toDigits 10 (countAt magnitude (-exact)) ++ List.replicate (places - exact) '0'
  let text := List.replicate (places + 1 - text.length) '0' ++ text
  let whole := text.length - places
  text.take whole ++ afterPoint keepsPoint (text.drop whole)

/-- The first digits of a magnitude, one at least, with the exponent of the first of them. -/
def significant (magnitude : Rat) (count : Nat) : List Char × Int :=
  if magnitude == 0 then (List.replicate count '0', 0)
  else
    let top := floorLogTen magnitude.num.natAbs magnitude.den
    let exact := min count mostDigits
    let text := Nat.toDigits 10 (countAt magnitude (top - exact + 1))
    let noughts := List.replicate (count - exact) '0'
    if text.length ≤ exact then (text ++ noughts, top) else (text.take exact ++ noughts, top + 1)

/-- Digits with a point after the first one, and an exponent. -/
def withExponent (digits : List Char) (top : Int) (keepsPoint : Bool) : List Char :=
  digits.take 1 ++ afterPoint keepsPoint (digits.drop 1) ++ exponentText top

/-- A magnitude with an exponent, and some places after the point. -/
def scientificText (magnitude : Rat) (places : Nat) (keepsPoint : Bool) : List Char :=
  let (digits, top) := significant magnitude (places + 1)
  withExponent digits top keepsPoint

/-- Digits without the noughts at their end. -/
def withoutLastNoughts (digits : List Char) : List Char :=
  (digits.reverse.dropWhile (· == '0')).reverse

/-- A magnitude with some digits, one at least; an exponent is written for a number below a
ten-thousandth and for one with more digits before the point. Noughts at the end are kept together
with the point. -/
def generalText (magnitude : Rat) (count : Nat) (keepsPoint : Bool) : List Char :=
  let count := max count 1
  let (digits, top) := significant magnitude count
  let trim (fraction : List Char) := if keepsPoint then fraction else withoutLastNoughts fraction
  if top < -4 || top ≥ count then
    withExponent (digits.take 1 ++ trim (digits.drop 1)) top keepsPoint
  else if top < 0 then
    '0' :: afterPoint keepsPoint (trim (List.replicate (top.natAbs - 1) '0' ++ digits))
  else
    let whole := top.natAbs + 1
    digits.take whole ++ afterPoint keepsPoint (trim (digits.drop whole))

end Presence.Binary64
