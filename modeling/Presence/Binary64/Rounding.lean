import Presence.Binary64

/-!
Contract: rounding a rational number to the nearest binary64 number, a tie going to the even
neighbour.

Owns: `Grid.of`, the spacing of the format around a magnitude; `roundHalfEven` for quotients of
natural numbers; `Binary64.round`.

Does not own: arithmetic on numbers of the format and decimal text.
-/

namespace Presence

/-- The quotient of two natural numbers to the nearest natural number, a tie to the even one. -/
def roundHalfEven (numerator denominator : Nat) : Nat :=
  let quotient := numerator / denominator
  let twice := 2 * (numerator % denominator)
  if twice < denominator then quotient
  else if denominator < twice then quotient + 1
  else quotient + quotient % 2

/-- The quotient `numerator / denominator * 2 ^ exponent` as a pair of natural numbers. -/
def scaleByTwo (numerator denominator : Nat) (exponent : Int) : Nat × Nat :=
  if exponent < 0 then (numerator, denominator * Nat.pow 2 exponent.natAbs)
  else (numerator * Nat.pow 2 exponent.natAbs, denominator)

/-- The exponent of the greatest power of two that is at most a positive quotient. -/
def floorLogTwo (numerator denominator : Nat) : Int :=
  let guess : Int := (numerator.log2 : Int) - denominator.log2
  let (n, d) := scaleByTwo numerator denominator (-guess)
  if n < d then guess - 1 else guess

namespace Binary64

/-- The exponent of the spacing of the format around a positive quotient: 53 binary digits are
kept, and nothing finer than `2 ^ (-1074)`. -/
def spacing (numerator denominator : Nat) : Int :=
  max (floorLogTwo numerator denominator - 52) (-1074)

/-- A positive quotient as a whole number of spacings, with the exponent of the spacing. -/
def onGrid (numerator denominator : Nat) : Nat × Int :=
  let exponent := spacing numerator denominator
  let (n, d) := scaleByTwo numerator denominator (-exponent)
  (roundHalfEven n d, exponent)

/-- A whole number of spacings as a rational number. -/
def ofGrid (count : Nat) (exponent : Int) : Rat :=
  let (n, d) := scaleByTwo count 1 exponent
  mkRat n d

/-- Magnitudes from here on are infinite. -/
def overflowBound : Rat := mkRat (Nat.pow 2 1024) 1

/-- The nearest number of the format, with a given sign if it is nought. -/
def roundSigned (negative : Bool) (q : Rat) : Binary64 :=
  if q == 0 then signedZero negative
  else
    let (count, exponent) := onGrid q.num.natAbs q.den
    let magnitude := ofGrid count exponent
    if magnitude == 0 then signedZero negative
    else if magnitude.blt overflowBound then .finite (if q.blt 0 then -magnitude else magnitude)
    else .infinite (q.blt 0)

/-- The nearest number of the format; the sign is kept where a magnitude vanishes. -/
def round (q : Rat) : Binary64 := roundSigned (q.blt 0) q

/-- A whole number in the format; `none` if it is too large for it. -/
def ofInt? (n : Int) : Option Binary64 :=
  match round n with
  | .infinite _ => none
  | x => some x

end Binary64

end Presence
