import Presence.Binary64.Rounding

/-!
Contract: arithmetic on binary64 numbers. Every operation is the exact one on rational numbers,
rounded once; what remains is the sign of zeros and the rules of infinities.

Owns: sum, difference, product, quotient, the whole part downwards, and division with a remainder
that has the sign of the divisor.
-/

namespace Presence.Binary64

def add : Binary64 → Binary64 → Binary64
  | .nan, _ => .nan
  | _, .nan => .nan
  | .infinite a, .infinite b => if a == b then .infinite a else .nan
  | .infinite a, _ => .infinite a
  | _, .infinite b => .infinite b
  | .negativeZero, .negativeZero => .negativeZero
  | .negativeZero, .finite q => .finite q
  | .finite p, .negativeZero => .finite p
  | .finite p, .finite q => round (p + q)

def sub (x y : Binary64) : Binary64 := x.add y.neg

/-- The rational number of a finite number; nought for the others. -/
def magnitude : Binary64 → Rat
  | .finite q => q
  | _ => 0

def mul (x y : Binary64) : Binary64 :=
  let negative := x.isNegative != y.isNegative
  match x, y with
  | .nan, _ => .nan
  | _, .nan => .nan
  | .infinite _, other => if other.isZero then .nan else .infinite negative
  | other, .infinite _ => if other.isZero then .nan else .infinite negative
  | x, y => roundSigned negative (x.magnitude * y.magnitude)

/-- The quotient by a number that is not nought. -/
def div (x y : Binary64) : Binary64 :=
  let negative := x.isNegative != y.isNegative
  match x, y with
  | .nan, _ => .nan
  | _, .nan => .nan
  | .infinite _, .infinite _ => .nan
  | .infinite _, _ => .infinite negative
  | _, .infinite _ => signedZero negative
  | x, y => roundSigned negative (x.magnitude / y.magnitude)

/-- The greatest whole number that is not above. -/
def floor : Binary64 → Binary64
  | .finite q => .finite q.floor
  | x => x

/-- The number towards nought without its fraction, as a whole number; `none` if there is none. -/
def truncate? : Binary64 → Option Int
  | .finite q => some (if q.blt 0 then -(-q).floor else q.floor)
  | .negativeZero => some 0
  | _ => none

/-- The remainder of the quotient cut off towards nought; it is exact and has the sign of the
dividend. -/
def remainderTowardsZero (x y : Binary64) : Binary64 :=
  match x, y with
  | .nan, _ => .nan
  | _, .nan => .nan
  | .infinite _, _ => .nan
  | x, .infinite _ => x
  | x, y =>
      let p := x.magnitude
      let q := y.magnitude
      let quotient := p / q
      let whole : Rat := if quotient.blt 0 then -(-quotient).floor else quotient.floor
      roundSigned x.isNegative (p - whole * q)

/-- The remainder with the sign of a divisor that is not nought. -/
def floorMod (x y : Binary64) : Binary64 :=
  let remainder := remainderTowardsZero x y
  if remainder.isZero then signedZero y.isNegative
  else if y.isNegative != remainder.isNegative then remainder.add y
  else remainder

/-- The quotient downwards by a divisor that is not nought. -/
def floorDiv (x y : Binary64) : Binary64 :=
  let remainder := remainderTowardsZero x y
  let quotient := (x.sub remainder).div y
  let quotient :=
    if !remainder.isZero && y.isNegative != remainder.isNegative then
      quotient.sub (.finite 1)
    else quotient
  if quotient.isZero then signedZero (x.isNegative != y.isNegative)
  else
    let whole := quotient.floor
    if (Extended.finite (1 / 2)).less (quotient.sub whole).exact then whole.add (.finite 1)
    else whole

end Presence.Binary64
