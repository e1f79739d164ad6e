/-!
Contract: numbers of the binary64 format, held as the numbers they stand for.

Owns: `Binary64`; `Extended`, the line of rational numbers with both infinities and a point that
is not a number; equality and order on it.

Does not own: rounding to the format (`Presence.Binary64.Rounding`), arithmetic, and decimal text.
-/

namespace Presence

/-- A rational number, an infinity, or no number at all. -/
inductive Extended where
  | finite (q : Rat)
  | infinite (negative : Bool)
  | nan
deriving DecidableEq, Hashable

namespace Extended

def ofInt (n : Int) : Extended := finite n

/-- Equality of numbers: what is not a number equals nothing, itself included. -/
def same : Extended → Extended → Bool
  | .finite p, .finite q => p == q
  | .infinite a, .infinite b => a == b
  | _, _ => false

/-- The strict order of the extended line; what is not a number is neither below nor above. -/
def less : Extended → Extended → Bool
  | .finite p, .finite q => p.blt q
  | .finite _, .infinite negative => !negative
  | .infinite negative, .finite _ => negative
  | .infinite a, .infinite b => a && !b
  | _, _ => false

def lessOrSame (a b : Extended) : Bool := a.less b || a.same b

end Extended

/-- A binary64 number. The zeros are told apart by their sign; `finite` never holds the negative
zero, and every other number has one form. -/
inductive Binary64 where
  | finite (q : Rat)
  | negativeZero
  | infinite (negative : Bool)
  | nan
deriving DecidableEq

namespace Binary64

def zero : Binary64 := finite 0

/-- The number that is meant; both zeros mean nought. -/
def exact : Binary64 → Extended
  | .finite q => .finite q
  | .negativeZero => .finite 0
  | .infinite negative => .infinite negative
  | .nan => .nan

/-- The sign bit; what is not a number counts as positive. -/
def isNegative : Binary64 → Bool
  | .finite q => q.blt 0
  | .negativeZero => true
  | .infinite negative => negative
  | .nan => false

def isZero (x : Binary64) : Bool := x.exact.same (.finite 0)

/-- The zero of a given sign. -/
def signedZero (negative : Bool) : Binary64 :=
  if negative then .negativeZero else .finite 0

def neg : Binary64 → Binary64
  | .finite q => if q == 0 then .negativeZero else .finite (-q)
  | .negativeZero => .finite 0
  | .infinite negative => .infinite (!negative)
  | .nan => .nan

@[simp] theorem exact_zero : zero.exact = .finite 0 := rfl

@[simp] theorem exact_signedZero (negative : Bool) :
    (signedZero negative).exact = .finite 0 := by
  cases negative <;> rfl

end Binary64

end Presence
