/-!
Contract: moments of the clock, in universal time.

Owns: `Moment` and its text.

Does not own: where moments come from.
-/

namespace Presence

structure Moment where
  year : Nat
  month : Nat
  day : Nat
  hour : Nat
  minute : Nat
  second : Nat
  microsecond : Nat
deriving DecidableEq, Repr

namespace Moment

/-- The last `width` decimal digits of a number. -/
def digits : (width n : Nat) → List Char
  | 0, _ => []
  | width + 1, n => digits width (n / 10) ++ [Nat.digitChar (n % 10)]

/-- The fraction of a second, which is left out where it is nought. -/
def fraction (microsecond : Nat) : List Char :=
  if microsecond = 0 then [] else '.' :: digits 6 microsecond

/-- Day and time with the offset of universal time. -/
def text (moment : Moment) : List Char :=
  digits 4 moment.year ++ '-' :: digits 2 moment.month ++ '-' :: digits 2 moment.day
    ++ 'T' :: digits 2 moment.hour ++ ':' :: digits 2 moment.minute
    ++ ':' :: digits 2 moment.second ++ fraction moment.microsecond
    ++ ['+', '0', '0', ':', '0', '0']

end Moment

end Presence
