/-!
Contract: machine words, which bound counts and places.

Owns: the bounds of words and of half words, and which whole numbers fit them.

Does not own: what happens to numbers that do not fit (`Presence.Fault`).
-/

namespace Presence

/-- Whole numbers below this bound, and not below its opposite, fit a word. -/
def wordBound : Nat := 0x8000000000000000

/-- The same for half a word. -/
def halfWordBound : Nat := 0x80000000

/-- Whether a whole number fits a word. -/
def fitsWord (n : Int) : Bool := -(wordBound : Int) ≤ n && n < (wordBound : Int)

/-- Whether a whole number fits half a word. -/
def fitsHalfWord (n : Int) : Bool := -(halfWordBound : Int) ≤ n && n < (halfWordBound : Int)

end Presence
