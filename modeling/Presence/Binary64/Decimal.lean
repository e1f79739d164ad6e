import Presence.Binary64.Rounding

/-!
Contract: decimal text of binary64 numbers.

Owns: `Binary64.ofDecimal`, the number that a decimal coefficient and exponent mean, rounded once;
`Binary64.shortest`, the fewest digits that read back as the same number, the nearest of those;
the layout of such digits; `Binary64.ofText?`, which reads the layout.

Does not own: the grammar of numbers inside a document (`Presence.Json.Reader`).

The digits of a number are searched on the grids of one, two, ... seventeen digits. On each grid
only the two neighbours of the number can be the nearest point, so the first grid with a neighbour
that still rounds to the number gives the digits.
-/

namespace Presence

/-- How many decimal digits a natural number is written with; none for nought. -/
def decimalWidth (n : Nat) : Nat :=
  if n == 0 then 0 else (Nat.toDigits 10 n).length

/-- A quotient times a power of ten as a quotient. -/
def scaleByTen (numerator denominator : Nat) (exponent : Int) : Nat × Nat :=
  if exponent < 0 then (numerator, denominator * Nat.pow 10 exponent.natAbs)
  else (numerator * Nat.pow 10 exponent.natAbs, denominator)

/-- The exponent of the greatest power of ten that is at most a positive quotient. -/
def floorLogTen (numerator denominator : Nat) : Int :=
  let guess : Int := (decimalWidth numerator : Int) - decimalWidth denominator
  let (n, d) := scaleByTen numerator denominator (-guess)
  if n < d then guess - 1 else guess

/-- The natural number without its trailing decimal zeros, and how many there were; `bound` limits
their number. -/
def stripZeros : (bound coefficient : Nat) → Nat × Nat
  | 0, coefficient => (coefficient, 0)
  | bound + 1, coefficient =>
      if coefficient != 0 && coefficient % 10 == 0 then
        let (rest, count) := stripZeros bound (coefficient / 10)
        (rest, count + 1)
      else (coefficient, 0)

namespace Binary64

/-- `coefficient * 10 ^ exponent` with a sign, rounded once. Numbers far outside the range of the
format are recognised by their number of digits, so that no huge power is ever formed. -/
def ofDecimal (negative : Bool) (coefficient : Nat) (exponent : Int) : Binary64 :=
  let magnitude : Int := decimalWidth coefficient + exponent
  if coefficient == 0 then signedZero negative
  else if magnitude > 310 then .infinite negative
  else if magnitude < -330 then signedZero negative
  else
    let (n, d) := scaleByTen coefficient 1 exponent
    let q := mkRat n d
    roundSigned negative (if negative then -q else q)

/-- A decimal coefficient with an exponent of ten. -/
structure Digits where
  coefficient : Nat
  exponent : Int
deriving DecidableEq

/-- Whether `count * 10 ^ exponent` lies between the midpoints to the two neighbours of the number
that is `mantissa` spacings of size `2 ^ spacing`; a midpoint itself rounds to an even mantissa.
Just above a power of two the spacing below is half as wide. -/
def roundsTo (mantissa : Nat) (spacing : Int) (count : Nat) (exponent : Int) : Bool :=
  let (n, d) := scaleByTen count 1 exponent
  let (n, d) := scaleByTwo n d (-spacing)
  let below :=
    if mantissa == 0x10000000000000 && spacing > -1074 then 4 * mantissa - 1 else 4 * mantissa - 2
  let above := 4 * mantissa + 2
  if mantissa % 2 == 0 then below * d ≤ 4 * n && 4 * n ≤ above * d
  else below * d < 4 * n && 4 * n < above * d

/-- The decimal points of a given number of digits next to a positive quotient, the nearer first;
of two equally near points the one with an even coefficient comes first. -/
def neighbours (numerator denominator : Nat) (exponent : Int) : List Nat :=
  let (n, d) := scaleByTen numerator denominator (-exponent)
  let low := n / d
  let twice := 2 * (n % d)
  if twice < d || (twice == d && low % 2 == 0) then [low, low + 1] else [low + 1, low]

/-- The first grid of `width` or more digits with a point that rounds to the number. -/
def searchDigits (mantissa : Nat) (spacing : Int) (numerator denominator : Nat) (top : Int) :
    (attempts width : Nat) → Digits
  | 0, _ => ⟨0, 0⟩
  | attempts + 1, width =>
      let exponent := top - width + 1
      match (neighbours numerator denominator exponent).find? fun count =>
          roundsTo mantissa spacing count exponent with
      | some count =>
          let (coefficient, zeros) := stripZeros width count
          ⟨coefficient, exponent + zeros⟩
      | none => searchDigits mantissa spacing numerator denominator top attempts (width + 1)

/-- The fewest decimal digits that read back as a positive magnitude, the nearest of those. -/
def shortest (magnitude : Rat) : Digits :=
  let numerator := magnitude.num.natAbs
  let denominator := magnitude.den
  let (mantissa, spacing) := onGrid numerator denominator
  searchDigits mantissa spacing numerator denominator (floorLogTen numerator denominator) 17 1

/-- How digits are laid out: the exponents that are written without one, and whether a whole
number ends in `.0`. -/
structure Layout where
  leastPositional : Int
  mostPositional : Int
  keepsPoint : Bool

/-- Numbers from a ten-thousandth up to below ten to the sixteenth have no exponent, and a whole
number shows that it is of this format. -/
def plain : Layout := ⟨-4, 16, true⟩

/-- The same without the `.0` of whole numbers, for the parts of a complex number. -/
def bare : Layout := ⟨-4, 16, false⟩

/-- An exponent with its sign and at least two digits. -/
def exponentText (exponent : Int) : List Char :=
  let digits := Nat.toDigits 10 exponent.natAbs
  'e' :: (if exponent < 0 then '-' else '+')
    :: (if digits.length < 2 then '0' :: digits else digits)

def layOut (layout : Layout) (digits : Digits) : List Char :=
  let text := Nat.toDigits 10 digits.coefficient
  let width := text.length
  let top : Int := digits.exponent + width - 1
  if top < layout.leastPositional || top ≥ layout.mostPositional then
    (match text with
      | [] => []
      | [only] => [only]
      | first :: rest => first :: '.' :: rest) ++ exponentText top
  else if top < 0 then
    '0' :: '.' :: (List.replicate (top.natAbs - 1) '0' ++ text)
  else
    let whole := top.natAbs + 1
    if width ≤ whole then
      text ++ List.replicate (whole - width) '0' ++ (if layout.keepsPoint then ['.', '0'] else [])
    else
      text.take whole ++ '.' :: text.drop whole

/-- The text of a number. -/
def textWith (layout : Layout) : Binary64 → List Char
  | .nan => "nan".toList
  | .infinite negative => if negative then "-inf".toList else "inf".toList
  | .negativeZero => '-' :: layOut layout ⟨0, 0⟩
  | .finite q =>
      if q == 0 then layOut layout ⟨0, 0⟩
      else (if q.blt 0 then ['-'] else []) ++ layOut layout (shortest (if q.blt 0 then -q else q))

def text (x : Binary64) : List Char := textWith plain x

/-- The text of a complex number: the imaginary part alone if the real part is the positive zero,
else both parts in brackets, the imaginary one always with its sign. -/
def complexText (re im : Binary64) : List Char :=
  let imaginary := textWith bare im
  if re == .finite 0 then imaginary ++ ['j']
  else
    '(' :: textWith bare re
      ++ (match imaginary with
        | '-' :: _ => imaginary
        | _ => '+' :: imaginary)
      ++ ['j', ')']

/-- Reads the decimal digits at the front of a text. -/
def spanDigits (text : List Char) : List Char × List Char :=
  (text.takeWhile Char.isDigit, text.dropWhile Char.isDigit)

/-- Reads an optional exponent that ends the text. -/
def exponentOf? : List Char → Option Int
  | [] => some 0
  | mark :: rest =>
      if mark == 'e' || mark == 'E' then
        let (negative, digits) := match rest with
          | '-' :: more => (true, more)
          | '+' :: more => (false, more)
          | more => (false, more)
        if digits.isEmpty || !digits.all Char.isDigit then none
        else
          let size : Int := Nat.ofDigitChars 10 digits 0
          some (if negative then -size else size)
      else none

/-- Reads the text of a number: digits with an optional point and exponent, `inf` or `nan`. -/
def ofText? (text : String) : Option Binary64 :=
  let (negative, body) := match text.toList with
    | '-' :: rest => (true, rest)
    | '+' :: rest => (false, rest)
    | rest => (false, rest)
  if body == "inf".toList then some (.infinite negative)
  else if body == "nan".toList then some .nan
  else
    let (whole, rest) := spanDigits body
    let (fraction, rest) := match rest with
      | '.' :: more => spanDigits more
      | more => ([], more)
    if whole.isEmpty && fraction.isEmpty then none
    else
      (exponentOf? rest).map fun exponent =>
        ofDecimal negative (Nat.ofDigitChars 10 (whole ++ fraction) 0) (exponent - fraction.length)

end Binary64

end Presence
