/-!
Contract: whole numbers written by people: digits of any script in a base up to thirty-six, blanks
around them, one sign, and single underscores between digits.

Owns: the blanks and the decimal digits of Unicode 14.0; the marks of bases; `readInt`, which tells
a number from a text that is none and from one that has too many digits.

Does not own: numbers with a point (`Presence.Text.Real`), and the numbers of documents, which are
stricter (`Presence.Json.Reader`).
-/

namespace Presence.Text

/-- The blanks of the first block that may stand around a number. -/
def isPlainBlank (c : Char) : Bool :=
  c == ' ' || (0x09 ≤ c.toNat && c.toNat ≤ 0x0d)

/-- The blanks beyond the first block. -/
def isWideBlank (c : Char) : Bool :=
  let code := c.toNat
  code == 0x85 || code == 0xa0 || code == 0x1680 || (0x2000 ≤ code && code ≤ 0x200a) ||
    code == 0x2028 || code == 0x2029 || code == 0x202f || code == 0x205f || code == 0x3000

/-- The code points of the digit nought in the scripts beyond the first block; the nine digits
that follow each are its script's others. -/
def digitNoughts : List Nat :=
  [0x660, 0x6f0, 0x7c0, 0x966, 0x9e6, 0xa66, 0xae6, 0xb66, 0xbe6, 0xc66, 0xce6, 0xd66, 0xde6,
    0xe50, 0xed0, 0xf20, 0x1040, 0x1090, 0x17e0, 0x1810, 0x1946, 0x19d0, 0x1a80, 0x1a90,
    0x1b50, 0x1bb0, 0x1c40, 0x1c50, 0xa620, 0xa8d0, 0xa900, 0xa9d0, 0xa9f0, 0xaa50, 0xabf0,
    0xff10, 0x104a0, 0x10d30, 0x11066, 0x110f0, 0x11136, 0x111d0, 0x112f0, 0x11450, 0x114d0,
    0x11650, 0x116c0, 0x11730, 0x118e0, 0x11950, 0x11c50, 0x11d50, 0x11da0, 0x16a60, 0x16ac0,
    0x16b50, 0x1d7ce, 0x1d7d8, 0x1d7e2, 0x1d7ec, 0x1d7f6, 0x1e140, 0x1e2f0, 0x1e950, 0x1fbf0]

/-- The value of a decimal digit beyond the first block. -/
def wideDigit? (c : Char) : Option Nat :=
  (digitNoughts.find? fun nought => nought ≤ c.toNat && c.toNat < nought + 10).map
    (c.toNat - ·)

/-- A character as one of the first block: a wide blank as a space, a wide digit as a plain one,
and any other as a character that no number holds. -/
def narrow (c : Char) : Char :=
  if c.toNat < 127 then c
  else if isWideBlank c then ' '
  else match wideDigit? c with
    | some digit => Nat.digitChar digit
    | none => '?'

/-- The longest number that is read or written in decimal digits. -/
def digitLimit : Nat := 4300

/-- The value of a digit in bases up to thirty-six. -/
def digitValue? (c : Char) : Option Nat :=
  if '0' ≤ c && c ≤ '9' then some (c.toNat - '0'.toNat)
  else if 'a' ≤ c && c ≤ 'z' then some (c.toNat - 'a'.toNat + 10)
  else if 'A' ≤ c && c ≤ 'Z' then some (c.toNat - 'A'.toNat + 10)
  else none

/-- The digits of a base at the front of a text, with single underscores between them, and the text
after them; `none` where a digit is missing. The flag tells whether a digit must come next. -/
def spanDigits (base : Nat) : (needsDigit : Bool) → List Char → Option (List Nat × List Char)
  | needsDigit, [] => if needsDigit then none else some ([], [])
  | needsDigit, c :: rest =>
      match (digitValue? c).filter (· < base) with
      | some digit =>
          (spanDigits base false rest).map fun (digits, left) => (digit :: digits, left)
      | none =>
          if needsDigit then none
          else if c == '_' then spanDigits base true rest
          else some ([], c :: rest)

/-- Why a text is no number. -/
inductive NumeralFault where
  | malformed
  | tooLong (digits : Nat)
deriving DecidableEq, Repr

/-- Text without the plain blanks at its two ends. -/
def trimBlanks (text : List Char) : List Char :=
  ((text.dropWhile isPlainBlank).reverse.dropWhile isPlainBlank).reverse

/-- The sign at the front of a text, and the text after it. -/
def spanSign (text : List Char) : Bool × List Char :=
  match text with
  | '-' :: rest => (true, rest)
  | '+' :: rest => (false, rest)
  | rest => (false, rest)

/-- How a whole number is written after its sign. -/
structure Radix where
  base : Nat
  /-- Whether only nought can be written like this. -/
  onlyNought : Bool
deriving DecidableEq, Repr

/-- The base that a letter after a nought stands for. -/
def markedBase? (c : Char) : Option Nat :=
  if c == 'x' || c == 'X' then some 16
  else if c == 'o' || c == 'O' then some 8
  else if c == 'b' || c == 'B' then some 2
  else none

/-- The text after an underscore at its front, of which a mark may have one after it. -/
def skipUnderscore (text : List Char) : List Char :=
  match text with
  | '_' :: rest => rest
  | rest => rest

/-- The radix of a text, and the text after its mark. Base nought takes the base from
the mark, and without one is ten, where no number but nought starts with the digit nought. -/
def radixOf (base : Nat) (text : List Char) : Radix × List Char :=
  match text with
  | '0' :: mark :: rest =>
      match markedBase? mark with
      | some marked =>
          if base = 0 || base = marked then (⟨marked, false⟩, skipUnderscore rest)
          else (⟨base, false⟩, text)
      | none => if base = 0 then (⟨10, true⟩, text) else (⟨base, false⟩, text)
  | text => (⟨if base = 0 then 10 else base, false⟩, text)

/-- Whether numbers of a base may have any number of digits. -/
def isUnlimited (base : Nat) : Bool := [2, 4, 8, 16, 32].contains base

/-- The number that digits mean. -/
def ofDigits (base : Nat) (digits : List Nat) : Nat :=
  digits.foldl (fun sofar digit => sofar * base + digit) 0

/-- Reads a sign and digits in a base, or in the base of the mark for base nought. Too many digits
are found before what comes after them. -/
def readSigned (base : Nat) (text : List Char) : Except NumeralFault Int :=
  let (negative, text) := spanSign text
  let (form, text) := radixOf base text
  match spanDigits form.base true text with
  | none => .error .malformed
  | some (digits, rest) =>
      if digits.length > digitLimit && !isUnlimited form.base then .error (.tooLong digits.length)
      else
        let size := ofDigits form.base digits
        if !rest.isEmpty || (form.onlyNought && size != 0) then .error .malformed
        else .ok (if negative then -(size : Int) else size)

/-- Reads a whole number from characters of the first block. -/
def readPlainInt (base : Nat) (text : List Char) : Except NumeralFault Int :=
  readSigned base (trimBlanks text)

/-- Reads a whole number from a text. -/
def readInt (base : Nat) (text : List Char) : Except NumeralFault Int :=
  readPlainInt base (text.map narrow)

end Presence.Text
