import Presence.Binary64.Decimal
import Presence.Text.Numeral

/-!
Contract: numbers with a point, an exponent or an imaginary part, written by people.

Owns: `readReal` and `readComplex`, and the rule of underscores, which stand between two digits
each.

Does not own: whole numbers (`Presence.Text.Numeral`).
-/

namespace Presence.Text

/-- The text without its underscores; `none` if one of them is not between two digits. -/
def withoutUnderscores? : (afterDigit : Bool) → List Char → Option (List Char)
  | _, [] => some []
  | afterDigit, '_' :: rest =>
      if afterDigit && (rest.head?.any Char.isDigit) then withoutUnderscores? false rest else none
  | _, c :: rest => (withoutUnderscores? c.isDigit rest).map (c :: ·)

/-- Whether a text starts with a word, in any case. -/
def startsWith (word text : List Char) : Bool := word.isPrefixOf (text.map Char.toLower)

/-- The exponent at the front of a text, if there is a mark with digits, and the text after it. -/
def spanExponent (text : List Char) : Int × List Char :=
  match text with
  | mark :: rest =>
      if mark == 'e' || mark == 'E' then
        let (negative, body) := spanSign rest
        let (digits, left) := Binary64.spanDigits body
        if digits.isEmpty then (0, text)
        else
          let size : Int := Nat.ofDigitChars 10 digits 0
          (if negative then -size else size, left)
      else (0, text)
  | [] => (0, [])

/-- The number at the front of a text, and the text after it. -/
def spanReal (text : List Char) : Option (Binary64 × List Char) :=
  let (negative, body) := spanSign text
  if startsWith "infinity".toList body then some (.infinite negative, body.drop 8)
  else if startsWith "inf".toList body then some (.infinite negative, body.drop 3)
  else if startsWith "nan".toList body then some (.nan, body.drop 3)
  else
    let (whole, rest) := Binary64.spanDigits body
    let (fraction, rest) := match rest with
      | '.' :: more => Binary64.spanDigits more
      | more => ([], more)
    if whole.isEmpty && fraction.isEmpty then none
    else
      let (exponent, rest) := spanExponent rest
      some (Binary64.ofDecimal negative (Nat.ofDigitChars 10 (whole ++ fraction) 0)
        (exponent - fraction.length), rest)

/-- Reads a number from characters of the first block. -/
def readPlainReal (text : List Char) : Option Binary64 := do
  let (x, rest) ← spanReal (← withoutUnderscores? false (trimBlanks text))
  if rest.isEmpty then return x else none

/-- Reads a number from a text. -/
def readReal (text : List Char) : Option Binary64 := readPlainReal (text.map narrow)

/-- The text after the mark of an imaginary part. -/
def skipMark? (text : List Char) : Option (List Char) :=
  match text with
  | 'j' :: rest => some rest
  | 'J' :: rest => some rest
  | _ => none

/-- One, with the sign at the front of a text. -/
def spanUnit (text : List Char) : Binary64 × List Char :=
  let (negative, rest) := spanSign text
  (.finite (if negative then -1 else 1), rest)

/-- The two parts of a number at the front of a text. An imaginary part without digits is one. -/
def spanComplex (text : List Char) : Option ((Binary64 × Binary64) × List Char) :=
  match spanReal text with
  | none => do
      let (im, rest) := spanUnit text
      return ((.zero, im), ← skipMark? rest)
  | some (x, rest) =>
      if rest.head? == some '+' || rest.head? == some '-' then do
        let (im, rest) := (spanReal rest).getD (spanUnit rest)
        return ((x, im), ← skipMark? rest)
      else
        match skipMark? rest with
        | some rest => some ((.zero, x), rest)
        | none => some ((x, .zero), rest)

/-- The text without a bracket at its front and the one that closes it after the rest. -/
def insideBrackets (text : List Char) : Bool × List Char :=
  match text with
  | '(' :: rest => (true, rest.dropWhile isPlainBlank)
  | rest => (false, rest)

/-- Reads the two parts of a number, which may stand in brackets; it has no underscores. -/
def readComplex (text : List Char) : Option (Binary64 × Binary64) := do
  let (bracketed, body) := insideBrackets (text.dropWhile isPlainBlank)
  let (parts, rest) ← spanComplex body
  let rest := rest.dropWhile isPlainBlank
  let rest ← match bracketed, rest with
    | false, rest => some rest
    | true, ')' :: rest => some (rest.dropWhile isPlainBlank)
    | true, _ => none
  if rest.isEmpty then return parts else none

end Presence.Text
