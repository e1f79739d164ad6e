import Presence.Binary64.Decimal
import Presence.Fault
import Presence.Text.Hex
import Presence.Text.Numeral
import Presence.Value.Lookup

/-!
Contract: reading the text of a document.

Owns: the grammar of documents as a reader that takes one value from the front of a text and gives
the rest back, or says what is wrong and what was left at that point; `read`, which reads a whole
text.

Does not own: octets (`Presence.Json.Document`), the wording of problems (`Presence.Json.Problem`).

The names `NaN`, `Infinity` and `-Infinity` are values too. A name that comes twice in an object
keeps its first place and takes its last value. Every value takes at least one character, so a
reader that may take as many steps as there are characters, and one more, never runs out.
-/

namespace Presence.Json

/-- Why reading ends early: a problem, with the text that is left where it lies, or a whole number
with too many digits. -/
inductive Halt where
  | problem (what : Problem) (left : List Char)
  | longNumeral (digits : Nat)

namespace Halt

/-- The fault that a halt is in a document. -/
def fault (document : List Char) : Halt → Fault
  | .problem what left =>
      .malformed what (Place.ofOffset document (document.length - left.length))
  | .longNumeral digits => .longNumeral digits

end Halt

def isBlank (c : Char) : Bool := c == ' ' || c == '\t' || c == '\n' || c == '\r'

def skipBlanks (text : List Char) : List Char := text.dropWhile isBlank

/-! ## Texts -/

def isHighSurrogate (code : Nat) : Bool := 0xd800 ≤ code && code < 0xdc00

def isLowSurrogate (code : Nat) : Bool := 0xdc00 ≤ code && code < 0xe000

/-- The character of a code; a code that stands for no character gives the replacement one. -/
def charOfCode (code : Nat) : Char :=
  if code < 0xd800 || (0xe000 ≤ code && code < 0x110000) then Char.ofNat code else '\ufffd'

/-- The four hexadecimal digits that follow a `u`. At least one more character must follow them.
The text given with a problem starts at the `u`. -/
def readCode (text : List Char) : Except Halt Nat :=
  match text with
  | _ :: a :: b :: c :: d :: _ :: _ =>
      match Text.hexValue? 0 [a, b, c, d] with
      | some code => .ok code
      | none => .error (.problem .badCodeEscape text)
  | _ => .error (.problem .badCodeEscape text)

/-- The second code of a pair, if the text that follows the first one goes on with another escape
of a code and something more. -/
def readSecondCode (text : List Char) : Except Halt (Option Nat) :=
  match text with
  | '\\' :: 'u' :: a :: b :: c :: d :: e :: rest =>
      some <$> readCode ('u' :: a :: b :: c :: d :: e :: rest)
  | _ => .ok none

/-- The escape of one character by its name. -/
def namedEscape? (c : Char) : Option Char :=
  if c == '"' || c == '\\' || c == '/' then some c
  else if c == 'b' then some '\x08'
  else if c == 'f' then some '\x0c'
  else if c == 'n' then some '\n'
  else if c == 'r' then some '\r'
  else if c == 't' then some '\t'
  else none

/-- The character that an escape means, and how many characters it takes after the backslash. -/
def readEscape (opening text : List Char) : Except Halt (Char × Nat) :=
  match text with
  | [] => .error (.problem .unterminatedText opening)
  | c :: rest =>
      if c == 'u' then do
        let code ← readCode text
        if isHighSurrogate code then
          match ← readSecondCode (rest.drop 4) with
          | some second =>
              if isLowSurrogate second then
                return (charOfCode (0x10000 + (code - 0xd800) * 0x400 + (second - 0xdc00)), 11)
              else return (charOfCode code, 5)
          | none => return (charOfCode code, 5)
        else return (charOfCode code, 5)
      else
        match namedEscape? c with
        | some meant => .ok (meant, 1)
        | none => .error (.problem .unknownEscape ('\\' :: text))

/-- Reads the characters of a text up to its closing quote, passing over some that have been read
already. -/
def readText (opening : List Char) : (skip : Nat) → List Char → Except Halt (List Char × List Char)
  | _, [] => .error (.problem .unterminatedText opening)
  | skip + 1, _ :: rest => readText opening skip rest
  | 0, c :: rest =>
      if c == '"' then .ok ([], rest)
      else if c == '\\' then do
        let (meant, width) ← readEscape opening rest
        let (others, rest) ← readText opening width rest
        return (meant :: others, rest)
      else if c.toNat < 0x20 then .error (.problem .controlCharacter (c :: rest))
      else do
        let (others, rest) ← readText opening 0 rest
        return (c :: others, rest)

/-! ## Numbers -/

/-- The whole part of a number: nought alone, or digits that do not start with it. -/
def spanWhole (text : List Char) : Option (List Char × List Char) :=
  match text with
  | '0' :: rest => some (['0'], rest)
  | c :: _ => if c.isDigit then some (Binary64.spanDigits text) else none
  | [] => none

/-- The digits after a point, if there is a point with digits. -/
def spanFraction (text : List Char) : Option (List Char × List Char) :=
  match text with
  | '.' :: rest =>
      match Binary64.spanDigits rest with
      | ([], _) => none
      | (digits, rest) => some (digits, rest)
  | _ => none

/-- The exponent after its mark, if there is a mark with digits. -/
def spanExponent (text : List Char) : Option (Int × List Char) :=
  match text with
  | mark :: rest =>
      if mark == 'e' || mark == 'E' then
        let (negative, body) := match rest with
          | '-' :: more => (true, more)
          | '+' :: more => (false, more)
          | more => (false, more)
        match Binary64.spanDigits body with
        | ([], _) => none
        | (digits, rest) =>
            let size : Int := Nat.ofDigitChars 10 digits 0
            some (if negative then -size else size, rest)
      else none
  | [] => none

/-- The whole number of digits, unless there are too many. -/
def wholeNumber (negative : Bool) (digits : List Char) : Except Halt Value :=
  if digits.length > Text.digitLimit then .error (.longNumeral digits.length)
  else
    let size : Int := Nat.ofDigitChars 10 digits 0
    .ok (.int (if negative then -size else size))

/-- Reads a number after its sign; `none` if there is none. -/
def readUnsigned (negative : Bool) (text : List Char) : Except Halt (Option (Value × List Char)) :=
  match spanWhole text with
  | none => .ok none
  | some (whole, rest) =>
      match spanFraction rest, spanExponent ((spanFraction rest).elim rest Prod.snd) with
      | none, none => do return some (← wholeNumber negative whole, rest)
      | none, some (exponent, rest) =>
          .ok (some (.float (Binary64.ofDecimal negative
            (Nat.ofDigitChars 10 whole 0) exponent), rest))
      | some (fraction, rest), none =>
          .ok (some (.float (Binary64.ofDecimal negative
            (Nat.ofDigitChars 10 (whole ++ fraction) 0) (-fraction.length)), rest))
      | some (fraction, _), some (exponent, rest) =>
          .ok (some (.float (Binary64.ofDecimal negative
            (Nat.ofDigitChars 10 (whole ++ fraction) 0) (exponent - fraction.length)), rest))

/-- The text after a word that it starts with. -/
def dropWord? (word text : List Char) : Option (List Char) :=
  if word.isPrefixOf text then some (text.drop word.length) else none

/-- The values that are words. -/
def words : List (List Char × Value) :=
  [(['n', 'u', 'l', 'l'], .null),
    (['t', 'r', 'u', 'e'], .bool true),
    (['f', 'a', 'l', 's', 'e'], .bool false),
    (['N', 'a', 'N'], .float .nan),
    (['I', 'n', 'f', 'i', 'n', 'i', 't', 'y'], .float (.infinite false)),
    (['-', 'I', 'n', 'f', 'i', 'n', 'i', 't', 'y'], .float (.infinite true))]

/-- Reads a value without parts that is no text. -/
def readPlain (text : List Char) : Except Halt (Value × List Char) :=
  match words.findSome? fun word => (dropWord? word.1 text).map (word.2, ·) with
  | some found => .ok found
  | none => do
      let number ← match text with
        | '-' :: rest => readUnsigned true rest
        | _ => readUnsigned false text
      match number with
      | some found => return found
      | none => throw (.problem .missingValue text)

/-! ## Values -/

mutual

/-- Reads one value in at most some steps. -/
def readValue : (steps : Nat) → List Char → Except Halt (Value × List Char)
  | 0, text => .error (.problem .missingValue text)
  | steps + 1, text =>
      match text with
      | '"' :: rest => do
          let (characters, rest) ← readText text 0 rest
          return (.text (String.ofList characters), rest)
      | '[' :: rest =>
          match skipBlanks rest with
          | ']' :: rest => .ok (.list [], rest)
          | rest => do
              let (items, rest) ← readItems steps rest
              return (.list items, rest)
      | '\x7b' :: rest =>
          match skipBlanks rest with
          | '\x7d' :: rest => .ok (.dictionary [], rest)
          | rest => do
              let (entries, rest) ← readMembers steps [] rest
              return (.dictionary entries, rest)
      | text => readPlain text
termination_by structural steps => steps

/-- Reads the items of an array up to its end; the text starts with an item. -/
def readItems : (steps : Nat) → List Char → Except Halt (List Value × List Char)
  | 0, text => .error (.problem .missingValue text)
  | steps + 1, text => do
      let (item, rest) ← readValue steps text
      match skipBlanks rest with
      | ']' :: rest => return ([item], rest)
      | ',' :: rest =>
          let (others, rest) ← readItems steps (skipBlanks rest)
          return (item :: others, rest)
      | rest => throw (.problem .missingComma rest)
termination_by structural steps => steps

/-- Reads the members of an object up to its end, after those before; the text starts with a
name. -/
def readMembers : (steps : Nat) → List (Value × Value) → List Char →
    Except Halt (List (Value × Value) × List Char)
  | 0, _, text => .error (.problem .missingName text)
  | steps + 1, sofar, text =>
      match text with
      | '"' :: rest => do
          let (name, rest) ← readText text 0 rest
          match skipBlanks rest with
          | ':' :: rest =>
              let (value, rest) ← readValue steps (skipBlanks rest)
              let sofar := Value.putStored (.text (String.ofList name)) value sofar
              match skipBlanks rest with
              | '\x7d' :: rest => return (sofar, rest)
              | ',' :: rest => readMembers steps sofar (skipBlanks rest)
              | rest => throw (.problem .missingComma rest)
          | rest => throw (.problem .missingColon rest)
      | text => .error (.problem .missingName text)
termination_by structural steps => steps

end

/-- Reads a whole text: one value with blanks around it. An array takes two steps for the one
character that opens it. -/
def readWhole (text : List Char) : Except Halt Value := do
  let (value, rest) ← readValue (2 * text.length + 1) (skipBlanks text)
  match skipBlanks rest with
  | [] => return value
  | rest => throw (.problem .extraData rest)

/-- The value of a document. -/
def read (document : List Char) : Except Fault Value :=
  (readWhole document).mapError (Halt.fault document)

end Presence.Json
