/-!
Contract: what can be wrong with the text of a document, and where.

Owns: `Problem` and its wording; `Place`, a position with its line and column, counted in
characters from one, and the offset, counted from nought.

Does not own: when a problem arises (`Presence.Json.Reader`).
-/

namespace Presence.Json

inductive Problem where
  | missingValue
  | missingName
  | missingColon
  | missingComma
  | extraData
  | unterminatedText
  | controlCharacter
  | unknownEscape
  | badCodeEscape
  | byteOrderMark
deriving DecidableEq, Repr

namespace Problem

def text : Problem → String
  | .missingValue => "Expecting value"
  | .missingName => "Expecting property name enclosed in double quotes"
  | .missingColon => "Expecting ':' delimiter"
  | .missingComma => "Expecting ',' delimiter"
  | .extraData => "Extra data"
  | .unterminatedText => "Unterminated string starting at"
  | .controlCharacter => "Invalid control character at"
  | .unknownEscape => "Invalid \\escape"
  | .badCodeEscape => "Invalid \\uXXXX escape"
  | .byteOrderMark => "Unexpected UTF-8 BOM (decode using utf-8-sig)"

end Problem

structure Place where
  line : Nat
  column : Nat
  offset : Nat
deriving DecidableEq, Repr

namespace Place

/-- The place of an offset in a text. -/
def ofOffset (document : List Char) (offset : Nat) : Place :=
  let before := document.take offset
  { line := before.count '\n' + 1
    column := (before.reverse.takeWhile (· != '\n')).length + 1
    offset := offset }

def text (place : Place) : String :=
  "line " ++ toString place.line ++ " column " ++ toString place.column
    ++ " (char " ++ toString place.offset ++ ")"

end Place

end Presence.Json
