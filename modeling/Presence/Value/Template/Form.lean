import Presence.Binary64.Fixed
import Presence.Text.Encoding
import Presence.Value.Template.Directive
import Presence.Value.Text

/-!
Contract: the forms that values have in the places of a template.

Owns: `convert`, the form of a value by its conversion; signs, padding and precision.

Does not own: the text of values (`Presence.Value.Text`) and of numbers with a given number of
digits (`Presence.Binary64.Fixed`), and how directives are read
(`Presence.Value.Template.Directive`).
-/

namespace Presence

namespace Template

/-- A sign, a mark of the base and a body, padded to the width. -/
def pad (directive : Directive) (isNumber : Bool) (sign mark body : List Char) :
    Except Fault (List Char) := do
  let size := sign.length + mark.length + body.length
  requireRoom directive.width
  let padding := directive.width - size
  if directive.leftAligned then
    return sign ++ mark ++ body ++ List.replicate padding ' '
  else if directive.zeroFilled && isNumber then
    return sign ++ mark ++ List.replicate padding '0' ++ body
  else return List.replicate padding ' ' ++ sign ++ mark ++ body

/-- The sign of a number. -/
def signOf (directive : Directive) (negative : Bool) : List Char :=
  if negative then ['-']
  else if directive.signed then ['+']
  else if directive.spaced then [' ']
  else []

/-- A text, cut off at the precision. -/
def fillText (directive : Directive) (characters : List Char) : Except Fault (List Char) :=
  pad directive false [] [] (characters.take (directive.precision.getD characters.length))

/-- The whole number that is filled in for a value. -/
def wholeOf (v : Value) : Except Fault Int :=
  match v with
  | .float x => Number.wholeOf x
  | v => match v.int? with
    | some n => .ok n
    | none => .error .wrongType

/-- Digits after noughts, up to the precision. -/
def atLeast (directive : Directive) (digits : List Char) : Except Fault (List Char) := do
  let count := directive.precision.getD 0
  if count > halfWordBound - 4 then throw .overflow
  requireRoom count
  return List.replicate (count - digits.length) '0' ++ digits

/-- A whole number in decimal digits. -/
def fillDecimal (directive : Directive) (v : Value) : Except Fault (List Char) := do
  let n ← wholeOf v
  let digits ← numberText n.natAbs
  pad directive true (signOf directive (n < 0)) [] (← atLeast directive digits)

/-- A whole number in digits of another base. -/
def fillInBase (directive : Directive) (base : Nat) (mark : List Char) (v : Value) :
    Except Fault (List Char) := do
  match v.int? with
  | none => throw .wrongType
  | some n =>
      let mark := if directive.alternate then mark else []
      pad directive true (signOf directive (n < 0)) mark
        (← atLeast directive (Nat.toDigits base n.natAbs))

/-- The binary64 number that is filled in for a value. Among octets one that is too large counts as
no number. -/
def realOf (medium : Medium) (v : Value) : Except Fault Binary64 :=
  match v with
  | .float x => .ok x
  | v => match v.int? with
    | none => .error .wrongType
    | some n =>
        match medium with
        | .text => Number.realOf n
        | .octets => (Number.realOf n).mapError fun _ => .wrongType

/-- A binary64 number in one of its forms. -/
def fillReal (directive : Directive) (form : Rat → Nat → Bool → List Char) (v : Value)
    (medium : Medium) : Except Fault (List Char) := do
  let x ← realOf medium v
  let places := directive.precision.getD 6
  requireRoom places
  let body := match x with
    | .nan => "nan".toList
    | .infinite _ => "inf".toList
    | x => form (if x.magnitude.blt 0 then -x.magnitude else x.magnitude) places
        directive.alternate
  pad directive true (signOf directive x.isNegative) [] body

/-- The character that is filled in for a value. -/
def characterOf (medium : Medium) (v : Value) : Except Fault Char :=
  match medium, v with
  | .text, .text s =>
      match s.toList with
      | [c] => .ok c
      | _ => .error .wrongType
  | .octets, .bytes [octet] => .ok (Char.ofNat octet.toNat)
  | .octets, .byteArray [octet] => .ok (Char.ofNat octet.toNat)
  | medium, v =>
      match v.int? with
      | none => .error .wrongType
      | some n =>
          let bound : Int := if medium == .text then 0x110000 else 256
          if 0 ≤ n && n < bound then .ok (Text.charOrReplacement n.toNat) else .error .overflow

/-- The octets that are filled in for a value, as characters. -/
def octetsOf (v : Value) : Except Fault (List Char) :=
  match v with
  | .scalar s =>
      match s.octets? with
      | some octets => .ok (octets.map fun octet => Char.ofNat octet.toNat)
      | none => .error .wrongType
  | _ => .error .wrongType

/-- What a conversion that there is not is shown as. A great octet is a character only after a
number. -/
def shownConversion (medium : Medium) (afterNumber : Bool) (c : Char) : Except Fault Char :=
  match medium with
  | .text => .ok (if 31 ≤ c.toNat && c.toNat < 127 then c else '?')
  | .octets => if c.toNat < 128 || afterNumber then .ok c else .error .overflow

def upper (characters : List Char) : List Char := characters.map Char.toUpper

/-- A value in the form of a conversion at some place, which may come right after a number. -/
def convert (medium : Medium) (directive : Directive) (conversion : Char) (place : Nat)
    (afterNumber : Bool) (v : Value) : Except Fault (List Char) := do
  match medium, conversion with
  | .text, 's' => fillText directive (← v.write .plain)
  | .text, 'r' => fillText directive (← v.write .quoted)
  | _, 'a' => fillText directive (Text.narrowed (← v.write .quoted))
  | .octets, 'r' => fillText directive (Text.narrowed (← v.write .quoted))
  | .octets, 's' => fillText directive (← octetsOf v)
  | .octets, 'b' => fillText directive (← octetsOf v)
  | _, 'd' => fillDecimal directive v
  | _, 'i' => fillDecimal directive v
  | _, 'u' => fillDecimal directive v
  | _, 'o' => fillInBase directive 8 ['0', 'o'] v
  | _, 'x' => fillInBase directive 16 ['0', 'x'] v
  | _, 'X' => return upper (← fillInBase directive 16 ['0', 'x'] v)
  | _, 'f' => fillReal directive Binary64.positionalText v medium
  | _, 'F' => return upper (← fillReal directive Binary64.positionalText v medium)
  | _, 'e' => fillReal directive Binary64.scientificText v medium
  | _, 'E' => return upper (← fillReal directive Binary64.scientificText v medium)
  | _, 'g' => fillReal directive Binary64.generalText v medium
  | _, 'G' => return upper (← fillReal directive Binary64.generalText v medium)
  | _, 'c' => pad directive false [] [] [← characterOf medium v]
  | medium, c =>
      throw (.badTemplate (.unsupported (← shownConversion medium afterNumber c) c.toNat place))

end Template

end Presence
