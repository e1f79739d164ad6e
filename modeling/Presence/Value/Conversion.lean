import Presence.Text.Encoding
import Presence.Text.Real
import Presence.Value.Arithmetic

/-!
Contract: what a value is as a value of a simpler kind.

Owns: a value as a whole number in some base, as a binary64 number, as a complex number, and as
octets.

Does not own: the texts that spell numbers (`Presence.Text.Numeral`, `Presence.Text.Real`).

Texts, and octets as characters of the first block, are read; binary64 numbers lose their fraction
as whole numbers.
-/

namespace Presence

namespace Value

/-- Octets as characters of the first block. -/
def charactersOf (octets : List UInt8) : List Char := octets.map fun octet => Char.ofNat octet.toNat

/-- The whole number that was read from a literal in a base. -/
def wholeRead (base : Nat) (literal : Value) (result : Except Text.NumeralFault Int) :
    Except Fault Int :=
  match result with
  | .ok n => .ok n
  | .error (.tooLong digits) => .error (.longNumeral digits)
  | .error .malformed => .error (.noNumeral base literal)

/-- The whole number that a text spells in a base; `none` for what is no text. Of octets that spell
none only so many are told. -/
def wholeIn? (base : Nat) (v : Value) : Option (Except Fault Int) :=
  match v with
  | .text s => some (wholeRead base v (Text.readInt base s.toList))
  | .scalar s =>
      s.octets?.map fun octets =>
        wholeRead base (.bytes (octets.take 200)) (Text.readPlainInt base (charactersOf octets))
  | _ => none

/-- A value as a whole number. -/
def toWhole (v : Value) : Except Fault Int :=
  match v.wholeIn? 10, v with
  | some result, _ => result
  | none, .float x => Number.wholeOf x
  | none, v =>
      match v.int? with
      | some n => .ok n
      | none => .error .wrongType

/-- A value as a whole number in a base that another value tells; nought leaves the base to the
text. -/
def toWholeIn (v base : Value) : Except Fault Int :=
  match base.int? with
  | none => .error .wrongType
  | some n =>
      if n = 0 || (2 ≤ n && n ≤ 36) then (v.wholeIn? n.toNat).getD (.error .wrongType)
      else .error .badBase

/-- The number that was read from a literal. -/
def realRead (literal : Value) (result : Option Binary64) : Except Fault Binary64 :=
  match result with
  | some x => .ok x
  | none => .error (.unconverted .float literal)

/-- A value as a binary64 number. -/
def toReal (v : Value) : Except Fault Binary64 :=
  match v with
  | .text s => realRead v (Text.readReal s.toList)
  | .float x => .ok x
  | .scalar s =>
      match s.octets?, s.int? with
      | some octets, _ => realRead v (Text.readPlainReal (charactersOf octets))
      | none, some n => Number.realOf n
      | none, none => .error .wrongType
  | _ => .error .wrongType

/-- Fails for what is no number. -/
def requireNumber (v : Value) : Except Fault Unit :=
  match v with
  | .scalar s => if (Number.ofScalar? s).isSome then .ok () else .error .wrongType
  | _ => .error .wrongType

/-- The real and the imaginary part of a number; whether it is of the complex kind. -/
def partsOfNumber (v : Value) : Except Fault ((Binary64 × Binary64) × Bool) :=
  match v with
  | .complex re im => .ok ((re, im), true)
  | .float x => .ok ((x, .zero), false)
  | v =>
      match v.int? with
      | some n => do return ((← Number.realOf n, .zero), false)
      | none => .error .wrongType

/-- A value as a complex number. -/
def toComplex (v : Value) : Except Fault Value :=
  match v with
  | .text s =>
      match Text.withoutUnderscores? false (s.toList.map Text.narrow) with
      | none => .error (.unconverted .complex v)
      | some characters =>
          match Text.readComplex characters with
          | some (re, im) => .ok (.complex re im)
          | none => .error .noComplex
  | v => do
      let ((re, im), _) ← v.partsOfNumber
      return .complex re im

/-- The number of a real part and of an imaginary part, which may be complex themselves. -/
def toComplexOf (v w : Value) : Except Fault Value := do
  v.requireNumber
  w.requireNumber
  let ((re, im), isComplex) ← v.partsOfNumber
  let ((re', im'), isComplex') ← w.partsOfNumber
  return .complex (if isComplex' then re.sub im' else re) (if isComplex then re'.add im else re')

/-- An octet that a value is. -/
def toOctet (beyond : Fault) (v : Value) : Except Fault UInt8 :=
  match v.int? with
  | none => .error .wrongType
  | some n => if 0 ≤ n && n < 256 then .ok n.toNat.toUInt8 else .error beyond

/-- As many octets of nought as a number says. -/
def noughtOctets (n : Int) : Except Fault (List UInt8) := do
  if !fitsWord n then throw .overflow
  else if n < 0 then throw .negativeCount
  else
    requireRoom n.toNat
    return List.replicate n.toNat 0

end Value

end Presence
