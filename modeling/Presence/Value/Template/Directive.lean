import Presence.Binary64.Decimal
import Presence.Value.Arithmetic

/-!
Contract: what the places of a template ask for.

Owns: the two media that templates are made of; `Directive`, what a place asks for, its conversion
aside; `Supply`, what there is to fill in; reading directives.

Does not own: the forms that values are filled in with (`Presence.Value.Template.Form`).

After the percent sign of a place may come a name in brackets, flags, a width, a precision, and a
letter of size without a meaning; the conversion ends it. A star in the place of a number takes the
number from the values.
-/

namespace Presence

namespace Template

/-- What a template is made of. -/
inductive Medium where
  | text
  | octets
deriving DecidableEq, Repr

/-- What a place asks for, its conversion aside. -/
structure Directive where
  leftAligned : Bool
  signed : Bool
  spaced : Bool
  alternate : Bool
  zeroFilled : Bool
  width : Nat
  precision : Option Nat

def Directive.blank : Directive := ⟨false, false, false, false, false, 0, none⟩

/-- What there is to fill in: values one after the other, and a value whose parts are asked for by
name. -/
structure Supply where
  mapping : Option Value
  rest : List Value

namespace Supply

/-- Whether the parts of a value can be asked for by name. -/
def hasNames (medium : Medium) : Value → Bool
  | .dictionary _ => true
  | .list _ => true
  | .sequence _ => true
  | .bytes _ => medium == .text
  | .byteArray _ => medium == .text
  | _ => false

/-- The items of a tuple one after the other; any other value alone. -/
def ofValue (medium : Medium) (v : Value) : Supply :=
  match v with
  | .tuple items => ⟨none, items⟩
  | v => ⟨if hasNames medium v then some v else none, [v]⟩

/-- The next value. -/
def next (supply : Supply) : Except Fault (Value × Supply) :=
  match supply.rest with
  | [] => .error .wrongType
  | v :: rest => .ok (v, { supply with rest := rest })

/-- The next value, which must be a whole number that fits. -/
def nextNumber (supply : Supply) (fits : Int → Bool) : Except Fault (Int × Supply) := do
  let (v, supply) ← supply.next
  match v.int? with
  | none => throw .wrongType
  | some n => if fits n then return (n, supply) else throw .overflow

end Supply

/-! ## Reading places -/

/-- A name up to the bracket that closes it, inside some more brackets, and what comes after it. -/
def spanName : (depth : Nat) → List Char → Option (List Char × List Char)
  | _, [] => none
  | 0, ')' :: rest => some ([], rest)
  | depth, c :: rest =>
      let depth := if c == ')' then depth - 1 else if c == '(' then depth + 1 else depth
      (spanName depth rest).map fun (name, rest) => (c :: name, rest)

/-- A text in the medium of a template. -/
def valueOf (medium : Medium) (characters : List Char) : Value :=
  match medium with
  | .text => .text (String.ofList characters)
  | .octets => .bytes (characters.map fun c => c.toNat.toUInt8)

/-- Reads a name, and puts what stands under it in the place of the values. -/
def readName (medium : Medium) (supply : Supply) (text : List Char) :
    Except Fault (Supply × List Char) :=
  match text with
  | '(' :: rest =>
      match supply.mapping with
      | none => .error .wrongType
      | some mapping =>
          match spanName 0 rest with
          | none => .error (.badTemplate .incompleteKey)
          | some (name, rest) => do
              return (⟨mapping, [← mapping.item (valueOf medium name)]⟩, rest)
  | text => .ok (supply, text)

def readFlags (directive : Directive) : List Char → Directive × List Char
  | '-' :: rest => readFlags { directive with leftAligned := true } rest
  | '+' :: rest => readFlags { directive with signed := true } rest
  | ' ' :: rest => readFlags { directive with spaced := true } rest
  | '#' :: rest => readFlags { directive with alternate := true } rest
  | '0' :: rest => readFlags { directive with zeroFilled := true } rest
  | rest => (directive, rest)

/-- Reads the digits of a number up to a bound; no digits are nought. -/
def readNumber (bound : Nat) (problem : TemplateProblem) (text : List Char) :
    Except Fault (Nat × List Char) :=
  let (digits, rest) := Binary64.spanDigits text
  let n := Nat.ofDigitChars 10 digits 0
  if n > bound then .error (.badTemplate problem) else .ok (n, rest)

/-- Reads a width. One from the values that is below nought aligns to the left; the least of them
has no opposite and asks for nothing else. -/
def readWidth (directive : Directive) (supply : Supply) (text : List Char) :
    Except Fault (Directive × Supply × List Char) :=
  match text with
  | '*' :: rest => do
      let (n, supply) ← supply.nextNumber fitsWord
      let leftAligned := directive.leftAligned || n < 0
      let width := if fitsWord (-n) then n.natAbs else 0
      return ({ directive with width := width, leftAligned := leftAligned }, supply, rest)
  | text => do
      let (width, rest) ← readNumber (wordBound - 1) .widthTooBig text
      return ({ directive with width := width }, supply, rest)

/-- Reads a precision after its point. -/
def readPrecision (medium : Medium) (directive : Directive) (supply : Supply) (text : List Char) :
    Except Fault (Directive × Supply × List Char) :=
  match text with
  | '.' :: '*' :: rest => do
      let (n, supply) ← supply.nextNumber fitsHalfWord
      return ({ directive with precision := some n.toNat }, supply, rest)
  | '.' :: rest => do
      let (precision, rest) ←
        readNumber (halfWordBound - 1) (.precisionTooBig (medium == .text)) rest
      return ({ directive with precision := some precision }, supply, rest)
  | text => .ok (directive, supply, text)

/-- The text after a letter of size. -/
def skipSize : List Char → List Char
  | 'h' :: rest => rest
  | 'l' :: rest => rest
  | 'L' :: rest => rest
  | rest => rest

end Template

end Presence
