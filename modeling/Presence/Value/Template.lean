import Presence.Value.Template.Form

/-!
Contract: templates, which are texts or octets with places to fill in.

Owns: `Template.fill`, and `Value.mod`, which fills in templates.

Does not own: what a place asks for (`Presence.Value.Template.Directive`), and the forms of values
(`Presence.Value.Template.Form`).

A place begins with a percent sign, and two of them stand for one. All values must be used, unless
they could have been asked for by name.
-/

namespace Presence

namespace Template

/-- Fills in the place at the front of a text, which starts after the percent sign; `size` is the
length of the whole template. -/
def fillPlace (medium : Medium) (size : Nat) (supply : Supply) (text : List Char) :
    Except Fault (List Char × Supply × List Char) := do
  let (supply, text) ← readName medium supply text
  let (directive, numbers) := readFlags .blank text
  let (directive, supply, text) ← readWidth directive supply numbers
  let (directive, supply, text) ← readPrecision medium directive supply text
  match skipSize text with
  | [] => throw (.badTemplate .incomplete)
  | conversion :: rest =>
      let (v, supply) ← supply.next
      let before := (numbers.take (numbers.length - rest.length - 1)).getLast?
      let filled ← convert medium directive conversion (size - rest.length - 1)
        (before.any Char.isDigit) v
      return (filled, supply, rest)

/-- Fills in the places of a text, passing over what has been read already. -/
def fillFrom (medium : Medium) (size : Nat) : (skip : Nat) → Supply → List Char →
    Except Fault (List Char)
  | _, supply, [] =>
      if supply.mapping.isNone && !supply.rest.isEmpty then .error .wrongType else .ok []
  | skip + 1, supply, _ :: text => fillFrom medium size skip supply text
  | 0, supply, '%' :: '%' :: text => do
      return '%' :: (← fillFrom medium size 1 supply ('%' :: text))
  | 0, supply, '%' :: text => do
      let (filled, supply, rest) ← fillPlace medium size supply text
      return filled ++ (← fillFrom medium size (text.length - rest.length) supply text)
  | 0, supply, c :: text => do return c :: (← fillFrom medium size 0 supply text)

/-- A template with a value filled in. -/
def fill (medium : Medium) (template : List Char) (v : Value) : Except Fault (List Char) :=
  fillFrom medium template.length 0 (.ofValue medium v) template

/-- Octets with a value filled in. -/
def fillOctets (template : List UInt8) (v : Value) : Except Fault (List UInt8) := do
  let filled ← fill .octets (template.map fun octet => Char.ofNat octet.toNat) v
  return filled.map fun c => c.toNat.toUInt8

end Template

namespace Value

/-- What a template becomes with a value filled in; of other values the remainder. -/
def mod (v w : Value) : Except Fault Value :=
  match v with
  | .text s => (Template.fill .text s.toList w).map fun filled => .text (String.ofList filled)
  | .bytes octets => (Template.fillOctets octets w).map Value.bytes
  | .byteArray octets => (Template.fillOctets octets w).map Value.byteArray
  | v => v.remainder w

end Value

end Presence
