/-!
Contract: encodings of text in octets.

Owns: the three encodings by units of one, two and four octets, in either order where it matters,
each as the reading of one character from the front of some octets; `Encoding.decode?`.

Does not own: how an encoding is guessed (`Presence.Json.Document`).

A code that is half of a pair and stands alone is let through as the replacement character; all
else that is not well formed is refused.
-/

namespace Presence.Text

/-- Which octet of a unit comes first. -/
inductive OctetOrder where
  | greatFirst
  | smallFirst
deriving DecidableEq, Repr

inductive Encoding where
  | octets
  | pairs (order : OctetOrder)
  | quads (order : OctetOrder)
deriving DecidableEq, Repr

/-- The character of a code below the limit of codes; half of a pair becomes the replacement
character. -/
def charOrReplacement (code : Nat) : Char :=
  if 0xd800 ≤ code && code < 0xe000 then '\ufffd' else Char.ofNat code

/-- The six bits of an octet that continues a character. -/
def continuation? (octet : UInt8) : Option Nat :=
  if 0x80 ≤ octet.toNat && octet.toNat < 0xc0 then some (octet.toNat - 0x80) else none

/-- A character in units of one octet, with the number of octets after the first. No character may
be written in more octets than it needs. -/
def octetsFront? : List UInt8 → Option (Char × Nat)
  | [] => none
  | first :: rest =>
      let lead := first.toNat
      if lead < 0x80 then some (Char.ofNat lead, 0)
      else if lead < 0xc2 then none
      else if lead < 0xe0 then
        match rest with
        | a :: _ => do
            let a ← continuation? a
            return (Char.ofNat ((lead - 0xc0) * 0x40 + a), 1)
        | _ => none
      else if lead < 0xf0 then
        match rest with
        | a :: b :: _ => do
            let a ← continuation? a
            let b ← continuation? b
            let code := (lead - 0xe0) * 0x1000 + a * 0x40 + b
            if code < 0x800 then none else return (charOrReplacement code, 2)
        | _ => none
      else if lead < 0xf5 then
        match rest with
        | a :: b :: c :: _ => do
            let a ← continuation? a
            let b ← continuation? b
            let c ← continuation? c
            let code := (lead - 0xf0) * 0x40000 + a * 0x1000 + b * 0x40 + c
            if code < 0x10000 || 0x110000 ≤ code then none else return (Char.ofNat code, 3)
        | _ => none
      else none

/-- The unit of two octets. -/
def pairUnit (order : OctetOrder) (a b : UInt8) : Nat :=
  match order with
  | .greatFirst => a.toNat * 0x100 + b.toNat
  | .smallFirst => b.toNat * 0x100 + a.toNat

/-- A character in units of two octets, with the number of octets after the first. -/
def pairsFront? (order : OctetOrder) : List UInt8 → Option (Char × Nat)
  | a :: b :: rest =>
      let code := pairUnit order a b
      if 0xd800 ≤ code && code < 0xdc00 then
        match rest with
        | c :: d :: _ =>
            let second := pairUnit order c d
            if 0xdc00 ≤ second && second < 0xe000 then
              some (Char.ofNat (0x10000 + (code - 0xd800) * 0x400 + (second - 0xdc00)), 3)
            else some (charOrReplacement code, 1)
        | _ => some (charOrReplacement code, 1)
      else some (charOrReplacement code, 1)
  | _ => none

/-- A character in units of four octets, with the number of octets after the first. -/
def quadsFront? (order : OctetOrder) : List UInt8 → Option (Char × Nat)
  | a :: b :: c :: d :: _ =>
      let code := match order with
        | .greatFirst => pairUnit order a b * 0x10000 + pairUnit order c d
        | .smallFirst => pairUnit order c d * 0x10000 + pairUnit order a b
      if code < 0x110000 then some (charOrReplacement code, 3) else none
  | _ => none

/-- Reads characters until the octets end, passing over some that have been read already. -/
def decodeWith? (front? : List UInt8 → Option (Char × Nat)) : (skip : Nat) → List UInt8 →
    Option (List Char)
  | _, [] => some []
  | skip + 1, _ :: rest => decodeWith? front? skip rest
  | 0, octet :: rest => do
      let (c, further) ← front? (octet :: rest)
      let others ← decodeWith? front? further rest
      return c :: others

namespace Encoding

/-- The first character of some octets, with the number of octets after the first one. -/
def front? (encoding : Encoding) : List UInt8 → Option (Char × Nat) :=
  match encoding with
  | .octets => octetsFront?
  | .pairs order => pairsFront? order
  | .quads order => quadsFront? order

/-- The text that octets mean. -/
def decode? (encoding : Encoding) (octets : List UInt8) : Option (List Char) :=
  decodeWith? encoding.front? 0 octets

end Encoding

end Presence.Text
