import Presence.Text.Hex
import Presence.Text.Printable

/-!
Contract: text between quotes, so that it shows where it begins and ends and what it holds.

Owns: the choice of the quote (the single one, unless the text holds it and no double one), the
escapes of characters and of octets, `quoted`, `quotedOctets` and `quotedArray`, and the form of a
text within the first block (`narrowed`).

Does not own: the quoting of documents, which is another (`Presence.Json.Writer`).
-/

namespace Presence.Text

/-- The quote that a text is put between. -/
def quoteFor (text : List Char) : Char :=
  if text.contains '\'' && !text.contains '"' then '"' else '\''

/-- A character that is not shown as it is, by its code in two, four or eight digits. -/
def escapeCode (c : Char) : List Char :=
  let code := c.toNat
  if code < 0x100 then '\\' :: 'x' :: hex 2 code
  else if code < 0x10000 then '\\' :: 'u' :: hex 4 code
  else '\\' :: 'U' :: hex 8 code

def escapeChar (quote c : Char) : List Char :=
  if c == quote || c == '\\' then ['\\', c]
  else if c == '\t' then ['\\', 't']
  else if c == '\n' then ['\\', 'n']
  else if c == '\r' then ['\\', 'r']
  else if isPrintable c then [c]
  else escapeCode c

/-- Text between quotes. -/
def quoted (text : List Char) : List Char :=
  let quote := quoteFor text
  quote :: (text.flatMap (escapeChar quote) ++ [quote])

/-- Text in which every character beyond the first block stands by its code. -/
def narrowed (text : List Char) : List Char :=
  text.flatMap fun c => if c.toNat < 128 then [c] else escapeCode c

/-- Octets as characters of the first block where they are graphic, else by their code. -/
def escapeOctet (quote : Char) (octet : UInt8) : List Char :=
  let c := Char.ofNat octet.toNat
  if octet.toNat < 127 && 32 ≤ octet.toNat || c == '\t' || c == '\n' || c == '\r' then
    escapeChar quote c
  else '\\' :: 'x' :: hex 2 octet.toNat

/-- Octets between quotes, marked as octets; a mark among them is escaped. -/
def octetsBetween (quote mark : Char) (octets : List UInt8) : List Char :=
  'b' :: quote :: (octets.flatMap (escapeOctet mark) ++ [quote])

/-- The quote that octets are put between. -/
def quoteForOctets (octets : List UInt8) : Char :=
  quoteFor (octets.map fun octet => Char.ofNat octet.toNat)

/-- Octets between quotes, of which the one around them is escaped among them. -/
def quotedOctets (octets : List UInt8) : List Char :=
  octetsBetween (quoteForOctets octets) (quoteForOctets octets) octets

/-- Octets that may change between quotes, of which the single one is escaped among them. -/
def quotedArray (octets : List UInt8) : List Char :=
  octetsBetween (quoteForOctets octets) '\'' octets

end Presence.Text
