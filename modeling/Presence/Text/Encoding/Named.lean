import Presence.Text.Encoding

/-!
Contract: texts in encodings that are told by their names.

Owns: the names of encodings, with the octets that a text is in each of them (`Named.encode?`) and
the text that octets are (`Named.decode?`).

Does not own: the reading of single characters (`Presence.Text.Encoding`).

Octets are a text only if they are exactly the octets of that text.
-/

namespace Presence.Text

/-- The octets of a number, the small one first. -/
def octetsOf : (count : Nat) → Nat → List UInt8
  | 0, _ => []
  | count + 1, n => n.toUInt8 :: octetsOf count (n / 0x100)

namespace OctetOrder

/-- The octets of a unit in their order. -/
def unit (order : OctetOrder) (count n : Nat) : List UInt8 :=
  match order with
  | .smallFirst => octetsOf count n
  | .greatFirst => (octetsOf count n).reverse

end OctetOrder

/-- The octet that continues a character with six bits of its code. -/
def continuationOf (code : Nat) : UInt8 := (0x80 + code % 0x40).toUInt8

/-- A character in units of one octet. -/
def octetsOfChar (c : Char) : List UInt8 :=
  let code := c.toNat
  if code < 0x80 then [code.toUInt8]
  else if code < 0x800 then [(0xc0 + code / 0x40).toUInt8, continuationOf code]
  else if code < 0x10000 then
    [(0xe0 + code / 0x1000).toUInt8, continuationOf (code / 0x40), continuationOf code]
  else
    [(0xf0 + code / 0x40000).toUInt8, continuationOf (code / 0x1000), continuationOf (code / 0x40),
      continuationOf code]

/-- A character in units of two octets; one beyond the units is a pair. -/
def pairsOfChar (order : OctetOrder) (c : Char) : List UInt8 :=
  let code := c.toNat
  if code < 0x10000 then order.unit 2 code
  else
    order.unit 2 (0xd800 + (code - 0x10000) / 0x400)
      ++ order.unit 2 (0xdc00 + (code - 0x10000) % 0x400)

/-- The octets of a text. -/
def Encoding.encode (encoding : Encoding) (text : List Char) : List UInt8 :=
  match encoding with
  | .octets => text.flatMap octetsOfChar
  | .pairs order => text.flatMap (pairsOfChar order)
  | .quads order => text.flatMap fun c => order.unit 4 c.toNat

/-- The encodings that have names. -/
inductive Named where
  | plain (encoding : Encoding)
  /-- With a mark in front that tells the order of octets. -/
  | marked (encoding : OctetOrder → Encoding)
  /-- With the codes of characters as octets, below a limit. -/
  | direct (limit : Nat)

namespace Named

/-- The mark that tells the order of octets. -/
def mark : List Char := ['\ufeff']

/-- The names of encodings, in small letters and with one underscore for what is neither letter nor
digit. -/
def names : List (List String × Named) :=
  [(["utf_8", "utf8", "u8", "utf", "cp65001", "utf8_ucs2", "utf8_ucs4"], .plain .octets),
    (["ascii", "us_ascii", "646", "us", "cp367", "ibm367", "csascii", "iso646_us", "iso_ir_6",
      "ansi_x3.4_1968", "ansi_x3_4_1968", "ansi_x3.4_1986", "iso_646.irv_1991"], .direct 0x80),
    (["latin_1", "latin1", "latin", "l1", "iso_8859_1", "iso8859_1", "iso8859", "8859", "cp819",
      "ibm819", "csisolatin1", "iso_ir_100", "iso_8859_1_1987"], .direct 0x100),
    (["utf_16", "utf16", "u16"], .marked .pairs),
    (["utf_16_le", "utf_16le", "unicodelittleunmarked"], .plain (.pairs .smallFirst)),
    (["utf_16_be", "utf_16be", "unicodebigunmarked"], .plain (.pairs .greatFirst)),
    (["utf_32", "utf32", "u32"], .marked .quads),
    (["utf_32_le", "utf_32le"], .plain (.quads .smallFirst)),
    (["utf_32_be", "utf_32be"], .plain (.quads .greatFirst))]

/-- A name in small letters and with one underscore for what is neither letter nor digit. -/
def normal : (gap : Bool) → List Char → List Char
  | _, [] => []
  | gap, c :: rest =>
      if c.isAlphanum || c == '.' then
        (if gap then ['_', c.toLower] else [c.toLower]) ++ normal false rest
      else normal true rest

/-- The name of an encoding without what stands around it. -/
def normalName (name : String) : String :=
  String.ofList (normal false (name.toList.dropWhile fun c => !(c.isAlphanum || c == '.')))

/-- The encoding of a name. -/
def ofName? (name : String) : Option Named :=
  (names.find? fun entry => entry.1.contains (normalName name)).map Prod.snd

/-- The octets that a text is in an encoding, if it can be written in it. -/
def encode? (encoding : Named) (text : List Char) : Option (List UInt8) :=
  match encoding with
  | .plain encoding => some (encoding.encode text)
  | .marked encoding => some ((encoding .smallFirst).encode (mark ++ text))
  | .direct limit =>
      text.mapM fun c => if c.toNat < limit then some c.toNat.toUInt8 else none

/-- The text whose octets in an encoding these are. -/
def decodeExactly? (encoding : Encoding) (octets : List UInt8) : Option (List Char) :=
  (encoding.decode? octets).filter fun text => encoding.encode text == octets

/-- The octets after a mark in front of them. -/
def afterMark? (encoding : Encoding) (octets : List UInt8) : Option (List UInt8) :=
  let front := encoding.encode mark
  if front.isPrefixOf octets then some (octets.drop front.length) else none

/-- The text that octets are in an encoding. -/
def decode? (encoding : Named) (octets : List UInt8) : Option (List Char) :=
  match encoding with
  | .plain encoding => decodeExactly? encoding octets
  | .marked encoding =>
      match afterMark? (encoding .smallFirst) octets, afterMark? (encoding .greatFirst) octets with
      | some rest, _ => decodeExactly? (encoding .smallFirst) rest
      | none, some rest => decodeExactly? (encoding .greatFirst) rest
      | none, none => decodeExactly? (encoding .smallFirst) octets
  | .direct limit =>
      octets.mapM fun octet =>
        if octet.toNat < limit then some (Char.ofNat octet.toNat) else none

end Named

end Presence.Text
