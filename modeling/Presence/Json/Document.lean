import Presence.Json.Reader
import Presence.Text.Encoding

/-!
Contract: reading documents from text or octets.

Owns: how the encoding of octets is told from their first few; `load`, which reads a value that
holds a document.

Does not own: the encodings (`Presence.Text.Encoding`) and the grammar (`Presence.Json.Reader`).

A mark of the octet order at the front tells the encoding and is dropped. Without one, a document
starts with a character of the first block, so the octets that are nought tell the encoding. Text
may not start with the mark.
-/

namespace Presence.Json

open Presence.Text

/-- The encoding that a mark at the front tells, with the octets after it. -/
def marked? (octets : List UInt8) : Option (Encoding × List UInt8) :=
  match octets with
  | 0x00 :: 0x00 :: 0xfe :: 0xff :: rest => some (.quads .greatFirst, rest)
  | 0xff :: 0xfe :: 0x00 :: 0x00 :: rest => some (.quads .smallFirst, rest)
  | 0xfe :: 0xff :: rest => some (.pairs .greatFirst, rest)
  | 0xff :: 0xfe :: rest => some (.pairs .smallFirst, rest)
  | 0xef :: 0xbb :: 0xbf :: rest => some (.octets, rest)
  | _ => none

/-- The encoding of octets without a mark. -/
def unmarked (octets : List UInt8) : Encoding :=
  match octets with
  | a :: b :: c :: d :: _ =>
      if a == 0 then (if b == 0 then .quads .greatFirst else .pairs .greatFirst)
      else if b == 0 then (if c == 0 && d == 0 then .quads .smallFirst else .pairs .smallFirst)
      else .octets
  | [a, b] =>
      if a == 0 then .pairs .greatFirst
      else if b == 0 then .pairs .smallFirst
      else .octets
  | _ => .octets

/-- The text of octets in an encoding that is not told. -/
def textOf? (octets : List UInt8) : Option (List Char) :=
  match marked? octets with
  | some (encoding, rest) => encoding.decode? rest
  | none => (unmarked octets).decode? octets

/-- Reads the document that octets hold. -/
def loadOctets (octets : List UInt8) : Except Fault Value :=
  match textOf? octets with
  | some characters => read characters
  | none => .error .undecodable

/-- Reads the document that a value holds. -/
def load (source : Value) : Except Fault Value :=
  match source with
  | .text s =>
      match s.toList with
      | '\ufeff' :: rest =>
          .error (Halt.fault ('\ufeff' :: rest) (.problem .byteOrderMark ('\ufeff' :: rest)))
      | characters => read characters
  | .bytes octets => loadOctets octets
  | .byteArray octets => loadOctets octets
  | other => .error (.noDocument other.kindOf)

end Presence.Json
