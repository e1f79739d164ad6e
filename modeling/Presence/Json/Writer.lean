import Presence.Value.Text

/-!
Contract: writing documents.

Owns: `Style`, the separators and whether options are opened; the escapes of text, which leave
characters of the first block only; `write`, which writes a value as a document.

Does not own: reading (`Presence.Json.Reader`).

An option that is opened is written as its payload, or as null where there is none; it opens the
options inside it as well. A key is written as text: a number, a truth value or nothing by its own
text. What has no form in a document is refused at the first place where it stands.
-/

namespace Presence.Json

/-- How documents are laid out. -/
structure Style where
  itemSeparator : List Char
  nameSeparator : List Char
  /-- Whether options are written as what they hold. -/
  opensOptions : Bool

namespace Style

def spaced : Style := ⟨[',', ' '], [':', ' '], true⟩

def compact : Style := ⟨[','], [':'], true⟩

end Style

/-- The escape of a code of four hexadecimal digits. -/
def codeEscape (code : Nat) : List Char := '\\' :: 'u' :: Text.hex 4 code

/-- A character as it stands in a text. Beyond the first plane it is written as a pair of codes. -/
def escapeChar (c : Char) : List Char :=
  if c == '"' || c == '\\' then ['\\', c]
  else if c == '\x08' then ['\\', 'b']
  else if c == '\x0c' then ['\\', 'f']
  else if c == '\n' then ['\\', 'n']
  else if c == '\r' then ['\\', 'r']
  else if c == '\t' then ['\\', 't']
  else if ' ' ≤ c && c ≤ '~' then [c]
  else if c.toNat < 0x10000 then codeEscape c.toNat
  else
    codeEscape (0xd800 + (c.toNat - 0x10000) / 0x400)
      ++ codeEscape (0xdc00 + (c.toNat - 0x10000) % 0x400)

def quoted (text : List Char) : List Char := '"' :: (text.flatMap escapeChar ++ ['"'])

def floatText (x : Binary64) : List Char :=
  match x with
  | .nan => "NaN".toList
  | .infinite negative => (if negative then "-Infinity" else "Infinity").toList
  | x => x.text

/-- The word or the number that a scalar is in a document; `none` if it has no such form. -/
def plainText? : Scalar → Except Fault (Option (List Char))
  | .null => .ok (some "null".toList)
  | .bool b => .ok (some (if b then "true" else "false").toList)
  | .int n => some <$> numberText n
  | .float x => .ok (some (floatText x))
  | _ => .ok none

/-- A key as it stands in a document. -/
def keyText (key : Value) : Except Fault (List Char) :=
  match key with
  | .text s => .ok (quoted s.toList)
  | .scalar s => do
      match ← plainText? s with
      | some characters => return quoted characters
      | none => throw (.badKey s.kindOf)
  | other => .error (.badKey other.kindOf)

def writeScalar (style : Style) (s : Scalar) : Except Fault (List Char) :=
  match s with
  | .text t => .ok (quoted t.toList)
  | .handle ⟨.bareOption, _⟩ =>
      .error (if style.opensOptions then .notImplemented else .unserializable .option)
  | .handle ⟨.growing, _⟩ => .error .insideItself
  | s => do
      match ← plainText? s with
      | some characters => return characters
      | none => throw (.unserializable s.kindOf)

mutual

/-- The document of a value. -/
def write (style : Style) : Value → Except Fault (List Char)
  | .scalar s => writeScalar style s
  | .list items => do
      return '[' :: (separated style.itemSeparator (← writeItems style items) ++ [']'])
  | .tuple items => do
      return '[' :: (separated style.itemSeparator (← writeItems style items) ++ [']'])
  | .dictionary entries => do
      return '\x7b' :: (separated style.itemSeparator (← writeMembers style entries) ++ ['\x7d'])
  | .option (.ok v) => if style.opensOptions then write style v else .error (.unserializable .some)
  | .option (.notOk _) =>
      if style.opensOptions then .ok "null".toList else .error (.unserializable .notOk)
  | other => .error (.unserializable other.kindOf)
termination_by structural v => v

def writeItems (style : Style) : List Value → Except Fault (List (List Char))
  | [] => .ok []
  | item :: rest => do
      let first ← write style item
      let others ← writeItems style rest
      return first :: others
termination_by structural items => items

def writeMembers (style : Style) : List (Value × Value) → Except Fault (List (List Char))
  | [] => .ok []
  | (key, v) :: rest => do
      let name ← keyText key
      let value ← write style v
      let others ← writeMembers style rest
      return (name ++ style.nameSeparator ++ value) :: others
termination_by structural entries => entries

end

end Presence.Json
