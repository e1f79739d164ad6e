import Presence.Binary64.Decimal
import Presence.Fault
import Presence.Text.Numeral
import Presence.Text.Quoted

/-!
Contract: the text of values.

Owns: `Value.write`, which writes a value either as it is shown among others, texts between
quotes, or plainly, a text as itself; `Value.shown` and `Value.plain`, its two uses.

Does not own: documents (`Presence.Json.Writer`), and what is kept elsewhere: a handle is written
by its sort only, and a list that is kept, of which only one inside itself is written, by dots.

Only a whole number with too many digits cannot be written.
-/

namespace Presence

/-- The decimal digits of a whole number with its sign, without a limit. -/
def decimal (n : Int) : List Char :=
  match n with
  | .ofNat size => Nat.toDigits 10 size
  | .negSucc size => '-' :: Nat.toDigits 10 (size + 1)

/-- The decimal digits of a whole number, unless there are too many. -/
def numberText (n : Int) : Except Fault (List Char) :=
  if (Nat.toDigits 10 n.natAbs).length > Text.digitLimit then .error .longNumber
  else .ok (decimal n)

/-- Texts with a separator between them. -/
def separated (separator : List Char) : List (List Char) → List Char
  | [] => []
  | [only] => only
  | first :: rest => first ++ separator ++ separated separator rest

/-- How a text is written: between quotes, or as itself. -/
inductive Look where
  | quoted
  | plain
deriving DecidableEq, Repr

namespace Scalar

def write (look : Look) : Scalar → Except Fault (List Char)
  | .null => .ok "None".toList
  | .bool true => .ok "True".toList
  | .bool false => .ok "False".toList
  | .int n => numberText n
  | .float x => .ok x.text
  | .complex re im => .ok (Binary64.complexText re im)
  | .text s =>
      match look with
      | .quoted => .ok (Text.quoted s.toList)
      | .plain => .ok s.toList
  | .bytes octets => .ok (Text.quotedOctets octets)
  | .byteArray octets => .ok ("bytearray(".toList ++ Text.quotedArray octets ++ [')'])
  | .kind k => .ok ("<class '".toList ++ k.qualifiedName.toList ++ "'>".toList)
  | .handle ⟨.growing, _⟩ => .ok "[...]".toList
  | .handle h => .ok ('<' :: (h.sort.kind.name.toList ++ ['>']))

end Scalar

namespace Value

/-- A part between the two ends of a form. -/
def inside (front : String) (back : String) (part : List Char) : List Char :=
  front.toList ++ part ++ back.toList

/-- The part of a path after its last slash. -/
def lastOfPath (path : List Char) : List Char := (path.reverse.takeWhile (· != '/')).reverse

/-- A file and a line, as far as they are told. -/
def placeText (file line : Value) : List Char :=
  match file, line with
  | .text path, .int n =>
      " (".toList ++ lastOfPath path.toList ++ ", line ".toList ++ decimal n ++ [')']
  | .text path, _ => inside " (" ")" (lastOfPath path.toList)
  | _, .int n => inside " (line " ")" (decimal n)
  | _, _ => []

/-- Where a fault in the grammar of a source lies. -/
def grammarPlace (details : Value) : List Char :=
  match details with
  | .tuple (file :: line :: _) => placeText file line
  | .list (file :: line :: _) => placeText file line
  | _ => []

/-- The text of a fault of a device: its number, what is wrong, and the files that it concerns,
which come with their texts. Of three things after the reason the second is no file. -/
def deviceText (number reason : List Char) (files : List Value) (texts : List (List Char)) :
    List Char :=
  let front := "[Errno ".toList ++ number ++ [']', ' '] ++ reason
  match files, texts with
  | first :: others, one :: more =>
      if first.isNull then front
      else
        match others with
        | [_, second] =>
            if second.isNull then front ++ [':', ' '] ++ one
            else front ++ [':', ' '] ++ one ++ " -> ".toList ++ more.getLastD []
        | _ => front ++ [':', ' '] ++ one
  | _, _ => front

/-- Whether a fault of a device has no arguments left but its number and its reason: files do not
count as arguments. -/
def dropsFiles (kind : FaultKind) (files : List Value) : Bool :=
  kind.isOfDevice && files.length ≤ 3 && !(files.headD .null).isNull

mutual

/-- The text of a value; the look concerns only a text, or a fault object, that is the value
itself. -/
def write (look : Look) : Value → Except Fault (List Char)
  | .scalar s => s.write look
  | .list items => do return inside "[" "]" (separated [',', ' '] (← writeItems items))
  | .tuple items => do
      match ← writeItems items with
      | [only] => return inside "(" ",)" only
      | parts => return inside "(" ")" (separated [',', ' '] parts)
  | .set items => do
      match ← writeItems items with
      | [] => return "set()".toList
      | parts => return inside "\x7b" "\x7d" (separated [',', ' '] parts)
  | .frozenSet items => do
      match ← writeItems items with
      | [] => return "frozenset()".toList
      | parts => return inside "frozenset(\x7b" "\x7d)" (separated [',', ' '] parts)
  | .dictionary entries => do
      return inside "\x7b" "\x7d" (separated [',', ' '] (← writeEntries entries))
  | .option (.ok v) => do return inside "Some(" ")" (← write .quoted v)
  | .option (.notOk _) => .ok "NotOk()".toList
  | .either (.left v _) => do return inside "Left(" ")" (← write .quoted v)
  | .either (.right v _) => do return inside "Right(" ")" (← write .quoted v)
  | .pair ⟨first, second⟩ => do
      let one ← write .quoted first
      let two ← write .quoted second
      return inside "Pair(v1=" ", v2=" one ++ inside "" ")" two
  | .sequence ⟨items⟩ => do return inside "Mapper(_items=" ")" (← write .quoted items)
  | .managed ⟨holder, basic⟩ => do
      return holder.kind.name.toList ++ inside "(" ")" (← write .quoted basic)
  | .guarded ⟨v⟩ => do return inside "Cond(value=" ")" (← write .quoted v)
  | .deferred ⟨f⟩ => do return inside "LazyCond(fn=" ")" (← write .quoted f)
  | .ternary ⟨condition, v, none⟩ => do
      let holds ← write .quoted condition
      let value ← write .quoted v
      return inside "Ternary(condition=" ", then_value=" holds ++ inside "" ", then_fn=None)" value
  | .ternary ⟨condition, v, some f⟩ => do
      let holds ← write .quoted condition
      let value ← write .quoted v
      let call ← write .quoted f
      return inside "Ternary(condition=" ", then_value=" holds ++ inside "" ", then_fn=" value
        ++ inside "" ")" call
  | .parseError ⟨input, reason, fallback⟩ => do
      let source ← write .quoted input
      let why ← write .quoted reason
      let number ← write .quoted fallback
      return inside "ParseError(input=" ", reason=" source ++ inside "" ", default=" why
        ++ inside "" ")" number
  | .thrown ⟨_, kind, [], _⟩ =>
      match look with
      | .plain => .ok (if kind.isOfGrammar then "None".toList else [])
      | .quoted => .ok (kind.name.toList ++ "()".toList)
  | .thrown ⟨_, kind, [only], _⟩ => do
      match look with
      | .plain => write (if kind = .key then .quoted else .plain) only
      | .quoted => return kind.name.toList ++ inside "(" ")" (← write .quoted only)
  | .thrown ⟨_, kind, first :: second :: rest, _⟩ => do
      let one ← write .quoted first
      let two ← write .quoted second
      let others ← writeItems rest
      match look with
      | .quoted =>
          let shown := if dropsFiles kind rest then [one, two] else one :: two :: others
          return kind.name.toList ++ inside "(" ")" (separated [',', ' '] shown)
      | .plain =>
          if kind.isOfGrammar then
            return (← write .plain first) ++ (if rest.isEmpty then grammarPlace second else [])
          else if kind.isOfDevice && rest.length ≤ 3 then
            return deviceText (← write .plain first) (← write .plain second) rest others
          else return inside "(" ")" (separated [',', ' '] (one :: two :: others))
  | .client ⟨_, users, _⟩ => do return inside "Client(" ")" (← write .quoted users)
termination_by structural v => v

def writeItems : List Value → Except Fault (List (List Char))
  | [] => .ok []
  | item :: rest => do
      let first ← write .quoted item
      let others ← writeItems rest
      return first :: others
termination_by structural items => items

def writeEntries : List (Value × Value) → Except Fault (List (List Char))
  | [] => .ok []
  | (key, v) :: rest => do
      let first ← write .quoted key
      let second ← write .quoted v
      let others ← writeEntries rest
      return (first ++ [':', ' '] ++ second) :: others
termination_by structural entries => entries

end

/-- The text of a value among others. -/
def shown (v : Value) : Except Fault String := String.ofList <$> write .quoted v

/-- The text of a value by itself. -/
def plain (v : Value) : Except Fault String := String.ofList <$> write .plain v

end Value

end Presence
