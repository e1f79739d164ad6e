import Presence.Environment
import Presence.Json.Writer
import Presence.Moment
import Presence.Sequence.Sort
import Presence.Value.Lookup
import Presence.Value.Order

/-!
Contract: loggers, which turn messages with fields into lines.

Owns: the four levels and how their names are told; `Logger`, with the threshold below which it is
silent; binding fields; the two forms of a line, text and document.

Does not own: where lines are written (`Presence.Session.Logging`).

The text form lists the fields in the order of their names, the document form in the order in which
they were first given. A field of a call takes the place of a bound field of its name.
-/

namespace Presence

inductive Level where
  | debug
  | info
  | warn
  | error
deriving DecidableEq, Repr

namespace Level

def all : List Level := [.debug, .info, .warn, .error]

def name : Level → String
  | .debug => "DEBUG"
  | .info => "INFO"
  | .warn => "WARN"
  | .error => "ERROR"

def number : Level → Int
  | .debug => 10
  | .info => 20
  | .warn => 30
  | .error => 40

/-- A character in upper case. Of those beyond the first block only two become letters of it. -/
def upper (c : Char) : Char :=
  if c == 'ı' then 'I' else if c == 'ſ' then 'S' else c.toUpper

/-- The level of a name in any case. -/
def ofName? (text : String) : Option Level :=
  all.find? fun level => level.name.toList == text.toList.map upper

/-- The level that a value names. Octets name none; what is neither text nor octets has no case, and
a kind of either has one only for a value. -/
def ofValue? (v : Value) : Except Fault (Option Level) :=
  match v with
  | .text s => .ok (ofName? s)
  | .bytes _ => .ok none
  | .byteArray _ => .error (.unhashable .byteArray)
  | .ofKind .text => .error .wrongType
  | .ofKind .bytes => .error .wrongType
  | .ofKind .byteArray => .error .wrongType
  | _ => .error .noMember

end Level

/-- A logger. It says nothing below its threshold, which is the number of a level unless it was set
to another number. -/
structure Logger where
  name : Value
  threshold : Value
  /-- Lines are documents if this counts as true. -/
  asDocument : Value
  /-- The bound fields. -/
  context : List (Value × Value)
  /-- Where lines go; nothing stands for the stream of errors. -/
  sink : Value

namespace Logger

/-- The name of a logger that is given none. -/
def defaultName : String := "fluentfp"

/-- The variable that tells the level of a logger that is told no other one. -/
def defaultVariable : String := "FLUENTFP_LOG_LEVEL"

/-- The fields of two dictionaries, the second one taking the place of the first. -/
def merge (fields others : List (Value × Value)) : List (Value × Value) :=
  others.foldl (fun sofar field => Value.putStored field.1 field.2 sofar) fields

/-- The threshold of a level, the middle one if there is none. -/
def thresholdOf (level : Option Level) : Value := .int (level.getD .info).number

/-- A logger at the level of a value. -/
def ofLevel
    (name level asDocument : Value)
    (context : List (Value × Value))
    (sink : Value) : Except Fault Logger := do
  return ⟨name, thresholdOf (← Level.ofValue? level), asDocument, context, sink⟩

/-- A logger at the level that a variable of the environment names. -/
def ofEnvironment
    (environment : Environment)
    (name : Value)
    (variableName : String)
    (asDocument : Value) : Except Fault Logger :=
  ofLevel name ((environment.find variableName).orElse (.text Level.info.name)) asDocument [] .null

/-- Sets the level, unless the name is that of none. -/
def setLevel (l : Logger) (level : Value) : Except Fault Logger := do
  match ← Level.ofValue? level with
  | some level => return { l with threshold := .int level.number }
  | none => return l

/-- The level whose number the threshold is; the middle one for another number. -/
def level (l : Logger) : Level :=
  (Level.all.find? fun level => Value.int level.number == l.threshold).getD .info

/-- Whether a level reaches the threshold. -/
def passes (l : Logger) (level : Level) : Except Fault Bool :=
  match Value.compare? .greaterOrSame (.int level.number) l.threshold with
  | some answer => .ok answer
  | none => .error .wrongType

/-- Whether the level of a name reaches the threshold; nothing for the name of none. -/
def enabled (l : Logger) (level : Value) : Except Fault Value := do
  match ← Level.ofValue? level with
  | some level => return .bool (← l.passes level)
  | none => return .null

/-- A logger with more fields bound, at the level whose number the threshold is. -/
def bind (l : Logger) (fields : List (Value × Value)) : Logger :=
  { l with threshold := thresholdOf (some l.level), context := merge l.context fields }

/-- One field in the text of a line. -/
def fieldText (field : Value × Value) : Except Fault (List Char) := do
  let name ← field.1.plain
  let value ← field.2.plain
  return ' ' :: (name.toList ++ '=' :: value.toList)

/-- The fields in the order of their names. -/
def sortedFields (fields : List (Value × Value)) : Except Fault (List (Value × Value)) :=
  match Sort.sort (Value.compare? .less)
      (fields.map fun field => ⟨.tuple [field.1, field.2], field⟩) with
  | some sorted => .ok (sorted.map Sort.Keyed.item)
  | none => .error .wrongType

/-- A line in text form. -/
def textLine (l : Logger) (moment : Moment) (level : Level) (message : Value)
    (fields : List (Value × Value)) : Except Fault (List Char) := do
  let extras ← (← sortedFields fields).mapM fieldText
  let name ← l.name.plain
  let text ← message.plain
  return '[' :: (moment.text ++ ']' :: ' ' :: (name.toList ++ ' ' :: (level.name.toList
    ++ ':' :: ' ' :: (text.toList ++ extras.flatten))))

/-- The document of a line. The fields are left out where there are none. -/
def recordOf (l : Logger) (moment : Moment) (level : Level) (message : Value)
    (fields : List (Value × Value)) : Value :=
  .dictionary ([(.text "ts", .text (String.ofList moment.text)),
      (.text "name", l.name),
      (.text "level", .text level.name),
      (.text "msg", message)]
    ++ if fields.isEmpty then [] else [(.text "fields", .dictionary fields)])

/-- The line of a message, with the bound fields and those of the call. -/
def line (l : Logger) (moment : Moment) (level : Level) (message : Value)
    (fields : List (Value × Value)) : Except Fault (List Char) :=
  let fields := merge l.context fields
  match l.asDocument.truthy? with
  | some true => Json.write .compact (l.recordOf moment level message fields)
  | some false => l.textLine moment level message fields
  | none => .error .wrongType

end Logger

end Presence
