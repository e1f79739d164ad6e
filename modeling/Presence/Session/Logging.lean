import Presence.Session.Cells

/-!
Contract: the operations on loggers in a session.

Owns: `performLogger`; how arguments are matched with parameters by place and by name; where lines
are written.

Does not own: what a line holds (`Presence.Logger`).
-/

namespace Presence.Session

open Run

/-- Names with values, in the order in which they were given. -/
abbrev Keywords : Type := List (String × Value)

/-- The argument of each parameter, by its place or by its name. -/
def argumentsOf (parameters : List String) (arguments : List Value) (keywords : Keywords) :
    Run (List (Option Value)) := do
  let named := parameters.drop arguments.length
  if parameters.length < arguments.length || keywords.any fun k => !named.contains k.1 then
    fail .wrongType
  else return arguments.map some ++ named.map fun name => keywords.lookup name

/-- A value as the number of a logger. -/
def loggerNumber (v : Value) : Run Nat := do
  match v with
  | .handle .logger number => return number
  | _ => fail .badInput

/-- The bound fields that a value gives as entries. What counts as false gives none. -/
def contextOf (v : Value) : Run (List (Value × Value)) := do
  if ← truth v then entriesOf v else return []

/-- A logger with its lists read back. -/
def observeLogger (l : Logger) : Run Logger := do
  let name ← observe l.name
  let asDocument ← observe l.asDocument
  let context ← l.context.mapM fun field => do return (← observe field.1, ← observe field.2)
  return { l with name := name, asDocument := asDocument, context := context }

/-- Writes a line where the lines of a logger go. A kind of streams can be written to by one of its
streams alone. -/
def writeTo (sink : Value) (line : List Char) : Run Unit := do
  match sink with
  | .null => writeLine .errors line
  | .handle .stream number => writeToStream number line
  | .ofKind .stream => fail .wrongType
  | _ => fail .noMember

/-- Writes a message, if the level passes. -/
def log (number : Nat) (level : Level) (message : Value) (fields : Keywords) : Run Unit := do
  let l ← loggerAt number
  if ← lift (l.passes level) then
    let l ← observeLogger l
    let message ← observe message
    let fields ← fields.mapM fun field => do return (Value.text field.1, ← observe field.2)
    writeTo l.sink (← lift (l.line (← get).now level message fields))

/-- The message of a call, by its place or by its name, and the fields that are left. The names of
the parameters themselves can be no fields. -/
def messageOf (arguments : List Value) (keywords : Keywords) : Run (Value × Keywords) := do
  if keywords.any fun k => k.1 == "self" || k.1 == "level" then fail .wrongType
  else
    let fields := keywords.filter fun k => k.1 != "msg"
    match arguments, keywords.lookup "msg" with
    | [message], none => return (message, fields)
    | [], some message => return (message, fields)
    | _, _ => fail .wrongType

/-- A logger out of the arguments for its parameters. -/
def makeLogger (name level asDocument context sink : Option Value) : Run Value := do
  let l ← lift (Logger.ofLevel (name.getD (.text Logger.defaultName))
    (level.getD (.text Level.info.name)) (asDocument.getD (.bool false)) [] (sink.getD .null))
  let context ← contextOf (context.getD .null)
  newLogger { l with context := context }

/-- A logger out of the arguments for its parameters, by their place and by their name. -/
def loggerOf (arguments : List Value) (keywords : Keywords) : Run Value := do
  match ← argumentsOf ["name", "level", "json_output", "context", "stream"] arguments keywords with
  | [name, level, asDocument, context, sink] => makeLogger name level asDocument context sink
  | _ => fail .wrongType

/-- A logger at the level of a variable, out of the arguments for its parameters. -/
def loggerOfEnvironment (name variableName asDocument : Option Value) : Run Value := do
  match variableName.getD (.text Logger.defaultVariable) with
  | .text variableName => do
      let l ← lift (Logger.ofEnvironment (← get).environment
        (name.getD (.text Logger.defaultName)) variableName (asDocument.getD (.bool false)))
      newLogger l
  | _ => fail .wrongType

/-- An operation on a logger that is there. -/
def performOnLogger (operation : LoggerOperation) (number : Nat) (arguments : List Value)
    (keywords : Keywords) : Run Value := do
  let l ← loggerAt number
  match operation with
  | .setLevel => do
      match ← argumentsOf ["level"] arguments keywords with
      | [some level] => do
          setLogger number (← lift (l.setLevel level))
          return .null
      | _ => fail .wrongType
  | .enabled => do
      match ← argumentsOf ["level"] arguments keywords with
      | [some level] => lift (l.enabled level)
      | _ => fail .wrongType
  | .levelName => do
      let _ ← argumentsOf [] arguments keywords
      return .text l.level.name
  | .bind =>
      if !arguments.isEmpty || keywords.any fun k => k.1 == "self" then fail .wrongType
      else newLogger (l.bind (keywords.map fun k => (.text k.1, k.2)))
  | .assignLevel =>
      match arguments with
      | [n] => do
          setLogger number { l with threshold := n }
          return .null
      | _ => fail .wrongType
  | operation =>
      let (message, fields) ← messageOf arguments keywords
      match operation with
      | .debug => log number .debug message fields
      | .info => log number .info message fields
      | .warn => log number .warn message fields
      | .error => log number .error message fields
      | _ => fail .badInput
      return .null

def performLogger (operation : LoggerOperation) (arguments : List Value) (keywords : Keywords) :
    Run Value := do
  match operation with
  | .make => loggerOf arguments keywords
  | .ofEnvironment => do
      match ← argumentsOf ["name", "var", "json_output"] arguments keywords with
      | [name, variableName, asDocument] => loggerOfEnvironment name variableName asDocument
      | _ => fail .wrongType
  | operation =>
      match arguments with
      | [] => fail .wrongType
      | l :: arguments => do performOnLogger operation (← loggerNumber l) arguments keywords

end Presence.Session
