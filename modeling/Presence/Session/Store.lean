import Presence.Console
import Presence.Fault
import Presence.Logger
import Presence.Session.Literal

/-!
Contract: what a session keeps, and computations on it.

Owns: functions as what they do (`Function`); streams of text (`TextStream`); `Store`, which keeps
whatever handles refer to; `World`, the store with the surroundings of a session; `Run`, a
computation on a world that may end in a fault; making and finding what is kept.

Does not own: reading lists back into values (`Presence.Session.Cells`), calling functions
(`Presence.Session.Machine`).

Whatever is kept has its place as its number; places are only ever added, so that a new number is
never one that is in use.
-/

namespace Presence.Session

/-- What a function does. Functions inside it are values, which may fail to be functions. -/
inductive Function where
  /-- A function as it is given; what stands inside it has its values made at every call. -/
  | given (literal : Literal)
  /-- A function whose calls are written down, under the place that it was given at. -/
  | traced (place : Nat) (function : Value)
  /-- A function of a payload as one of whatever may hold it. -/
  | lifted (function : Value)
  /-- A function of a result with its error as one that fails on an error. -/
  | demanding (function : Value)

/-- A text that is written to and read from at a position, unless it is closed; it may have a
name. -/
structure TextStream where
  name : Option String
  content : List Char
  position : Nat
  isClosed : Bool

namespace TextStream

/-- A stream that is read from its start on. -/
def ofText (name : Option String) (content : List Char) : TextStream := ⟨name, content, 0, false⟩

/-- Puts a text in the place of what stands at the position. -/
def write (stream : TextStream) (text : List Char) : TextStream :=
  let after := stream.position + text.length
  { stream with
    content := stream.content.take stream.position ++ text ++ stream.content.drop after
    position := after }

/-- The line at the position with its end, and the stream behind it; no line is left at the end. -/
def nextLine? (stream : TextStream) : Option (List Char × TextStream) :=
  let left := stream.content.drop stream.position
  let front := left.takeWhile (· != '\n')
  let line := left.take (front.length + 1)
  if line.isEmpty then none
  else some (line, { stream with position := stream.position + line.length })

end TextStream

/-- What handles refer to. -/
structure Store where
  lists : Array (Array Value)
  functions : Array Function
  iterators : Array (List Value)
  streams : Array TextStream
  loggers : Array Logger
  /-- How often each client was closed. -/
  closings : Array Nat
  /-- How many objects there are that are the same only as themselves. -/
  objects : Nat

namespace Store

def empty : Store := ⟨#[], #[], #[], #[], #[], #[], 0⟩

/-- The items of a list. -/
def itemsOf (store : Store) (number : Nat) : List Value := ((store.lists[number]?).getD #[]).toList

end Store

/-- A call of a function that is written down, with the store as it was then. -/
structure Call where
  place : Nat
  arguments : List Value
  store : Store

structure World where
  store : Store
  environment : Environment
  now : Moment
  bindings : List (String × Value)
  console : Console
  calls : List Call

/-- A computation on a world. -/
abbrev Run (α : Type) : Type := Attempt (StateM World) α

namespace Run

/-- Fails with a fault in place of a value. -/
def fail {α : Type} (fault : Fault) : Run α := throw fault

def lift {α : Type} (result : Except Fault α) : Run α := Attempt.ofExcept result

def store : Run Store := do return (← get).store

def setStore (store : Store) : Run Unit := modify fun world => { world with store := store }

/-! ## Making what is kept -/

def newList (items : List Value) : Run Value := do
  let store ← Run.store
  setStore { store with lists := store.lists.push items.toArray }
  return .handle .growing store.lists.size

def newFunction (function : Function) : Run Value := do
  let store ← Run.store
  setStore { store with functions := store.functions.push function }
  return .handle .function store.functions.size

def newIterator (items : List Value) : Run Value := do
  let store ← Run.store
  setStore { store with iterators := store.iterators.push items }
  return .handle .iterator store.iterators.size

def newLogger (l : Logger) : Run Value := do
  let store ← Run.store
  setStore { store with loggers := store.loggers.push l }
  return .handle .logger store.loggers.size

def newClient (users failing : Value) : Run Value := do
  let store ← Run.store
  setStore { store with closings := store.closings.push 0 }
  return .client ⟨store.closings.size, users, failing⟩

/-- The number of a new object. -/
def newNumber : Run Nat := do
  let store ← Run.store
  setStore { store with objects := store.objects + 1 }
  return store.objects

def newStream (stream : TextStream) : Run Value := do
  let store ← Run.store
  setStore { store with streams := store.streams.push stream }
  return .handle .stream store.streams.size

/-- The stream of a name, the same one every time. -/
def streamOf (name : String) : Run Value := do
  match (← store).streams.findIdx? fun stream => stream.name == some name with
  | some place => return .handle .stream place
  | none => newStream (.ofText (some name) [])

/-! ## Finding what is kept -/

def listAt (number : Nat) : Run (List Value) := do return (← store).itemsOf number

/-- Adds an item to a list. -/
def addToList (number : Nat) (item : Value) : Run Unit := do
  let store ← Run.store
  setStore { store with lists := store.lists.modify number (·.push item) }

def iteratorAt (number : Nat) : Run (List Value) := do
  return ((← store).iterators[number]?).getD []

def setIterator (number : Nat) (items : List Value) : Run Unit := do
  let store ← Run.store
  setStore { store with iterators := store.iterators.setIfInBounds number items }

def streamAt (number : Nat) : Run TextStream := do
  return ((← store).streams[number]?).getD (.ofText none [])

def setStream (number : Nat) (stream : TextStream) : Run Unit := do
  let store ← Run.store
  setStore { store with streams := store.streams.setIfInBounds number stream }

def loggerAt (number : Nat) : Run Logger := do
  match (← store).loggers[number]? with
  | some l => return l
  | none => fail .badInput

def setLogger (number : Nat) (l : Logger) : Run Unit := do
  let store ← Run.store
  setStore { store with loggers := store.loggers.setIfInBounds number l }

/-- The stream at a place, which must not be closed. -/
def openStreamAt (number : Nat) (use : StreamUse) : Run TextStream := do
  let stream ← streamAt number
  if stream.isClosed then fail (.closedStream use) else return stream

/-- Closes a stream for good. -/
def closeStream (number : Nat) : Run Unit := do
  setStream number { ← streamAt number with isClosed := true }

/-- Counts one closing of a client. -/
def countClosing (number : Nat) : Run Unit := do
  let store ← Run.store
  setStore { store with closings := store.closings.modify number (· + 1) }

/-- Writes one line. -/
def writeLine (channel : Channel) (line : List Char) : Run Unit :=
  modify fun world => { world with console := world.console.writeLine channel line }

/-- Writes one line to a stream. What is written to a stream without a name is seen only by those
who read it. -/
def writeToStream (number : Nat) (line : List Char) : Run Unit := do
  let stream ← openStreamAt number .transfer
  setStream number (stream.write (line ++ ['\n']))
  if let some name := stream.name then writeLine (.named name) line

/-- Writes a call down. -/
def noteCall (place : Nat) (arguments : List Value) : Run Unit := do
  let store ← Run.store
  modify fun world => { world with calls := ⟨place, arguments, store⟩ :: world.calls }

end Run

end Presence.Session
