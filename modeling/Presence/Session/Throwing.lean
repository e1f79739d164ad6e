import Presence.Must
import Presence.Session.Cells

/-!
Contract: fault objects as they are made in a session.

Owns: `newThrown`, with the kinds that take only some arguments or make something else of them.

Does not own: the text of fault objects (`Presence.Value.Text`).
-/

namespace Presence.Session

open Run

/-- The fault object around an error, which has the text that the error has now. -/
def newWrapped (error : Value) : Run (Thrown Value) := do
  let text ← lift (← observe error).plain
  return Must.wrap (← newNumber) error text

/-- The kind of a fault of a device that is told its number. -/
def deviceKind (arguments : List Value) : FaultKind :=
  match arguments with
  | number :: _ :: rest =>
      if rest.length ≤ 3 then (number.int?.bind FaultKind.ofDeviceNumber?).getD .device else .device
  | _ => .device

/-- Fails unless a fault in the grammar of a source that is told a place is told four or six
things of it. -/
def requirePlace (arguments : List Value) : Run Unit := do
  match arguments with
  | [_, details] => do
      let count := (← parts details).length
      if count != 4 && count != 6 then fail .wrongType
  | _ => return

/-- A fault object. Those that tell where a text is wrong and those that hold other faults are not
made of what a session has. -/
def newThrown (kind : FaultKind) (arguments : List Value) : Run (Thrown Value) := do
  match kind, arguments with
  | .must, [error] => newWrapped error
  | .must, _ => fail .wrongType
  | .unicodeDecode, _ => fail .wrongType
  | .unicodeEncode, _ => fail .wrongType
  | .unicodeTranslate, _ => fail .wrongType
  | .jsonDecode, _ => fail .wrongType
  | .group, _ => fail .wrongType
  | .baseGroup, _ => fail .wrongType
  | .device, arguments => return ⟨← newNumber, deviceKind arguments, arguments, none⟩
  | kind, arguments => do
      if kind.isOfGrammar then requirePlace arguments
      return ⟨← newNumber, kind, arguments, none⟩

end Presence.Session
