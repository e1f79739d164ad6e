import Presence.Fault
import Presence.Value.Text

/-!
Contract: results that come with an error, turned into faults.

Owns: `wrap`, the fault object that an error is wrapped in; `requireNothing`, which lets nothing
pass and makes a fault of every other error; taking a result apart into its value and its error.

Does not own: variables of the environment (`Presence.Environment`).
-/

namespace Presence.Must

/-- The fault object around an error. It is told the text of the error once and for all, and keeps
the error itself besides. -/
def wrap (number : Nat) (error : Value) (text : String) : Thrown Value :=
  ⟨number, .must, [.text text], some error⟩

/-- Fails unless an error is nothing. A fault object is raised as it is; any other error is wrapped,
with the text that it has as it is observed. -/
def requireNothing (number : Nat) (error observed : Value) : Except Fault Unit :=
  match error with
  | .null => .ok ()
  | .thrown t => .error (.thrown t)
  | other => do throw (.thrown (wrap number other (← observed.plain)))

/-- A result and its error, out of the parts of one value. -/
def resultOf (parts : List Value) : Except Fault (Value × Value) :=
  match parts with
  | [] => .error (.tooFewParts 0)
  | [_] => .error (.tooFewParts 1)
  | [result, error] => .ok (result, error)
  | _ => .error .tooManyParts

end Presence.Must
