import Presence.Example.Sources
import Presence.Session.Calling

/-!
Contract: what can be asked of any value in a session, and the examples.

Owns: `performGeneral`; running an example on the console of a session.

Does not own: the examples (`Presence.Example`).
-/

namespace Presence.Session

open Run

/-- Runs an example on the console of the world. -/
def runScript (script : Example.Script Unit) : Run Unit := do
  let (outcome, console) := script.run.run (← get).console
  modify fun world => { world with console := console }
  lift outcome

/-- Adds an item to a list in place. -/
def appendToList (v item : Value) : Run Value := do
  match v with
  | .handle .growing number => do
      addToList number item
      return v
  | _ => fail .noMember

/-- The text of a command line argument. -/
def commandOf (v : Value) : String :=
  match v with
  | .text s => s
  | _ => ""

def performGeneral (call : Caller) (operation : GeneralOperation) (arguments : List Value) :
    Run Value := do
  match operation, arguments with
  | .size, [v] => return .int (← size v)
  | .printLine, [v] => do
      writeLine .output (← lift (← observe v).plain).toList
      return .null
  | .same, [v, w] => return .bool ((← observe v) == (← observe w))
  | .different, [v, w] => return .bool !((← observe v) == (← observe w))
  | .shown, [v] => return .text (← lift (← observe v).shown)
  | .plain, [v] => return .text (← lift (← observe v).plain)
  | .truthy, [v] => return .bool (← truth v)
  | .hashable, [v] => do
      Attempt.ofHash v.requireHash
      return .bool true
  | .sameHash, [v, w] => do
      Attempt.ofHash v.requireHash
      Attempt.ofHash w.requireHash
      return .bool (v.hashesAgree w)
  | .give, [v] => return v
  | .call, f :: arguments => call f arguments
  | .appendToList, [v, item] => appendToList v item
  | .parsePositive, [source] => do
      match ← lift (Example.parsePositive (← observe source)) with
      | .left ⟨input, reason, fallback⟩ kind =>
          return .either (.left (.parseError ⟨input, .text reason, .int fallback⟩) kind)
      | .right n kind => return .either (.right (.int n) kind)
  | .tour, _ => do
      runScript Example.tour
      return .null
  | .sources, arguments => do
      let world ← get
      runScript (Example.sources world.environment world.now (arguments.map commandOf))
      return .null
  | _, _ => fail .wrongType

end Presence.Session
