import Presence.Condition
import Presence.Must
import Presence.Session.Calling

/-!
Contract: the operations on conditions and demands in a session.

Owns: `performCondition`; what a demanding function does (`demand`).

Does not own: the operations themselves (`Presence.Condition`, `Presence.Must`).
-/

namespace Presence.Session

open Run

/-- Fails unless an error is nothing. -/
def requireNothing (error : Value) : Run Unit := do
  let number ← newNumber
  lift (Must.requireNothing number error (← observe error))

/-- Calls a function that gives a result with its error, and gives the result alone. -/
def demand (call : Caller) (f : Value) (arguments : List Value) : Run Value := do
  match arguments with
  | [x] => do
      let outcome ← call f [x]
      let (result, error) ← lift (Must.resultOf (← partsUpTo 3 outcome))
      requireNothing error
      return result
  | _ => fail .wrongType

def performCondition (call : Caller) (operation : ConditionOperation) (arguments : List Value) :
    Run Value := do
  let run (f : Value) : Run Value := call f []
  match operation, arguments with
  | .guarded, [v] => return .guarded ⟨v⟩
  | .guardedWhen, [.guarded g, condition] => return .option (g.when (← truth condition))
  | .deferred, [f] => return .deferred ⟨f⟩
  | .deferredWhen, [.deferred d, condition] =>
      return .option (← d.when (← truth condition) run)
  | .ternary, [condition] => return .ternary (.ofCondition (.bool (← truth condition)) .null)
  | .thenGive, [.ternary t, v] => return .ternary (t.thenGive v)
  | .thenRun, [.ternary t, .null] => return .ternary (t.thenGive .null)
  | .thenRun, [.ternary t, f] => return .ternary (t.thenRun .null f)
  | .orGive, [.ternary t, v] => do (t.decided (← truth t.condition)).orGive run v
  | .orRun, [.ternary t, f] => do (t.decided (← truth t.condition)).orRun run f
  | .requireNothing, [error] => do
      requireNothing error
      return .null
  | .requireOne, [v, error] => do
      requireNothing error
      return v
  | .requireTwo, [v, w, error] => do
      requireNothing error
      return .tuple [v, w]
  | .requireResult, [f] => newFunction (.demanding f)
  | .requireVariable, [.text name] => return .text (← lift ((← get).environment.require name))
  | .guardedWhen, [_, _] => fail .badInput
  | .deferredWhen, [_, _] => fail .badInput
  | .thenGive, [_, _] => fail .badInput
  | .thenRun, [_, _] => fail .badInput
  | .orGive, [_, _] => fail .badInput
  | .orRun, [_, _] => fail .badInput
  | _, _ => fail .wrongType

end Presence.Session
