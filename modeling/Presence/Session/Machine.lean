import Presence.Session.Build
import Presence.Session.Conditions
import Presence.Session.Construct
import Presence.Session.Dependencies
import Presence.Session.General
import Presence.Session.Options
import Presence.Session.Rules
import Presence.Session.Sequences
import Presence.Session.Sides

/-!
Contract: performing operations and calling functions, which call each other.

Owns: `perform`, `call`, and the bound on how deep calls may nest.

Does not own: the operations of each theme, which take the way to call functions as a parameter.
-/

namespace Presence.Session

open Run

/-- Performs an operation, and keeps the lists of its result. Only loggers take arguments by
name. -/
def perform (call : Caller) (operation : Operation) (arguments : List Value)
    (keywords : Keywords) : Run Value := do
  match operation with
  | .logger operation => do keep (← performLogger operation arguments keywords)
  | operation =>
      if !keywords.isEmpty then fail .wrongType
      else keep (← match operation with
        | .option operation => performOption call operation arguments
        | .either operation => performEither call operation arguments
        | .managed operation => performManaged call operation arguments
        | .condition operation => performCondition call operation arguments
        | .sequence operation => performSequence call operation arguments
        | .logger operation => performLogger operation arguments []
        | .general operation => performGeneral call operation arguments)

/-- What a function that is given by a literal gives for some arguments. -/
def applyGiven (call : Caller) (literal : Literal) (arguments : List Value) : Run Value := do
  match literal, arguments with
  | .const v, _ => v.build
  | .fail kind argument, _ => do
      fail (.thrown (← newThrown kind [← argument.build]))
  | .first, x :: _ => return x
  | .first, [] => fail (.outOfRange .tuple)
  | .second, _ :: y :: _ => return y
  | .second, _ => fail (.outOfRange .tuple)
  | .unary rule, [x] => do keep (← applyUnary rule x)
  | .binary rule (some y), [x] => do keep (← applyBinary rule x (← y.build))
  | .binary rule none, [x, y] => do keep (← applyBinary rule x y)
  | .compose [], x :: _ => return x
  | .compose [], [] => fail (.outOfRange .tuple)
  | .compose (f :: rest), arguments => do
      rest.foldlM (fun sofar g => do call (← g.build) [sofar]) (← call (← f.build) arguments)
  | .choose condition yes no, arguments => do
      if ← truth (← call (← condition.build) arguments) then call (← yes.build) arguments
      else call (← no.build) arguments
  | .operation operation rest, arguments => do
      perform call operation (arguments ++ (← Literal.buildItems rest)) []
  | _, _ => fail .wrongType

/-- What a function gives for some arguments. -/
def apply (call : Caller) (function : Function) (arguments : List Value) : Run Value := do
  match function with
  | .given literal => applyGiven call literal arguments
  | .traced place f => do
      noteCall place (← arguments.mapM tell)
      call f arguments
  | .lifted f =>
      match arguments with
      | [v] => do
          Members.call (effect call f) v
          return .null
      | _ => fail .wrongType
  | .demanding f => demand call f arguments

/-- Calls a value, with calls nested to some depth at most. -/
def callTo : (depth : Nat) → Caller
  | 0, _, _ => fail .tooDeep
  | depth + 1, f, arguments => do
      match f with
      | .handle .function number =>
          match (← store).functions[number]? with
          | some function => apply (callTo depth) function arguments
          | none => fail .badInput
      | .ofKind kind => do keep (← construct kind arguments)
      | _ => fail .wrongType

/-- How deep calls may nest. -/
def depthLimit : Nat := 1000

def call : Caller := callTo depthLimit

end Presence.Session
