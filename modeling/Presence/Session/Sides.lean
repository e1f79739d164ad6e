import Presence.Either
import Presence.Sequence
import Presence.Session.Members

/-!
Contract: the operations on either side in a session.

Owns: `performEither`; the operations that may be given something else than a side.

Does not own: the operations themselves (`Presence.Either`).
-/

namespace Presence.Session

open Run

/-- A value as one of two sides. -/
def eitherOf (v : Value) : Run (Either Value Value Value) := do
  match v with
  | .either e => return e
  | .handle .bareEither _ => fail .notImplemented
  | _ => fail .badInput

/-- A value as one of two sides, where it need not be one. -/
def sidesOf (v : Value) : Run (Either Value Value Value) := do
  match v with
  | .either e => return e
  | .handle .bareEither _ => fail .notImplemented
  | .ofKind kind => Members.ofKind kind.isOfSides
  | _ => fail .noMember

/-- What whichever side there is gives. A sequence is gone through from the first function on. -/
def foldFree (call : Caller) (v onLeft onRight : Value) : Run Value := do
  match v with
  | .sequence ⟨items⟩ => do (← feedOf items).fold onLeft fun sofar x => call onRight [sofar, x]
  | .ofKind kind => Members.ofKind (kind.isOfSides || kind == .sequence)
  | v => (← sidesOf v).fold (fun x => call onLeft [x]) (fun x => call onRight [x])

def performEither (call : Caller) (operation : EitherOperation) (arguments : List Value) :
    Run Value := do
  match operation, arguments with
  | .left, [v] => return .either (.left v .null)
  | .left, [v, kind] => return .either (.left v kind)
  | .right, [v] => return .either (.right v .null)
  | .right, [v, kind] => return .either (.right v kind)
  | .foldFree, [v, onLeft, onRight] => foldFree call v onLeft onRight
  | .mapRightFree, [v, f] => return .either (← (← sidesOf v).mapRight fun x => call f [x])
  | .mapLeftFree, [v, f] => return .either (← (← sidesOf v).mapLeft fun x => call f [x])
  | .isLeft, [v] => return .bool (← eitherOf v).isLeft
  | .isRight, [v] => return .bool (← eitherOf v).isRight
  | .get, [v] => do withFlag (← eitherOf v).get
  | .getLeft, [v] => do withFlag (← eitherOf v).getLeft
  | .getOrElse, [v, fallback] => return (← eitherOf v).getOrElse fallback
  | .leftOrElse, [v, fallback] => return (← eitherOf v).leftOrElse fallback
  | .getOrCall, [v, f] => (← eitherOf v).getOrCall (call f [])
  | .leftOrCall, [v, f] => (← eitherOf v).leftOrCall (call f [])
  | .mustGet, [v] => lift (← eitherOf v).mustGet
  | .mustGetLeft, [v] => lift (← eitherOf v).mustGetLeft
  | .map, [v, f] => return .either (← (← eitherOf v).map fun x => call f [x])
  | .flatMap, [v, f] =>
      (← eitherOf v).andThen (fun x => call f [x]) fun error kind => .either (.left error kind)
  | .mapLeft, [v, f] => return .either (← (← eitherOf v).mapLeft fun x => call f [x])
  | .fold, [v, onLeft, onRight] =>
      (← eitherOf v).fold (fun x => call onLeft [x]) (fun x => call onRight [x])
  | .ifRight, [v, f] => do
      (← eitherOf v).ifRight (effect call f)
      return .null
  | .ifLeft, [v, f] => do
      (← eitherOf v).ifLeft (effect call f)
      return .null
  | .toOption, [v] => return .option (← eitherOf v).toOption
  | _, _ => fail .wrongType

end Presence.Session
