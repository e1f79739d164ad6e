import Presence.Session.Throwing
import Presence.Value.Template

/-!
Contract: what the functions without functions inside them do.

Owns: `applyUnary` and `applyBinary`.

Does not own: functions made of functions (`Presence.Session.Machine`), and kinds used as functions
(`Presence.Session.Construct`).
-/

namespace Presence.Session

open Run

/-- The digits of a number with an optional minus sign. -/
def plainDigits? (text : List Char) : Option Int :=
  let (negative, digits) := match text with
    | '-' :: rest => (true, rest)
    | rest => (false, rest)
  if digits.isEmpty || !digits.all Char.isDigit then none
  else
    let size : Int := Nat.ofDigitChars 10 digits 0
    some (if negative then -size else size)

/-- A number with its error: nothing where the text spells a number. -/
def readInt (v : Value) : Run Value := do
  match v with
  | .text s =>
      match plainDigits? s.toList with
      | some n =>
          if s.toList.countP Char.isDigit > Text.digitLimit then
            fail (.longNumeral (s.toList.countP Char.isDigit))
          else return .tuple [.int n, .null]
      | none =>
          let error ← newThrown .value [.text ("not a number: " ++ s)]
          return .tuple [.int 0, .thrown error]
  | _ => fail .wrongType

def applyUnary (rule : UnaryRule) (x : Value) : Run Value := do
  match rule with
  | .neg => lift (← observe x).neg
  | .no => return .bool (!(← truth x))
  | .truth => return .bool (← truth x)
  | .plain => return .text (← lift (← observe x).plain)
  | .shown => return .text (← lift (← observe x).shown)
  | .size => return .int (← size x)
  | .twice => return .list [x, x]
  | .list => return .list (← parts x)
  | .tuple => return .tuple (← parts x)
  | .client => newClient x (.bool false)
  | .readInt => readInt x

def applyBinary (rule : BinaryRule) (x y : Value) : Run Value := do
  match rule with
  | .add => lift ((← look x).add (← look y))
  | .sub => lift ((← look x).sub (← look y))
  | .mul => lift ((← look x).mul (← look y))
  | .mod => lift ((← observe x).mod (← observe y))
  | .floorDiv => lift ((← look x).floorDiv (← look y))
  | .same => return .bool ((← observe x) == (← observe y))
  | .different => return .bool !((← observe x) == (← observe y))
  | .order sign =>
      return .bool (← Attempt.ofOption (Value.compare? sign (← observe x) (← observe y)))
  | .item => lift ((← look x).item (← observe y))
  | .within => return .bool (← holds y x)
  | .tuple => return .tuple [x, y]
  | .list => return .list [x, y]

end Presence.Session
