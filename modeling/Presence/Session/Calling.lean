import Presence.Session.Cells

/-!
Contract: how functions that are values are used.

Owns: `Caller`, how functions are called; a function as a test, and for its effects alone.

Does not own: calling itself (`Presence.Session.Machine`).
-/

namespace Presence.Session

open Run

/-- How functions are called. -/
abbrev Caller : Type := Value → List Value → Run Value

/-- A function of one argument as a test. -/
def test (call : Caller) (f : Value) (x : Value) : Run Bool := do truth (← call f [x])

/-- A function of one argument for its effects alone. -/
def effect (call : Caller) (f : Value) (x : Value) : Run Unit := do
  let _ ← call f [x]

/-- A value and a truth value side by side. -/
def withFlag (result : Except Kind (Value × Bool)) : Run Value := do
  let (v, flag) ← Attempt.ofHash result
  return .tuple [v, .bool flag]

end Presence.Session
