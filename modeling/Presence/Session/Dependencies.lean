import Presence.Managed
import Presence.Session.Members

/-!
Contract: the operations on managed dependencies in a session.

Owns: `performManaged`; opening into whatever is given for a holder.

Does not own: the operations themselves (`Presence.Managed`), and what a holder passes on
(`Presence.Session.Members`).
-/

namespace Presence.Session

open Run

/-- A value as a managed dependency. -/
def managedOf (v : Value) : Run (Managed Value) := do
  match v with
  | .managed d => return d
  | _ => fail .badInput

/-- The option of a dependency that an opener makes of its source, unless the source is a zero. -/
def openOption (call : Caller) (source opener : Value) : Run (Optional Value Value) := do
  let d ← Managed.openWith .plain (← observe source) fun _ => call opener [source]
  return d.basic

/-- Opens a dependency and puts it into what is given for a holder. -/
def openInto (call : Caller) (source opener wrap : Value) : Run Value := do
  let basic := Value.option (← openOption call source opener)
  match wrap with
  | .null => return .managed ⟨.closable, basic⟩
  | wrap => call wrap [basic]

/-- Runs a body on a dependency, or on a stream, and closes it. -/
def bracket (call : Caller) (v body : Value) : Run Value := do
  match v with
  | .managed d =>
      if d.holder.canClose then d.bracket Members.closeInside (call body [v]) else fail .wrongType
  | .handle .stream number => do
      let _ ← openStreamAt number .start
      Attempt.closing (call body [v]) (closeStream number)
  | _ => fail .wrongType

def performManaged (call : Caller) (operation : ManagedOperation) (arguments : List Value) :
    Run Value := do
  match operation, arguments with
  | .plain, [] => return .managed ⟨.plain, .option (.notOk .null)⟩
  | .plain, [v] => return .managed ⟨.plain, v⟩
  | .closable, [] => return .managed ⟨.closable, .option (.notOk .null)⟩
  | .closable, [v] => return .managed ⟨.closable, v⟩
  | .openWith, [source, opener] => openInto call source opener .null
  | .openWith, [source, opener, wrap] => openInto call source opener wrap
  | .bracket, [v, body] => bracket call v body
  | .isOk, [v] => return .bool (← Members.isOk (← managedOf v).basic)
  | .get, [v] => do Members.get (← managedOf v).basic
  | .mustGet, [v] => do Members.mustGet (← managedOf v).basic
  | .orElse, [v, fallback] => do Members.orElse fallback (← managedOf v).basic
  | .call, [v, f] => do
      Members.call (effect call f) (← managedOf v).basic
      return .null
  | .close, [v] => do
      Members.close (.managed (← managedOf v))
      return .null
  | _, _ => fail .wrongType

end Presence.Session
