import Presence.Optional

/-!
Contract: payloads and functions that wait for a condition.

Owns: `Guarded` payloads, `Deferred` functions, and the `Ternary` with its two branches.

Does not own: which values count as true (`Value.truthy`).
-/

namespace Presence

variable {m : Type → Type} [Monad m] {κ α φ : Type}

/-- The payload if the condition holds. -/
def Guarded.when (g : Guarded Value) (condition : Bool) : Optional Value Value :=
  .guarded g.value condition

/-- The result of the function if the condition holds; the function runs only then. -/
def Deferred.when [Inhabited κ] (d : Deferred φ) (condition : Bool) (run : φ → Attempt m α) :
    Attempt m (Optional κ α) :=
  if condition then do return .ok (← run d.run) else pure (.notOk default)

namespace Ternary

/-- A condition with nothing to come of it yet. -/
def ofCondition {β : Type} (condition : β) (nothing : α) : Ternary β α φ :=
  ⟨condition, nothing, none⟩

/-- Sets a payload, in place of whatever was set before. -/
def thenGive {β : Type} (t : Ternary β α φ) (v : α) : Ternary β α φ := ⟨t.condition, v, none⟩

/-- Sets a function, in place of whatever was set before. -/
def thenRun {β : Type} (t : Ternary β α φ) (nothing : α) (f : φ) : Ternary β α φ :=
  ⟨t.condition, nothing, some f⟩

/-- The same with a condition that is decided. -/
def decided {β : Type} (t : Ternary β α φ) (condition : Bool) : Ternary Bool α φ :=
  ⟨condition, t.thenValue, t.thenCall⟩

/-- What comes of a condition that holds. -/
def holds (t : Ternary Bool α φ) (run : φ → Attempt m α) : Attempt m α :=
  match t.thenCall with
  | none => pure t.thenValue
  | some f => run f

/-- What comes of the condition, a payload otherwise. -/
def orGive (t : Ternary Bool α φ) (run : φ → Attempt m α) (otherwise : α) : Attempt m α :=
  if t.condition then t.holds run else pure otherwise

/-- What comes of the condition, the result of a function otherwise. -/
def orRun (t : Ternary Bool α φ) (run : φ → Attempt m α) (otherwise : φ) : Attempt m α :=
  if t.condition then t.holds run else run otherwise

end Ternary

end Presence
