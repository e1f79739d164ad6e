import Presence.Fault
import Presence.Zero

/-!
Contract: what can be done with a payload that may be absent.

Owns: the ways to make an option, to take its payload out with or without a fallback, and to go on
with a function of the payload. Functions may have effects and may fail; a function of the payload
runs once if there is one, else never.

Does not own: documents of options (`Presence.Json.Optional`).
-/

namespace Presence.Optional

variable {m : Type → Type} [Monad m] {κ α β γ : Type}

/-! ## Making options -/

/-- The payload under a condition. What is dropped leaves its kind behind. -/
def guarded (v : Value) (condition : Bool) : Optional Value Value :=
  if condition then .ok v else .notOk v.kindLeft

/-- The payload unless it is nothing. -/
def ofNullable (v kind : Value) : Optional Value Value :=
  if v.isNull then .notOk kind else .ok v

/-- The payload unless it is a zero. -/
def unlessZero (v : Value) : Optional Value Value := guarded v (!isZero v)

/-! ## Taking the payload out -/

/-- The kind of the payload, or the kind that its absence came with. -/
def kind (o : Optional Value Value) : Value :=
  match o with
  | .ok v => .ofKind v.kindOf
  | .notOk kind => kind

/-- The payload or the zero of its kind, and which of the two it is. -/
def get (o : Optional Value Value) : Except Kind (Value × Bool) :=
  match o with
  | .ok v => .ok (v, true)
  | .notOk kind => do return (← zeroOf kind, false)

def orZero (o : Optional Value Value) : Except Kind Value := do return (← o.get).1

def orElse (o : Optional κ α) (fallback : α) : α :=
  match o with
  | .ok v => v
  | .notOk _ => fallback

/-- The payload, or nothing. -/
def toNullable (o : Optional κ Value) : Value := o.orElse .null

/-- The payload; its absence is a fault. -/
def mustGet (o : Optional κ α) : Except Fault α :=
  match o with
  | .ok v => .ok v
  | .notOk _ => .error .notOk

/-- The payload, or what the function gives. -/
def orCall (o : Optional κ α) (f : Attempt m α) : Attempt m α :=
  match o with
  | .ok v => pure v
  | .notOk _ => f

/-! ## Going on with the payload -/

/-- The function of the payload; absence takes the kind given. -/
def map (o : Optional κ α) (f : α → Attempt m β) (kind : κ) : Attempt m (Optional κ β) :=
  match o with
  | .ok v => do return .ok (← f v)
  | .notOk _ => pure (.notOk kind)

/-- The function of the payload; absence keeps its kind. -/
def convert (o : Optional κ α) (f : α → Attempt m α) : Attempt m (Optional κ α) :=
  match o with
  | .ok v => do return .ok (← f v)
  | .notOk kind => pure (.notOk kind)

/-- What a function makes of the payload, or what is left without one. -/
def andThen (o : Optional κ α) (f : α → Attempt m γ) (absent : γ) : Attempt m γ :=
  match o with
  | .ok v => f v
  | .notOk _ => pure absent

/-- The option that a function makes of the payload. Absence forgets the kind it came with. -/
def flatMap [Inhabited κ] (o : Optional κ α) (f : α → Attempt m (Optional κ β)) :
    Attempt m (Optional κ β) :=
  o.andThen f (.notOk default)

/-- The payload if it passes; what is dropped leaves its kind behind. -/
def keepOkIf (o : Optional Value Value) (p : Value → Attempt m Bool) :
    Attempt m (Optional Value Value) :=
  match o with
  | .ok v => do return if ← p v then .ok v else .notOk (.ofKind v.kindOf)
  | .notOk kind => pure (.notOk kind)

/-- The payload unless it passes; what is dropped leaves its kind behind. -/
def toNotOkIf (o : Optional Value Value) (p : Value → Attempt m Bool) :
    Attempt m (Optional Value Value) :=
  match o with
  | .ok v => do return if ← p v then .notOk (.ofKind v.kindOf) else .ok v
  | .notOk kind => pure (.notOk kind)

/-- Runs the function for its effects alone. -/
def call (o : Optional κ α) (f : α → Attempt m Unit) : Attempt m Unit := o.andThen f ()

end Presence.Optional
