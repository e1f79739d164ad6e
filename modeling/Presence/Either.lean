import Presence.Optional

/-!
Contract: what can be done with one of two payloads, the right one being the one that chains go on
with.

Owns: taking either side out with or without a fallback, going on with a function of one side, and
the option of the right side.

Does not own: what the sides mean.
-/

namespace Presence.Either

variable {m : Type → Type} [Monad m] {κ ε δ α β γ : Type}

/-! ## Taking a side out -/

/-- The right payload or the zero that the left side keeps for it, and which of the two it is. -/
def get (e : Either Value ε Value) : Except Kind (Value × Bool) :=
  match e with
  | .left _ kind => do return (← zeroOf kind, false)
  | .right v _ => .ok (v, true)

/-- The left payload or the zero that the right side keeps for it, and which of the two it is. -/
def getLeft (e : Either Value Value α) : Except Kind (Value × Bool) :=
  match e with
  | .left error _ => .ok (error, true)
  | .right _ kind => do return (← zeroOf kind, false)

def getOrElse (e : Either κ ε α) (fallback : α) : α :=
  match e with
  | .left _ _ => fallback
  | .right v _ => v

def leftOrElse (e : Either κ ε α) (fallback : ε) : ε :=
  match e with
  | .left error _ => error
  | .right _ _ => fallback

def getOrCall (e : Either κ ε α) (f : Attempt m α) : Attempt m α :=
  match e with
  | .left _ _ => f
  | .right v _ => pure v

def leftOrCall (e : Either κ ε α) (f : Attempt m ε) : Attempt m ε :=
  match e with
  | .left error _ => pure error
  | .right _ _ => f

/-- The right payload; a left side is a fault. -/
def mustGet (e : Either κ ε α) : Except Fault α :=
  match e with
  | .left _ _ => .error .isLeft
  | .right v _ => .ok v

/-- The left payload; a right side is a fault. -/
def mustGetLeft (e : Either κ ε α) : Except Fault ε :=
  match e with
  | .left error _ => .ok error
  | .right _ _ => .error .isRight

/-! ## Going on with a side -/

/-- The function of the right payload; a left side stays as it is. -/
def map (e : Either κ ε α) (f : α → Attempt m β) : Attempt m (Either κ ε β) :=
  match e with
  | .left error kind => pure (.left error kind)
  | .right v kind => do return .right (← f v) kind

/-- The function of the right payload; a left side forgets the kind it kept. -/
def mapRight [Inhabited κ] (e : Either κ ε α) (f : α → Attempt m β) : Attempt m (Either κ ε β) :=
  match e with
  | .left error _ => pure (.left error default)
  | .right v kind => do return .right (← f v) kind

/-- The function of the left payload; a right side forgets the kind it kept. -/
def mapLeft [Inhabited κ] (e : Either κ ε α) (f : ε → Attempt m δ) : Attempt m (Either κ δ α) :=
  match e with
  | .left error kind => do return .left (← f error) kind
  | .right v _ => pure (.right v default)

/-- What a function makes of the right payload; a left side stays, in the form given. -/
def andThen (e : Either κ ε α) (f : α → Attempt m γ) (stay : ε → κ → γ) : Attempt m γ :=
  match e with
  | .left error kind => pure (stay error kind)
  | .right v _ => f v

/-- The sides that a function makes of the right payload; a left side stays as it is. -/
def flatMap (e : Either κ ε α) (f : α → Attempt m (Either κ ε β)) : Attempt m (Either κ ε β) :=
  e.andThen f .left

/-- The function of whichever side there is. -/
def fold (e : Either κ ε α) (onLeft : ε → Attempt m γ) (onRight : α → Attempt m γ) : Attempt m γ :=
  match e with
  | .left error _ => onLeft error
  | .right v _ => onRight v

/-- Runs the function on a right payload for its effects alone. -/
def ifRight (e : Either κ ε α) (f : α → Attempt m Unit) : Attempt m Unit :=
  e.fold (fun _ => pure ()) f

/-- Runs the function on a left payload for its effects alone. -/
def ifLeft (e : Either κ ε α) (f : ε → Attempt m Unit) : Attempt m Unit :=
  e.fold f fun _ => pure ()

/-- The option of the right payload. Absence takes the kind that the left side kept. -/
def toOption (e : Either κ ε α) : Optional κ α :=
  match e with
  | .left _ kind => .notOk kind
  | .right v _ => .ok v

end Presence.Either
