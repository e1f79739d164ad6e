import Presence.Optional

/-!
Contract: a dependency that is opened only where it is wanted, and closed only where it was opened.

Owns: opening (`openWith`), and running a body between opening and closing (`bracket`).

Does not own: what closing does; it is a parameter.
-/

namespace Presence.Managed

variable {m : Type → Type} [Monad m] {κ α β : Type}

/-- The dependency that an opener makes of its source, or an absent one where the source is a
zero. -/
def openWith (holder : Holder) (source : Value) (opener : Value → Attempt m α) :
    Attempt m (Managed (Optional Value α)) := do
  return ⟨holder, ← (Optional.unlessZero source).map opener .null⟩

/-- Closes what was opened. -/
def close (d : Managed (Optional κ α)) (closePayload : α → Attempt m Unit) : Attempt m Unit :=
  d.basic.call closePayload

/-- Runs a body on a dependency and closes the dependency however the body ends. -/
def bracket (d : Managed α) (closeInside : α → Attempt m Unit) (body : Attempt m β) :
    Attempt m β :=
  Attempt.closing body (closeInside d.basic)

end Presence.Managed
