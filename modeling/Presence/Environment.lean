import Presence.Optional

/-!
Contract: the variables that a program finds set around it.

Owns: `Environment`; a variable as text, as an option, and as a demand.

Does not own: who sets the variables.

A variable that is set to the empty text counts as not set.
-/

namespace Presence

/-- Names with their values. -/
structure Environment where
  entries : List (String × String)

namespace Environment

/-- The value of a variable, or the empty text. -/
def valueOf (environment : Environment) (name : String) : String :=
  (environment.entries.lookup name).getD ""

/-- A variable that may not be set. -/
def find (environment : Environment) (name : String) : Optional Value Value :=
  .unlessZero (.text (environment.valueOf name))

/-- A variable that must be set. -/
def require (environment : Environment) (name : String) : Except Fault String :=
  let value := environment.valueOf name
  if value = "" then .error (.unsetVariable name) else .ok value

end Environment

end Presence
