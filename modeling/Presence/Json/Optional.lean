import Presence.Json.Document
import Presence.Json.Writer
import Presence.Optional

/-!
Contract: options as documents.

Owns: writing an option as the document of its payload, and reading one, absence being null on
both ways.

Does not own: the documents of other values (`Presence.Json.Writer`, `Presence.Json.Document`).
-/

namespace Presence.Optional

variable {m : Type → Type} [Monad m] {κ : Type}

/-- The document of an option. -/
def toDocument (o : Optional κ Value) : Except Fault (List Char) :=
  match o with
  | .ok v => Json.write .spaced v
  | .notOk _ => .ok "null".toList

/-- The option of a document: null is absence, and any other value is decoded. -/
def ofDocument (source : Value) (decode : Value → Attempt m Value) (kind : Value) :
    Attempt m (Optional Value Value) := do
  (ofNullable (← Attempt.ofExcept (Json.load source)) kind).convert decode

end Presence.Optional
