import Presence.Fault

/-!
Contract: values that can be told to others.

Owns: `Value.requireTellable`, which fails for the first part of a value that cannot be told.

Does not own: how values are told (`Presence.Session.Cells`).

What is gone through only once and octets that may change cannot be told, and what is the same only
as itself has nothing to tell. What an absent payload or a side comes with for a kind is told by its
name, which only kinds have; nothing needs none.
-/

namespace Presence

/-- Fails for a scalar that cannot be told. -/
def Scalar.requireTellable (s : Scalar) : Except Fault Unit :=
  match s with
  | .byteArray _ => .error .wrongType
  | .handle ⟨.iterator, _⟩ => .error .wrongType
  | .handle ⟨.stream, _⟩ => .error .wrongType
  | .handle ⟨.object, _⟩ => .error .wrongType
  | _ => .ok ()

namespace Value

/-- Fails for what has not the name of a kind. -/
def requireName (kind : Value) : Except Fault Unit :=
  match kind with
  | .null => .ok ()
  | .ofKind _ => .ok ()
  | _ => .error .noMember

mutual

/-- Fails for a value that cannot be told. -/
def requireTellable : Value → Except Fault Unit
  | .scalar s => s.requireTellable
  | .list items => requireAllTellable items
  | .tuple items => requireAllTellable items
  | .set items => requireAllTellable items
  | .frozenSet items => requireAllTellable items
  | .dictionary entries => requireEntriesTellable entries
  | .option (.ok v) => v.requireTellable
  | .option (.notOk kind) => kind.requireName
  | .either (.left v kind) => do
      v.requireTellable
      kind.requireName
  | .either (.right v kind) => do
      v.requireTellable
      kind.requireName
  | .pair ⟨first, second⟩ => do
      first.requireTellable
      second.requireTellable
  | .sequence ⟨items⟩ => items.requireTellable
  | .managed ⟨_, basic⟩ => basic.requireTellable
  | .guarded ⟨v⟩ => v.requireTellable
  | .deferred _ => .ok ()
  | .ternary ⟨condition, v, _⟩ => do
      condition.requireTellable
      v.requireTellable
  | .parseError ⟨input, reason, fallback⟩ => do
      input.requireTellable
      reason.requireTellable
      fallback.requireTellable
  | .thrown _ => .ok ()
  | .client ⟨_, users, _⟩ => users.requireTellable
termination_by structural v => v

def requireAllTellable : List Value → Except Fault Unit
  | [] => .ok ()
  | item :: rest => do
      item.requireTellable
      requireAllTellable rest
termination_by structural items => items

def requireEntriesTellable : List (Value × Value) → Except Fault Unit
  | [] => .ok ()
  | (key, v) :: rest => do
      key.requireTellable
      v.requireTellable
      requireEntriesTellable rest
termination_by structural entries => entries

end

end Value

end Presence
