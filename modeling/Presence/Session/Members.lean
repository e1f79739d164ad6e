import Presence.Either
import Presence.Optional
import Presence.Session.Calling

/-!
Contract: what is asked of a value by name alone, whatever the value is.

Owns: whether a value is there, taking its payload out in the ways of options and of either side,
running a function on the payload, and closing.

Does not own: the operations on options, either side and holders themselves (`Presence.Optional`,
`Presence.Either`, `Presence.Managed`).

A holder passes on what it is asked to what it is made around. A kind has what its values have, but
lacks the value to do it with, which makes it of the wrong type. What a value has not is no member
of it. An option without a payload and without its absence can do nothing, and no more can a side
that is neither.
-/

namespace Presence.Session.Members

open Run

/-- The fault of a kind that is asked for what the values of some kinds have. -/
def ofKind {α : Type} (has : Bool) : Run α := fail (if has then .wrongType else .noMember)

/-- The holders and options. -/
def isOptional (kind : Kind) : Bool := kind.isOfOptions || kind.isOfHolders

/-- All that have a payload. -/
def hasPayload (kind : Kind) : Bool := kind.isOfOptions || kind.isOfHolders || kind.isOfSides

/-- Whether a payload is there. -/
def isOk : Value → Run Bool
  | .option o => return o.isOk
  | .managed ⟨_, basic⟩ => isOk basic
  | .handle .bareOption _ => fail .notImplemented
  | .ofKind kind => ofKind (isOptional kind)
  | _ => fail .noMember
termination_by structural v => v

/-- The payload or its zero, and which of the two it is. -/
def get : Value → Run Value
  | .option o => withFlag o.get
  | .either e => withFlag e.get
  | .managed ⟨_, basic⟩ => get basic
  | .handle .bareOption _ => fail .notImplemented
  | .handle .bareEither _ => fail .notImplemented
  | .dictionary _ => fail .wrongType
  | .ofKind kind => ofKind (hasPayload kind || kind == .dictionary)
  | _ => fail .noMember
termination_by structural v => v

/-- The payload, whose absence is a fault. -/
def mustGet : Value → Run Value
  | .option o => lift o.mustGet
  | .either e => lift e.mustGet
  | .managed ⟨_, basic⟩ => mustGet basic
  | .handle .bareOption _ => fail .notImplemented
  | .handle .bareEither _ => fail .notImplemented
  | .ofKind kind => ofKind (hasPayload kind)
  | _ => fail .noMember
termination_by structural v => v

/-- The payload, or what stands in for it. -/
def orElse (fallback : Value) : Value → Run Value
  | .option o => return o.orElse fallback
  | .managed ⟨_, basic⟩ => orElse fallback basic
  | .handle .bareOption _ => fail .notImplemented
  | .ofKind kind => ofKind (isOptional kind)
  | _ => fail .noMember
termination_by structural v => v

/-- Runs a function on the payload. -/
def call (f : Value → Run Unit) : Value → Run Unit
  | .option o => o.call f
  | .either e => e.ifRight f
  | .managed ⟨_, basic⟩ => call f basic
  | .handle .bareOption _ => fail .notImplemented
  | .handle .bareEither _ => fail .notImplemented
  | .ofKind kind => ofKind (hasPayload kind)
  | _ => fail .noMember
termination_by structural v => v

/-- The kinds whose values can be closed. -/
def isClosable (kind : Kind) : Bool :=
  [Kind.client, .closable, .clientHolder, .stream].contains kind

mutual

/-- Closes a value: a client, or a holder that closes what it is made around. A client counts a
closing before it may fail to close. -/
def close : Value → Run Unit
  | .client ⟨number, _, failing⟩ => do
      countClosing number
      if ← truth failing then fail .closeFailed
  | .managed ⟨holder, basic⟩ => if holder.canClose then closeInside basic else fail .noMember
  | .handle .stream number => closeStream number
  | .ofKind kind => ofKind (isClosable kind)
  | _ => fail .noMember
termination_by structural v => v

/-- Closes the payload of what a holder is made around. -/
def closeInside : Value → Run Unit
  | .option (.ok v) => close v
  | .option (.notOk _) => return
  | .either (.left _ _) => return
  | .either (.right v _) => close v
  | .managed ⟨_, basic⟩ => closeInside basic
  | .handle .bareOption _ => fail .notImplemented
  | .handle .bareEither _ => fail .notImplemented
  | .ofKind kind => ofKind (hasPayload kind)
  | _ => fail .noMember
termination_by structural v => v

end

end Presence.Session.Members
