import Presence.Kind

/-!
Contract: the containers of this library, each over any type of payload.

Owns: `Optional`, a payload or none; `Either`, one of two payloads; `Pair`; `Sequence`; `Managed`,
a dependency with the name of its holder; `Guarded` and `Deferred`, a payload or a function waiting
for a condition; `Ternary`; and the records of parse errors, of fault objects, and of clients.

Does not own: what can be done with them (a module for each), nor the dynamic values that fill
them (`Presence.Value`).
-/

namespace Presence

/-- A payload, or none. The kind that comes with an absent payload serves only to choose a zero
value; it takes no part in comparison. -/
inductive Optional (κ α : Type) where
  | ok (value : α)
  | notOk (kind : κ)
deriving DecidableEq, Repr

/-- One of two payloads, by custom a failure on the left and a success on the right. Each side
keeps the kind of the other one, again only to choose a zero value. -/
inductive Either (κ ε α : Type) where
  | left (error : ε) (kind : κ)
  | right (value : α) (kind : κ)
deriving DecidableEq, Repr

structure Pair (α β : Type) where
  first : α
  second : β
deriving DecidableEq, Repr

/-- A sequence, which is kept in a container of items. -/
structure Sequence (γ : Type) where
  items : γ
deriving DecidableEq, Repr

/-- The holders of a managed dependency. Only the closable ones, of which the holder of clients is
one, can close what they hold. -/
inductive Holder where
  | plain
  | closable
  | clients
deriving DecidableEq, Repr

/-- A dependency in its holder. What the holder is made around is an option, as a rule: a
dependency may never have been opened. -/
structure Managed (β : Type) where
  holder : Holder
  basic : β
deriving DecidableEq, Repr

/-- A payload that counts only under a condition. -/
structure Guarded (α : Type) where
  value : α
deriving DecidableEq, Repr

/-- A function that runs only under a condition. -/
structure Deferred (φ : Type) where
  run : φ
deriving DecidableEq, Repr

/-- A condition with what is to come of it if it holds: a payload, or the result of a function
where one is set. -/
structure Ternary (β α φ : Type) where
  condition : β
  thenValue : α
  thenCall : Option φ
deriving DecidableEq, Repr

/-- What was to be parsed, why it could not be, and what stands in for it. -/
structure ParseError (α ρ δ : Type) where
  input : α
  reason : ρ
  fallback : δ
deriving DecidableEq, Repr

/-- A fault as an object: its kind, its arguments, and what it carries along besides them. Two such
objects are the same only if they have the same number. -/
structure Thrown (α : Type) where
  number : Nat
  kind : FaultKind
  arguments : List α
  carried : Option α
deriving DecidableEq, Repr

/-- A connection to a store of users, and whether it fails to close. Two clients are the same only
if they have the same number, whatever their users. -/
structure Client (α β : Type) where
  number : Nat
  users : α
  failing : β
deriving DecidableEq, Repr

/-- What a handle refers to. -/
inductive HandleSort where
  | growing
  | function
  | logger
  | iterator
  | stream
  | bareOption
  | bareEither
  | object
deriving DecidableEq, Repr

/-- A reference to something that is kept elsewhere, by sort and number. -/
structure Handle where
  sort : HandleSort
  number : Nat
deriving DecidableEq, Repr

namespace Optional

variable {κ α : Type}

def isOk : Optional κ α → Bool
  | .ok _ => true
  | .notOk _ => false

def isSome (o : Optional κ α) : Bool := o.isOk

def isNone (o : Optional κ α) : Bool := !o.isOk

end Optional

namespace Either

variable {κ ε α : Type}

def isLeft : Either κ ε α → Bool
  | .left _ _ => true
  | .right _ _ => false

def isRight (e : Either κ ε α) : Bool := !e.isLeft

end Either

namespace Holder

def all : List Holder := [.plain, .closable, .clients]

def kind : Holder → Kind
  | .plain => .managed
  | .closable => .closable
  | .clients => .clientHolder

/-- The holder that a kind names. -/
def ofKind? (kind : Kind) : Option Holder := all.find? fun holder => holder.kind == kind

/-- Whether the holder can close what it holds. -/
def canClose : Holder → Bool
  | .plain => false
  | .closable => true
  | .clients => true

end Holder

namespace HandleSort

def kind : HandleSort → Kind
  | .growing => .list
  | .function => .function
  | .logger => .logger
  | .iterator => .iterator
  | .stream => .stream
  | .bareOption => .option
  | .bareEither => .either
  | .object => .object

end HandleSort

end Presence
