import Presence.Session.Operation
import Presence.Value.Order

/-!
Contract: values as a session is given them.

Owns: `Literal`, with the variables, functions, one-shot iterators and streams that a value can be
given as.

Does not own: the values of literals (`Presence.Session.Build`), and how literals are written down
outside the session.
-/

namespace Presence.Session

/-- Functions of one argument. -/
inductive UnaryRule where
  | neg
  | no
  | truth
  | plain
  | shown
  | size
  | twice
  | list
  | tuple
  | client
  | readInt
deriving DecidableEq, Repr

/-- Functions of two arguments. -/
inductive BinaryRule where
  | add
  | sub
  | mul
  | mod
  | floorDiv
  | same
  | different
  | order (sign : Comparison)
  | item
  | within
  | tuple
  | list
deriving DecidableEq, Repr

inductive Literal where
  | scalar (s : Scalar)
  | list (items : List Literal)
  | tuple (items : List Literal)
  | set (items : List Literal)
  | frozenSet (items : List Literal)
  | dictionary (entries : List (Literal × Literal))
  | some (v : Literal)
  | notOk (kind : Option Kind)
  | left (v : Literal) (kind : Option Kind)
  | right (v : Literal) (kind : Option Kind)
  | pair (v w : Literal)
  | sequence (items : List Literal)
  | managed (holder : Holder) (basic : Literal)
  | thrown (kind : FaultKind) (argument : Literal)
  | client (users : Literal) (failing : Bool)
  | bareOption
  | bareEither
  | variable (name : String)
  | iterator (items : List Literal)
  | stream (name : String)
  /-- The function that gives a value, whatever its arguments. -/
  | const (v : Literal)
  /-- The function that raises a fault, whatever its arguments. -/
  | fail (kind : FaultKind) (argument : Literal)
  /-- The function that gives its first argument. -/
  | first
  /-- The function that gives its second argument. -/
  | second
  | unary (rule : UnaryRule)
  /-- With a fixed second argument, or without. -/
  | binary (rule : BinaryRule) (fixed : Option Literal)
  | compose (functions : List Literal)
  | choose (condition yes no : Literal)
  /-- An operation on the arguments and then some more. -/
  | operation (named : Operation) (rest : List Literal)
  /-- What no value is written as. -/
  | malformed

namespace Literal

instance : Inhabited Literal := ⟨malformed⟩

/-- Whether a literal is that of a function. -/
def isFunction : Literal → Bool
  | .const _ => true
  | .fail _ _ => true
  | .first => true
  | .second => true
  | .unary _ => true
  | .binary _ _ => true
  | .compose _ => true
  | .choose _ _ _ => true
  | .operation _ _ => true
  | _ => false

end Literal

end Presence.Session
