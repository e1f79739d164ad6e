import Presence.Session.Throwing

/-!
Contract: the values of literals.

Owns: `Literal.build`, which makes the value of a literal, and `Literal.buildArgument`, which makes
that of an argument.

Does not own: literals themselves (`Presence.Session.Literal`).

Lists, one-shot iterators, clients and fault objects are made anew each time. A function that is
given as an argument itself has its calls written down; a function inside a value, or kept in a
variable, has no calls written down but those that it had already.
-/

namespace Presence.Session.Literal

open Run

mutual

/-- The value of a literal. -/
def build : Literal → Run Value
  | .scalar s => return .scalar s
  | .list items => do newList (← buildItems items)
  | .tuple items => do return .tuple (← buildItems items)
  | .set items => do return .set (← Attempt.ofHash (Value.setOf (← buildItems items)))
  | .frozenSet items => do return .frozenSet (← Attempt.ofHash (Value.setOf (← buildItems items)))
  | .dictionary entries => do
      return .dictionary (← Attempt.ofHash (Value.dictionaryOf (← buildEntries entries)))
  | .some v => do return .option (.ok (← build v))
  | .notOk kind => return .option (.notOk (.ofKind? kind))
  | .left v kind => do return .either (.left (← build v) (.ofKind? kind))
  | .right v kind => do return .either (.right (← build v) (.ofKind? kind))
  | .pair v w => do return .pair ⟨← build v, ← build w⟩
  | .sequence items => do return .ofSequence ⟨← buildItems items⟩
  | .managed holder basic => do return .managed ⟨holder, ← build basic⟩
  | .thrown kind argument => do return .thrown (← newThrown kind [← build argument])
  | .client users failing => do newClient (← build users) (.bool failing)
  | .bareOption => do return .handle .bareOption (← newNumber)
  | .bareEither => do return .handle .bareEither (← newNumber)
  | .variable name => do
      match (← get).bindings.lookup name with
      | .some v => return v
      | .none => Run.fail .badInput
  | .iterator items => do newIterator (← buildItems items)
  | .stream name => streamOf name
  | .malformed => Run.fail .badInput
  | function => newFunction (.given function)
termination_by structural literal => literal

def buildItems : List Literal → Run (List Value)
  | [] => return []
  | item :: rest => do
      let first ← build item
      let others ← buildItems rest
      return first :: others
termination_by structural items => items

def buildEntries : List (Literal × Literal) → Run (List (Value × Value))
  | [] => return []
  | (key, v) :: rest => do
      let first ← build key
      let second ← build v
      let others ← buildEntries rest
      return (first, second) :: others
termination_by structural entries => entries

end

/-- The value of a literal that is the argument at a place. -/
def buildArgument (literal : Literal) (place : Nat) : Run Value := do
  let v ← literal.build
  if literal.isFunction then newFunction (.traced place v) else return v

end Presence.Session.Literal
