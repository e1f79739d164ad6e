import Presence.Value.Lookup

/-!
Contract: order of values.

Owns: `Comparison`, the four order signs, and `Value.compare?`, which has no answer for values that
have no order between them.

Does not own: sorting (`Presence.Sequence.Sort`).

Numbers other than complex ones are ordered by the number they mean, texts by the codes of their
characters, octets by their values, lists and tuples each by the first place where two items
differ, sets of both kinds by inclusion. Nothing else has an order.
-/

namespace Presence

inductive Comparison where
  | less
  | lessOrSame
  | greater
  | greaterOrSame
deriving DecidableEq, Repr

namespace Comparison

def reals (sign : Comparison) (a b : Extended) : Bool :=
  match sign with
  | .less => a.less b
  | .lessOrSame => a.lessOrSame b
  | .greater => b.less a
  | .greaterOrSame => b.lessOrSame a

def sizes (sign : Comparison) (a b : Nat) : Bool :=
  match sign with
  | .less => a < b
  | .lessOrSame => a ≤ b
  | .greater => b < a
  | .greaterOrSame => b ≤ a

def texts (sign : Comparison) (a b : String) : Bool :=
  match sign with
  | .less => a < b
  | .lessOrSame => !(b < a)
  | .greater => b < a
  | .greaterOrSame => !(a < b)

def octets (sign : Comparison) (a b : List UInt8) : Bool :=
  match sign with
  | .less => a < b
  | .lessOrSame => !(b < a : Bool)
  | .greater => b < a
  | .greaterOrSame => !(a < b : Bool)

/-- Inclusion of sets, given by their items. -/
def sets (sign : Comparison) (a b : List Value) : Bool :=
  let within (x y : List Value) := x.all fun item => item.isStored y
  match sign with
  | .less => a.length < b.length && within a b
  | .lessOrSame => a.length ≤ b.length && within a b
  | .greater => b.length < a.length && within b a
  | .greaterOrSame => b.length ≤ a.length && within b a

end Comparison

namespace Scalar

def compare? (sign : Comparison) (a b : Scalar) : Option Bool :=
  match a.real?, b.real? with
  | some p, some q => some (sign.reals p q)
  | _, _ =>
      match a, b with
      | .text s, .text t => some (sign.texts s t)
      | a, b =>
          match a.octets?, b.octets? with
          | some s, some t => some (sign.octets s t)
          | _, _ => none

end Scalar

namespace Value

mutual

/-- How two values stand to each other; `none` where they have no order. -/
def compare? (sign : Comparison) : Value → Value → Option Bool
  | .scalar a, .scalar b => Scalar.compare? sign a b
  | .list xs, .list ys => compareItems? sign xs ys
  | .tuple xs, .tuple ys => compareItems? sign xs ys
  | .set xs, .set ys => some (sign.sets xs ys)
  | .set xs, .frozenSet ys => some (sign.sets xs ys)
  | .frozenSet xs, .set ys => some (sign.sets xs ys)
  | .frozenSet xs, .frozenSet ys => some (sign.sets xs ys)
  | _, _ => none
termination_by structural v => v

/-- The order of the first items that differ; of the lengths where none do. -/
def compareItems? (sign : Comparison) : List Value → List Value → Option Bool
  | x :: xs, y :: ys => if x == y then compareItems? sign xs ys else compare? sign x y
  | xs, ys => some (sign.sizes xs.length ys.length)
termination_by structural xs => xs

end

end Value

end Presence
