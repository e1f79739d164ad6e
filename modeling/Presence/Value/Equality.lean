import Presence.Value.Hash

/-!
Contract: equality of values.

Owns: `Scalar.same` and `Value.same`, which is also what `==` means on values.

Does not own: order (`Presence.Value.Order`).

Numbers are equal if they mean the same number. Octets of both kinds are equal if they are the
same octets. Lists and tuples are compared item by item, each with its own kind only, and sequences
by their containers; sets of both kinds by their items in any order; dictionaries by
their entries in any order. Items of sets and keys of dictionaries are found by their hash and then
by equality. The kinds that absent payloads and sides carry are left out. Faults, clients and
handles are the same only as themselves.
-/

namespace Presence

namespace Scalar

def same (a b : Scalar) : Bool :=
  match a.number?, b.number? with
  | some (re, im), some (re', im') => re.same re' && im.same im'
  | none, none =>
      match a.octets?, b.octets? with
      | some s, some t => s == t
      | none, none => a == b
      | _, _ => false
  | _, _ => false

end Scalar

namespace Value

mutual

/-- Equality of values. -/
def same : Value → Value → Bool
  | .scalar a, .scalar b => a.same b
  | .list xs, .list ys => sameItems xs ys
  | .tuple xs, .tuple ys => sameItems xs ys
  | .set xs, .set ys => xs.length == ys.length && allFound xs ys
  | .set xs, .frozenSet ys => xs.length == ys.length && allFound xs ys
  | .frozenSet xs, .set ys => xs.length == ys.length && allFound xs ys
  | .frozenSet xs, .frozenSet ys => xs.length == ys.length && allFound xs ys
  | .dictionary es, .dictionary fs => es.length == fs.length && allMatched es fs
  | .option (.ok v), .option (.ok w) => same v w
  | .option (.notOk _), .option (.notOk _) => true
  | .either (.left v _), .either (.left w _) => same v w
  | .either (.right v _), .either (.right w _) => same v w
  | .pair ⟨v, w⟩, .pair ⟨v', w'⟩ => same v v' && same w w'
  | .sequence ⟨xs⟩, .sequence ⟨ys⟩ => same xs ys
  | .managed ⟨holder, v⟩, .managed ⟨holder', w⟩ => holder == holder' && same v w
  | .guarded ⟨v⟩, .guarded ⟨w⟩ => same v w
  | .deferred ⟨f⟩, .deferred ⟨g⟩ => same f g
  | .ternary ⟨c, v, none⟩, .ternary ⟨c', w, none⟩ => same c c' && same v w
  | .ternary ⟨c, v, some f⟩, .ternary ⟨c', w, some g⟩ => same c c' && same v w && same f g
  | .parseError ⟨v, reason, n⟩, .parseError ⟨w, reason', n'⟩ =>
      same v w && same reason reason' && same n n'
  | .thrown t, .thrown t' => t.number == t'.number
  | .client c, .client c' => c.number == c'.number
  | _, _ => false
termination_by structural v => v

/-- Equality item by item. -/
def sameItems : List Value → List Value → Bool
  | [], [] => true
  | x :: xs, y :: ys => same x y && sameItems xs ys
  | _, _ => false
termination_by structural xs => xs

/-- Whether each of some items is found among others. -/
def allFound : List Value → List Value → Bool
  | [], _ => true
  | x :: xs, ys => ys.any (fun y => hashesAgree x y && same x y) && allFound xs ys
termination_by structural xs => xs

/-- Whether each of some entries is found among others with an equal value. -/
def allMatched : List (Value × Value) → List (Value × Value) → Bool
  | [], _ => true
  | (key, v) :: rest, fs =>
      (match fs.find? fun f => hashesAgree key f.1 && same key f.1 with
        | some f => same v f.2
        | none => false) && allMatched rest fs
termination_by structural es => es

end

instance : BEq Value := ⟨same⟩

theorem beq_def (v w : Value) : (v == w) = same v w := rfl

end Value

end Presence
