import Presence.Value

/-!
Contract: hashes of values. Values that are equal and have a hash have the same one.

Owns: `Value.hash`, which fails with the kind of the first part that has none.

Does not own: equality (`Presence.Value.Equality`), and search in sets and dictionaries
(`Presence.Value.Lookup`).

Numbers are hashed by the number they mean, whatever their kind; the kinds that absent payloads and
sides carry are left out. A frozen set is hashed by its size, which no order of its items can
change. Whatever is the same only as itself is hashed by its number.
-/

namespace Presence

namespace Scalar

def hash (s : Scalar) : Except Kind UInt64 :=
  match s.number? with
  | some number => .ok (Hashable.hash number)
  | none =>
      match s with
      | .text t => .ok (Hashable.hash t)
      | .bytes octets => .ok (Hashable.hash octets)
      | .byteArray _ => .error .byteArray
      | .kind k => .ok (Hashable.hash k.name)
      | .handle ⟨.growing, _⟩ => .error .list
      | .handle h => .ok (Hashable.hash h.number)
      | _ => .ok 0

end Scalar

namespace Value

mutual

/-- The hash of a value, or the kind of its first part without one. -/
def hash : Value → Except Kind UInt64
  | .scalar s => s.hash
  | .list _ => .error .list
  | .tuple items => hashItems 1 items
  | .set _ => .error .set
  | .frozenSet items => .ok (Hashable.hash items.length)
  | .dictionary _ => .error .dictionary
  | .option (.ok v) => do return mixHash 2 (← hash v)
  | .option (.notOk _) => .ok 3
  | .either (.left v _) => do return mixHash 4 (← hash v)
  | .either (.right v _) => do return mixHash 5 (← hash v)
  | .pair ⟨first, second⟩ => do return mixHash (← hash first) (← hash second)
  | .sequence ⟨items⟩ => do return mixHash 6 (← hash items)
  | .managed ⟨holder, basic⟩ => do
      return mixHash (Hashable.hash holder.kind.name) (← hash basic)
  | .guarded ⟨v⟩ => do return mixHash 7 (← hash v)
  | .deferred ⟨f⟩ => do return mixHash 8 (← hash f)
  | .ternary ⟨condition, v, none⟩ => do return mixHash (← hash condition) (← hash v)
  | .ternary ⟨condition, v, some f⟩ => do
      return mixHash (mixHash (← hash condition) (← hash v)) (← hash f)
  | .parseError ⟨input, reason, fallback⟩ => do
      return mixHash (mixHash (← hash input) (← hash reason)) (← hash fallback)
  | .thrown t => .ok (Hashable.hash t.number)
  | .client c => .ok (Hashable.hash c.number)
termination_by structural v => v

/-- The hash of items in their order, going on from a hash. -/
def hashItems : UInt64 → List Value → Except Kind UInt64
  | sofar, [] => .ok sofar
  | sofar, item :: rest => do hashItems (mixHash sofar (← hash item)) rest
termination_by structural _ items => items

end

/-- Whether a value has a hash. -/
def isHashable (v : Value) : Bool :=
  match v.hash with
  | .ok _ => true
  | .error _ => false

/-- Whether two values have hashes and these agree. -/
def hashesAgree (v w : Value) : Bool :=
  match v.hash, w.hash with
  | .ok a, .ok b => a == b
  | _, _ => false

end Value

end Presence
