import Presence.Binary64
import Presence.Shape

/-!
Contract: the dynamic values that the containers of this library are filled with.

Owns: `Scalar`, the values without parts; `Value`; the kind of a value; which values count as
true; the numbers that scalars mean.

Does not own: equality, hashing, order, text, and documents; each has a module under
`Presence.Value` or `Presence.Json`.
-/

namespace Presence

/-- A value without parts. A handle stands for something that is kept elsewhere. -/
inductive Scalar where
  | null
  | bool (b : Bool)
  | int (n : Int)
  | float (x : Binary64)
  | complex (re im : Binary64)
  | text (s : String)
  | bytes (octets : List UInt8)
  | byteArray (octets : List UInt8)
  | kind (k : Kind)
  | handle (h : Handle)
deriving DecidableEq

/-- A dynamic value. The entries of a dictionary stand in the order of their first insertion, and
the items of a set in the order of their insertion too. A sequence is kept in a tuple, unless it
was made around another container. The kind of an absent payload or of a side is a kind or nothing,
as a rule. -/
inductive Value where
  | scalar (s : Scalar)
  | list (items : List Value)
  | tuple (items : List Value)
  | set (items : List Value)
  | frozenSet (items : List Value)
  | dictionary (entries : List (Value × Value))
  | option (o : Optional Value Value)
  | either (e : Either Value Value Value)
  | pair (p : Pair Value Value)
  | sequence (s : Sequence Value)
  | managed (m : Managed Value)
  | guarded (g : Guarded Value)
  | deferred (d : Deferred Value)
  | ternary (t : Ternary Value Value Value)
  | parseError (p : ParseError Value Value Value)
  | thrown (t : Thrown Value)
  | client (c : Client Value Value)

namespace Value

@[match_pattern] abbrev null : Value := scalar .null
@[match_pattern] abbrev bool (b : Bool) : Value := scalar (.bool b)
@[match_pattern] abbrev int (n : Int) : Value := scalar (.int n)
@[match_pattern] abbrev float (x : Binary64) : Value := scalar (.float x)
@[match_pattern] abbrev complex (re im : Binary64) : Value := scalar (.complex re im)
@[match_pattern] abbrev text (s : String) : Value := scalar (.text s)
@[match_pattern] abbrev bytes (octets : List UInt8) : Value := scalar (.bytes octets)
@[match_pattern] abbrev byteArray (octets : List UInt8) : Value := scalar (.byteArray octets)
@[match_pattern] abbrev ofKind (k : Kind) : Value := scalar (.kind k)
@[match_pattern] abbrev handle (sort : HandleSort) (number : Nat) : Value :=
  scalar (.handle ⟨sort, number⟩)

instance : Inhabited Value := ⟨null⟩

/-- A sequence of items as a value. -/
def ofSequence (s : Sequence (List Value)) : Value := .sequence ⟨.tuple s.items⟩

/-- A kind that may be missing, as a value. -/
def ofKind? (kind : Option Kind) : Value :=
  match kind with
  | some kind => .ofKind kind
  | none => .null

end Value

namespace Scalar

/-- The number that a scalar means, as a real and an imaginary part; a truth value is one or
nought. -/
def number? : Scalar → Option (Extended × Extended)
  | .bool b => some (.ofInt (if b then 1 else 0), .finite 0)
  | .int n => some (.ofInt n, .finite 0)
  | .float x => some (x.exact, .finite 0)
  | .complex re im => some (re.exact, im.exact)
  | _ => none

/-- The number that a scalar with an order means. -/
def real? : Scalar → Option Extended
  | .bool b => some (.ofInt (if b then 1 else 0))
  | .int n => some (.ofInt n)
  | .float x => some x.exact
  | _ => none

/-- The whole number that a scalar is. -/
def int? : Scalar → Option Int
  | .bool b => some (if b then 1 else 0)
  | .int n => some n
  | _ => none

/-- The octets that a scalar is. -/
def octets? : Scalar → Option (List UInt8)
  | .bytes octets => some octets
  | .byteArray octets => some octets
  | _ => none

def kindOf : Scalar → Kind
  | .null => .none
  | .bool _ => .bool
  | .int _ => .int
  | .float _ => .float
  | .complex _ _ => .complex
  | .text _ => .text
  | .bytes _ => .bytes
  | .byteArray _ => .byteArray
  | .kind _ => .type
  | .handle h => h.sort.kind

/-- Nothing, the zeros and the empty texts count as false. -/
def truthy : Scalar → Bool
  | .null => false
  | .bool b => b
  | .int n => n != 0
  | .float x => !x.isZero
  | .complex re im => !(re.isZero && im.isZero)
  | .text s => !s.isEmpty
  | .bytes octets => !octets.isEmpty
  | .byteArray octets => !octets.isEmpty
  | .kind _ => true
  | .handle _ => true

end Scalar

namespace Value

/-- The kind of a value. -/
def kindOf : Value → Kind
  | .scalar s => s.kindOf
  | .list _ => .list
  | .tuple _ => .tuple
  | .set _ => .set
  | .frozenSet _ => .frozenSet
  | .dictionary _ => .dictionary
  | .option (.ok _) => .some
  | .option (.notOk _) => .notOk
  | .either (.left _ _) => .left
  | .either (.right _ _) => .right
  | .pair _ => .pair
  | .sequence _ => .sequence
  | .managed m => m.holder.kind
  | .guarded _ => .guarded
  | .deferred _ => .deferred
  | .ternary _ => .ternary
  | .parseError _ => .parseError
  | .thrown t => .fault t.kind
  | .client _ => .client

/-- The kind that a value leaves behind when it is dropped; nothing leaves none. -/
def kindLeft (v : Value) : Value :=
  match v with
  | .null => .null
  | v => .ofKind v.kindOf

/-- How many parts a sized value has. -/
def size? : Value → Option Nat
  | .text s => some s.length
  | .bytes octets => some octets.length
  | .byteArray octets => some octets.length
  | .list items => some items.length
  | .tuple items => some items.length
  | .set items => some items.length
  | .frozenSet items => some items.length
  | .dictionary entries => some entries.length
  | .sequence ⟨items⟩ => size? items
  | _ => none
termination_by structural v => v

/-- Whether a value counts as true: containers with something in them, and everything that is no
container and no zero. A sequence around something without a size is neither true nor false. -/
def truthy? (v : Value) : Option Bool :=
  match v with
  | .scalar s => some s.truthy
  | .list items => some !items.isEmpty
  | .tuple items => some !items.isEmpty
  | .set items => some !items.isEmpty
  | .frozenSet items => some !items.isEmpty
  | .dictionary entries => some !entries.isEmpty
  | .sequence ⟨items⟩ => items.size?.map fun size => size != 0
  | _ => some true

/-- The parts that a value is gone through by: the characters of a text, the keys of a dictionary,
the items of the other containers. -/
def parts? : Value → Option (List Value)
  | .text s => some (s.toList.map fun c => .text (String.singleton c))
  | .bytes octets => some (octets.map fun octet => .int octet.toNat)
  | .byteArray octets => some (octets.map fun octet => .int octet.toNat)
  | .list items => some items
  | .tuple items => some items
  | .set items => some items
  | .frozenSet items => some items
  | .dictionary entries => some (entries.map Prod.fst)
  | .sequence ⟨items⟩ => parts? items
  | _ => none
termination_by structural v => v

/-- Whether a value is nothing. -/
def isNull : Value → Bool
  | .null => true
  | _ => false

end Value

end Presence
