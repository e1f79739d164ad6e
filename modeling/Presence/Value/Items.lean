import Presence.Fault
import Presence.Value.Lookup
import Presence.Word

/-!
Contract: the parts of a value by place or key, and whether a value is among them.

Owns: `Value.item`, `Value.holds`, and `Value.lookup`, which gives an option.

Does not own: search by hash (`Presence.Value.Lookup`), and machine words (`Presence.Word`).

A place below nought counts from the end. Places beyond the range of a machine word are refused
before the container is looked at.
-/

namespace Presence

/-- The place that an index means among some items. -/
def placeOf? (index : Int) (size : Nat) : Option Nat :=
  if 0 ≤ index then (if index < size then some index.toNat else none)
  else if -(size : Int) ≤ index then some (index + size).toNat
  else none

/-- Whether a list holds another as a run of its items. -/
def holdsRun {α : Type} [BEq α] (run : List α) : List α → Bool
  | [] => run.isEmpty
  | item :: rest => run.isPrefixOf (item :: rest) || holdsRun run rest

namespace Value

/-- The whole number that a value is. -/
def int? (v : Value) : Option Int :=
  match v with
  | .scalar s => s.int?
  | _ => none

/-- The item at an index. -/
def nth (what : Indexed) (items : List Value) (index : Value) : Except Fault Value :=
  match index.int? with
  | none => .error .wrongType
  | some n =>
      if fitsWord n then
        match (placeOf? n items.length).bind (items[·]?) with
        | some item => .ok item
        | none => .error (.outOfRange what)
      else .error .hugeIndex

/-- The part of a value at a place or under a key; that of a sequence is that of its container. -/
def item (v key : Value) : Except Fault Value :=
  match v with
  | .list items => nth .list items key
  | .tuple items => nth .tuple items key
  | .sequence ⟨items⟩ => item items key
  | .text s => nth .text ((Value.text s).parts?.getD []) key
  | .bytes octets => nth .bytes ((Value.bytes octets).parts?.getD []) key
  | .byteArray octets => nth .byteArray ((Value.byteArray octets).parts?.getD []) key
  | .dictionary entries =>
      match findUnder? key entries with
      | .ok (some found) => .ok found
      | .ok none => .error (.missingKey key)
      | .error kind => .error (.unhashable kind)
  | _ => .error .wrongType
termination_by structural v

/-- Whether octets hold a value: an octet or a run of octets. -/
def octetsHold (octets : List UInt8) (v : Value) : Except Fault Bool :=
  match v with
  | .bytes run => .ok (holdsRun run octets)
  | .byteArray run => .ok (holdsRun run octets)
  | v =>
      match v.int? with
      | some n =>
          if 0 ≤ n && n < 256 then .ok (octets.any fun octet => (octet.toNat : Int) == n)
          else .error .noOctet
      | none => .error .wrongType

/-- Whether a value holds another. A sequence is gone through for it, whatever its container. -/
def holds (v part : Value) : Except Fault Bool :=
  match v with
  | .list items => .ok (part.isAmong items)
  | .tuple items => .ok (part.isAmong items)
  | .sequence ⟨items⟩ =>
      match items.parts? with
      | some parts => .ok (part.isAmong parts)
      | none => .error .wrongType
  | .set items => (part.isInSet items).mapError .unhashable
  | .frozenSet items => (part.isInSet items).mapError .unhashable
  | .dictionary entries => ((findUnder? part entries).mapError .unhashable).map Option.isSome
  | .text s =>
      match part with
      | .text run => .ok (holdsRun run.toList s.toList)
      | _ => .error .wrongType
  | .bytes octets => octetsHold octets part
  | .byteArray octets => octetsHold octets part
  | _ => .error .wrongType

/-- What stands under a key, if something does. Nothing holds no keys. -/
def lookup (v key kind : Value) : Except Fault (Optional Value Value) :=
  match v with
  | .null => .ok (.notOk kind)
  | v => do
      if ← v.holds key then return .ok (← v.item key) else return .notOk kind

end Value

end Presence
