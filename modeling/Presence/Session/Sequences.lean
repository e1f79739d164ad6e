import Presence.Sequence
import Presence.Session.Calling

/-!
Contract: the operations on pairs and sequences in a session.

Owns: `performSequence`.

Does not own: the operations themselves (`Presence.Sequence`).

A sequence is gone through by going through its container, which is a tuple as a rule. What is made
of the items is kept in a tuple again.
-/

namespace Presence.Session

open Run

/-- The container of a sequence. -/
def containerOf (v : Value) : Run Value := do
  match v with
  | .sequence ⟨items⟩ => return items
  | _ => fail .badInput

/-- The items of a sequence one at a time. -/
def itemsOf (v : Value) : Run (Feed (StateM World) Value) := do feedOf (← containerOf v)

/-- A sequence of items. -/
def sequence (items : List Value) : Value := .ofSequence ⟨items⟩

/-- How many items a value asks for: none for a number that is not above nought. -/
def countOf (v : Value) : Run Nat := do
  match v.int?, v with
  | some n, _ => return n.toNat
  | none, .float x =>
      if (Extended.finite 0).less x.exact then fail .wrongType else return 0
  | none, _ => fail .wrongType

/-- The front of a container. -/
def front (count : Nat) : Value → Except Fault Value
  | .list items => .ok (.list (items.take count))
  | .tuple items => .ok (.tuple (items.take count))
  | .text s => .ok (.text (String.ofList (s.toList.take count)))
  | .bytes octets => .ok (.bytes (octets.take count))
  | .byteArray octets => .ok (.byteArray (octets.take count))
  | .sequence ⟨items⟩ => front count items
  | .dictionary _ => .error (.unhashable .slice)
  | _ => .error .wrongType
termination_by structural v => v

/-- A function as the key of items; nothing stands for the item itself. -/
def keyOf (call : Caller) (key x : Value) : Run Value := do
  match key with
  | .null => return x
  | f => call f [x]

/-- Whether one of the items of a container is among some targets. -/
def containsAny (items targets : Value) : Run Bool := do
  let wanted ← (← feedOf targets).toSet
  if wanted.isEmpty then return false else (← feedOf items).meetsSet wanted

/-- The items of a tuple, to which others can be added. -/
def tupleOf (v : Value) : Run (List Value) := do
  match v with
  | .tuple items => return items
  | _ => fail .wrongType

/-- The sequences that functions make of the parts of a value, row by row. -/
def unzipParts (call : Caller) (v : Value) (functions : List Value) : Run Value := do
  let columns ← (← feedOf v).unzip (functions.map fun f x => call f [x])
  return .tuple (columns.map sequence)

def performSequence (call : Caller) (operation : SequenceOperation) (arguments : List Value) :
    Run Value := do
  match operation, arguments with
  | .pair, [v, w] => return .pair ⟨v, w⟩
  | .zip, [v, w] => do
      lift (Sequence.requireSameLength "zip" (← size v) (← size w))
      return .list (List.zipWith (fun x y => .pair ⟨x, y⟩) (← parts v) (← parts w))
  | .zipWith, [v, w, f] => do
      let xSize ← size v
      let ySize ← size w
      return .list (← Sequence.zipWith (← feedOf v) (← feedOf w) xSize ySize fun x y =>
        call f [x, y])
  | .make, items => return sequence items
  | .ofParts, [v] => return sequence (← parts v)
  | .size, [v] => return .int (← size (← containerOf v))
  | .item, [v, place] => do lift ((← look (← containerOf v)).item (← observe place))
  | .items, [v] => return .list (← parts (← containerOf v))
  | .map, [v, f] => return sequence (← (← itemsOf v).map fun x => call f [x])
  | .flatMap, [v, f] =>
      return sequence (← (← itemsOf v).flatCollect fun x => do parts (← call f [x]))
  | .keepIf, [v, p] => return sequence (← (← itemsOf v).keepIf (test call p))
  | .removeIf, [v, p] => return sequence (← (← itemsOf v).removeIf (test call p))
  | .takeFirst, [v, count] => do
      let count ← countOf count
      return .sequence ⟨← lift (front count (← look (← containerOf v)))⟩
  | .each, [v, f] => do
      (← itemsOf v).each (effect call f)
      return .null
  | .find, [v, p] => return .option (← (← itemsOf v).find (test call p))
  | .indexWhere, [v, p] => do
      match ← (← itemsOf v).indexWhere (test call p) with
      | .ok place => return .option (.ok (.int place))
      | .notOk kind => return .option (.notOk kind)
  | .any, [v, p] => return .bool (← (← itemsOf v).anyPasses (test call p))
  | .contains, [v, target] => return .bool (← holds (← containerOf v) target)
  | .containsAny, [v, targets] => return .bool (← containsAny (← containerOf v) targets)
  | .meets, [v, targets] => do
      let items ← containerOf v
      if (← size targets) = 0 then return .bool true else return .bool (← containsAny items targets)
  | .unique, [v] => return sequence (← (← itemsOf v).unique)
  | .toSet, [v] => return .set (← (← itemsOf v).toSet)
  | .single, [v] => do
      let items ← containerOf v
      match ← Sequence.singleOf (← size items) (do lift ((← look items).item (.int 0))) with
      | .left count kind => return .either (.left (.int count) kind)
      | .right x kind => return .either (.right x kind)
  | .fold, [v, initial, f] => do (← itemsOf v).fold initial fun sofar x => call f [sofar, x]
  | .sortBy, [v, key] => do
      let items ← parts (← containerOf v)
      return .ofSequence (← (Sequence.mk items).sortBy (keyOf call key) observe)
  | .sortByDesc, [v, key] => do
      let items ← parts (← containerOf v)
      return .ofSequence (← (Sequence.mk items).sortByDesc (keyOf call key) observe)
  | .append, [v, x] => do
      return .ofSequence ((Sequence.mk (← tupleOf (← containerOf v))).append x)
  | .extend, [v, others] => do
      let items ← containerOf v
      let others ← parts others
      return .ofSequence ((Sequence.mk (← tupleOf items)).extend others)
  | .foldFree, [v, initial, f] => do (← feedOf v).fold initial fun sofar x => call f [sofar, x]
  | .unzip columns, v :: functions =>
      if functions.length = columns then unzipParts call v functions else fail .wrongType
  | _, _ => fail .wrongType

end Presence.Session
