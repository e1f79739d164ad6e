import Presence.Feed
import Presence.Session.Store
import Presence.Value.Items
import Presence.Value.Tellable

/-!
Contract: lists as values and as what is kept.

Owns: `rebuild`, which goes through a value with rules for its lists (`ListRule`);
reading the lists of a value back (`Store.settled`); keeping the lists of a value (`Run.keep`);
going through the parts of a value one at a time (`Run.feedOf`), lists that grow, iterators and
streams included; a value as entries (`Run.entriesOf`); what is told of a value (`Run.tell`).

Does not own: the store itself (`Presence.Session.Store`).

A list that a session hands out may grow later, so it is kept, and values hold its handle. Whatever
is observed of a value, such as its text or what it equals, is observed of the value with its lists
read back.
-/

namespace Presence.Session

/-- What becomes of the handle of a list, of a list, and of the container of a sequence. -/
structure ListRule (m : Type → Type) where
  onHandle : Nat → m Value
  onList : List Value → m Value
  onContainer : Value → m Value

section Rebuild

variable {m : Type → Type} [Monad m]

mutual

/-- A value with its handles of lists, its lists and the containers of its sequences replaced, the
parts of each first. -/
def rebuild (rule : ListRule m) : Value → m Value
  | .scalar (.handle ⟨.growing, number⟩) => rule.onHandle number
  | .scalar s => pure (.scalar s)
  | .list items => do rule.onList (← rebuildItems rule items)
  | .tuple items => do return .tuple (← rebuildItems rule items)
  | .set items => do return .set (← rebuildItems rule items)
  | .frozenSet items => do return .frozenSet (← rebuildItems rule items)
  | .dictionary entries => do return .dictionary (← rebuildEntries rule entries)
  | .option (.ok v) => do return .option (.ok (← rebuild rule v))
  | .option (.notOk kind) => do return .option (.notOk (← rebuild rule kind))
  | .either (.left v kind) => do
      return .either (.left (← rebuild rule v) (← rebuild rule kind))
  | .either (.right v kind) => do
      return .either (.right (← rebuild rule v) (← rebuild rule kind))
  | .pair ⟨v, w⟩ => do
      return .pair ⟨← rebuild rule v, ← rebuild rule w⟩
  | .sequence ⟨items⟩ => do return .sequence ⟨← rule.onContainer (← rebuild rule items)⟩
  | .managed ⟨holder, basic⟩ => do return .managed ⟨holder, ← rebuild rule basic⟩
  | .guarded ⟨v⟩ => do return .guarded ⟨← rebuild rule v⟩
  | .deferred ⟨f⟩ => do return .deferred ⟨← rebuild rule f⟩
  | .ternary ⟨condition, v, none⟩ => do
      return .ternary ⟨← rebuild rule condition, ← rebuild rule v, none⟩
  | .ternary ⟨condition, v, some f⟩ => do
      return .ternary ⟨← rebuild rule condition, ← rebuild rule v,
        some (← rebuild rule f)⟩
  | .parseError ⟨input, reason, fallback⟩ => do
      return .parseError ⟨← rebuild rule input, ← rebuild rule reason,
        ← rebuild rule fallback⟩
  | .thrown ⟨number, kind, arguments, none⟩ => do
      return .thrown ⟨number, kind, ← rebuildItems rule arguments, none⟩
  | .thrown ⟨number, kind, arguments, some v⟩ => do
      return .thrown ⟨number, kind, ← rebuildItems rule arguments,
        some (← rebuild rule v)⟩
  | .client ⟨number, users, failing⟩ => do
      return .client ⟨number, ← rebuild rule users, ← rebuild rule failing⟩
termination_by structural v => v

def rebuildItems (rule : ListRule m) : List Value → m (List Value)
  | [] => pure []
  | item :: rest => do
      let first ← rebuild rule item
      let others ← rebuildItems rule rest
      return first :: others
termination_by structural items => items

def rebuildEntries (rule : ListRule m) : List (Value × Value) → m (List (Value × Value))
  | [] => pure []
  | (key, v) :: rest => do
      let first ← rebuild rule key
      let second ← rebuild rule v
      let others ← rebuildEntries rule rest
      return (first, second) :: others
termination_by structural entries => entries

end

end Rebuild

namespace Store

/-- A value with its lists read back to some depth, inside some lists. A list inside itself is left
as it is kept. -/
def readBack (store : Store) : (depth : Nat) → (around : List Nat) → Value → Value
  | 0, _, v => v
  | depth + 1, around, v =>
      let rule : ListRule Id :=
        { onHandle := fun number =>
            if around.contains number then .handle .growing number
            else .list ((store.itemsOf number).map (store.readBack depth (number :: around)))
          onList := fun items => .list items
          onContainer := fun items => items }
      rebuild rule v

/-- A value with its lists read back; no more of them stand inside each other than there are. -/
def settled (store : Store) (v : Value) : Value := store.readBack (store.lists.size + 1) [] v

/-- A fault with the lists of its fault object read back. -/
def settledFault (store : Store) (fault : Fault) : Fault :=
  match fault with
  | .thrown t =>
      .thrown { t with
        arguments := t.arguments.map store.settled
        carried := t.carried.map store.settled }
  | fault => fault

end Store

namespace Run

/-- A value as it is observed. -/
def observe (v : Value) : Run Value := do return (← store).settled v

/-- A value as it is observed, but for its parts. -/
def look (v : Value) : Run Value := do
  match v with
  | .handle .growing number => return .list (← listAt number)
  | .sequence ⟨items⟩ => return .sequence ⟨← look items⟩
  | v => return v
termination_by structural v

/-- Keeps the lists of a value that are not kept yet. -/
def keep (v : Value) : Run Value :=
  rebuild ⟨fun number => pure (.handle .growing number), newList, pure⟩ v

/-- Whether a value counts as true. -/
def truth (v : Value) : Run Bool := do Attempt.ofOption (← look v).truthy?

/-- How many parts a value has. -/
def size (v : Value) : Run Nat := do Attempt.ofOption (← look v).size?

/-- More items than anything has. -/
def endless : Nat := wordBound - 1

/-- The items of a list that is kept, those included that are added on the way. -/
def listFeed (number : Nat) : Feed (StateM World) Value :=
  ⟨fun place => do return ((← store).lists[number]?).bind (·[place]?), endless⟩

/-- What an iterator has left; it gives an item only once. -/
def iteratorFeed (number : Nat) : Feed (StateM World) Value :=
  { next := fun _ => do
      match ← iteratorAt number with
      | [] => return none
      | item :: rest =>
          setIterator number rest
          return some item
    bound := endless }

/-- The lines that a stream has left. -/
def streamFeed (number : Nat) : Feed (StateM World) Value :=
  { next := fun _ => do
      match (← openStreamAt number .transfer).nextLine? with
      | none => return none
      | some (line, stream) =>
          setStream number stream
          return some (.text (String.ofList line))
    bound := endless }

/-- The parts of a value one at a time. -/
def feedOf (v : Value) : Run (Feed (StateM World) Value) := do
  match v with
  | .handle .growing number => return listFeed number
  | .handle .iterator number => return iteratorFeed number
  | .handle .stream number => do
      let _ ← openStreamAt number .start
      return streamFeed number
  | .sequence ⟨items⟩ => feedOf items
  | v => return .ofList (← Attempt.ofOption v.parts?)
termination_by structural v

/-- The parts of a value, all gone through. -/
def parts (v : Value) : Run (List Value) := do (← feedOf v).toList

/-- The first parts of a value, gone through up to a count. -/
def partsUpTo (count : Nat) (v : Value) : Run (List Value) := do
  ((← feedOf v).takeUpTo count).toList

/-- The parts of an entry, which are a key and what stands under it. -/
def addEntry (entries : List (Value × Value)) (place : Nat) (entry : List Value) :
    Except Fault (List (Value × Value)) :=
  match entry with
  | [key, v] => (Value.putUnder entries key v).mapError .unhashable
  | entry => .error (.unevenEntry place entry.length)

/-- The entries that a value gives: those of a dictionary, or its parts, each of which is an
entry. -/
def entriesOf (v : Value) : Run (List (Value × Value)) := do
  match v with
  | .dictionary entries => return entries
  | v => do
      let feed ← feedOf v
      let (entries, _) ← feed.fold (([] : List (Value × Value)), 0) fun (sofar, place) entry => do
        return (← lift (addEntry sofar place (← parts entry)), place + 1)
      return entries

/-- Whether one of the parts of a value equals another value; they are gone through as far as they
must be. -/
def passesBy (v part : Value) : Run Bool := do
  (← feedOf v).any fun item => do return (← observe item) == part

/-- Whether a value holds another. -/
def holds (v part : Value) : Run Bool := do
  let part ← observe part
  match v with
  | .handle .iterator _ => passesBy v part
  | .handle .stream _ => passesBy v part
  | .sequence _ => passesBy v part
  | v => lift ((← observe v).holds part)

/-- A value as it is told to others, as far as some depth and inside some lists. -/
def tellTo : (depth : Nat) → (around : List Nat) → Value → Run Value
  | 0, _, _ => fail .tooDeep
  | depth + 1, around, v =>
      let rule : ListRule (Attempt (StateM World)) :=
        { onHandle := fun number => do
            if around.contains number then fail .tooDeep
            else return .list (← (← listAt number).mapM (tellTo depth (number :: around)))
          onList := fun items => return .list items
          onContainer := fun items => do
            match items.parts? with
            | some told => return .tuple told
            | none => return .tuple (← (← parts items).mapM (tellTo depth around)) }
      rebuild rule v

/-- A value as it is told to others: its lists are read back, and its sequences gone through. No
list may be inside itself. -/
def tell (v : Value) : Run Value := do
  let store ← Run.store
  let told ← tellTo (store.lists.size + store.iterators.size + store.streams.size + 1) [] v
  lift told.requireTellable
  return told

end Run

end Presence.Session
