import Presence.Either
import Presence.Feed
import Presence.Sequence.Sort
import Presence.Value.Lookup
import Presence.Value.Order

/-!
Contract: what can be done with the items of a sequence.

Owns: going through the items with a function, taking some of them, finding and counting them,
membership by equality and by hash, sorting, growing, and taking rows apart into sequences; the
same for items that come one at a time, where the result is a list.

Does not own: sorting itself (`Presence.Sequence.Sort`), how items come (`Presence.Feed`), and what
values are gone through by (`Value.parts?`).

Where a function runs inside another iteration, it cannot end that iteration (`Attempt.sealed`).
-/

namespace Presence

namespace Feed

variable {m : Type → Type} [Monad m] {α β : Type}

/-! ## Items that come one at a time -/

/-- What the function gives for each item. -/
def map (feed : Feed m α) (f : α → Attempt m β) : Attempt m (List β) :=
  Attempt.sealed (feed.collect f)

def keepIf (feed : Feed m α) (p : α → Attempt m Bool) : Attempt m (List α) :=
  Attempt.sealed (feed.filter p)

def removeIf (feed : Feed m α) (p : α → Attempt m Bool) : Attempt m (List α) :=
  feed.keepIf fun item => do return !(← p item)

def find (feed : Feed m α) (p : α → Attempt m Bool) : Attempt m (Optional Value α) := do
  match ← feed.findPlace p with
  | some (item, _) => return .ok item
  | none => return .notOk .null

/-- The place of the first item that passes; absence counts as nought. -/
def indexWhere (feed : Feed m α) (p : α → Attempt m Bool) : Attempt m (Optional Value Nat) := do
  match ← feed.findPlace p with
  | some (_, place) => return .ok place
  | none => return .notOk (.ofKind .int)

/-- Whether an item passes. -/
def anyPasses (feed : Feed m α) (p : α → Attempt m Bool) : Attempt m Bool :=
  Attempt.sealed (feed.any p)

/-- The set of the items. -/
def toSet (feed : Feed m Value) : Attempt m (List Value) :=
  feed.fold [] fun sofar item => Attempt.ofHash (Value.addToSet sofar item)

/-- Whether one of the items is in a set of targets. -/
def meetsSet (feed : Feed m Value) (wanted : List Value) : Attempt m Bool :=
  feed.any fun item => Attempt.ofHash (item.isInSet wanted)

/-- The first of each group of equal items. An item is looked for among those before as a member of
a set is. -/
def unique (feed : Feed m Value) : Attempt m (List Value) := do
  let (_, kept) ← feed.fold (([] : List Value), ([] : List Value)) fun (seen, kept) item => do
    if ← Attempt.ofHash (item.isInSet seen) then return (seen, kept)
    else return (← Attempt.ofHash (Value.addToSet seen item), kept ++ [item])
  return kept

/-- The column of each of some functions over the items, item by item. -/
def unzip (feed : Feed m α) (columns : List (α → Attempt m β)) : Attempt m (List (List β)) := do
  let cells ← feed.collect fun row => columns.mapM fun column => column row
  return (List.range columns.length).map fun place => cells.filterMap fun row => row[place]?

end Feed

namespace Sequence

variable {m : Type → Type} [Monad m] {α β γ : Type}

/-- The items of a sequence one at a time. -/
def feed (s : Sequence (List α)) : Feed m α := .ofList s.items

/-! ## Going through the items -/

def map (s : Sequence (List α)) (f : α → Attempt m β) : Attempt m (Sequence (List β)) := do
  return ⟨← s.feed.map f⟩

/-- The items that the function gives for each item, one after the other. -/
def flatMap (s : Sequence (List α)) (f : α → Attempt m (List β)) :
    Attempt m (Sequence (List β)) := do
  return ⟨← s.feed.flatCollect f⟩

def keepIf (s : Sequence (List α)) (p : α → Attempt m Bool) : Attempt m (Sequence (List α)) := do
  return ⟨← s.feed.keepIf p⟩

def removeIf (s : Sequence (List α)) (p : α → Attempt m Bool) : Attempt m (Sequence (List α)) := do
  return ⟨← s.feed.removeIf p⟩

/-- Runs the function on each item for its effects alone. -/
def each (s : Sequence (List α)) (f : α → Attempt m Unit) : Attempt m Unit := s.feed.each f

def fold (s : Sequence (List α)) (initial : β) (f : β → α → Attempt m β) : Attempt m β :=
  s.feed.fold initial f

/-! ## Finding -/

def find (s : Sequence (List α)) (p : α → Attempt m Bool) : Attempt m (Optional Value α) :=
  s.feed.find p

def indexWhere (s : Sequence (List α)) (p : α → Attempt m Bool) :
    Attempt m (Optional Value Nat) :=
  s.feed.indexWhere p

def any (s : Sequence (List α)) (p : α → Attempt m Bool) : Attempt m Bool := s.feed.anyPasses p

def contains (s : Sequence (List Value)) (target : Value) : Bool := target.isAmong s.items

/-- Whether one of the items is a target. In an empty set of targets no item is looked for. -/
def containsAny (s : Sequence (List Value)) (targets : List Value) : Attempt m Bool := do
  let wanted ← Attempt.ofHash (Value.setOf targets)
  if wanted.isEmpty then return false else s.feed.meetsSet wanted

/-- Whether one of the items is a target; no targets ask for nothing. -/
def meets (s : Sequence (List Value)) (targets : List Value) : Attempt m Bool :=
  if targets.isEmpty then pure true else s.containsAny targets

/-- The only item on the right, or how many there are on the left. -/
def singleOf (count : Nat) (only : Attempt m α) : Attempt m (Either Value Nat α) := do
  if count = 1 then return .right (← only) (.ofKind .int) else return .left count .null

/-- The only item on the right, or how many there are on the left. -/
def single (s : Sequence (List α)) : Attempt m (Either Value Nat α) :=
  singleOf s.items.length (Attempt.ofExcept (s.items.head?.elim (.error (.outOfRange .tuple)) .ok))

/-! ## Taking and growing -/

def takeFirst (s : Sequence (List α)) (count : Nat) : Sequence (List α) := ⟨s.items.take count⟩

def append (s : Sequence (List α)) (item : α) : Sequence (List α) := ⟨s.items ++ [item]⟩

def extend (s : Sequence (List α)) (others : List α) : Sequence (List α) := ⟨s.items ++ others⟩

def unique (s : Sequence (List Value)) : Attempt m (Sequence (List Value)) := do
  return ⟨← s.feed.unique⟩

/-- The set of the items. -/
def toSet (s : Sequence (List Value)) : Attempt m Value := do return .set (← s.feed.toSet)

/-! ## Sorting -/

/-- The items with their keys. All keys are made before any of them is read. -/
def keyed (s : Sequence (List α)) (key : α → Attempt m β) (read : β → Attempt m Value) :
    Attempt m (List (Sort.Keyed Value α)) := do
  let keys ← s.feed.collect key
  (keys.zip s.items).mapM fun (made, item) => do return ⟨← read made, item⟩

/-- The items upwards by their keys. -/
def sortBy (s : Sequence (List α)) (key : α → Attempt m β) (read : β → Attempt m Value) :
    Attempt m (Sequence (List α)) := do
  let sorted ← Attempt.ofOption (Sort.sort (Value.compare? .less) (← s.keyed key read))
  return ⟨sorted.map Sort.Keyed.item⟩

/-- The items downwards by their keys. -/
def sortByDesc (s : Sequence (List α)) (key : α → Attempt m β) (read : β → Attempt m Value) :
    Attempt m (Sequence (List α)) := do
  let sorted ← Attempt.ofOption (Sort.sortDown (Value.compare? .less) (← s.keyed key read))
  return ⟨sorted.map Sort.Keyed.item⟩

/-! ## Pairs -/

/-- Fails unless two sequences to be paired have the same length. -/
def requireSameLength (operation : String) (one two : Nat) : Except Fault Unit :=
  if one = two then .ok () else .error (.unequalLengths operation)

/-- The pairs of two sequences of the same length. -/
def zip (xs : List α) (ys : List β) : Except Fault (List (Pair α β)) := do
  requireSameLength "zip" xs.length ys.length
  return List.zipWith Pair.mk xs ys

/-- The function on the pairs of two feeds of some lengths, which must be the same. -/
def zipWith (xs : Feed m α) (ys : Feed m β) (xLength yLength : Nat)
    (f : α → β → Attempt m γ) : Attempt m (List γ) := do
  Attempt.ofExcept (requireSameLength "zip_with" xLength yLength)
  (xs.zip ys).collect fun (x, y) => f x y

end Sequence

end Presence
