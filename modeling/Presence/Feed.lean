import Presence.Fault

/-!
Contract: going through items that come one at a time.

Owns: `Feed`, where items come from; `ofList`, the feed of items that are all there; `zip`; what can
be done with the items of a feed: folding, mapping, filtering, finding.

Does not own: containers of items (`Presence.Sequence`, `Presence.Session.Cells`).

A feed is asked for its next item only when the item before has been dealt with, so that items may
be added while a feed is gone through. Functions are called on the items in their order, and no
longer than the answer needs.
-/

namespace Presence

/-- Where items come from: the item at each place, as long as there is one. The places are asked for
one after the other from nought on, and no more of them than the bound. -/
structure Feed (m : Type → Type) (α : Type) where
  next : Nat → Attempt m (Option α)
  bound : Nat

namespace Feed

variable {m : Type → Type} [Monad m] {α β γ σ : Type}

/-- The items of a list. -/
def ofList (items : List α) : Feed m α :=
  let cells := items.toArray
  ⟨fun place => pure cells[place]?, items.length⟩

/-- The items of two feeds side by side, up to the end of the first that ends. -/
def zip (xs : Feed m α) (ys : Feed m β) : Feed m (α × β) :=
  { next := fun place => do
      match ← xs.next place with
      | none => return none
      | some x =>
          match ← ys.next place with
          | none => return none
          | some y => return some (x, y)
    bound := min xs.bound ys.bound }

/-- Goes through a feed from a place on, for at most some steps, as long as the body asks for
more. -/
def goFrom (feed : Feed m α) (body : α → σ → Attempt m (ForInStep σ)) :
    (steps place : Nat) → σ → Attempt m σ
  | 0, _, sofar => pure sofar
  | steps + 1, place, sofar => do
      match ← feed.next place with
      | none => return sofar
      | some item =>
          match ← body item sofar with
          | .done final => return final
          | .yield sofar => goFrom feed body steps (place + 1) sofar

/-- Goes through a feed. -/
def go (feed : Feed m α) (start : σ) (body : α → σ → Attempt m (ForInStep σ)) : Attempt m σ :=
  feed.goFrom body feed.bound 0 start

def fold (feed : Feed m α) (initial : β) (f : β → α → Attempt m β) : Attempt m β :=
  feed.go initial fun item sofar => do return .yield (← f sofar item)

/-- Runs the function on each item for its effects alone. -/
def each (feed : Feed m α) (f : α → Attempt m Unit) : Attempt m Unit :=
  feed.fold () fun _ item => f item

/-- What the function gives for each item. -/
def collect (feed : Feed m α) (f : α → Attempt m β) : Attempt m (List β) := do
  let results ← feed.fold #[] fun sofar item => do return sofar.push (← f item)
  return results.toList

def toList (feed : Feed m α) : Attempt m (List α) := feed.collect pure

/-- The items that the function gives for each item, one after the other. -/
def flatCollect (feed : Feed m α) (f : α → Attempt m (List β)) : Attempt m (List β) := do
  return (← feed.collect f).flatten

/-- The items that pass. -/
def filter (feed : Feed m α) (p : α → Attempt m Bool) : Attempt m (List α) := do
  let passed ← feed.fold #[] fun sofar item => do
    return if ← p item then sofar.push item else sofar
  return passed.toList

/-- The first item that passes, with its place. -/
def findPlace (feed : Feed m α) (p : α → Attempt m Bool) : Attempt m (Option (α × Nat)) := do
  let (_, found) ← feed.go ((0 : Nat), (none : Option (α × Nat))) fun item (place, _) => do
    return if ← p item then .done (place, some (item, place)) else .yield (place + 1, none)
  return found

/-- Whether an item passes. -/
def any (feed : Feed m α) (p : α → Attempt m Bool) : Attempt m Bool := do
  return (← feed.findPlace p).isSome

/-- Not more items than a count. -/
def takeUpTo (feed : Feed m α) (count : Nat) : Feed m α :=
  { feed with bound := min feed.bound count }

end Feed

end Presence
