import Presence.Sequence.Sort.Merge

/-!
Contract: stable sorting by keys whose order may have gaps.

Owns: the run at the front of the items (`frontRun`), binary insertion (`insertSorted`), which
lengthens short runs, and `sort`, which merges runs; sorting downwards.

Does not own: merging two runs (`Presence.Sequence.Sort.Merge`), and the order of keys, which is a
parameter and gives `none` for keys that have no order between them, which ends the sort.

Keys that are neither before nor after each other keep the order of their items, downwards as
well: the items are reversed, sorted, and reversed again. Which keys are compared, and in which
turn, is fixed, so that an order with gaps has one outcome.

Each run is given a power, the depth of the boundary between it and the run after it in a tree that
halves the items again and again. Runs before a boundary that is nearer the root are merged first,
so that merges stay balanced.
-/

namespace Presence.Sort

variable {κ α : Type}

/-! ## Runs -/

/-- The items after the first that go on as they began: each before the one in front of it, or none
before the one in front of it. -/
def spanRun (before? : Before α) (falling : Bool) : α → List α → Option (List α × List α)
  | _, [] => some ([], [])
  | last, next :: rest => do
      if (← before? next last) == falling then
        let (run, rest) ← spanRun before? falling next rest
        return (next :: run, rest)
      else return ([], next :: rest)

/-- The longest run at the front, rising, and the items after it. A run that strictly falls counts
as a rising one from its end. -/
def frontRun (before? : Before α) (items : List α) : Option (List α × List α) :=
  match items with
  | first :: second :: rest => do
      let falling ← before? second first
      let (run, rest) ← spanRun before? falling second rest
      let run := first :: second :: run
      return (if falling then run.reverse else run, rest)
  | items => some (items, [])

/-- Puts a new item at its place among sorted ones: behind those that it is not before. -/
def insertSorted (before? : Before α) (sorted : List α) (entry : α) : Option (List α) := do
  let cells := sorted.toArray
  let place ← halve (fun place => do return !(← before? entry (← cells[place]?))) false
    sorted.length 0 sorted.length
  return sorted.take place ++ entry :: sorted.drop place

/-- Runs are at least this long, the last one aside: half of the items, half of that and so on
until it is below the bound, rounded up. -/
def leastRun (size : Nat) (roundsUp : Bool) : Nat :=
  if size < 64 then size + (if roundsUp then 1 else 0)
  else leastRun (size / 2) (roundsUp || size % 2 == 1)
termination_by size
decreasing_by omega

/-- The run at the front, lengthened to a least length as far as there are items. -/
def longRun (before? : Before α) (least : Nat) (items : List α) : Option (List α × List α) := do
  let (run, rest) ← frontRun before? items
  let missing := least - run.length
  let run ← (rest.take missing).foldlM (insertSorted before?) run
  return (run, rest.drop missing)

/-! ## Merging runs -/

/-- A run among all items, with the power of the boundary at its end. -/
structure Run (α : Type) where
  start : Nat
  items : List α
  power : Nat

/-- The depth of a boundary between two runs of some sizes: how many binary digits of their middles,
as fractions of the whole, must be looked at to tell them apart. Both middles are given twice. -/
def boundaryPower (size : Nat) : (steps low high : Nat) → Nat
  | 0, _, _ => 1
  | steps + 1, low, high =>
      if size ≤ low then boundaryPower size steps (2 * (low - size)) (2 * (high - size)) + 1
      else if size ≤ high then 1
      else boundaryPower size steps (2 * low) (2 * high) + 1

/-- Runs that wait to be merged, the last one first, and the patience of the next merge. -/
structure Pending (α : Type) where
  runs : List (Run α)
  patience : Nat

/-- Merges the last two runs as long as the boundary between them is deeper than a power. -/
def mergeDeeper (before? : Before α) (power : Nat) : (steps : Nat) → Pending α →
    Option (Pending α)
  | 0, pending => some pending
  | steps + 1, pending =>
      match pending.runs with
      | last :: previous :: others =>
          if power < previous.power then do
            let (items, patience) ← join before? pending.patience previous.items last.items
            mergeDeeper before? power steps ⟨{ previous with items := items } :: others, patience⟩
          else some pending
      | _ => some pending

/-- Adds a run; the runs before a boundary that is nearer the root are merged first. -/
def addRun (before? : Before α) (size : Nat) (pending : Pending α) (items : List α) :
    Option (Pending α) :=
  match pending.runs with
  | [] => some { pending with runs := [⟨0, items, 0⟩] }
  | last :: _ => do
      let low := 2 * last.start + last.items.length
      let power := boundaryPower size (size + 1) low (low + last.items.length + items.length)
      let pending ← mergeDeeper before? power pending.runs.length pending
      match pending.runs with
      | last :: others =>
          let runs := ⟨last.start + last.items.length, items, 0⟩ :: { last with power := power }
            :: others
          return { pending with runs := runs }
      | [] => return { pending with runs := [⟨0, items, 0⟩] }

/-- Merges all runs, the last two, or the two before the last one where that keeps them more
even. -/
def mergeAll (before? : Before α) : (steps : Nat) → Pending α → Option (List α)
  | 0, pending => some (pending.runs.reverse.flatMap Run.items)
  | steps + 1, pending =>
      match pending.runs with
      | [] => some []
      | [only] => some only.items
      | [last, first] => do
          let (items, _) ← join before? pending.patience first.items last.items
          return items
      | last :: previous :: third :: others =>
          if third.items.length < last.items.length then do
            let (items, patience) ← join before? pending.patience third.items previous.items
            mergeAll before? steps ⟨last :: { third with items := items } :: others, patience⟩
          else do
            let (items, patience) ← join before? pending.patience previous.items last.items
            mergeAll before? steps ⟨{ previous with items := items } :: third :: others, patience⟩

/-- Adds the runs that items consist of, one after the other. -/
def addRuns (before? : Before α) (size : Nat) : (steps : Nat) → Pending α → List α →
    Option (Pending α)
  | 0, pending, _ => some pending
  | _, pending, [] => some pending
  | steps + 1, pending, items => do
      let (run, rest) ← longRun before? (leastRun size false) items
      addRuns before? size steps (← addRun before? size pending run) rest

/-! ## Sorting -/

/-- The items upwards in an order. -/
def sortItems (before? : Before α) (items : List α) : Option (List α) := do
  let size := items.length
  let pending ← addRuns before? size size ⟨[], longLeap⟩ items
  mergeAll before? pending.runs.length pending

/-- The items upwards by their keys. -/
def sort (before? : Before κ) (items : List (Keyed κ α)) : Option (List (Keyed κ α)) :=
  sortItems before?.ofKeys items

/-- The items downwards by their keys. -/
def sortDown (before? : Before κ) (items : List (Keyed κ α)) : Option (List (Keyed κ α)) :=
  (sort before? items.reverse).map List.reverse

end Presence.Sort
