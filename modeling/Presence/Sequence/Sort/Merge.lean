import Presence.Sequence.Sort.Keyed

/-!
Contract: merging two sorted runs that stand side by side.

Owns: the leap, a search in steps that grow and then by halves (`leap`); merging from the front and
from the end (`Direction`), which takes items one by one and leaps where one of the runs keeps
winning (`mergeWith`); `join`, which leaves alone what is in place already.

Does not own: which runs are merged (`Presence.Sequence.Sort`).

Where items are equal, those of the first run stand before those of the second. How long one run
must win before leaping starts depends on how much the leaps before it gained, over all merges of a
sort. None of this shows in the result unless the order has gaps.
-/

namespace Presence.Sort

variable {α : Type}

/-! ## Leaping -/

/-- Goes on in steps that grow, each twice the one before and one more, as long as places below a
count pass; the last place that passed, and the first one that is known not to. -/
def leapOut (passes : Nat → Option Bool) (count : Nat) : (steps last next : Nat) →
    Option (Nat × Nat)
  | 0, last, next => some (last, min next count)
  | steps + 1, last, next =>
      if next < count then do
        if ← passes next then leapOut passes count steps next (2 * next + 1)
        else return (last, next)
      else some (last, min next count)

/-- Where a search by halves looks next; the ends of the range are turned round for a search from
the end. -/
def middle (fromEnd : Bool) (low high : Nat) : Nat :=
  if fromEnd then high - 1 - (high - low) / 2 else low + (high - low) / 2

/-- Searches by halves for the first place that does not pass. -/
def halve (passes : Nat → Option Bool) (fromEnd : Bool) : (steps low high : Nat) → Option Nat
  | 0, low, _ => some low
  | steps + 1, low, high =>
      if low < high then do
        let place := middle fromEnd low high
        if ← passes place then halve passes fromEnd steps (place + 1) high
        else halve passes fromEnd steps low place
      else some low

/-- How many places from nought on pass, of a count of them. -/
def leap (passes : Nat → Option Bool) (fromEnd : Bool) (count : Nat) : Option Nat := do
  if ← passes 0 then
    let (last, next) ← leapOut passes count count 0 1
    halve passes fromEnd count (last + 1) next
  else return 0

/-! ## Merging -/

/-- Which way a merge goes. -/
inductive Direction where
  | forwards
  | backwards
deriving DecidableEq, Repr

/-- The items that are left of two runs in the direction of a merge, and those that were taken, the
last one first. The run `slow` keeps an item until the end, as its last item is known to come last
of all. -/
structure Merging (α : Type) where
  slow : List α
  fast : List α
  taken : List α

namespace Merging

def takeSlow (m : Merging α) (count : Nat) : Merging α :=
  ⟨m.slow.drop count, m.fast, (m.slow.take count).reverse ++ m.taken⟩

def takeFast (m : Merging α) (count : Nat) : Merging α :=
  ⟨m.slow, m.fast.drop count, (m.fast.take count).reverse ++ m.taken⟩

/-- What is left in its order, once no comparison is needed any more. -/
def rest? (m : Merging α) : Option (List α) :=
  match m.slow, m.fast with
  | [], fast => some fast
  | [last], fast => some (fast ++ [last])
  | slow, [] => some slow
  | _, _ => none

/-- All items in the order in which they were and will be taken. -/
def all (m : Merging α) (rest : List α) : List α := m.taken.reverse ++ rest

end Merging

/-- What a merge does by turns while it leaps. -/
inductive Move where
  | leapSlow
  | stepSlow
  | leapFast
  | stepFast
deriving DecidableEq, Repr

/-- Forwards the first run is the slow one, backwards the second. -/
def Direction.moves : Direction → List Move
  | .forwards => [.leapSlow, .stepFast, .leapFast, .stepSlow]
  | .backwards => [.leapFast, .stepSlow, .leapSlow, .stepFast]

/-- Whether the fast run goes first with its next item: forwards if it is before the other, so that
the first run goes first where they are equal; backwards likewise if it is after the other. -/
def Direction.fastWins (direction : Direction) (before? : Before α) (slow fast : α) : Option Bool :=
  match direction with
  | .forwards => before? fast slow
  | .backwards => before? slow fast

/-- How many items of a list pass from its front on. -/
def leapIn (direction : Direction) (passes : α → Option Bool) (items : List α) : Option Nat :=
  leap (fun place => (items[place]?).bind passes) (direction == .backwards) items.length

/-- Makes a move, and counts how far it leapt. -/
def makeMove (direction : Direction) (before? : Before α) (move : Move) (m : Merging α) :
    Option (Merging α × Nat) :=
  match move, m.slow, m.fast with
  | .leapSlow, slow, next :: _ => do
      let count ← leapIn direction (fun item => do
        return !(← direction.fastWins before? item next)) slow
      return (m.takeSlow count, count)
  | .leapFast, next :: _, fast => do
      let count ← leapIn direction (direction.fastWins before? next) fast
      return (m.takeFast count, count)
  | .stepSlow, _, _ => some (m.takeSlow 1, 0)
  | .stepFast, _, _ => some (m.takeFast 1, 0)
  | _, _, _ => some (m, 0)

/-- Makes moves until no comparison is needed any more, and counts the longest leap. -/
def makeMoves (direction : Direction) (before? : Before α) : (longest : Nat) → List Move →
    Merging α → Option (Merging α × Nat)
  | longest, [], m => some (m, longest)
  | longest, move :: moves, m =>
      match m.rest? with
      | some _ => some (m, longest)
      | none => do
          let (m, count) ← makeMove direction before? move m
          makeMoves direction before? (max longest count) moves m

/-- A leap of this length is worth another one. -/
def longLeap : Nat := 7

/-- How a merge proceeds: item by item, counting the items that each run was ahead of the other in
a row, or by leaps, where it is told whether it leapt just before. -/
inductive Pace where
  | walking (slowWins fastWins : Nat)
  | leaping (again : Bool)
deriving DecidableEq, Repr

/-- The pace after one run has won some times in a row: walking as long as that is below the
patience. -/
def paceAfter (patience slowWins fastWins : Nat) : Pace :=
  if patience ≤ max slowWins fastWins then .leaping false else .walking slowWins fastWins

/-- Merges what is left of two runs in at most some steps, and gives the patience that the next
merge starts with. The patience shrinks as long as leaps go on, and grows when they end. -/
def mergeWith (direction : Direction) (before? : Before α) : (steps patience : Nat) → Pace →
    Merging α → Option (List α × Nat)
  | 0, patience, _, m => some (m.all (m.slow ++ m.fast), patience)
  | steps + 1, patience, pace, m =>
      match m.rest?, pace, m.slow, m.fast with
      | some rest, _, _, _ => some (m.all rest, patience)
      | none, .walking slowWins fastWins, s :: _, f :: _ => do
          if ← direction.fastWins before? s f then
            mergeWith direction before? steps patience (paceAfter patience 0 (fastWins + 1))
              (m.takeFast 1)
          else
            mergeWith direction before? steps patience (paceAfter patience (slowWins + 1) 0)
              (m.takeSlow 1)
      | none, .leaping again, _, _ => do
          let patience := if again then max (patience - 1) 1 else patience
          let (m, longest) ← makeMoves direction before? 0 direction.moves m
          match m.rest? with
          | some rest => return (m.all rest, patience)
          | none =>
              if longLeap ≤ longest then
                mergeWith direction before? steps patience (.leaping true) m
              else mergeWith direction before? steps (patience + 1) (.walking 0 0) m
      | none, .walking _ _, slow, fast => some (m.all (slow ++ fast), patience)

/-- Merges two runs of which the second starts before the first and the first ends after the
second, so that one item of each is placed at once. -/
def merge (before? : Before α) (patience : Nat) (first second : List α) :
    Option (List α × Nat) :=
  let steps := first.length + second.length + 1
  if first.length ≤ second.length then
    mergeWith .forwards before? steps patience (.walking 0 0)
      ((Merging.mk first second []).takeFast 1)
  else do
    let (items, patience) ← mergeWith .backwards before? steps patience (.walking 0 0)
      ((Merging.mk second.reverse first.reverse []).takeFast 1)
    return (items.reverse, patience)

/-- Joins two sorted runs. The items of the first that are not after the start of the second are in
place already, and so are those of the second that are not before the end of the first. -/
def join (before? : Before α) (patience : Nat) (first second : List α) :
    Option (List α × Nat) :=
  match second.head? with
  | none => some (first, patience)
  | some start => do
      let front ← leapIn .forwards (fun item => do return !(← before? start item)) first
      let moving := first.drop front
      match moving.getLast? with
      | none => return (first ++ second, patience)
      | some final =>
          let back ← leapIn .backwards (fun item => do return !(← before? item final))
            second.reverse
          let staying := second.drop (second.length - back)
          let others := second.take (second.length - back)
          if others.isEmpty then return (first ++ second, patience)
          else
            let (merged, patience) ← merge before? patience moving others
            return (first.take front ++ merged ++ staying, patience)

end Presence.Sort
