import Mathlib.Data.String.Basic
import Presence.Proofs.Sequence.Pipeline
import Presence.Proofs.Session.Frames
import Presence.Proofs.Sort.Levels
import Presence.Session.Step

/-!
Contract: a sequence is sorted by the keys that a function gives for its items.

Owns: `keyedBy`, items with their keys as they are read; the calls of the function, one for each
item, before any key is read (`runFrom_keyed`, `calls_of_sorted`); that the items are sorted by
their keys upwards and downwards (`sortBy_stable`).

Does not own: sorting itself (`Presence.Proofs.Sort.Levels`).

All that can be said of a sort is said of keys in one state, that in which the last call has left
them: a key that holds a list may be another one when it is read than when it was given.
-/

namespace Presence.Sequence

open Attempt Calls Session

variable {σ α β : Type}

/-! ## Items with keys -/

/-- Items with their keys as they are read. -/
def keyedBy (seen : β → Value) (keys : List β) (items : List α) : List (Sort.Keyed Value α) :=
  (keys.zip items).map fun pair => ⟨seen pair.1, pair.2⟩

private theorem map_key_keyedBy (seen : β → Value) {keys : List β} {items : List α}
    (each : keys.length = items.length) :
    (keyedBy seen keys items).map Sort.Keyed.key = keys.map seen := by
  rw [keyedBy, List.map_map, ← List.map_fst_zip (Nat.le_of_eq each), List.map_map]
  simp [Function.comp_def, List.map_fst_zip (Nat.le_of_eq each)]

private theorem map_item_keyedBy (seen : β → Value) {keys : List β} {items : List α}
    (each : keys.length = items.length) :
    (keyedBy seen keys items).map Sort.Keyed.item = items := by
  rw [keyedBy, List.map_map]
  exact List.map_snd_zip (Nat.le_of_eq each.symm)

/-- Items whose keys are taken apart and put together again. -/
theorem keyedBy_map (keyed : List (Sort.Keyed Value α)) {seen : β → Value} {keys : List β}
    (same : keys.map seen = keyed.map Sort.Keyed.key) :
    keyedBy seen keys (keyed.map Sort.Keyed.item) = keyed := by
  induction keyed generalizing keys with
  | nil => simp [keyedBy]
  | cons first rest inductionHypothesis =>
      cases keys with
      | nil => cases same
      | cons made keys =>
          obtain ⟨isKey, others⟩ := List.cons.inj same
          have goesOn := inductionHypothesis others
          rw [keyedBy] at goesOn ⊢
          simp only [List.map_cons, List.zip_cons_cons, isKey, goesOn]

/-! ## Calls that are on record -/

/-- Whatever comes of a computation, it puts no call on record. -/
def LeavesCalls {γ : Type} (body : Attempt (StateM (Record σ α β)) γ) : Prop :=
  ∀ record, (body.runFrom record).2.calls = record.calls

namespace LeavesCalls

variable {γ δ : Type}

private theorem aside (body : Attempt (StateM σ) γ) :
    LeavesCalls (aside body : Attempt (StateM (Record σ α β)) γ) := fun _ => rfl

theorem bind {first : Attempt (StateM (Record σ α β)) γ}
    {next : γ → Attempt (StateM (Record σ α β)) δ} (begins : LeavesCalls first)
    (goesOn : ∀ result, LeavesCalls (next result)) : LeavesCalls (first >>= next) := by
  intro record
  have same := begins record
  rw [runFrom_bind]
  rcases ended : first.runFrom record with ⟨fault | result, between⟩ <;> rw [ended] at same
  · exact same
  · exact (goesOn result between).trans same

private theorem mapM {f : γ → Attempt (StateM (Record σ α β)) δ}
    (each : ∀ item, LeavesCalls (f item)) (items : List γ) : LeavesCalls (items.mapM f) := by
  induction items with
  | nil => exact fun _ => rfl
  | cons item rest inductionHypothesis =>
      rw [List.mapM_cons]
      exact (each item).bind fun _ => inductionHypothesis.bind fun _ _ => rfl

end LeavesCalls

/-! ## Calls for keys -/

section Keys

variable {items : List α} {key : α → Attempt (StateM σ) β} {keys : List β} {start after : σ}
  (returns : (items.mapM key).runFrom start = (.ok keys, after))

include returns

/-- The items get their keys, and the keys are as they are read after the last call. -/
theorem runFrom_keyed {read : β → Attempt (StateM σ) Value} {seen : β → Value}
    (reads : ∀ made, (read made).runFrom after = (.ok (seen made), after)) :
    ((Sequence.mk items).keyed key read).runFrom start =
      (.ok (keyedBy seen keys items), after) := by
  have collected : ((Sequence.mk items).feed.collect key).runFrom start = (.ok keys, after) := by
    rw [feed, Feed.collect_ofList]
    exact returns
  rw [keyed, runFrom_bind_of_ok _ collected]
  refine runFrom_mapM after (fun pair => ?_) (keys.zip items)
  rw [runFrom_bind_of_ok _ (reads pair.1)]
  rfl

/-- What is done with the items and their keys in the end is all that is left to be done. -/
theorem runFrom_sorted {read : β → Attempt (StateM σ) Value} {seen : β → Value}
    (reads : ∀ made, (read made).runFrom after = (.ok (seen made), after))
    {sorter : List (Sort.Keyed Value α) → Option (List (Sort.Keyed Value α))}
    {sorted : List (Sort.Keyed Value α)} (ended : sorter (keyedBy seen keys items) = some sorted) :
    (do
      let sorted ← Attempt.ofOption (sorter (← (Sequence.mk items).keyed key read))
      return Sequence.mk (sorted.map Sort.Keyed.item)).runFrom start =
      (.ok ⟨sorted.map Sort.Keyed.item⟩, after) := by
  rw [runFrom_bind_of_ok _ (runFrom_keyed returns reads), ended]
  rfl

/-- Whatever reading the keys comes to, and whether or not the items can be sorted by them, the
calls on record are one for each item. -/
theorem calls_of_sorted (read : β → Attempt (StateM σ) Value)
    (sorter : List (Sort.Keyed Value α) → Option (List (Sort.Keyed Value α))) :
    ((do
      let sorted ← Attempt.ofOption
        (sorter (← (Sequence.mk items).keyed (recorded key) fun made => aside (read made)))
      return Sequence.mk (sorted.map Sort.Keyed.item)).runFrom
        (⟨start, []⟩ : Record σ α β)).2.calls =
      List.zipWith (fun item made => ⟨item, .ok made⟩) items keys := by
  have collected : ((Sequence.mk items).feed.collect (recorded key)).runFrom ⟨start, []⟩ = _ :=
    (congrArg (Attempt.runFrom · _) (Feed.collect_ofList items (recorded key))).trans
      (runFrom_recorded_mapM returns [])
  rw [keyed, bind_assoc, runFrom_bind_of_ok _ collected]
  refine LeavesCalls.bind (.mapM (fun pair => (LeavesCalls.aside _).bind fun _ _ => rfl) _)
    (fun keyed => ?_) _
  cases sorter keyed with
  | none => exact fun _ => rfl
  | some sorted => exact fun _ => rfl

end Keys

/-! ## Keys that are in order -/

private theorem less_ofInt (a b : Int) :
    (Extended.ofInt a).less (Extended.ofInt b) = true ↔ a < b := by
  rw [← Rat.intCast_lt_intCast]
  exact Iff.rfl

private theorem strictWeakOrder_of_ints (numbers : List Int) :
    Sort.StrictWeakOrder (Value.compare? .less) (numbers.map Value.int) :=
  .of_lt (fun _ _ => rfl) less_ofInt numbers

/-! ## Sorting in a session -/

private theorem performSequence_sortBy (call : Caller) (items : List Value) (key : Value) :
    performSequence call .sortBy [sequence items, key] = do
      return Value.ofSequence (← (Sequence.mk items).sortBy (keyOf call key) Run.observe) := by
  show (do
    let items ← (Feed.ofList items).toList
    return Value.ofSequence (← (Sequence.mk items).sortBy (keyOf call key) Run.observe)) = _
  rw [Feed.toList_ofList, pure_bind]

private theorem performSequence_sortByDesc (call : Caller) (items : List Value) (key : Value) :
    performSequence call .sortByDesc [sequence items, key] = do
      return Value.ofSequence (← (Sequence.mk items).sortByDesc (keyOf call key) Run.observe) := by
  show (do
    let items ← (Feed.ofList items).toList
    return Value.ofSequence (← (Sequence.mk items).sortByDesc (keyOf call key) Run.observe)) = _
  rw [Feed.toList_ofList, pure_bind]

/-- An operation makes a sequence of some items into one of the sorted items, whenever the function
gives keys for the items that are those of the keyed items when they are read. -/
def SortsTo (call : Caller) (key : Value) (operation : SequenceOperation)
    (keyed sorted : List (Sort.Keyed Value Value)) : Prop :=
  ∀ (world after : World) (keys : List Value),
    ((keyed.map Sort.Keyed.item).mapM (keyOf call key)).runFrom world = (.ok keys, after) →
    keys.map after.store.settled = keyed.map Sort.Keyed.key →
    (performSequence call operation [sequence (keyed.map Sort.Keyed.item), key]).runFrom world =
      (.ok (sequence (sorted.map Sort.Keyed.item)), after)

variable {call : Caller} {key : Value} {keyed sorted : List (Sort.Keyed Value Value)}

private theorem sortsTo_sortBy (ended : Sort.sort (Value.compare? .less) keyed = some sorted) :
    SortsTo call key .sortBy keyed sorted := by
  intro world after keys returns same
  rw [performSequence_sortBy, sortBy]
  rw [← keyedBy_map keyed same] at ended
  have reads (made : Value) :
      (Run.observe made).runFrom after = (.ok (after.store.settled made), after) := rfl
  rw [runFrom_bind_of_ok _ (runFrom_sorted returns reads ended)]
  rfl

private theorem sortsTo_sortByDesc
    (ended : Sort.sortDown (Value.compare? .less) keyed = some sorted) :
    SortsTo call key .sortByDesc keyed sorted := by
  intro world after keys returns same
  rw [performSequence_sortByDesc, sortByDesc]
  rw [← keyedBy_map keyed same] at ended
  have reads (made : Value) :
      (Run.observe made).runFrom after = (.ok (after.store.settled made), after) := rfl
  rw [runFrom_bind_of_ok _ (runFrom_sorted returns reads ended)]
  rfl

/-- Sorting by keys that have a strict weak order arranges the items by it, upwards and downwards,
and leaves tied items in their order both ways. The function is called once for each item, in the
order of the items, before any key is read. -/
theorem sortBy_stable {items keys : List Value} {world after : World}
    (returns : (items.mapM (keyOf call key)).runFrom world = (.ok keys, after))
    (order : Sort.StrictWeakOrder (Value.compare? .less) (keys.map after.store.settled)) :
    ∃ up down,
      (performSequence call .sortBy [sequence items, key]).runFrom world =
        (.ok (sequence (up.map Sort.Keyed.item)), after) ∧
      (performSequence call .sortByDesc [sequence items, key]).runFrom world =
        (.ok (sequence (down.map Sort.Keyed.item)), after) ∧
      Sort.Arranged (Sort.Before.ofKeys (Value.compare? .less))
        (keyedBy after.store.settled keys items) up ∧
      Sort.Arranged (fun x y => Sort.Before.ofKeys (Value.compare? .less) y x)
        (keyedBy after.store.settled keys items) down ∧
      (∀ read : Value → Run Value,
        (((Sequence.mk items).sortBy (recorded (keyOf call key)) fun made =>
            aside (read made)).runFrom ⟨world, []⟩).2.calls =
          List.zipWith (fun item made => ⟨item, .ok made⟩) items keys ∧
        (((Sequence.mk items).sortByDesc (recorded (keyOf call key)) fun made =>
            aside (read made)).runFrom ⟨world, []⟩).2.calls =
          List.zipWith (fun item made => ⟨item, .ok made⟩) items keys) ∧
      SortsTo call key .sortBy (keyedBy after.store.settled keys items).reverse down.reverse ∧
      SortsTo call key .sortBy up up ∧
      SortsTo call key .sortByDesc down down := by
  have each := length_of_mapM returns
  rw [← map_key_keyedBy after.store.settled each] at order
  obtain ⟨up, sortedUp, isUp, sortedAgain⟩ := Sort.sort_spec order
  obtain ⟨down, sortedDown, isDown, sortedDownAgain, turned⟩ := Sort.sortDown_spec order
  have there : SortsTo call key .sortBy _ up := sortsTo_sortBy sortedUp
  have back : SortsTo call key .sortByDesc _ down := sortsTo_sortByDesc sortedDown
  replace there := there world after keys
  replace back := back world after keys
  rw [map_item_keyedBy _ each, map_key_keyedBy _ each] at there back
  refine ⟨up, down, there returns rfl, back returns rfl, isUp, isDown, fun read => ⟨?_, ?_⟩,
    sortsTo_sortBy turned, sortsTo_sortBy sortedAgain, sortsTo_sortByDesc sortedDownAgain⟩
  · exact calls_of_sorted returns read (Sort.sort (Value.compare? .less))
  · exact calls_of_sorted returns read (Sort.sortDown (Value.compare? .less))

/-- Every function gives the first part of a pair. -/
def firstOfPair : Caller := fun _ arguments =>
  match arguments with
  | [.pair ⟨key, _⟩] => return key
  | _ => Run.fail .wrongType

/-- Two items with the same key, and one between them whose key is before theirs. -/
def tiedPairs : List Value :=
  [.pair ⟨.int 1, .text "a"⟩, .pair ⟨.int 0, .text "b"⟩, .pair ⟨.int 1, .text "c"⟩]

theorem sortBy_stable_tiedPairs :
    (tiedPairs.mapM (keyOf firstOfPair (.handle .function 0))).runFrom
        (.start ⟨[]⟩ ⟨2024, 2, 29, 1, 2, 3, 0⟩) =
      (.ok [.int 1, .int 0, .int 1], .start ⟨[]⟩ ⟨2024, 2, 29, 1, 2, 3, 0⟩) ∧
    Sort.StrictWeakOrder (Value.compare? .less) [.int 1, .int 0, .int 1] ∧
    ∃ up down,
      (performSequence firstOfPair .sortBy [sequence tiedPairs, .handle .function 0]).runFrom
          (.start ⟨[]⟩ ⟨2024, 2, 29, 1, 2, 3, 0⟩) =
        (.ok (sequence (up.map Sort.Keyed.item)), .start ⟨[]⟩ ⟨2024, 2, 29, 1, 2, 3, 0⟩) ∧
      (performSequence firstOfPair .sortByDesc [sequence tiedPairs, .handle .function 0]).runFrom
          (.start ⟨[]⟩ ⟨2024, 2, 29, 1, 2, 3, 0⟩) =
        (.ok (sequence (down.map Sort.Keyed.item)), .start ⟨[]⟩ ⟨2024, 2, 29, 1, 2, 3, 0⟩) ∧
      Sort.Arranged (Sort.Before.ofKeys (Value.compare? .less))
        (keyedBy id [.int 1, .int 0, .int 1] tiedPairs) up ∧
      Sort.Arranged (fun x y => Sort.Before.ofKeys (Value.compare? .less) y x)
        (keyedBy id [.int 1, .int 0, .int 1] tiedPairs) down := by
  have returns : (tiedPairs.mapM (keyOf firstOfPair (.handle .function 0))).runFrom
      (.start ⟨[]⟩ ⟨2024, 2, 29, 1, 2, 3, 0⟩) =
    (.ok [.int 1, .int 0, .int 1], .start ⟨[]⟩ ⟨2024, 2, 29, 1, 2, 3, 0⟩) := rfl
  have order := strictWeakOrder_of_ints [1, 0, 1]
  obtain ⟨up, down, isUp, isDown, arranged, turned, -⟩ := sortBy_stable returns order
  exact ⟨returns, order, up, down, isUp, isDown, arranged, turned⟩

end Presence.Sequence
