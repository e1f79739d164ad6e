import Mathlib.Data.Finset.Card
import Mathlib.Data.Finset.Filter
import Mathlib.Data.Finset.Range
import Presence.Session.Cells

/-!
Contract: how lists stand inside lists.

Owns: `Store.OutsideItself`, lists that are not inside themselves; reading back goes no deeper than
there are lists (`readBack_deeper`), and reads such a list back item by item (`settled_kept`).

Does not own: what reading back changes (`Presence.Proofs.Session.ReadingBack`).

What is inside a value is told by what rules make of the value: a list that a rule may do anything
with is not inside it.
-/

namespace Presence.Session

/-! ## Lists inside values -/

/-- The lists inside a value are among some: what rules make of it depends on what they make of
these alone. -/
def ListsAmong (among : Nat → Prop) (v : Value) : Prop :=
  ∀ rule rule' : ListRule Id,
    (∀ number, among number → rule.onHandle number = rule'.onHandle number) →
      rule.onList = rule'.onList → rule.onContainer = rule'.onContainer →
        rebuild rule v = rebuild rule' v

namespace Store

variable {store : Store} {around : List Nat} {number : Nat}

/-- A list is not inside itself: there are lists without it that are all there are inside its items,
and inside the items of each other. -/
def OutsideItself (store : Store) (number : Nat) : Prop :=
  ∃ among : Nat → Prop, ¬ among number ∧
    (∀ item ∈ store.itemsOf number, ListsAmong among item) ∧
    ∀ other, among other → ∀ item ∈ store.itemsOf other, ListsAmong among item

/-! ## Depth -/

/-- How many lists can still be opened inside some. -/
def unopened (store : Store) (around : List Nat) : Nat :=
  ((Finset.range store.lists.size).filter fun number => around.contains number = false).card

private theorem unopened_le (store : Store) (around : List Nat) :
    store.unopened around ≤ store.lists.size :=
  calc store.unopened around ≤ (Finset.range store.lists.size).card := Finset.card_filter_le _ _
    _ = store.lists.size := Finset.card_range _

theorem unopened_cons_lt (isKept : number < store.lists.size)
    (opens : around.contains number = false) :
    store.unopened (number :: around) < store.unopened around := by
  refine Finset.card_lt_card ((Finset.ssubset_iff_of_subset ?_).mpr ⟨number, ?_, ?_⟩)
  · intro other member
    rw [Finset.mem_filter, List.contains_cons, Bool.or_eq_false_iff] at member
    exact Finset.mem_filter.mpr ⟨member.1, member.2.2⟩
  · exact Finset.mem_filter.mpr ⟨Finset.mem_range.mpr isKept, opens⟩
  · rw [Finset.mem_filter, List.contains_cons, beq_self_eq_true]
    exact fun member => Bool.noConfusion member.2

theorem itemsOf_eq_nil (notKept : ¬ number < store.lists.size) : store.itemsOf number = [] := by
  rw [itemsOf, Array.getElem?_eq_none (Nat.le_of_not_lt notKept)]
  rfl

/-- Reading back goes no deeper than lists can be opened. -/
theorem readBack_deeper {depth : Nat} (enough : store.unopened around < depth) (v : Value) :
    store.readBack (depth + 1) around v = store.readBack depth around v := by
  -- On the depth: a list that is opened leaves one fewer, unless it is not kept and has no items.
  induction depth generalizing around v with
  | zero => exact absurd enough (Nat.not_lt_zero _)
  | succ depth inductionHypothesis =>
      have sameItems (number : Nat) (opens : around.contains number = false) :
          (store.itemsOf number).map (store.readBack (depth + 1) (number :: around)) =
            (store.itemsOf number).map (store.readBack depth (number :: around)) := by
        by_cases isKept : number < store.lists.size
        · have fewer := unopened_cons_lt isKept opens
          exact List.map_congr_left fun item _ => inductionHypothesis (by omega) item
        · rw [itemsOf_eq_nil isKept]
          rfl
      have sameHandles : (fun number => if around.contains number then Value.handle .growing number
          else .list ((store.itemsOf number).map (store.readBack (depth + 1) (number :: around)))) =
          fun number => if around.contains number then .handle .growing number
          else .list ((store.itemsOf number).map (store.readBack depth (number :: around))) := by
        funext number
        cases opens : around.contains number with
        | true => rfl
        | false => rw [sameItems number opens]
      rw [readBack, readBack, sameHandles]

/-! ## Reading back inside lists -/

/-- What a value is read back as depends on those lists around that are inside it. -/
private theorem readBack_congr {among : Nat → Prop}
    (closed : ∀ other, among other → ∀ item ∈ store.itemsOf other, ListsAmong among item)
    (depth : Nat) {around' : List Nat}
    (same : ∀ number, among number → around.contains number = around'.contains number) {v : Value}
    (lists : ListsAmong among v) :
    store.readBack depth around v = store.readBack depth around' v := by
  induction depth generalizing around around' v with
  | zero => rfl
  | succ depth inductionHypothesis =>
      refine lists _ _ ?_ rfl rfl
      intro number isAmong
      have sameItems : (store.itemsOf number).map (store.readBack depth (number :: around)) =
          (store.itemsOf number).map (store.readBack depth (number :: around')) := by
        refine List.map_congr_left fun item member => ?_
        refine inductionHypothesis ?_ (closed number isAmong item member)
        intro other otherAmong
        rw [List.contains_cons, List.contains_cons, same other otherAmong]
      show (if around.contains number then _ else _) = if around'.contains number then _ else _
      rw [same number isAmong, sameItems]

/-- A list that is not inside itself is read back item by item. -/
theorem settled_kept (outside : store.OutsideItself number) :
    store.settled (.handle .growing number) =
      .list ((store.itemsOf number).map store.settled) := by
  obtain ⟨among, apart, inItems, closed⟩ := outside
  have opened : store.settled (.handle .growing number) =
      .list ((store.itemsOf number).map (store.readBack store.lists.size [number])) := rfl
  rw [opened]
  by_cases isKept : number < store.lists.size
  · refine congrArg Value.list (List.map_congr_left fun item member => ?_)
    have fewer : store.unopened [number] < store.unopened [] := unopened_cons_lt isKept rfl
    have enough := fewer.trans_le (store.unopened_le [])
    rw [← readBack_deeper enough]
    refine readBack_congr closed _ ?_ (inItems item member)
    intro other isAmong
    have differ : other ≠ number := fun same => apart (same ▸ isAmong)
    simpa using differ
  · rw [itemsOf_eq_nil isKept]
    rfl

end Store

end Presence.Session
