import Presence.Proofs.Lists.Apart
import Presence.Proofs.Lists.Confined

/-!
Contract: computations that do not depend on a list.

Owns: `Overlooks`, computations to which it makes no difference that items are added to a list;
closed under sequence; that finding, and so going through, looking at and telling, overlooks every
list that is not held (`overlooks_finds`), and so do observing, making and keeping.

Does not own: values that do not hold a list (`Presence.Proofs.Lists.Apart`), and what holds of
computations by their parts (`Presence.Proofs.Lists.Judgements`).
-/

namespace Presence.Session

open Attempt Run

/-- Items that are added to a list make no difference to a computation, wherever there are at least
so many lists and those among some hold only each other: it ends in the same outcome, and in the
same world but for these items. No list is dropped by it, those among some still hold only each
other then, and the result is as it should be. -/
def Overlooks {α : Type} (number : Nat) (added : List Value) (among : Handle → Prop) (base : Nat)
    (body : Run α) (fine : Nat → α → Prop) : Prop :=
  ∀ world : World, base ≤ world.lists → world.store.Encloses among →
    body.runFrom (world.added number added) =
        ((body.runFrom world).1, (body.runFrom world).2.added number added) ∧
      world.lists ≤ (body.runFrom world).2.lists ∧ (body.runFrom world).2.store.Encloses among ∧
      ∀ result, (body.runFrom world).1 = .ok result → fine (body.runFrom world).2.lists result

/-- A value holds only what is among some, however many lists there are. -/
abbrev Within (among : Handle → Prop) : Nat → Value → Prop := HoldsAmong fun _ => among

private abbrev AllWithin (among : Handle → Prop) : Nat → List Value → Prop := AllHold fun _ => among

variable {number base : Nat} {added : List Value} {among : Handle → Prop}

namespace Overlooks

variable {α β : Type} {fine : Nat → α → Prop} {well : Nat → β → Prop}

private theorem later {larger : Nat} {body : Run α}
    (overlooks : Overlooks number added among base body fine) (more : base ≤ larger) :
    Overlooks number added among larger body fine :=
  fun world enough => overlooks world (Nat.le_trans more enough)

theorem pure {result : α} (isFine : ∀ size, base ≤ size → fine size result) :
    Overlooks number added among base (pure result) fine := by
  refine fun world enough encloses => ⟨rfl, Nat.le_refl _, encloses, fun _ ended => ?_⟩
  cases ended
  exact isFine _ enough

theorem fail (fault : Fault) : Overlooks number added among base (Run.fail fault) fine :=
  fun _ _ encloses => ⟨rfl, Nat.le_refl _, encloses, nofun⟩

theorem bind {first : Run α} {next : α → Run β}
    (begins : Overlooks number added among base first fine)
    (goesOn : ∀ size, base ≤ size → ∀ result, fine size result →
      Overlooks number added among size (next result) well) :
    Overlooks number added among base (first >>= next) well := by
  intro world enough encloses
  obtain ⟨same, more, enclosesBetween, isFine⟩ := begins world enough encloses
  rw [runFrom_bind, same, runFrom_bind]
  rcases ended : first.runFrom world with ⟨fault | result, between⟩ <;>
    rw [ended] at more enclosesBetween isFine
  · exact ⟨rfl, more, enclosesBetween, nofun⟩
  · obtain ⟨sameAfter, more', enclosesAfter, isWell⟩ := goesOn between.lists
      (Nat.le_trans enough more) result (isFine result rfl) between (Nat.le_refl _) enclosesBetween
    exact ⟨sameAfter, Nat.le_trans more more', enclosesAfter, isWell⟩

theorem composes : Composes (Overlooks number added among) where
  later := later
  pure := pure
  fail := fail
  bind := bind

/-- What a result is does not matter to what comes after it. -/
theorem next {first : Run α} {next : α → Run β}
    (begins : Overlooks number added among base first fine)
    (goesOn : ∀ result, Overlooks number added among base (next result) well) :
    Overlooks number added among base (first >>= next) well :=
  composes.next begins goesOn

theorem imp {body : Run α} {fine' : Nat → α → Prop}
    (overlooks : Overlooks number added among base body fine)
    (implies : ∀ size result, fine size result → fine' size result) :
    Overlooks number added among base body fine' := by
  intro world enough encloses
  obtain ⟨same, more, enclosesAfter, isFine⟩ := overlooks world enough encloses
  exact ⟨same, more, enclosesAfter, fun result ended => implies _ result (isFine result ended)⟩

/-- A computation that changes nothing and reads nothing of the list. -/
theorem ofRead {body : Run α} {read : World → Except Fault α}
    (reads : ∀ world, body.runFrom world = (read world, world))
    (same : ∀ world, world.store.Encloses among →
      read (world.added number added) = read world ∧ ∀ result, read world = .ok result →
        fine world.lists result) : Overlooks number added among base body fine := by
  intro world _ encloses
  obtain ⟨sameRead, isFine⟩ := same world encloses
  rw [reads, reads, sameRead]
  exact ⟨rfl, Nat.le_refl _, encloses, isFine⟩

theorem ofExcept (result : Except Fault α) :
    Overlooks number added among base (Attempt.ofExcept result) fun _ a => result = .ok a :=
  composes.ofExcept fun _ isGiven _ _ => isGiven

theorem ofHash (result : Except Kind α) :
    Overlooks number added among base (Attempt.ofHash result) fun _ a => result = .ok a :=
  composes.ofHash fun _ isGiven _ _ => isGiven

end Overlooks

/-! ## Finding what is kept -/

section Kept

private theorem overlooks_iteratorAt {other : Nat} (isAmong : among ⟨.iterator, other⟩) :
    Overlooks number added among base (iteratorAt other) (AllWithin among) := by
  refine .ofRead (fun _ => rfl) fun world encloses => ⟨rfl, fun items isItems => ?_⟩
  cases isItems
  exact encloses.iterators other isAmong

private theorem overlooks_setIterator (other : Nat) {items : List Value}
    (holds : ∀ item ∈ items, item.HoldsOnly among) :
    Overlooks number added among base (setIterator other items) Whatever := by
  intro world _ encloses
  refine ⟨rfl, Nat.le_refl _, ⟨encloses.lists, fun place isAmong => ?_⟩, fun _ _ => trivial⟩
  show ∀ item ∈ ((world.store.iterators.setIfInBounds other items)[place]?).getD [], _
  rw [Array.getElem?_setIfInBounds]
  split
  · split
    · exact holds
    · exact List.forall_mem_nil _
  · exact encloses.iterators place isAmong

private theorem feedOverlooks_iteratorFeed {other : Nat} (isAmong : among ⟨.iterator, other⟩) :
    FeedJudged (Overlooks number added among) base (iteratorFeed other) (Within among) := by
  refine fun place => (overlooks_iteratorAt isAmong).bind fun size _ items areItems => ?_
  cases items with
  | nil => exact .pure fun _ _ => nofun
  | cons item rest =>
      rw [AllWithin, AllHold, List.forall_mem_cons] at areItems
      refine (overlooks_setIterator other areItems.2).next fun _ => .pure fun _ _ _ isItem => ?_
      cases isItem
      exact areItems.1

private theorem overlooks_openStreamAt (other : Nat) (use : StreamUse) :
    Overlooks number added among base (openStreamAt other use) Whatever := by
  have overlooks : Overlooks number added among base (Run.streamAt other) Whatever :=
    .ofRead (fun _ => rfl) fun _ _ => ⟨rfl, fun _ _ => trivial⟩
  refine overlooks.next fun stream => ?_
  split
  · exact .fail _
  · exact .pure fun _ _ => trivial

private theorem overlooks_setStream (other : Nat) (stream : TextStream) :
    Overlooks number added among base (setStream other stream) Whatever :=
  fun _ _ encloses =>
    ⟨rfl, Nat.le_refl _, ⟨encloses.lists, encloses.iterators⟩, fun _ _ => trivial⟩

variable (apart : ¬ among ⟨.growing, number⟩)

include apart

private theorem overlooks_listAt {other : Nat} (isAmong : among ⟨.growing, other⟩) :
    Overlooks number added among base (listAt other) (AllWithin among) := by
  refine .ofRead (fun _ => rfl) fun world encloses => ⟨?_, fun items isItems => ?_⟩
  · exact congrArg Except.ok (Store.itemsOf_added_of_ne world.store number added
      fun same => apart (same ▸ isAmong))
  · cases isItems
    exact encloses.lists other isAmong

private theorem feedOverlooks_listFeed {other : Nat} (isAmong : among ⟨.growing, other⟩) :
    FeedJudged (Overlooks number added among) base (listFeed other) (Within among) := by
  have differs : number ≠ other := fun same => apart (same ▸ isAmong)
  refine fun place => .ofRead (fun _ => rfl) fun world encloses => ⟨?_, fun item? isRead => ?_⟩
  · show Except.ok (((world.store.lists.modify number _)[other]?).bind (·[place]?)) = _
    rw [Array.getElem?_modify, if_neg differs]
  · intro item isItem
    cases isRead
    obtain ⟨cells, there, isCell⟩ := Option.bind_eq_some_iff.mp isItem
    refine encloses.lists other isAmong item ?_
    unfold Store.itemsOf
    rw [there]
    exact Array.mem_toList_iff.mpr (Array.mem_of_getElem? isCell)

/-- Finding what is held overlooks a list that is not held, and so does whatever goes through
values. -/
theorem overlooks_finds : Finds (Overlooks number added among) fun _ => among where
  toComposes := Overlooks.composes
  grows _ _ _ isAmong _ := isAmong
  listAt := overlooks_listAt apart
  listFeed := feedOverlooks_listFeed apart
  iteratorFeed := feedOverlooks_iteratorFeed
  openStreamAt := overlooks_openStreamAt
  setStream := overlooks_setStream

/-- What does not hold the list is observed as before, and what it is does not matter. -/
theorem overlooks_observe {v : Value} (holds : v.HoldsOnly among) :
    Overlooks number added among base (observe v) Whatever :=
  .ofRead (fun _ => rfl) fun _ encloses =>
    ⟨congrArg Except.ok (Store.settled_added (encloses.apart apart holds) added),
      fun _ _ => trivial⟩

/-- How deep a value is told depends on how many lists there are, and not on their items. -/
theorem overlooks_tell {v : Value} (holds : v.HoldsOnly among) :
    Overlooks number added among base (tell v) Whatever := by
  have within (depth : Nat) : Overlooks number added among base (do
      let told ← tellTo depth [] v
      Run.lift told.requireTellable
      return told) Whatever :=
    ((overlooks_finds apart).tellTo depth [] holds).next fun told =>
      (Overlooks.ofExcept told.requireTellable).next fun _ => .pure fun _ _ => trivial
  intro world enough encloses
  have sameSize := Store.size_lists_added world.store number added
  have told := within (world.store.lists.size + world.store.iterators.size +
    world.store.streams.size + 1) world enough encloses
  unfold Run.tell
  rw [runFrom_bind_of_ok _ (runFrom_store world), runFrom_bind_of_ok _ (runFrom_store _)]
  show (tellTo ((world.store.added number added).lists.size + world.store.iterators.size +
    world.store.streams.size + 1) [] v >>= _).runFrom _ = _ ∧ _
  rw [sameSize]
  exact told

end Kept

/-! ## Making and keeping -/

section Keep

variable (inside : number < base) (fresh : ∀ other, base ≤ other → among ⟨.growing, other⟩)

include inside fresh

/-- A new list is none that something was added to before. -/
private theorem overlooks_newList {items : List Value}
    (holds : ∀ item ∈ items, item.HoldsOnly among) :
    Overlooks number added among base (newList items) (Within among) := by
  intro world enough encloses
  have differs : number < world.store.lists.size := Nat.lt_of_lt_of_le inside enough
  have commute : (world.store.lists.modify number (· ++ added.toArray)).push items.toArray =
      (world.store.lists.push items.toArray).modify number (· ++ added.toArray) := by
    refine Array.ext_getElem? fun place => ?_
    rw [Array.getElem?_push, Array.getElem?_modify, Array.getElem?_modify, Array.getElem?_push,
      Array.size_modify]
    by_cases last : place = world.store.lists.size
    · rw [if_pos last, if_pos last, if_neg (by omega)]
    · rw [if_neg last, if_neg last]
  refine ⟨Prod.ext ?_ ?_, ?_, ⟨fun other isAmong => ?_, encloses.iterators⟩, fun v isList => ?_⟩
  · exact congrArg (fun place => Except.ok (Value.handle .growing place)) Array.size_modify
  · exact congrArg (fun lists => ({ world with store := { world.store with lists } } : World))
      commute
  · exact Nat.le_trans (Nat.le_succ _) (Nat.le_of_eq (Array.size_push items.toArray).symm)
  · show ∀ item ∈ ({ world.store with
      lists := world.store.lists.push items.toArray } : Store).itemsOf other, _
    rw [itemsOf_push]
    split
    · exact holds
    · exact encloses.lists other isAmong
  · cases isList
    refine .scalar fun source isSource => ?_
    cases isSource
    exact fresh _ enough

theorem overlooks_keep (apart : ¬ among ⟨.growing, number⟩) {v : Value}
    (holds : v.HoldsOnly among) :
    Overlooks number added among base (keep v) (Within among) := by
  refine (overlooks_finds apart).rebuild ⟨fun other isAmong => .pure fun _ _ => ?_,
    fun size more _ => overlooks_newList (Nat.lt_of_lt_of_le inside more) fun other isNew =>
      fresh other (Nat.le_trans more isNew), fun _ _ _ holds => .pure fun _ _ => holds⟩ holds
  refine .scalar fun source isSource => ?_
  cases isSource
  exact isAmong

end Keep

end Presence.Session
