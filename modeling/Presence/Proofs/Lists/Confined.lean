import Presence.Proofs.Calls.Propagation
import Presence.Proofs.Lists.Judgements

/-!
Contract: computations that make what they make of the lists that there are.

Owns: `World.Closed`, worlds in which whatever is kept holds only lists that are kept;
`World.Extends`, worlds with more lists, of which only some have changed; `Confines`, computations
that lead from closed worlds to closed ones, where their results hold only lists that are kept by
then; closed under sequence, and under making and finding what is kept.

Does not own: going through values (`Presence.Proofs.Lists.GoneThrough`), making, keeping and
telling them (`Presence.Proofs.Lists.Made`), and operations (`Presence.Proofs.Lists.Operations`).

The number of lists stands for the lists that there are, since none is ever dropped. What is known
of a value among some lists stays known among more of them.
-/

namespace Presence

/-- A list is among so many. Iterators are not counted. -/
def Handle.Below (size : Nat) (source : Handle) : Prop :=
  source.sort = .growing → source.number < size

namespace Value.HoldsOnly

/-- What is among so many lists is among more. -/
theorem later {size larger : Nat} {v : Value} (holds : v.HoldsOnly (Handle.Below size))
    (more : size ≤ larger) : v.HoldsOnly (Handle.Below larger) :=
  holds.mono fun _ below isList => Nat.lt_of_lt_of_le (below isList) more

theorem growing {size number : Nat} (below : number < size) :
    (Value.handle .growing number).HoldsOnly (Handle.Below size) := by
  refine .scalar fun source isSource _ => ?_
  cases isSource
  exact below

private theorem iterator {size : Nat} (number : Nat) :
    (Value.handle .iterator number).HoldsOnly (Handle.Below size) := by
  refine .scalar fun source isSource isList => ?_
  cases isSource
  cases isList

end Value.HoldsOnly

namespace Session

open Attempt Calls Run

/-! ## Among some lists -/

/-- The lists that a value holds are among so many. -/
abbrev Known (size : Nat) (v : Value) : Prop := v.HoldsOnly (Handle.Below size)

abbrev AllKnown (size : Nat) (items : List Value) : Prop := ∀ item ∈ items, Known size item

abbrev AllEntriesKnown (size : Nat) (entries : List (Value × Value)) : Prop :=
  ∀ entry ∈ entries, Known size entry.1 ∧ Known size entry.2

theorem rises_below : Rises Handle.Below :=
  fun _ _ _ below more isList => Nat.lt_of_lt_of_le (below isList) more

theorem rises_known : Rises Known := rises_holdsAmong rises_below

theorem rises_allKnown : Rises AllKnown := rises_allHold rises_below

theorem rises_allEntriesKnown : Rises AllEntriesKnown := rises_allEntriesHold rises_below

/-! ## Closed worlds -/

mutual

/-- Whether a literal names lists and iterators by its variables alone, and never by handles. -/
def Literal.namesNoSource : Literal → Bool
  | .scalar s => s.source?.isNone
  | .list items => Literal.allNameNoSource items
  | .tuple items => Literal.allNameNoSource items
  | .set items => Literal.allNameNoSource items
  | .frozenSet items => Literal.allNameNoSource items
  | .dictionary entries => Literal.entriesNameNoSource entries
  | .some v => v.namesNoSource
  | .notOk _ => true
  | .left v _ => v.namesNoSource
  | .right v _ => v.namesNoSource
  | .pair v w => v.namesNoSource && w.namesNoSource
  | .sequence items => Literal.allNameNoSource items
  | .managed _ basic => basic.namesNoSource
  | .thrown _ argument => argument.namesNoSource
  | .client users _ => users.namesNoSource
  | .bareOption => true
  | .bareEither => true
  | .variable _ => true
  | .iterator items => Literal.allNameNoSource items
  | .stream _ => true
  | .const v => v.namesNoSource
  | .fail _ argument => argument.namesNoSource
  | .first => true
  | .second => true
  | .unary _ => true
  | .binary _ .none => true
  | .binary _ (.some fixed) => fixed.namesNoSource
  | .compose functions => Literal.allNameNoSource functions
  | .choose condition yes no => condition.namesNoSource && yes.namesNoSource && no.namesNoSource
  | .operation _ rest => Literal.allNameNoSource rest
  | .malformed => true
termination_by structural literal => literal

def Literal.allNameNoSource : List Literal → Bool
  | [] => true
  | item :: rest => item.namesNoSource && Literal.allNameNoSource rest
termination_by structural items => items

def Literal.entriesNameNoSource : List (Literal × Literal) → Bool
  | [] => true
  | (key, v) :: rest =>
      key.namesNoSource && v.namesNoSource && Literal.entriesNameNoSource rest
termination_by structural entries => entries

end

/-- The lists that stand inside a function are among so many. -/
def Function.Known (size : Nat) : Function → Prop
  | .given literal => literal.namesNoSource = true
  | .traced _ f => Session.Known size f
  | .lifted f => Session.Known size f
  | .demanding f => Session.Known size f

/-- How many lists are kept. -/
abbrev World.lists (world : World) : Nat := world.store.lists.size

/-- Whatever is kept or has a name holds only lists that are kept. -/
structure World.Closed (world : World) : Prop where
  lists : ∀ number, AllKnown world.lists (world.store.itemsOf number)
  functions : ∀ function ∈ world.store.functions, function.Known world.lists
  iterators : ∀ items ∈ world.store.iterators, AllKnown world.lists items
  bindings : ∀ binding ∈ world.bindings, Known world.lists binding.2

/-- There are no fewer lists than before, and those before are as they were, but for some. -/
structure World.Extends (changed : Nat → Prop) (before after : World) : Prop where
  more : before.lists ≤ after.lists
  same : ∀ number < before.lists, ¬ changed number →
    after.store.lists[number]? = before.store.lists[number]?

/-- Nothing that could hold a list differs. -/
structure World.Alike (before after : World) : Prop where
  lists : after.store.lists = before.store.lists
  functions : after.store.functions = before.store.functions
  iterators : after.store.iterators = before.store.iterators
  bindings : after.bindings = before.bindings

variable {changed : Nat → Prop}

theorem Function.Known.later {size larger : Nat} {function : Function}
    (known : function.Known size) (more : size ≤ larger) : function.Known larger := by
  cases function with
  | given literal => exact known
  | traced place f => exact Value.HoldsOnly.later known more
  | lifted f => exact Value.HoldsOnly.later known more
  | demanding f => exact Value.HoldsOnly.later known more

theorem World.Extends.refl (world : World) : world.Extends changed world :=
  ⟨Nat.le_refl _, fun _ _ _ => rfl⟩

theorem World.Extends.trans {before between after : World} (first : before.Extends changed between)
    (second : between.Extends changed after) : before.Extends changed after := by
  refine ⟨Nat.le_trans first.more second.more, fun number inside spared => ?_⟩
  rw [second.same number (Nat.lt_of_lt_of_le inside first.more) spared,
    first.same number inside spared]

private theorem World.Alike.extends {before after : World} (alike : before.Alike after) :
    before.Extends changed after := by
  refine ⟨Nat.le_of_eq (congrArg Array.size alike.lists.symm), fun number _ _ => ?_⟩
  rw [alike.lists]

theorem World.Alike.closed {before after : World} (alike : before.Alike after)
    (closed : before.Closed) : after.Closed := by
  have sameSize : after.lists = before.lists := congrArg Array.size alike.lists
  refine ⟨fun number => ?_, ?_, ?_, ?_⟩ <;> rw [sameSize]
  · unfold Store.itemsOf
    rw [alike.lists]
    exact closed.lists number
  · rw [alike.functions]
    exact closed.functions
  · rw [alike.iterators]
    exact closed.iterators
  · rw [alike.bindings]
    exact closed.bindings

/-! ## Confined computations -/

/-- From every closed world with at least some lists, a computation leads to a closed world that
extends it, and its result is as it should be among the lists there. -/
def Confines {α : Type} (changed : Nat → Prop) (base : Nat) (body : Run α)
    (fine : Nat → α → Prop) : Prop :=
  ∀ world : World, base ≤ world.lists → world.Closed →
    world.Extends changed (body.runFrom world).2 ∧ (body.runFrom world).2.Closed ∧
      ∀ result, (body.runFrom world).1 = .ok result → fine (body.runFrom world).2.lists result

namespace Confines

variable {α β : Type} {base : Nat} {fine : Nat → α → Prop} {well : Nat → β → Prop}

/-- What a computation does from worlds with at least some lists, it does from those with more. -/
theorem later {larger : Nat} {body : Run α} (confines : Confines changed base body fine)
    (more : base ≤ larger) : Confines changed larger body fine :=
  fun world enough => confines world (Nat.le_trans more enough)

theorem imp {body : Run α} {fine' : Nat → α → Prop} (confines : Confines changed base body fine)
    (implies : ∀ size, base ≤ size → ∀ result, fine size result → fine' size result) :
    Confines changed base body fine' := by
  intro world enough closed
  obtain ⟨kept, closedAfter, isFine⟩ := confines world enough closed
  refine ⟨kept, closedAfter, fun result ended => ?_⟩
  exact implies _ (Nat.le_trans enough kept.more) result (isFine result ended)

theorem pure {result : α} (isFine : ∀ size, base ≤ size → fine size result) :
    Confines changed base (pure result) fine := by
  intro world enough closed
  refine ⟨.refl world, closed, ?_⟩
  intro _ ended
  cases ended
  exact isFine _ enough

theorem bind {first : Run α} {next : α → Run β} (begins : Confines changed base first fine)
    (goesOn : ∀ size, base ≤ size → ∀ result, fine size result →
      Confines changed size (next result) well) :
    Confines changed base (first >>= next) well := by
  intro world enough closed
  obtain ⟨kept, closedBetween, isFine⟩ := begins world enough closed
  rw [runFrom_bind]
  rcases ended : first.runFrom world with ⟨fault | result, between⟩ <;>
    rw [ended] at kept closedBetween isFine
  · refine ⟨kept, closedBetween, ?_⟩
    intro result impossible
    cases impossible
  · obtain ⟨keptAfter, closedAfter, isWell⟩ := goesOn between.lists
      (Nat.le_trans enough kept.more) result (isFine result rfl) between (Nat.le_refl _)
      closedBetween
    exact ⟨kept.trans keptAfter, closedAfter, isWell⟩

theorem fail (fault : Fault) : Confines changed base (Run.fail fault) fine := by
  intro world _ closed
  refine ⟨.refl world, closed, ?_⟩
  intro result impossible
  cases impossible

theorem composes : Composes (Confines changed) := ⟨later, pure, fail, bind⟩

/-- What a result is does not matter to what comes after it. -/
theorem next {first : Run α} {next : α → Run β} (begins : Confines changed base first fine)
    (goesOn : ∀ result, Confines changed base (next result) well) :
    Confines changed base (first >>= next) well :=
  composes.next begins goesOn

/-- The same where it has to be said that the first result does not matter. -/
theorem after {first : Run α} {next : α → Run β} (begins : Confines changed base first Whatever)
    (goesOn : ∀ result, Confines changed base (next result) well) :
    Confines changed base (first >>= next) well := begins.next goesOn

/-- Sequence where it has to be said how the first result should be. -/
theorem through (fine : Nat → α → Prop) {first : Run α} {next : α → Run β}
    (begins : Confines changed base first fine)
    (goesOn : ∀ size, base ≤ size → ∀ result, fine size result →
      Confines changed size (next result) well) :
    Confines changed base (first >>= next) well := begins.bind goesOn

theorem done {result : α} : Confines changed base (Pure.pure result) Whatever :=
  pure fun _ _ => trivial

/-- A value that holds none but the lists before. -/
theorem known {v : Value} (known : Known base v) : Confines changed base (Pure.pure v) Known :=
  pure fun _ more => known.later more

/-- A value that refers to no list and no iterator. -/
theorem plain {s : Scalar} (noSource : s.source? = none) :
    Confines changed base (Pure.pure (Value.scalar s)) Known := known (.plain noSource)

theorem ofExcept {result : Except Fault α}
    (isFine : ∀ a, result = .ok a → ∀ size, base ≤ size → fine size a) :
    Confines changed base (Attempt.ofExcept result) fine := composes.ofExcept isFine

/-- The same for a result that does not matter. -/
theorem ofAny (result : Except Fault α) :
    Confines changed base (Attempt.ofExcept result) Whatever :=
  ofExcept fun _ _ _ _ => trivial

theorem ofHash {result : Except Kind α}
    (isFine : ∀ a, result = .ok a → ∀ size, base ≤ size → fine size a) :
    Confines changed base (Attempt.ofHash result) fine := composes.ofHash isFine

theorem ofAnyHash (result : Except Kind α) :
    Confines changed base (Attempt.ofHash result) Whatever :=
  ofHash fun _ _ _ _ => trivial

theorem ofOption {result : Option α}
    (isFine : ∀ a, result = some a → ∀ size, base ≤ size → fine size a) :
    Confines changed base (Attempt.ofOption result) fine := composes.ofOption isFine

theorem sealed {body : Run α} (confines : Confines changed base body fine) :
    Confines changed base (Attempt.sealed body) fine := by
  intro world enough closed
  rw [runFrom_sealed]
  obtain ⟨kept, closedAfter, isFine⟩ := confines world enough closed
  refine ⟨kept, closedAfter, fun result ended => isFine result ?_⟩
  cases outcome : (body.runFrom world).1 with
  | error fault =>
      rw [outcome] at ended
      cases ended
  | ok given =>
      rw [outcome] at ended
      exact ended

/-- A computation that changes nothing that could hold a list. -/
theorem ofAlike {body : Run α} (alike : ∀ world : World, world.Alike (body.runFrom world).2)
    (isFine : ∀ world : World, base ≤ world.lists → world.Closed → ∀ result,
      (body.runFrom world).1 = .ok result → fine world.lists result) :
    Confines changed base body fine := by
  intro world enough closed
  refine ⟨(alike world).extends, (alike world).closed closed, fun result ended => ?_⟩
  have sameSize : (body.runFrom world).2.lists = world.lists :=
    congrArg Array.size (alike world).lists
  rw [sameSize]
  exact isFine world enough closed result ended

/-- The same for a result that does not matter. -/
theorem ofStill {body : Run α} (alike : ∀ world : World, world.Alike (body.runFrom world).2) :
    Confines changed base body Whatever :=
  ofAlike alike fun _ _ _ _ _ => trivial

/-- A function that is confined on each item is so on all of them, one after the other. -/
theorem mapM {f : α → Run β} {items : List α} (rises : Rises well)
    (each : ∀ item ∈ items, Confines changed base (f item) well) :
    Confines changed base (items.mapM f) fun size results =>
      ∀ result ∈ results, well size result := composes.mapM rises each

end Confines

/-! ## Making and finding what is kept -/

section Kept

variable {base : Nat} {items : List Value}

theorem itemsOf_push (store : Store) (new : Array Value) (number : Nat) :
    ({ store with lists := store.lists.push new } : Store).itemsOf number =
      if number = store.lists.size then new.toList else store.itemsOf number := by
  unfold Store.itemsOf
  rw [Array.getElem?_push]
  split <;> rfl

/-- Wherever no list changes, and whatever else is new holds only lists that are kept. -/
theorem World.Closed.of_lists_eq {world : World} (closed : world.Closed) {after : World}
    (same : after.store.lists = world.store.lists)
    (functions : ∀ function ∈ after.store.functions, function.Known world.lists)
    (iterators : ∀ items ∈ after.store.iterators, AllKnown world.lists items)
    (bindings : ∀ binding ∈ after.bindings, Known world.lists binding.2) : after.Closed := by
  have sameSize : after.lists = world.lists := congrArg Array.size same
  refine ⟨fun number => ?_, ?_, ?_, ?_⟩ <;> rw [sameSize]
  · unfold Store.itemsOf
    rw [same]
    exact closed.lists number
  · exact functions
  · exact iterators
  · exact bindings

theorem confines_newList (known : AllKnown base items) :
    Confines changed base (newList items) Known := by
  intro world enough closed
  have sameSize : ((newList items).runFrom world).2.lists = world.lists + 1 :=
    Array.size_push items.toArray
  have more : world.lists ≤ world.lists + 1 := Nat.le_succ _
  refine ⟨⟨sameSize ▸ more, fun number inside _ => ?_⟩, ⟨?_, ?_, ?_, ?_⟩, ?_⟩
  · exact (Array.getElem?_push_lt inside).trans (Array.getElem?_eq_getElem inside).symm
  · intro number
    rw [sameSize]
    show AllKnown _ (({ world.store with
      lists := world.store.lists.push items.toArray } : Store).itemsOf number)
    rw [itemsOf_push]
    split
    · exact rises_allKnown known (Nat.le_trans enough more)
    · exact rises_allKnown (closed.lists number) more
  · exact fun function member => sameSize ▸ (closed.functions function member).later more
  · exact fun items member => sameSize ▸ rises_allKnown (closed.iterators items member) more
  · exact fun binding member => sameSize ▸ (closed.bindings binding member).later more
  · intro result ended
    cases ended
    rw [sameSize]
    exact .growing (Nat.lt_succ_self _)

theorem confines_newFunction (function : Function) (known : function.Known base) :
    Confines changed base (newFunction function) Known := by
  intro world enough closed
  refine ⟨⟨Nat.le_refl _, fun _ _ _ => rfl⟩,
    closed.of_lists_eq rfl ?_ closed.iterators closed.bindings, ?_⟩
  · intro other member
    rcases Array.mem_push.mp member with old | rfl
    · exact closed.functions other old
    · exact known.later enough
  · intro result ended
    cases ended
    exact .plain rfl

theorem confines_newIterator (known : AllKnown base items) :
    Confines changed base (newIterator items) Known := by
  intro world enough closed
  refine ⟨⟨Nat.le_refl _, fun _ _ _ => rfl⟩,
    closed.of_lists_eq rfl closed.functions ?_ closed.bindings, ?_⟩
  · intro other member
    rcases Array.mem_push.mp member with old | rfl
    · exact closed.iterators other old
    · exact rises_allKnown known enough
  · intro result ended
    cases ended
    exact .iterator _

theorem confines_setIterator (number : Nat) (known : AllKnown base items) :
    Confines changed base (setIterator number items) Whatever := by
  intro world enough closed
  refine ⟨⟨Nat.le_refl _, fun _ _ _ => rfl⟩,
    closed.of_lists_eq rfl closed.functions ?_ closed.bindings, fun _ _ => trivial⟩
  intro other member
  rcases Array.mem_or_eq_of_mem_setIfInBounds member with old | rfl
  · exact closed.iterators other old
  · exact rises_allKnown known enough

/-- Adding to a list changes this list. -/
theorem confines_addToList {number : Nat} {item : Value} (may : changed number)
    (known : Known base item) : Confines changed base (addToList number item) Whatever := by
  intro world enough closed
  have sameSize : ((addToList number item).runFrom world).2.lists = world.lists :=
    Array.size_modify
  refine ⟨⟨Nat.le_of_eq sameSize.symm, fun other _ spared => ?_⟩, ⟨fun other => ?_, ?_, ?_, ?_⟩,
    fun _ _ => trivial⟩
  · refine Array.getElem?_modify.trans (if_neg ?_)
    rintro rfl
    exact spared may
  · rw [sameSize]
    show AllKnown _ (((world.store.lists.modify number (·.push item))[other]?).getD #[]).toList
    rw [Array.getElem?_modify]
    have isKnown := closed.lists other
    unfold Store.itemsOf at isKnown
    split
    · cases there : world.store.lists[other]? with
      | none => exact fun _ member => absurd member List.not_mem_nil
      | some cells =>
          rw [there] at isKnown
          show AllKnown _ (cells.push item).toList
          rw [Array.toList_push]
          exact List.forall_mem_append.mpr
            ⟨isKnown, List.forall_mem_singleton.mpr (known.later enough)⟩
    · exact isKnown
  · exact fun function member => sameSize ▸ closed.functions function member
  · exact fun items member => sameSize ▸ closed.iterators items member
  · exact fun binding member => sameSize ▸ closed.bindings binding member

theorem confines_listAt (number : Nat) : Confines changed base (listAt number) AllKnown :=
  .ofAlike (fun _ => ⟨rfl, rfl, rfl, rfl⟩) fun world _ closed result ended => by
    cases ended
    exact closed.lists number

theorem confines_iteratorAt (number : Nat) : Confines changed base (iteratorAt number) AllKnown :=
  .ofAlike (fun _ => ⟨rfl, rfl, rfl, rfl⟩) fun world _ closed result ended => by
    cases ended
    cases there : world.store.iterators[number]? with
    | none => exact fun _ member => absurd member List.not_mem_nil
    | some items => exact closed.iterators items (Array.mem_of_getElem? there)

theorem confines_newNumber : Confines changed base newNumber Whatever :=
  .ofStill fun _ => ⟨rfl, rfl, rfl, rfl⟩

theorem confines_newClient {users failing : Value} (isUsers : Known base users)
    (isFailing : Known base failing) : Confines changed base (newClient users failing) Known :=
  .ofAlike (fun _ => ⟨rfl, rfl, rfl, rfl⟩) fun world enough _ result ended => by
    cases ended
    exact .client _ (isUsers.later enough) (isFailing.later enough)

theorem confines_newLogger (l : Logger) : Confines changed base (newLogger l) Known :=
  .ofAlike (fun _ => ⟨rfl, rfl, rfl, rfl⟩) fun _ _ _ result ended => by
    cases ended
    exact .plain rfl

theorem confines_newStream (stream : TextStream) : Confines changed base (newStream stream) Known :=
  .ofAlike (fun _ => ⟨rfl, rfl, rfl, rfl⟩) fun _ _ _ result ended => by
    cases ended
    exact .plain rfl

theorem confines_streamOf (name : String) : Confines changed base (streamOf name) Known := by
  refine .next (.ofStill fun _ => ⟨rfl, rfl, rfl, rfl⟩) fun store => ?_
  split
  · exact .plain rfl
  · exact confines_newStream _

theorem confines_world : Confines changed base (get : Run World) Whatever :=
  .ofStill fun _ => ⟨rfl, rfl, rfl, rfl⟩

theorem confines_store : Confines changed base Run.store Whatever :=
  .ofStill fun _ => ⟨rfl, rfl, rfl, rfl⟩

theorem confines_observe (v : Value) : Confines changed base (observe v) Whatever :=
  .ofStill fun _ => ⟨rfl, rfl, rfl, rfl⟩

theorem confines_streamAt (number : Nat) : Confines changed base (Run.streamAt number) Whatever :=
  .ofStill fun _ => ⟨rfl, rfl, rfl, rfl⟩

theorem confines_setStream (number : Nat) (stream : TextStream) :
    Confines changed base (setStream number stream) Whatever :=
  .ofStill fun _ => ⟨rfl, rfl, rfl, rfl⟩

theorem confines_openStreamAt (number : Nat) (use : StreamUse) :
    Confines changed base (openStreamAt number use) Whatever := by
  refine (confines_streamAt number).next fun stream => ?_
  split
  · exact .fail _
  · exact .done

end Kept

end Session

end Presence
