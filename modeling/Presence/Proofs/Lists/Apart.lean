import Presence.Proofs.Lists.Held
import Presence.Proofs.Session.Frames
import Presence.Session.Step

/-!
Contract: adding items to a list, and the values that do not hold it.

Owns: `Store.Apart`, values that do not hold a list, by themselves or inside the lists and iterators
that they hold; `World.added`, worlds with items added to a list, which calls of the operation for
it lead to (`runFrom_appendAll`); that values apart from the list are observed as before
(`settled_added`).

Does not own: computations that go through such values (`Presence.Proofs.Lists.Overlooked`).
-/

namespace Presence

namespace Session

/-! ## Values rebuilt -/

section Rebuild

variable {m : Type → Type} [Monad m] {rule rule' : ListRule m} {items : List Value}
  {entries : List (Value × Value)}

private theorem rebuildItems_congr (each : ∀ item ∈ items, rebuild rule item = rebuild rule' item) :
    rebuildItems rule items = rebuildItems rule' items := by
  induction items with
  | nil => rfl
  | cons item rest inductionHypothesis =>
      rw [List.forall_mem_cons] at each
      rw [rebuildItems, rebuildItems, each.1, inductionHypothesis each.2]

private theorem rebuildEntries_congr
    (keys : ∀ entry ∈ entries, rebuild rule entry.1 = rebuild rule' entry.1)
    (each : ∀ entry ∈ entries, rebuild rule entry.2 = rebuild rule' entry.2) :
    rebuildEntries rule entries = rebuildEntries rule' entries := by
  induction entries with
  | nil => rfl
  | cons entry rest inductionHypothesis =>
      rw [List.forall_mem_cons] at keys each
      rw [rebuildEntries, rebuildEntries, keys.1, each.1, inductionHypothesis keys.2 each.2]

/-- What rules make of a value depends on what they make of the lists that it holds. -/
private theorem rebuild_congr {among : Handle → Prop} {v : Value} (holds : v.HoldsOnly among)
    (handles : ∀ number, among ⟨.growing, number⟩ → rule.onHandle number = rule'.onHandle number)
    (lists : rule.onList = rule'.onList) (containers : rule.onContainer = rule'.onContainer) :
    rebuild rule v = rebuild rule' v := by
  induction holds with
  | @scalar s each =>
      cases s with
      | handle h =>
          obtain ⟨sort, number⟩ := h
          cases sort with
          | growing => exact handles number (each _ rfl)
          | _ => rfl
      | _ => rfl
  | list _ each => rw [rebuild, rebuild, rebuildItems_congr each, lists]
  | tuple _ each | set _ each | frozenSet _ each => rw [rebuild, rebuild, rebuildItems_congr each]
  | dictionary _ _ keys each => rw [rebuild, rebuild, rebuildEntries_congr keys each]
  | ok _ payload => rw [rebuild, rebuild, payload]
  | notOk _ absent => rw [rebuild, rebuild, absent]
  | left _ _ payload other => rw [rebuild, rebuild, payload, other]
  | right _ _ payload other => rw [rebuild, rebuild, payload, other]
  | pair _ _ first second => rw [rebuild, rebuild, first, second]
  | sequence _ container => rw [rebuild, rebuild, container, containers]
  | managed _ _ basic => rw [rebuild, rebuild, basic]
  | guarded _ payload => rw [rebuild, rebuild, payload]
  | deferred _ run => rw [rebuild, rebuild, run]
  | ternary _ _ condition payload => rw [rebuild, rebuild, condition, payload]
  | ternaryCall _ _ _ condition payload call => rw [rebuild, rebuild, condition, payload, call]
  | parseError _ _ _ input why fallback => rw [rebuild, rebuild, input, why, fallback]
  | @thrown _ _ _ carried _ _ each around =>
      cases carried with
      | none => rw [rebuild, rebuild, rebuildItems_congr each]
      | some v => rw [rebuild, rebuild, rebuildItems_congr each, around v rfl]
  | client _ _ _ named closing => rw [rebuild, rebuild, named, closing]

end Rebuild

/-! ## Values apart from a list -/

/-- The lists and the iterators among some hold only each other. -/
structure Store.Encloses (store : Store) (among : Handle → Prop) : Prop where
  lists : ∀ number, among ⟨.growing, number⟩ →
    ∀ item ∈ store.itemsOf number, item.HoldsOnly among
  iterators : ∀ number, among ⟨.iterator, number⟩ →
    ∀ item ∈ (store.iterators[number]?).getD [], item.HoldsOnly among

/-- The lists and the iterators that do not hold a list: they are among some that hold only each
other, and the list is none of these. -/
def Store.Beside (store : Store) (number : Nat) (source : Handle) : Prop :=
  ∃ among : Handle → Prop, ¬ among ⟨.growing, number⟩ ∧ store.Encloses among ∧ among source

/-- A value does not hold a list, neither by itself nor inside the lists and iterators that it
holds. -/
def Store.Apart (store : Store) (number : Nat) (v : Value) : Prop :=
  v.HoldsOnly (store.Beside number)

namespace Store

variable {store : Store} {number : Nat}

theorem not_beside_self (store : Store) (number : Nat) : ¬ store.Beside number ⟨.growing, number⟩ :=
  fun ⟨_, notAmong, _, isAmong⟩ => notAmong isAmong

/-- What does not hold a list holds only what does not hold it. -/
theorem encloses_beside (store : Store) (number : Nat) : store.Encloses (store.Beside number) := by
  constructor
  · intro other ⟨among, notAmong, encloses, isAmong⟩ item member
    exact (encloses.lists other isAmong item member).mono fun _ source =>
      ⟨among, notAmong, encloses, source⟩
  · intro other ⟨among, notAmong, encloses, isAmong⟩ item member
    exact (encloses.iterators other isAmong item member).mono fun _ source =>
      ⟨among, notAmong, encloses, source⟩

theorem Encloses.apart {among : Handle → Prop} {v : Value} (encloses : store.Encloses among)
    (notAmong : ¬ among ⟨.growing, number⟩) (holds : v.HoldsOnly among) : store.Apart number v :=
  holds.mono fun _ isAmong => ⟨among, notAmong, encloses, isAmong⟩

/-- A list without items holds no other list. -/
theorem beside_of_itemsOf_eq_nil {other : Nat} (differs : other ≠ number)
    (empty : store.itemsOf other = []) : store.Beside number ⟨.growing, other⟩ := by
  refine ⟨fun source => source = ⟨.growing, other⟩, fun same => differs ?_, ⟨?_, nofun⟩, rfl⟩
  · cases same
    rfl
  · intro place isOther
    cases isOther
    rw [empty]
    exact List.forall_mem_nil _

end Store

/-! ## Lists with items added -/

/-- The store after items were added to the end of a list. -/
def Store.added (store : Store) (number : Nat) (items : List Value) : Store :=
  { store with lists := store.lists.modify number (· ++ items.toArray) }

/-- The world after items were added to the end of a list. -/
def World.added (world : World) (number : Nat) (items : List Value) : World :=
  { world with store := world.store.added number items }

section Added

variable (store : Store) (world : World) (number : Nat) (items : List Value)

@[simp] theorem Store.size_lists_added : (store.added number items).lists.size = store.lists.size :=
  Array.size_modify

private theorem Store.itemsOf_added (other : Nat) :
    (store.added number items).itemsOf other =
      if number = other ∧ other < store.lists.size then store.itemsOf other ++ items
      else store.itemsOf other := by
  unfold itemsOf added
  rw [Array.getElem?_modify]
  by_cases same : number = other
  · by_cases inside : other < store.lists.size
    · rw [if_pos same, if_pos ⟨same, inside⟩, Array.getElem?_eq_getElem inside]
      simp
    · rw [if_pos same, if_neg fun both => inside both.2,
        Array.getElem?_eq_none (Nat.le_of_not_lt inside)]
      rfl
  · rw [if_neg same, if_neg fun both => same both.1]

/-- All other lists have the items that they had. -/
theorem Store.itemsOf_added_of_ne {other : Nat} (differs : other ≠ number) :
    (store.added number items).itemsOf other = store.itemsOf other := by
  rw [itemsOf_added, if_neg fun both => differs both.1.symm]

private theorem World.added_nil : world.added number [] = world := by
  have same : world.store.lists.modify number (· ++ #[]) = world.store.lists := by
    refine Array.ext_getElem? fun place => ?_
    rw [Array.getElem?_modify]
    split <;> simp
  show ({ world with store := { world.store with lists := _ } } : World) = world
  rw [same]

private theorem World.added_added (others : List Value) :
    (world.added number items).added number others = world.added number (items ++ others) := by
  have same : (world.store.lists.modify number (· ++ items.toArray)).modify number
      (· ++ others.toArray) = world.store.lists.modify number (· ++ (items ++ others).toArray) := by
    refine Array.ext_getElem? fun place => ?_
    rw [Array.getElem?_modify, Array.getElem?_modify, Array.getElem?_modify]
    split
    · rw [Option.map_map]
      congr 1
      funext cells
      simp [Array.append_assoc]
    · rfl
  show ({ world with store := { world.store with lists := _ } } : World) = _
  exact congrArg (fun lists => ({ world with store := { world.store with lists } } : World)) same

end Added

/-- Stores in which the lists that a value holds are the same read it back as the same. -/
private theorem Store.readBack_eq {store store' : Store} {among : Handle → Prop}
    (encloses : store.Encloses among)
    (same : ∀ number, among ⟨.growing, number⟩ → store'.itemsOf number = store.itemsOf number)
    (depth : Nat) (around : List Nat) {v : Value} (holds : v.HoldsOnly among) :
    store'.readBack depth around v = store.readBack depth around v := by
  induction depth generalizing around v with
  | zero => rfl
  | succ depth inductionHypothesis =>
      refine rebuild_congr holds (fun number isAmong => ?_) rfl rfl
      have sameItems : (store'.itemsOf number).map (store'.readBack depth (number :: around)) =
          (store.itemsOf number).map (store.readBack depth (number :: around)) := by
        rw [same number isAmong]
        exact List.map_congr_left fun item member =>
          inductionHypothesis _ (encloses.lists number isAmong item member)
      show (if around.contains number then _ else _) = if around.contains number then _ else _
      rw [sameItems]

/-- What does not hold a list is observed as the same, whatever is added to the list. -/
theorem Store.settled_added {store : Store} {number : Nat} {v : Value}
    (apart : store.Apart number v) (items : List Value) :
    (store.added number items).settled v = store.settled v := by
  unfold settled
  rw [size_lists_added]
  refine readBack_eq (store.encloses_beside number) (fun other isBeside => ?_) _ _ apart
  exact itemsOf_added_of_ne store number items fun same =>
    store.not_beside_self number (same ▸ isBeside)

/-! ## Calls that add items -/

/-- Adds items to a list, one call after the other. -/
def appendAll (call : Caller) (number : Nat) (items : List Value) : Run Unit :=
  items.forM fun item => do
    let _ ← perform call (.general .appendToList) [.handle .growing number, item] []

private theorem runFrom_append (call : Caller) (number : Nat) (item : Value) (world : World) :
    (perform call (.general .appendToList) [.handle .growing number, item] []).runFrom world =
      (.ok (.handle .growing number), world.added number [item]) := by
  have sameCells : (fun cells : Array Value => cells.push item) = (· ++ [item].toArray) := by
    funext cells
    exact (Array.append_singleton).symm
  show (Except.ok _, ({ world with store := { world.store with
    lists := world.store.lists.modify number (·.push item) } } : World)) = _
  rw [sameCells]
  rfl

/-- Any number of calls adds the items of all. -/
theorem runFrom_appendAll (call : Caller) (number : Nat) (items : List Value) (world : World) :
    (appendAll call number items).runFrom world = (.ok (), world.added number items) := by
  induction items generalizing world with
  | nil =>
      rw [World.added_nil]
      rfl
  | cons item rest inductionHypothesis =>
      have first := runFrom_append call number item world
      show ((perform call (.general .appendToList) [.handle .growing number, item] [] >>= fun _ =>
        pure ()) >>= fun _ => appendAll call number rest).runFrom world = _
      rw [bind_assoc, Attempt.runFrom_bind_of_ok _ first, pure_bind, inductionHypothesis,
        World.added_added]
      rfl

end Session

end Presence
