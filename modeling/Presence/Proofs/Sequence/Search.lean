import Presence.Proofs.Kinds.GoingThrough
import Presence.Proofs.Sequence.Distinct
import Presence.Proofs.Value.Equivalence
import Presence.Proofs.Session.Lookup

/-!
Contract: whether one of the items of a sequence is among some targets.

Owns: `Value.IsBarred`, what no set can be searched for; `Value.Stopped`, items that are barred
before any item passes; `Store.partsOf?`, the parts of what has a size; `Store.IsRegular`, the
values that are observed as regular ones; that a session finds such a target among such items by
their hashes exactly where it would find it by equality alone, and which items and targets it
refuses (`containsAny_eq_search`).

Does not own: equality and its laws (`Presence.Proofs.Value.Equivalence`), and what reading lists
back changes (`Presence.Proofs.Session.ReadingBack`).

The targets are made a set, and the set is searched for one item after the other, until one is
found. An item is asked for its hash before it is compared, so that one without a hash stops the
search even if it equals a target.
-/

namespace Presence

open Attempt

namespace Value

/-! ## Values that sets are searched for -/

/-- What no set can be searched for: a value that has no hash and is no set itself. -/
def IsBarred (v : Value) : Prop := v.isHashable = false ∧ ∀ members, v ≠ .set members

theorem isBarred_iff {v : Value} : v.IsBarred ↔ v.frozen.isHashable = false := by
  cases v with
  | set members => exact ⟨fun barred => absurd rfl (barred.2 members), nofun⟩
  | _ => exact ⟨And.left, fun noHash => ⟨noHash, nofun⟩⟩

theorem isHashable_of_not_isBarred {v : Value} (free : ¬ v.IsBarred) :
    v.frozen.isHashable = true := by
  rwa [isBarred_iff, Bool.not_eq_false] at free

/-- A set equals what its frozen set equals. -/
private theorem frozen_same (v w : Value) : same v.frozen w = same v w := by
  cases v with
  | set members => cases w <;> rfl
  | _ => rfl

private theorem isInSet_of_isBarred {v : Value} (barred : v.IsBarred) (members : List Value) :
    ∃ kind, v.isInSet members = .error kind := by
  have noHash := isBarred_iff.mp barred
  unfold isHashable at noHash
  rw [isInSet, requireHash]
  cases hashed : v.frozen.hash with
  | error kind => exact ⟨kind, rfl⟩
  | ok code => simp [hashed] at noHash

/-- The set of some targets holds a value if one of the targets equals it. -/
private theorem isInSet_of_not_isBarred {targets : List Value}
    (hashable : ∀ target ∈ targets, target.isHashable = true) {v : Value} (free : ¬ v.IsBarred) :
    v.isInSet (firsts targets) = .ok (targets.any (· == v)) :=
  isInSet_firsts (not_blocked_of_isHashable hashable) (isHashable_of_not_isBarred free)

/-! ## Items that stop a search -/

/-- An item that is barred, before which none passes. -/
def Stopped (passes : Value → Bool) (items : List Value) : Prop :=
  ∃ earlier item later, items = earlier ++ item :: later ∧ item.IsBarred ∧
    ∀ other ∈ earlier, passes other = false

variable {passes : Value → Bool}

private theorem not_stopped_nil : ¬ Stopped passes [] := by
  rintro ⟨earlier, item, later, split, -⟩
  cases earlier <;> cases split

theorem stopped_cons (item : Value) (rest : List Value) :
    Stopped passes (item :: rest) ↔
      item.IsBarred ∨ (passes item = false ∧ Stopped passes rest) := by
  constructor
  · rintro ⟨earlier, other, later, split, barred, before⟩
    cases earlier with
    | nil =>
        cases split
        exact .inl barred
    | cons first earlier =>
        cases split
        rw [List.forall_mem_cons] at before
        exact .inr ⟨before.1, earlier, other, later, rfl, barred, before.2⟩
  · rintro (barred | ⟨passesNot, earlier, other, later, rfl, barred, before⟩)
    · exact ⟨[], item, rest, rfl, barred, nofun⟩
    · exact ⟨item :: earlier, other, later, rfl, barred,
        List.forall_mem_cons.mpr ⟨passesNot, before⟩⟩

end Value

namespace Feed

open Value

variable {m : Type → Type} [Monad m] [LawfulMonad m] {passes : Value → Bool}
  {members items : List Value}

private theorem meetsSet_nil :
    ((Feed.ofList []).meetsSet members : Attempt m Bool) = pure false := by
  rw [meetsSet, any_ofList]
  rfl

private theorem meetsSet_cons (item : Value) (rest : List Value) :
    ((Feed.ofList (item :: rest)).meetsSet members : Attempt m Bool) = (do
      if ← Attempt.ofHash (item.isInSet members) then return true
      else (Feed.ofList rest).meetsSet members) := by
  rw [meetsSet, meetsSet, any_ofList, any_ofList, List.anyM_cons]

/-- A set is searched for one item after the other, up to one that is found or that stops the
search. -/
theorem meetsSet_eq
    (searched : ∀ item ∈ items, ¬ item.IsBarred → item.isInSet members = .ok (passes item)) :
    (¬ Stopped passes items →
      ((Feed.ofList items).meetsSet members : Attempt m Bool) = pure (items.any passes)) ∧
    (Stopped passes items → ∃ kind,
      ((Feed.ofList items).meetsSet members : Attempt m Bool) = throw (.unhashable kind)) := by
  induction items with
  | nil => exact ⟨fun _ => meetsSet_nil, fun stopped => absurd stopped not_stopped_nil⟩
  | cons item rest inductionHypothesis =>
      rw [List.forall_mem_cons] at searched
      obtain ⟨goesOn, stops⟩ := inductionHypothesis searched.2
      rw [stopped_cons, meetsSet_cons, List.any_cons]
      by_cases barred : item.IsBarred
      · obtain ⟨kind, refused⟩ := isInSet_of_isBarred barred members
        refine ⟨fun free => absurd (.inl barred) free, fun _ => ⟨kind, ?_⟩⟩
        rw [refused]
        exact Sequence.ofHash_error_bind kind _
      · have answered : (Attempt.ofHash (item.isInSet members) : Attempt m Bool) =
            pure (passes item) := by
          rw [searched.1 barred]
          rfl
        rw [answered, pure_bind]
        cases passes item with
        | true =>
            refine ⟨fun _ => rfl, ?_⟩
            rintro (isBarred | ⟨different, -⟩)
            · exact absurd isBarred barred
            · cases different
        | false =>
            refine ⟨fun free => goesOn fun stopped => free (.inr ⟨rfl, stopped⟩), ?_⟩
            rintro (isBarred | ⟨-, stopped⟩)
            · exact absurd isBarred barred
            · exact stops stopped

end Feed

namespace Session

open Run Value

/-! ## Parts of what has a size -/

/-- The parts of what has a size, as a store keeps them. -/
def Store.partsOf? (store : Store) : Value → Option (List Value)
  | .handle .growing number => some (store.itemsOf number)
  | .sequence ⟨items⟩ => store.partsOf? items
  | v => v.parts?
termination_by structural v => v

theorem runFrom_ofHash {α : Type} (result : Except Kind α) (world : World) :
    (Attempt.ofHash result : Run α).runFrom world = (result.mapError .unhashable, world) := by
  cases result <;> rfl

/-- The set of the items of a list that is kept, from some place on. -/
private theorem runFrom_goFrom_listFeed {world : World} {number : Nat} {steps place : Nat}
    (all : (world.store.itemsOf number).length ≤ place + steps) (sofar : List Value) :
    ((listFeed number).goFrom (fun item sofar => do
        return .yield (← Attempt.ofHash (addToSet sofar item))) steps place sofar).runFrom world =
      ((((world.store.itemsOf number).drop place).foldlM addToSet sofar).mapError .unhashable,
        world) := by
  have cell (place : Nat) : ((listFeed number).next place).runFrom world =
      (.ok (world.store.itemsOf number)[place]?, world) := by
    show (_, _) = _
    rw [Store.itemsOf]
    cases world.store.lists[number]? <;> simp
  induction steps generalizing place sofar with
  | zero =>
      have nothingLeft : (world.store.itemsOf number).drop place = [] :=
        List.drop_eq_nil_of_le all
      rw [nothingLeft]
      rfl
  | succ steps inductionHypothesis =>
      rw [Feed.goFrom, runFrom_bind_of_ok _ (cell place)]
      by_cases inside : place < (world.store.itemsOf number).length
      · rw [List.getElem?_eq_getElem inside, List.drop_eq_getElem_cons inside, List.foldlM_cons]
        simp only [bind_assoc, pure_bind]
        rw [runFrom_bind, runFrom_ofHash]
        cases addToSet sofar (world.store.itemsOf number)[place] with
        | error kind => rfl
        | ok added => exact inductionHypothesis (by omega) added
      · have beyond := Nat.le_of_not_lt inside
        rw [List.getElem?_eq_none beyond, List.drop_eq_nil_of_le beyond]
        rfl

private theorem runFrom_toSet_listFeed {world : World} {number : Nat}
    (fits : (world.store.itemsOf number).length ≤ endless) :
    (listFeed number).toSet.runFrom world =
      ((setOf (world.store.itemsOf number)).mapError .unhashable, world) := by
  have all : (world.store.itemsOf number).length ≤ 0 + (listFeed number).bound := by
    simpa [listFeed] using fits
  exact runFrom_goFrom_listFeed all []

private theorem runFrom_toSet_ofList (items : List Value) (world : World) :
    ((Feed.ofList items).toSet : Run _).runFrom world =
      ((setOf items).mapError .unhashable, world) := by
  rw [Feed.toSet, Feed.fold_ofList, Sequence.foldlM_ofHash, runFrom_ofHash]
  rfl

/-- The set of the parts of what has a size. -/
private theorem runFrom_toSet {world : World} {v : Value} {items : List Value}
    (sized : world.store.partsOf? v = some items) (fits : items.length ≤ endless) :
    (do (← feedOf v).toSet).runFrom world = ((setOf items).mapError .unhashable, world) := by
  fun_induction Store.partsOf? world.store v with
  | case1 number =>
      cases sized
      exact runFrom_toSet_listFeed fits
  | case2 container inductionHypothesis => exact inductionHypothesis sized
  | case3 v notKept noSequence =>
      cases source v with
      | kept number => exact absurd rfl (notKept number)
      | sequence container => exact absurd rfl (noSequence container)
      | list kept =>
          cases sized
          exact runFrom_toSet_ofList _ world
      | iterator number => cases sized
      | stream number => cases sized
      | plain kind parts isAll =>
          rw [parts, sized]
          exact runFrom_toSet_ofList items world

private theorem size?_of_parts? {v : Value} {items : List Value}
    (noSequence : ∀ items, v ≠ .sequence ⟨items⟩)
    (sized : v.parts? = some items) : v.size? = some items.length := by
  cases v with
  | scalar s =>
      cases s with
      | text | bytes | byteArray =>
          cases sized
          simp [Value.size?, String.length_toList]
      | _ => cases sized
  | list | tuple | set | frozenSet =>
      cases sized
      rfl
  | dictionary entries =>
      cases sized
      simp [Value.size?]
  | sequence container => exact absurd rfl (noSequence container.items)
  | _ => cases sized

/-- What has a size is looked at as something with as many parts. -/
private theorem runFrom_look {world : World} {v : Value} {items : List Value}
    (sized : world.store.partsOf? v = some items) : ∃ seen,
      (look v).runFrom world = (.ok seen, world) ∧ seen.size? = some items.length := by
  fun_induction Store.partsOf? world.store v with
  | case1 number =>
      cases sized
      exact ⟨_, rfl, rfl⟩
  | case2 container inductionHypothesis =>
      obtain ⟨seen, looked, size⟩ := inductionHypothesis sized
      exact ⟨.sequence ⟨seen⟩, runFrom_bind_of_ok _ looked, size⟩
  | case3 v notKept noSequence =>
      have asItIs : look v = pure v := by
        cases v using cases_forms with
        | kept number => exact absurd rfl (notKept number)
        | sequence container => exact absurd rfl (noSequence container)
        | scalar s notList =>
            rw [look]
            · exact notKept
            · intro container same
              cases same
        | _ => rfl
      refine ⟨v, ?_, size?_of_parts? (fun container same => noSequence container same) sized⟩
      rw [asItIs, runFrom_pure]

theorem runFrom_size {world : World} {v : Value} {items : List Value}
    (sized : world.store.partsOf? v = some items) :
    (size v).runFrom world = (.ok items.length, world) := by
  obtain ⟨seen, looked, isSize⟩ := runFrom_look sized
  rw [size, runFrom_bind_of_ok _ looked, isSize]
  rfl

/-! ## Values as they are observed -/

/-- Whether two values are observed as equal ones. -/
def Store.equal (store : Store) (v w : Value) : Bool := store.settled v == store.settled w

/-- A value that is regular as it is kept, and that is observed as a regular one: no list in it has
what is no number either. -/
structure Store.IsRegular (store : Store) (v : Value) : Prop where
  kept : v.Regular
  observed : (store.settled v).Regular

private theorem Store.IsRegular.equal_symm {store : Store} {v w : Value}
    (regular : store.IsRegular v) (equal : store.equal v w = true) : store.equal w v = true :=
  Value.same_symm regular.observed equal

/-- What a set is searched for is observed as what it equals. -/
private theorem equal_of_isHashable (store : Store) {item target : Value} (free : ¬ item.IsBarred)
    (hashable : target.isHashable = true) : store.equal item target = same item target := by
  have searched := similar_settled store (isHashable_of_not_isBarred free)
  calc store.equal item target
      = same (store.settled item).frozen (store.settled target) := (frozen_same _ _).symm
    _ = same (store.settled item.frozen) (store.settled target) := by rw [settled_frozen]
    _ = same item.frozen target := same_similar _ searched (similar_settled store hashable)
    _ = same item target := frozen_same item target

/-- The set of some targets holds a value if the value is observed as one of the targets. -/
theorem isInSet_eq_equal (store : Store) {targets : List Value}
    (hashable : ∀ target ∈ targets, target.isHashable = true)
    (sound : ∀ target ∈ targets, target.Sound) {item : Value} (soundItem : item.Sound)
    (free : ¬ item.IsBarred) :
    item.isInSet (firsts targets) = .ok (targets.any fun target => store.equal item target) := by
  rw [isInSet_of_not_isBarred hashable free]
  apply congrArg Except.ok
  rw [Bool.eq_iff_iff, List.any_eq_true, List.any_eq_true]
  refine exists_congr fun target => and_congr_right fun member => ?_
  rw [equal_of_isHashable store free (hashable target member), Value.beq_def,
    (sound target member).same_comm soundItem]

/-! ## Targets among items -/

/-- Whether an item is observed as a target. -/
def Store.isTarget (store : Store) (targets : List Value) (item : Value) : Bool :=
  targets.any fun target => store.equal item target

/-- A target has no hash, or there are targets and an item that no set can be searched for, before
which no item is a target. -/
def Store.Refuses (store : Store) (items targets : List Value) : Prop :=
  (∃ target ∈ targets, target.isHashable = false) ∨
    (targets ≠ [] ∧ Stopped (store.isTarget targets) items)

private theorem firsts_isEmpty (items : List Value) : (firsts items).isEmpty = items.isEmpty := by
  cases items <;> rfl

section Search

variable {world : World} {ts : Value} {items targets : List Value}

/-- The targets that have no hash are refused before an item is looked at. -/
theorem runFrom_containsAny (sized : world.store.partsOf? ts = some targets)
    (fits : targets.length ≤ endless) :
    (containsAny (.tuple items) ts).runFrom world =
      match setOf targets with
      | .error kind => (.error (.unhashable kind), world)
      | .ok wanted =>
          if wanted.isEmpty then (.ok false, world)
          else ((Feed.ofList items).meetsSet wanted : Run Bool).runFrom world := by
  have made := runFrom_toSet sized fits
  have split : containsAny (.tuple items) ts = (do (← feedOf ts).toSet) >>= fun wanted =>
      if wanted.isEmpty then pure false else (Feed.ofList items).meetsSet wanted := by
    rw [containsAny, bind_assoc]
    rfl
  rw [split, runFrom_bind, made]
  cases setOf targets with
  | error kind => rfl
  | ok wanted => cases wanted <;> rfl

/-- The targets that have hashes are looked for among the items, unless there are none. -/
theorem runFrom_containsAny_of_isHashable (sized : world.store.partsOf? ts = some targets)
    (fits : targets.length ≤ endless)
    (hashable : ∀ target ∈ targets, target.isHashable = true) :
    (containsAny (.tuple items) ts).runFrom world =
      if targets.isEmpty then (.ok false, world)
      else ((Feed.ofList items).meetsSet (firsts targets) : Run Bool).runFrom world := by
  rw [runFrom_containsAny sized fits, setOf_eq_firsts hashable, ← firsts_isEmpty]

private theorem containsAny_of_not_refuses (sized : world.store.partsOf? ts = some targets)
    (fits : targets.length ≤ endless) (soundItems : ∀ item ∈ items, item.Sound)
    (soundTargets : ∀ target ∈ targets, target.Sound)
    (accepts : ¬ world.store.Refuses items targets) :
    (containsAny (.tuple items) ts).runFrom world =
      (.ok (items.any (world.store.isTarget targets)), world) := by
  rw [Store.Refuses, not_or] at accepts
  obtain ⟨noneWithout, goesOn⟩ := accepts
  have hashable : ∀ target ∈ targets, target.isHashable = true := by
    simpa using noneWithout
  rw [runFrom_containsAny_of_isHashable sized fits hashable]
  by_cases nothing : targets = []
  · subst nothing
    have noTarget : items.any (world.store.isTarget []) = false :=
      List.any_eq_false.mpr fun _ _ => Bool.false_ne_true
    rw [noTarget]
    rfl
  · have searched := fun item member => isInSet_eq_equal world.store hashable soundTargets
      (soundItems item member)
    rw [if_neg (by simpa using nothing),
      (Feed.meetsSet_eq searched).1 fun stopped => goesOn ⟨nothing, stopped⟩, runFrom_pure]
    rfl

private theorem containsAny_of_refuses (sized : world.store.partsOf? ts = some targets)
    (fits : targets.length ≤ endless) (soundItems : ∀ item ∈ items, item.Sound)
    (soundTargets : ∀ target ∈ targets, target.Sound)
    (refuses : world.store.Refuses items targets) :
    ∃ kind, (containsAny (.tuple items) ts).runFrom world = (.error (.unhashable kind), world) := by
  by_cases hashable : ∀ target ∈ targets, target.isHashable = true
  · have stopped : targets ≠ [] ∧ Stopped (world.store.isTarget targets) items := by
      refine refuses.resolve_left ?_
      rintro ⟨target, member, noHash⟩
      rw [hashable target member] at noHash
      cases noHash
    have searched := fun item member => isInSet_eq_equal world.store hashable soundTargets
      (soundItems item member)
    obtain ⟨kind, ended⟩ := (Feed.meetsSet_eq (m := StateM World) searched).2 stopped.2
    refine ⟨kind, ?_⟩
    rw [runFrom_containsAny_of_isHashable sized fits hashable,
      if_neg (by simpa using stopped.1), ended]
    rfl
  · obtain ⟨target, member, noHash⟩ : ∃ target ∈ targets, target.isHashable = false := by
      simpa using hashable
    obtain ⟨kind, refused⟩ := setOf_of_not_isHashable member noHash
    exact ⟨kind, by rw [runFrom_containsAny sized fits, refused]⟩

/-- A sequence contains a target that one of its items is observed as. -/
theorem runFrom_contains_sequence (call : Caller) (target : Value) :
    (performSequence call .contains [sequence items, target]).runFrom world =
      (.ok (.bool (items.any fun item => world.store.equal item target)), world) := by
  have found : (world.store.settled (.tuple items)).holds (world.store.settled target) =
      .ok (items.any fun item => world.store.equal item target) := by
    rw [settled_tuple, Value.holds, isAmong, List.any_map]
    rfl
  have held := runFrom_holds (v := .tuple items) target world rfl
  rw [found] at held
  rw [contains_sequence, runFrom_bind_of_ok _ held, runFrom_pure]

/-- No targets ask for nothing; others are looked for. -/
theorem runFrom_meets (call : Caller) (sized : world.store.partsOf? ts = some targets) :
    (performSequence call .meets [sequence items, ts]).runFrom world =
      if targets = [] then (.ok (.bool true), world)
      else (performSequence call .containsAny [sequence items, ts]).runFrom world := by
  have measured := runFrom_size sized
  simp only [performSequence, sequence, ofSequence, containerOf, pure_bind]
  rw [runFrom_bind_of_ok _ measured]
  cases targets <;> rfl

end Search

/-! ## All searches -/

/-- A session finds a target among the items of a sequence exactly where an item is observed as a
target, and the target as the item, which is where the sequence contains one of the targets; no
targets are met by whatever items there are. It refuses targets of which one has no hash, and items
of which one has no hash, is no set and comes before all items that are targets or is the first of
them itself, unless there are no targets at all. -/
theorem containsAny_eq_search {world : World} {ts : Value} {items targets : List Value}
    (sized : world.store.partsOf? ts = some targets) (fits : targets.length ≤ endless)
    (regularItems : ∀ item ∈ items, world.store.IsRegular item)
    (regularTargets : ∀ target ∈ targets, world.store.IsRegular target) (call : Caller) :
    (¬ world.store.Refuses items targets → ∃ found : Bool,
      (performSequence call .containsAny [sequence items, ts]).runFrom world =
          (.ok (.bool found), world) ∧
        (performSequence call .meets [sequence items, ts]).runFrom world =
          (.ok (.bool (targets.isEmpty || found)), world) ∧
        (found = true ↔ ∃ item ∈ items, ∃ target ∈ targets,
          world.store.equal item target = true ∧ world.store.equal target item = true) ∧
        (found = true ↔ ∃ target ∈ targets,
          (performSequence call .contains [sequence items, target]).runFrom world =
            (.ok (.bool true), world))) ∧
    (world.store.Refuses items targets → ∃ kind,
      (performSequence call .containsAny [sequence items, ts]).runFrom world =
          (.error (.unhashable kind), world) ∧
        (performSequence call .meets [sequence items, ts]).runFrom world =
          (.error (.unhashable kind), world)) := by
  have performed : performSequence call .containsAny [sequence items, ts] =
      (do return .bool (← containsAny (.tuple items) ts)) := by
    simp only [performSequence, sequence, ofSequence, containerOf, pure_bind]
  have soundItems : ∀ item ∈ items, item.Sound := fun item member =>
    (regularItems item member).kept.sound
  have soundTargets : ∀ target ∈ targets, target.Sound := fun target member =>
    (regularTargets target member).kept.sound
  constructor
  · intro accepts
    have ended := containsAny_of_not_refuses sized fits soundItems soundTargets accepts
    have answered : (performSequence call .containsAny [sequence items, ts]).runFrom world =
        (.ok (.bool (items.any (world.store.isTarget targets))), world) := by
      rw [performed, runFrom_bind_of_ok _ ended, runFrom_pure]
    have isFound : items.any (world.store.isTarget targets) = true ↔
        ∃ item ∈ items, ∃ target ∈ targets, world.store.equal item target = true := by
      simp only [List.any_eq_true, Store.isTarget]
    refine ⟨_, answered, ?_, isFound.trans ?_, isFound.trans ?_⟩
    · rw [runFrom_meets call sized, answered]
      cases targets <;> rfl
    · constructor
      · rintro ⟨item, isItem, target, isTarget, equal⟩
        exact ⟨item, isItem, target, isTarget, equal, (regularItems item isItem).equal_symm equal⟩
      · rintro ⟨item, isItem, target, isTarget, equal, -⟩
        exact ⟨item, isItem, target, isTarget, equal⟩
    · have contains (target : Value) :
          (performSequence call .contains [sequence items, target]).runFrom world =
              (.ok (.bool true), world) ↔
            ∃ item ∈ items, world.store.equal item target = true := by
        rw [runFrom_contains_sequence, ← List.any_eq_true]
        exact ⟨fun answer => by simpa using answer, fun isSo => by rw [isSo]⟩
      -- The same pairs are gone through, the targets first.
      simp only [contains]
      constructor
      · rintro ⟨item, isItem, target, isTarget, equal⟩
        exact ⟨target, isTarget, item, isItem, equal⟩
      · rintro ⟨target, isTarget, item, isItem, equal⟩
        exact ⟨item, isItem, target, isTarget, equal⟩
  · intro refuses
    obtain ⟨kind, ended⟩ := containsAny_of_refuses sized fits soundItems soundTargets refuses
    have failed : (performSequence call .containsAny [sequence items, ts]).runFrom world =
        (.error (.unhashable kind), world) := by
      rw [performed, runFrom_bind_of_error _ ended]
    have someTargets : targets ≠ [] := by
      rcases refuses with ⟨target, member, -⟩ | ⟨some, -⟩
      · exact List.ne_nil_of_mem member
      · exact some
    refine ⟨kind, failed, ?_⟩
    rw [runFrom_meets call sized, if_neg someTargets, failed]

/-- A set is found as the frozen set that equals it, before an item that no set can be searched
for. -/
theorem containsAny_eq_search_before_barred :
    (World.start ⟨[]⟩ ⟨2024, 2, 29, 1, 2, 3, 0⟩).store.partsOf? (.tuple [.frozenSet []]) =
      some [.frozenSet []] ∧
    (∀ item ∈ [Value.int 1, .set [], .tuple [.set []]], Store.empty.IsRegular item) ∧
    Store.empty.IsRegular (.frozenSet []) ∧
    IsBarred (.tuple [.set []]) ∧
    (performSequence call .containsAny
        [sequence [.int 1, .set [], .tuple [.set []]], .tuple [.frozenSet []]]).runFrom
          (.start ⟨[]⟩ ⟨2024, 2, 29, 1, 2, 3, 0⟩) =
      (.ok (.bool true), .start ⟨[]⟩ ⟨2024, 2, 29, 1, 2, 3, 0⟩) := by
  have empty : Members [] := ⟨nofun, .nil⟩
  have one : (Value.int 1).Regular := .scalar rfl
  have set : (Value.set []).Regular := .set nofun empty
  have frozen : (Value.frozenSet []).Regular := .frozenSet nofun empty
  have tuple : (Value.tuple [.set []]).Regular := .tuple (by simpa using set)
  have regularItems : ∀ item ∈ [Value.int 1, .set [], .tuple [.set []]],
      Store.empty.IsRegular item := by
    simpa using ⟨⟨one, one⟩, ⟨set, set⟩, tuple, tuple⟩
  have regularTargets : ∀ target ∈ [Value.frozenSet []], Store.empty.IsRegular target := by
    simpa using ⟨frozen, frozen⟩
  have accepts : ¬ Store.empty.Refuses [.int 1, .set [], .tuple [.set []]] [.frozenSet []] := by
    rintro (⟨target, member, noHash⟩ | ⟨-, stopped⟩)
    · rw [List.mem_singleton.mp member] at noHash
      cases noHash
    · rw [stopped_cons, stopped_cons] at stopped
      rcases stopped with ⟨noHash, -⟩ | ⟨-, ⟨-, noSet⟩ | ⟨isNot, -⟩⟩
      · cases noHash
      · exact noSet [] rfl
      · cases isNot
  have sized : (World.start ⟨[]⟩ ⟨2024, 2, 29, 1, 2, 3, 0⟩).store.partsOf?
      (.tuple [.frozenSet []]) = some [.frozenSet []] := rfl
  obtain ⟨found, answered, -, isFound, -⟩ :=
    (containsAny_eq_search sized (by decide) regularItems regularTargets call).1 accepts
  refine ⟨sized, regularItems, regularTargets _ (List.mem_singleton_self _), ⟨rfl, nofun⟩, ?_⟩
  rw [answered, isFound.mpr ⟨.set [], by simp, .frozenSet [], by simp, rfl, rfl⟩]

/-- An item that equals a target, and before which there is nothing at all, stops the search
nevertheless if it has no hash. -/
theorem containsAny_refuses_equal_item :
    ¬ ((∃ kind, (performSequence call .containsAny
          [sequence [.tuple [.set []]], .tuple [.tuple [.frozenSet []]]]).runFrom
            (.start ⟨[]⟩ ⟨2024, 2, 29, 1, 2, 3, 0⟩) =
        (.error (.unhashable kind), .start ⟨[]⟩ ⟨2024, 2, 29, 1, 2, 3, 0⟩)) ↔
      (∃ target ∈ [Value.tuple [.frozenSet []]], target.isHashable = false) ∨
        ([Value.tuple [.frozenSet []]] ≠ [] ∧ ∃ earlier item later,
          [Value.tuple [.set []]] = earlier ++ item :: later ∧ item.IsBarred ∧
            ∀ other ∈ earlier ++ [item], ∀ target ∈ [Value.tuple [.frozenSet []]],
              Store.empty.equal other target = false)) := by
  intro claimed
  rcases claimed.mp ⟨.set, rfl⟩ with ⟨target, member, noHash⟩ | ⟨-, before⟩
  · rw [List.mem_singleton.mp member] at noHash
    cases noHash
  · obtain ⟨earlier, item, later, split, -, unequal⟩ := before
    have isItem : Value.tuple [.set []] ∈ earlier ++ [item] := by
      cases earlier with
      | nil =>
          cases split
          exact List.mem_singleton_self _
      | cons first earlier => cases earlier <;> cases split
    cases unequal _ isItem _ (List.mem_singleton_self _)

end Session

end Presence
