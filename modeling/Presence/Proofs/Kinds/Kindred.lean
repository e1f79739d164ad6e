import Presence.Proofs.Calls.TwoRuns
import Presence.Proofs.Session.ReadingBack
import Presence.Proofs.Value.SimilarText

/-!
Contract: values that a session cannot tell apart but by kinds.

Owns: `Kindred`, values that are similar once their lists are read back; what can be said of such
values: their parts, their hashes, how they are found in sets, whether they count as true, and that
they are gone through alike (`isLooked`).

Does not own: what operations do with such values (`Presence.Proofs.Kinds.Indistinct`).

Values that are kept in different places can be kindred, so that nothing can be said of them before
they are read back. Reading back and taking apart can be done in either order, except where a list
is inside itself.
-/

namespace Presence.Session

open Attempt Run Value

/-- Values that are observed as similar ones. -/
def Kindred (store : Store) (v w : Value) : Prop :=
  Similar false (store.settled v) (store.settled w)

variable {store : Store}

theorem Kindred.refl (v : Value) : Kindred store v v := Value.Similar.refl _

/-! ## Lists that stay -/

private theorem readBack_of_lists {before after : Store} (same : after.lists = before.lists)
    (depth : Nat) (around : List Nat) (v : Value) :
    after.readBack depth around v = before.readBack depth around v := by
  induction depth generalizing around v with
  | zero => rfl
  | succ depth inductionHypothesis =>
      have sameItems (number : Nat) : after.itemsOf number = before.itemsOf number := by
        rw [Store.itemsOf, Store.itemsOf, same]
      have sameInside (number : Nat) : after.readBack depth (number :: around) =
          before.readBack depth (number :: around) :=
        funext fun item => inductionHypothesis (number :: around) item
      simp only [Store.readBack, sameItems, sameInside]

theorem settled_of_lists {before after : Store} (same : after.lists = before.lists) (v : Value) :
    after.settled v = before.settled v := by
  rw [Store.settled, Store.settled, same, readBack_of_lists same]

theorem Kindred.of_lists {before after : Store} (same : after.lists = before.lists) {v w : Value}
    (kindred : Kindred before v w) : Kindred after v w := by
  rw [Kindred, settled_of_lists same, settled_of_lists same]
  exact kindred

/-! ## Values read back part by part -/

/-- The forms of values that reading back goes through. A list that is kept is one of its own. -/
theorem cases_forms {motive : Value → Prop}
    (scalar : ∀ s : Scalar, s.kindOf ≠ .list → motive (.scalar s))
    (kept : ∀ number, motive (.handle .growing number)) (list : ∀ items, motive (.list items))
    (tuple : ∀ items, motive (.tuple items)) (set : ∀ items, motive (.set items))
    (frozenSet : ∀ items, motive (.frozenSet items))
    (dictionary : ∀ entries, motive (.dictionary entries))
    (ok : ∀ v, motive (.option (.ok v))) (notOk : ∀ kind, motive (.option (.notOk kind)))
    (left : ∀ v kind, motive (.either (.left v kind)))
    (right : ∀ v kind, motive (.either (.right v kind)))
    (pair : ∀ v w, motive (.pair ⟨v, w⟩)) (sequence : ∀ items, motive (.sequence ⟨items⟩))
    (managed : ∀ holder basic, motive (.managed ⟨holder, basic⟩))
    (guarded : ∀ v, motive (.guarded ⟨v⟩)) (deferred : ∀ f, motive (.deferred ⟨f⟩))
    (ternary : ∀ condition v, motive (.ternary ⟨condition, v, none⟩))
    (ternaryCall : ∀ condition v f, motive (.ternary ⟨condition, v, some f⟩))
    (parseError : ∀ input reason fallback, motive (.parseError ⟨input, reason, fallback⟩))
    (thrown : ∀ number kind arguments, motive (.thrown ⟨number, kind, arguments, none⟩))
    (thrownWith : ∀ number kind arguments v, motive (.thrown ⟨number, kind, arguments, some v⟩))
    (client : ∀ number users failing, motive (.client ⟨number, users, failing⟩)) :
    ∀ v, motive v := by
  intro v
  cases v with
  | scalar s =>
      by_cases isKept : s.kindOf = .list
      · cases s with
        | handle h =>
            obtain ⟨sort, number⟩ := h
            cases sort with
            | growing => exact kept number
            | _ => cases isKept
        | _ => cases isKept
      · exact scalar s isKept
  | list items => exact list items
  | tuple items => exact tuple items
  | set items => exact set items
  | frozenSet items => exact frozenSet items
  | dictionary entries => exact dictionary entries
  | option o =>
      cases o with
      | ok v => exact ok v
      | notOk kind => exact notOk kind
  | either e =>
      cases e with
      | left v kind => exact left v kind
      | right v kind => exact right v kind
  | pair p => exact pair p.first p.second
  | sequence s => exact sequence s.items
  | managed d => exact managed d.holder d.basic
  | guarded g => exact guarded g.value
  | deferred d => exact deferred d.run
  | ternary t =>
      obtain ⟨condition, v, f⟩ := t
      cases f with
      | none => exact ternary condition v
      | some f => exact ternaryCall condition v f
  | parseError e => exact parseError e.input e.reason e.fallback
  | thrown t =>
      obtain ⟨number, kind, arguments, carried⟩ := t
      cases carried with
      | none => exact thrown number kind arguments
      | some v => exact thrownWith number kind arguments v
  | client c => exact client c.number c.users c.failing

section Settled

variable (store)

theorem settled_scalar {s : Scalar} (notKept : s.kindOf ≠ .list) :
    store.settled (.scalar s) = .scalar s := by
  cases s with
  | handle h =>
      obtain ⟨sort, number⟩ := h
      cases sort with
      | growing => exact absurd rfl notKept
      | _ => rfl
  | _ => rfl

private theorem rebuildItems_eq_map (rule : ListRule Id) (items : List Value) :
    Id.run (rebuildItems rule items) = items.map fun item => Id.run (rebuild rule item) := by
  induction items with
  | nil => rfl
  | cons item rest inductionHypothesis =>
      exact congrArg (Id.run (rebuild rule item) :: ·) inductionHypothesis

theorem map_fst_rebuildEntries (rule : ListRule Id) (entries : List (Value × Value)) :
    (Id.run (rebuildEntries rule entries)).map Prod.fst =
      (entries.map Prod.fst).map fun key => Id.run (rebuild rule key) := by
  induction entries with
  | nil => rfl
  | cons entry rest inductionHypothesis =>
      exact congrArg (Id.run (rebuild rule entry.1) :: ·) inductionHypothesis

/-- The parts of what goes around parts are read back one by one. -/
theorem settled_items (make : List Value → Value)
    (opens : ∀ rule : ListRule Id, rule.ReadsLists → ∀ items,
      Id.run (rebuild rule (make items)) = make (Id.run (rebuildItems rule items)))
    (items : List Value) : store.settled (make items) = make (items.map store.settled) := by
  obtain ⟨rule, reads, same⟩ := exists_rule store
  have sameItems : store.settled = fun item => Id.run (rebuild rule item) := funext same
  rw [same, opens rule reads, rebuildItems_eq_map, sameItems]

private theorem settled_list (items : List Value) :
    store.settled (.list items) = .list (items.map store.settled) :=
  settled_items store .list (fun _ reads _ => reads.list _) items

theorem settled_tuple (items : List Value) :
    store.settled (.tuple items) = .tuple (items.map store.settled) :=
  settled_items store .tuple (fun _ _ _ => rfl) items

theorem settled_set (items : List Value) :
    store.settled (.set items) = .set (items.map store.settled) :=
  settled_items store .set (fun _ _ _ => rfl) items

theorem settled_frozenSet (items : List Value) :
    store.settled (.frozenSet items) = .frozenSet (items.map store.settled) :=
  settled_items store .frozenSet (fun _ _ _ => rfl) items

theorem kindOf_settled (v : Value) : (store.settled v).kindOf = v.kindOf := by
  cases v using cases_forms with
  | scalar s notKept => rw [settled_scalar store notKept]
  | _ => rfl

theorem settled_frozen (v : Value) : store.settled v.frozen = (store.settled v).frozen := by
  cases v using cases_forms with
  | scalar s notKept =>
      show store.settled (.scalar s) = _
      rw [settled_scalar store notKept]
      rfl
  | _ => rfl

/-- The parts of a value are read back one by one, if it is no list and no sequence. -/
theorem parts?_settled {v : Value} (noList : v.kindOf ≠ .list) (noSequence : v.kindOf ≠ .sequence) :
    (store.settled v).parts? = v.parts?.map (List.map store.settled) := by
  cases v using cases_forms with
  | scalar s notKept =>
      rw [settled_scalar store notKept]
      cases s with
      | text | bytes | byteArray =>
          simp only [parts?, Option.map_some, List.map_map]
          rfl
      | _ => rfl
  | kept | list => exact absurd rfl noList
  | sequence => exact absurd rfl noSequence
  | tuple items => rw [settled_tuple]; rfl
  | set items => rw [settled_set]; rfl
  | frozenSet items => rw [settled_frozenSet]; rfl
  | dictionary entries =>
      obtain ⟨rule, -, same⟩ := exists_rule store
      have sameItems : store.settled = fun item => Id.run (rebuild rule item) := funext same
      rw [sameItems]
      exact congrArg some (map_fst_rebuildEntries rule entries)
  | _ => rfl

/-- A value with its parts read back one by one has as many of them, and counts as true alike. -/
private theorem size?_make {make : List Value → Value} {items : List Value} (f : Value → Value)
    (sized : ∀ items, (make items).size? = some items.length)
    (true_of : ∀ items, (make items).truthy? = some !items.isEmpty) :
    (make items).size? = (make (items.map f)).size? ∧
      (make items).truthy? = (make (items.map f)).truthy? := by
  rw [sized, sized, true_of, true_of, List.length_map, List.isEmpty_map]
  exact ⟨rfl, rfl⟩

/-- A value is looked at as one that has as many parts as what is observed of it, and counts as true
alike. -/
def IsLooked (world : World) (v : Value) : Prop := ∃ seen,
  (look v).runFrom world = (.ok seen, world) ∧
    seen.size? = (world.store.settled v).size? ∧ seen.truthy? = (world.store.settled v).truthy?

private theorem isLooked_of_ne (world : World) {v : Value}
    (noSequence : ∀ items, v ≠ .sequence items) :
    IsLooked world v := by
  cases v using cases_forms with
  | scalar s notKept =>
      refine ⟨.scalar s, ?_, ?_⟩
      · cases s with
        | handle h =>
            obtain ⟨sort, number⟩ := h
            cases sort with
            | growing => exact absurd rfl notKept
            | _ => rfl
        | _ => rfl
      · rw [settled_scalar _ notKept]
        exact ⟨rfl, rfl⟩
  | kept number => exact ⟨_, rfl, size?_make _ (fun _ => rfl) fun _ => rfl⟩
  | list items =>
      refine ⟨_, rfl, ?_⟩
      rw [settled_list]
      exact size?_make _ (fun _ => rfl) fun _ => rfl
  | tuple items =>
      refine ⟨_, rfl, ?_⟩
      rw [settled_tuple]
      exact size?_make _ (fun _ => rfl) fun _ => rfl
  | set items =>
      refine ⟨_, rfl, ?_⟩
      rw [settled_set]
      exact size?_make _ (fun _ => rfl) fun _ => rfl
  | frozenSet items =>
      refine ⟨_, rfl, ?_⟩
      rw [settled_frozenSet]
      exact size?_make _ (fun _ => rfl) fun _ => rfl
  | dictionary entries =>
      refine ⟨_, rfl, ?_⟩
      obtain ⟨rule, -, same⟩ := exists_rule world.store
      have sameKeys := map_fst_rebuildEntries rule entries
      have sameLength : (Id.run (rebuildEntries rule entries)).length = entries.length := by
        simpa using congrArg List.length sameKeys
      rw [same]
      cases entries with
      | nil => exact ⟨rfl, rfl⟩
      | cons entry rest => exact ⟨congrArg some sameLength.symm, rfl⟩
  | sequence items => exact absurd rfl (noSequence _)
  | _ => exact ⟨_, rfl, rfl, rfl⟩

theorem isLooked (world : World) : (v : Value) → IsLooked world v
  | .sequence ⟨items⟩ => by
      obtain ⟨seen, looked, sameSize, -⟩ := isLooked world items
      refine ⟨.sequence ⟨seen⟩, runFrom_bind_of_ok _ looked, sameSize, ?_⟩
      exact congrArg (Option.map fun size => size != 0) sameSize
  | .scalar _ | .list _ | .tuple _ | .set _ | .frozenSet _ | .dictionary _ | .option _ | .either _
  | .pair _ | .managed _ | .guarded _ | .deferred _ | .ternary _ | .parseError _ | .thrown _
  | .client _ => isLooked_of_ne world nofun

/-- A value counts as true if what is observed of it does. -/
theorem runFrom_truth (v : Value) (world : World) :
    (truth v).runFrom world =
      ((world.store.settled v).truthy?.elim (.error .wrongType) .ok, world) := by
  obtain ⟨seen, looked, -, same⟩ := isLooked world v
  rw [truth, runFrom_bind_of_ok _ looked, same]
  cases (world.store.settled v).truthy? <;> rfl

end Settled

/-! ## Similar values -/

section Similar

variable {rule : ListRule Id}

mutual

/-- Similar values are read back as similar ones. -/
theorem rebuild_similar (reads : rule.ReadsLists) : (v : Value) → ∀ {w : Value}, Similar false v w →
    Similar false (Id.run (rebuild rule v)) (Id.run (rebuild rule w))
  | .scalar s, _, similar => by
      cases similar
      exact Value.Similar.refl _
  | .list xs, _, similar => by
      cases similar with
      | @list _ ys items =>
          show Similar false (Id.run (rule.onList (Id.run (rebuildItems rule xs))))
            (Id.run (rule.onList (Id.run (rebuildItems rule ys))))
          rw [reads.list, reads.list]
          exact .list (rebuildItems_similar reads xs items)
  | .tuple xs, _, similar => by
      cases similar with
      | tuple items => exact .tuple (rebuildItems_similar reads xs items)
  | .set xs, _, similar => by
      cases similar with
      | set items =>
          -- Nothing is hidden, so that members of sets are similar as all other items are.
          exact .set
            ((rebuildItems_similar reads xs (forall₂_similar items)).imp fun _ _ => .member)
  | .frozenSet xs, _, similar => by
      cases similar with
      | frozenSet items =>
          exact .frozenSet
            ((rebuildItems_similar reads xs (forall₂_similar items)).imp fun _ _ => .member)
  | .dictionary es, _, similar => by
      cases similar with
      | dictionary entries => exact .dictionary (rebuildEntries_similar reads es entries)
  | .option (.ok v), _, similar => by
      cases similar with
      | ok payload => exact .ok (rebuild_similar reads v payload)
  | .option (.notOk _), _, similar => by
      cases similar with
      | notOk => exact .notOk _ _
  | .either (.left v _), _, similar => by
      cases similar with
      | left _ _ payload => exact .left _ _ (rebuild_similar reads v payload)
  | .either (.right v _), _, similar => by
      cases similar with
      | right _ _ payload => exact .right _ _ (rebuild_similar reads v payload)
  | .pair ⟨v, w⟩, _, similar => by
      cases similar with
      | pair first second =>
          exact .pair (rebuild_similar reads v first) (rebuild_similar reads w second)
  | .sequence ⟨v⟩, _, similar => by
      cases similar with
      | @sequence _ w container =>
          show Similar false (.sequence ⟨Id.run (rule.onContainer (Id.run (rebuild rule v)))⟩)
            (.sequence ⟨Id.run (rule.onContainer (Id.run (rebuild rule w)))⟩)
          rw [reads.container, reads.container]
          exact .sequence (rebuild_similar reads v container)
  | .managed ⟨_, v⟩, _, similar => by
      cases similar with
      | managed _ basic => exact .managed _ (rebuild_similar reads v basic)
  | .guarded ⟨v⟩, _, similar => by
      cases similar with
      | guarded payload => exact .guarded (rebuild_similar reads v payload)
  | .deferred ⟨f⟩, _, similar => by
      cases similar with
      | deferred run => exact .deferred (rebuild_similar reads f run)
  | .ternary ⟨c, v, none⟩, _, similar => by
      cases similar with
      | ternary condition payload =>
          exact .ternary (rebuild_similar reads c condition) (rebuild_similar reads v payload)
  | .ternary ⟨c, v, some f⟩, _, similar => by
      cases similar with
      | ternaryCall condition payload call =>
          exact .ternaryCall (rebuild_similar reads c condition) (rebuild_similar reads v payload)
            (rebuild_similar reads f call)
  | .parseError ⟨v, reason, n⟩, _, similar => by
      cases similar with
      | parseError input why fallback =>
          exact .parseError (rebuild_similar reads v input) (rebuild_similar reads reason why)
            (rebuild_similar reads n fallback)
  | .thrown ⟨_, _, xs, none⟩, _, similar => by
      cases similar with
      | hiddenThrown hides => cases hides
      | thrown _ _ arguments carried =>
          cases carried
          exact .thrown _ _ (rebuildItems_similar reads xs arguments) .none
  | .thrown ⟨_, _, xs, some v⟩, _, similar => by
      cases similar with
      | hiddenThrown hides => cases hides
      | thrown _ _ arguments carried =>
          cases carried with
          | some payload =>
              exact .thrown _ _ (rebuildItems_similar reads xs arguments)
                (.some (rebuild_similar reads v payload))
  | .client ⟨_, v, w⟩, _, similar => by
      cases similar with
      | hiddenClient hides => cases hides
      | client _ users failing =>
          exact .client _ (rebuild_similar reads v users) (rebuild_similar reads w failing)

theorem rebuildItems_similar (reads : rule.ReadsLists) : (xs : List Value) →
    ∀ {ys : List Value}, List.Forall₂ (Similar false) xs ys →
      List.Forall₂ (Similar false) (Id.run (rebuildItems rule xs)) (Id.run (rebuildItems rule ys))
  | [], _, similar => by
      cases similar
      exact .nil
  | x :: xs, _, similar => by
      cases similar with
      | cons first rest =>
          exact .cons (rebuild_similar reads x first) (rebuildItems_similar reads xs rest)

theorem rebuildEntries_similar (reads : rule.ReadsLists) : (es : List (Value × Value)) →
    ∀ {fs : List (Value × Value)}, List.Forall₂ (SimilarEntries false) es fs →
      List.Forall₂ (SimilarEntries false) (Id.run (rebuildEntries rule es))
        (Id.run (rebuildEntries rule fs))
  | [], _, similar => by
      cases similar
      exact .nil
  | (key, v) :: es, _, similar => by
      cases similar with
      | cons first rest =>
          cases first with
          | entry under value =>
              exact .cons (.entry (rebuild_similar reads key under) (rebuild_similar reads v value))
                (rebuildEntries_similar reads es rest)

end

end Similar

/-- Values that are similar with the same lists in them are kindred, whatever the lists hold. -/
theorem kindred_of_similar (store : Store) {v w : Value} (similar : Similar false v w) :
    Kindred store v w := by
  obtain ⟨rule, reads, same⟩ := exists_rule store
  rw [Kindred, same, same]
  exact rebuild_similar reads v similar

/-! ## Parts -/

section Parts

variable {v w : Value}

theorem Kindred.kindOf_eq (kindred : Kindred store v w) : v.kindOf = w.kindOf := by
  rw [← kindOf_settled store v, ← kindOf_settled store w, kindOf_similar kindred]

theorem forall₂_settled {xs ys : List Value} (items : List.Forall₂ (Kindred store) xs ys) :
    List.Forall₂ (Similar false) (xs.map store.settled) (ys.map store.settled) := by
  rw [List.forall₂_map_left_iff, List.forall₂_map_right_iff]
  exact items

theorem Kindred.tuple {xs ys : List Value} (items : List.Forall₂ (Kindred store) xs ys) :
    Kindred store (.tuple xs) (.tuple ys) := by
  rw [Kindred, settled_tuple, settled_tuple]
  exact .tuple (forall₂_settled items)

theorem Kindred.set {xs ys : List Value} (items : List.Forall₂ (Kindred store) xs ys) :
    Kindred store (.set xs) (.set ys) := by
  rw [Kindred, settled_set, settled_set]
  exact .set ((forall₂_settled items).imp fun _ _ => .member)

/-- Options of kindred payloads, or without any. -/
inductive KindredOptions (store : Store) : Optional Value Value → Optional Value Value → Prop where
  | ok {v w : Value} (payload : Kindred store v w) : KindredOptions store (.ok v) (.ok w)
  | notOk (kind kind' : Value) : KindredOptions store (.notOk kind) (.notOk kind')

/-- The same sides with kindred payloads. -/
inductive KindredSides (store : Store) :
    Either Value Value Value → Either Value Value Value → Prop where
  | left {v w : Value} (kind kind' : Value) (payload : Kindred store v w) :
      KindredSides store (.left v kind) (.left w kind')
  | right {v w : Value} (kind kind' : Value) (payload : Kindred store v w) :
      KindredSides store (.right v kind) (.right w kind')

theorem kindred_option_iff {o o' : Optional Value Value} :
    Kindred store (.option o) (.option o') ↔ KindredOptions store o o' := by
  constructor
  · intro kindred
    cases o with
    | ok v =>
        cases o' with
        | ok w =>
            cases kindred with
            | ok payload => exact .ok payload
        | notOk => nomatch kindred
    | notOk kind =>
        cases o' with
        | ok w => nomatch kindred
        | notOk kind' => exact .notOk kind kind'
  · rintro (payload | _)
    · exact Similar.ok payload
    · exact Similar.notOk _ _

theorem kindred_either_iff {e e' : Either Value Value Value} :
    Kindred store (.either e) (.either e') ↔ KindredSides store e e' := by
  constructor
  · intro kindred
    cases e with
    | left v kind =>
        cases e' with
        | left w kind' =>
            cases kindred with
            | left _ _ payload => exact .left kind kind' payload
        | right => nomatch kindred
    | right v kind =>
        cases e' with
        | left => nomatch kindred
        | right w kind' =>
            cases kindred with
            | right _ _ payload => exact .right kind kind' payload
  · rintro (⟨_, _, payload⟩ | ⟨_, _, payload⟩)
    · exact Similar.left _ _ payload
    · exact Similar.right _ _ payload

theorem kindred_sequence_iff {items items' : Value} :
    Kindred store (.sequence ⟨items⟩) (.sequence ⟨items'⟩) ↔ Kindred store items items' := by
  constructor
  · intro kindred
    cases kindred with
    | sequence container => exact container
  · exact Similar.sequence

end Parts

/-! ## Search -/

section Search

variable {v w : Value}

theorem Kindred.hash_eq (kindred : Kindred store v w) : v.hash = w.hash := by
  rw [← hash_settled store v, ← hash_settled store w, hash_similar _ kindred]

theorem Kindred.requireHash_eq (kindred : Kindred store v w) : v.requireHash = w.requireHash := by
  rw [requireHash, requireHash, kindred.hash_eq]

/-- A value is found where what is observed of it is found. -/
private theorem found_settled (store : Store) (v w : Value) :
    (hashesAgree (store.settled v) (store.settled w) && store.settled v == store.settled w) =
      (hashesAgree v w && v == w) := by
  have sameHashes : hashesAgree (store.settled v) (store.settled w) = hashesAgree v w := by
    rw [hashesAgree, hashesAgree, hash_settled, hash_settled]
  rw [sameHashes]
  cases agree : hashesAgree v w with
  | false => rfl
  | true =>
      obtain ⟨code, hashed, hashed'⟩ := hashesAgree_iff.mp agree
      have first := similar_settled store (isHashable_iff.mpr ⟨code, hashed⟩)
      have second := similar_settled store (isHashable_iff.mpr ⟨code, hashed'⟩)
      exact congrArg (true && ·) (same_similar _ first second)

private theorem Kindred.found_eq {v' w' : Value} (kindred : Kindred store v v')
    (kindred' : Kindred store w w') :
    (hashesAgree v w && v == w) = (hashesAgree v' w' && v' == w') := by
  rw [← found_settled store v w, ← found_settled store v' w']
  exact found_similar (same_similar _) (.member kindred) (.member kindred')

theorem Kindred.isStored_eq {xs ys : List Value} (kindred : Kindred store v w)
    (items : List.Forall₂ (Kindred store) xs ys) : v.isStored xs = w.isStored ys :=
  any_eq_of_forall₂ items fun _ _ item => item.found_eq kindred

private theorem Kindred.frozen (kindred : Kindred store v w) : Kindred store v.frozen w.frozen := by
  rw [Kindred, settled_frozen, settled_frozen]
  exact frozen_similar kindred

theorem Kindred.isInSet_eq {xs ys : List Value} (kindred : Kindred store v w)
    (items : List.Forall₂ (Kindred store) xs ys) : v.isInSet xs = w.isInSet ys := by
  rw [isInSet, isInSet, kindred.frozen.requireHash_eq, kindred.frozen.isStored_eq items]

/-- Adding kindred values leaves sets of kindred values. -/
theorem Kindred.addToSet {xs ys : List Value} (kindred : Kindred store v w)
    (items : List.Forall₂ (Kindred store) xs ys) :
    Agree (List.Forall₂ (Kindred store)) (addToSet xs v) (addToSet ys w) := by
  rw [Value.addToSet, Value.addToSet, kindred.requireHash_eq, kindred.isStored_eq items]
  cases w.requireHash with
  | error kind => exact .error kind
  | ok _ =>
      refine .ok ?_
      by_cases stored : w.isStored ys = true
      · rw [if_pos stored, if_pos stored]
        exact items
      · rw [if_neg stored, if_neg stored]
        exact List.rel_append items (.cons kindred .nil)

end Search

end Presence.Session
