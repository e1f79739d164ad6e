import Presence.Proofs.Session.Frames
import Presence.Proofs.Value.Similarity

/-!
Contract: what reading lists back changes.

Owns: reading back changes no hash (`hash_settled`), and nothing that equality looks at of values
with a hash (`similar_settled`).

Does not own: similar values (`Presence.Proofs.Value.Similarity`).
-/

namespace Presence.Session

open Attempt Run Value

/-! ## Lists that are read back -/

/-- A rule by which handles of lists become something without a hash, and lists and containers stay
as they are. -/
structure ListRule.ReadsLists (rule : ListRule Id) : Prop where
  handle : ∀ number, (Id.run (rule.onHandle number)).hash = .error .list
  list : ∀ items, rule.onList items = .list items
  container : ∀ items, rule.onContainer items = items

variable {rule : ListRule Id}

theorem rebuild_scalar (reads : rule.ReadsLists) (s : Scalar) :
    rebuild rule (.scalar s) = .scalar s ∨
      (Value.scalar s).hash = .error .list ∧
        (Id.run (rebuild rule (.scalar s))).hash = .error .list := by
  cases s with
  | handle h =>
      obtain ⟨sort, number⟩ := h
      cases sort with
      | growing => exact .inr ⟨rfl, reads.handle number⟩
      | _ => exact .inl rfl
  | _ => exact .inl rfl

private theorem length_rebuildItems (items : List Value) :
    (Id.run (rebuildItems rule items)).length = items.length := by
  induction items with
  | nil => rfl
  | cons item rest inductionHypothesis => exact congrArg (· + 1) inductionHypothesis

mutual

/-- Lists that are read back have no hash, as before; all other hashes are of no list. -/
theorem hash_rebuild (reads : rule.ReadsLists) :
    (v : Value) → (Id.run (rebuild rule v)).hash = v.hash
  | .scalar s => by
      rcases rebuild_scalar reads s with same | ⟨noHash, noHash'⟩
      · rw [same]
        rfl
      · rw [noHash, noHash']
  | .list items => by
      show (Id.run (rule.onList (Id.run (rebuildItems rule items)))).hash = _
      rw [reads.list]
      rfl
  | .tuple items => hashItems_rebuild reads 1 items
  | .set items => rfl
  | .frozenSet items =>
      congrArg (fun size => Except.ok (Hashable.hash size)) (length_rebuildItems items)
  | .dictionary entries => rfl
  | .option (.ok v) => congrArg (mixHash 2 <$> ·) (hash_rebuild reads v)
  | .option (.notOk _) => rfl
  | .either (.left v _) => congrArg (mixHash 4 <$> ·) (hash_rebuild reads v)
  | .either (.right v _) => congrArg (mixHash 5 <$> ·) (hash_rebuild reads v)
  | .pair ⟨v, w⟩ =>
      congrArg₂ (fun a b => do return mixHash (← a) (← b)) (hash_rebuild reads v)
        (hash_rebuild reads w)
  | .sequence ⟨items⟩ => by
      have contained : rule.onContainer (rebuild rule items) = rebuild rule items :=
        reads.container _
      show (mixHash 6 <$> (Id.run (rule.onContainer (rebuild rule items))).hash) = _
      rw [contained, hash_rebuild reads items]
      rfl
  | .managed ⟨holder, basic⟩ =>
      congrArg (mixHash (Hashable.hash holder.kind.name) <$> ·) (hash_rebuild reads basic)
  | .guarded ⟨v⟩ => congrArg (mixHash 7 <$> ·) (hash_rebuild reads v)
  | .deferred ⟨f⟩ => congrArg (mixHash 8 <$> ·) (hash_rebuild reads f)
  | .ternary ⟨condition, v, none⟩ =>
      congrArg₂ (fun a b => do return mixHash (← a) (← b)) (hash_rebuild reads condition)
        (hash_rebuild reads v)
  | .ternary ⟨condition, v, some f⟩ => by
      show (do return mixHash (mixHash (← (Id.run (rebuild rule condition)).hash)
        (← (Id.run (rebuild rule v)).hash)) (← (Id.run (rebuild rule f)).hash)) = _
      rw [hash_rebuild reads condition, hash_rebuild reads v, hash_rebuild reads f, Value.hash]
  | .parseError ⟨input, reason, fallback⟩ => by
      show (do return mixHash (mixHash (← (Id.run (rebuild rule input)).hash)
        (← (Id.run (rebuild rule reason)).hash)) (← (Id.run (rebuild rule fallback)).hash)) = _
      rw [hash_rebuild reads input, hash_rebuild reads reason, hash_rebuild reads fallback,
        Value.hash]
  | .thrown ⟨_, _, _, none⟩ => rfl
  | .thrown ⟨_, _, _, some _⟩ => rfl
  | .client ⟨_, _, _⟩ => rfl

theorem hashItems_rebuild (reads : rule.ReadsLists) (sofar : UInt64) :
    (items : List Value) →
      hashItems sofar (Id.run (rebuildItems rule items)) = hashItems sofar items
  | [] => rfl
  | item :: rest => by
      show ((Id.run (rebuild rule item)).hash >>= fun code =>
        hashItems (mixHash sofar code) (Id.run (rebuildItems rule rest))) = _
      rw [hash_rebuild reads item, hashItems]
      exact bind_congr fun code => hashItems_rebuild reads (mixHash sofar code) rest

end

/-! ## Values with a hash -/

/-- The items of a tuple with a hash have hashes. -/
private theorem isHashable_of_hashItems {items : List Value} {sofar code : UInt64}
    (hashed : hashItems sofar items = .ok code) : ∀ item ∈ items, item.isHashable = true := by
  induction items generalizing sofar with
  | nil => exact fun item member => absurd member List.not_mem_nil
  | cons item rest inductionHypothesis =>
      obtain ⟨first, hashedFirst, hashedRest⟩ := bind_eq_ok hashed
      rw [List.forall_mem_cons]
      exact ⟨isHashable_iff.mpr ⟨first, hashedFirst⟩, inductionHypothesis hashedRest⟩

/-- Members that have hashes are similar values. -/
theorem forall₂_of_members {hidden : Bool} {xs ys : List Value}
    (members : List.Forall₂ (SimilarMembers hidden) xs ys)
    (hashable : ∀ y ∈ ys, y.isHashable = true) : List.Forall₂ (Similar hidden) xs ys := by
  induction members with
  | nil => exact .nil
  | @cons x y _ _ first _ inductionHypothesis =>
      rw [List.forall_mem_cons] at hashable
      cases first with
      | member similar => exact .cons similar (inductionHypothesis hashable.2)
      | hiddenMember _ _ noHash => exact absurd hashable.1 (noHash ▸ Bool.false_ne_true)

private theorem isHashable_of_error {v : Value} {kind : Kind} (hashed : v.hash = .error kind) :
    v.isHashable = false := by
  rw [isHashable, hashed]

mutual

/-- Reading back changes nothing of a value with a hash that equality looks at. -/
theorem similar_rebuild (reads : rule.ReadsLists) :
    (v : Value) → ∀ {code : UInt64}, v.hash = .ok code → Similar true (Id.run (rebuild rule v)) v
  | .scalar s, code, hashed => by
      rcases rebuild_scalar reads s with same | ⟨noHash, -⟩
      · rw [same]
        exact .scalar s
      · rw [noHash] at hashed
        cases hashed
  | .list _, _, hashed => nomatch hashed
  | .set _, _, hashed => nomatch hashed
  | .dictionary _, _, hashed => nomatch hashed
  | .tuple items, _, hashed =>
      .tuple (forall₂_of_members (similarMembers_rebuild reads items)
        (isHashable_of_hashItems hashed))
  | .frozenSet items, _, _ => .frozenSet (similarMembers_rebuild reads items)
  | .option (.ok v), _, hashed => by
      obtain ⟨_, hashedPayload, -⟩ := bind_eq_ok hashed
      exact .ok (similar_rebuild reads v hashedPayload)
  | .option (.notOk kind), _, _ => .notOk _ kind
  | .either (.left v kind), _, hashed => by
      obtain ⟨_, hashedPayload, -⟩ := bind_eq_ok hashed
      exact .left _ kind (similar_rebuild reads v hashedPayload)
  | .either (.right v kind), _, hashed => by
      obtain ⟨_, hashedPayload, -⟩ := bind_eq_ok hashed
      exact .right _ kind (similar_rebuild reads v hashedPayload)
  | .pair ⟨v, w⟩, _, hashed => by
      obtain ⟨_, hashedFirst, hashed⟩ := bind_eq_ok hashed
      obtain ⟨_, hashedSecond, -⟩ := bind_eq_ok hashed
      exact .pair (similar_rebuild reads v hashedFirst) (similar_rebuild reads w hashedSecond)
  | .sequence ⟨items⟩, _, hashed => by
      obtain ⟨_, hashedItems, -⟩ := bind_eq_ok hashed
      have contained : rule.onContainer (rebuild rule items) = rebuild rule items :=
        reads.container _
      show Similar true (.sequence ⟨Id.run (rule.onContainer (rebuild rule items))⟩) _
      rw [contained]
      exact .sequence (similar_rebuild reads items hashedItems)
  | .managed ⟨holder, basic⟩, _, hashed => by
      obtain ⟨_, hashedBasic, -⟩ := bind_eq_ok hashed
      exact .managed holder (similar_rebuild reads basic hashedBasic)
  | .guarded ⟨v⟩, _, hashed => by
      obtain ⟨_, hashedPayload, -⟩ := bind_eq_ok hashed
      exact .guarded (similar_rebuild reads v hashedPayload)
  | .deferred ⟨f⟩, _, hashed => by
      obtain ⟨_, hashedRun, -⟩ := bind_eq_ok hashed
      exact .deferred (similar_rebuild reads f hashedRun)
  | .ternary ⟨condition, v, none⟩, _, hashed => by
      obtain ⟨_, hashedCondition, hashed⟩ := bind_eq_ok hashed
      obtain ⟨_, hashedPayload, -⟩ := bind_eq_ok hashed
      exact .ternary (similar_rebuild reads condition hashedCondition)
        (similar_rebuild reads v hashedPayload)
  | .ternary ⟨condition, v, some f⟩, _, hashed => by
      obtain ⟨_, hashedCondition, hashed⟩ := bind_eq_ok hashed
      obtain ⟨_, hashedPayload, hashed⟩ := bind_eq_ok hashed
      obtain ⟨_, hashedCall, -⟩ := bind_eq_ok hashed
      exact .ternaryCall (similar_rebuild reads condition hashedCondition)
        (similar_rebuild reads v hashedPayload) (similar_rebuild reads f hashedCall)
  | .parseError ⟨input, reason, fallback⟩, _, hashed => by
      obtain ⟨_, hashedInput, hashed⟩ := bind_eq_ok hashed
      obtain ⟨_, hashedWhy, hashed⟩ := bind_eq_ok hashed
      obtain ⟨_, hashedFallback, -⟩ := bind_eq_ok hashed
      exact .parseError (similar_rebuild reads input hashedInput)
        (similar_rebuild reads reason hashedWhy) (similar_rebuild reads fallback hashedFallback)
  | .thrown ⟨_, _, _, none⟩, _, _ => .hiddenThrown rfl rfl
  | .thrown ⟨_, _, _, some _⟩, _, _ => .hiddenThrown rfl rfl
  | .client ⟨_, _, _⟩, _, _ => .hiddenClient rfl rfl

theorem similarMembers_rebuild (reads : rule.ReadsLists) : (items : List Value) →
    List.Forall₂ (SimilarMembers true) (Id.run (rebuildItems rule items)) items
  | [] => .nil
  | item :: rest => by
      refine .cons ?_ (similarMembers_rebuild reads rest)
      cases hashed : item.hash with
      | ok code => exact .member (similar_rebuild reads item hashed)
      -- Without a hash the item is found in no set, before or after, whatever it is read back as.
      | error unhashable =>
          have readBack : (Id.run (rebuild rule item)).hash = .error unhashable :=
            (hash_rebuild reads item).trans hashed
          exact .hiddenMember rfl (isHashable_of_error readBack) (isHashable_of_error hashed)

end

/-! ## Values as they are observed -/

theorem runFrom_observe (v : Value) (world : World) :
    (observe v).runFrom world = (.ok (world.store.settled v), world) := rfl

/-- Lists are read back by rules. -/
theorem exists_rule (store : Store) :
    ∃ rule : ListRule Id, rule.ReadsLists ∧ ∀ v, store.settled v = Id.run (rebuild rule v) := by
  exact ⟨_, ⟨fun _ => rfl, fun _ => rfl, fun _ => rfl⟩, fun _ => rfl⟩

theorem hash_settled (store : Store) (v : Value) : (store.settled v).hash = v.hash := by
  obtain ⟨rule, reads, same⟩ := exists_rule store
  rw [same]
  exact hash_rebuild reads v

/-- A value with a hash is observed as it is, but for what equality leaves out. -/
theorem similar_settled (store : Store) {v : Value} (hashable : v.isHashable = true) :
    Similar true (store.settled v) v := by
  obtain ⟨rule, reads, same⟩ := exists_rule store
  obtain ⟨code, hashed⟩ := isHashable_iff.mp hashable
  rw [same]
  exact similar_rebuild reads v hashed

/-- Whether a value holds another is asked of both as they are observed, unless the first is gone
through. -/
theorem runFrom_holds {v : Value} (part : Value) (world : World)
    (isAll : Run.holds v part = (do
      let part ← observe part
      lift ((← observe v).holds part))) :
    (Run.holds v part).runFrom world =
      ((world.store.settled v).holds (world.store.settled part), world) := by
  rw [isAll, runFrom_bind_of_ok _ (runFrom_observe part world),
    runFrom_bind_of_ok _ (runFrom_observe v world), runFrom_lift]

end Presence.Session
