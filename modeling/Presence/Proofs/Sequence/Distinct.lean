import Mathlib.Data.List.Induction
import Presence.Proofs.Calls.Feed
import Presence.Proofs.Value.Equivalence

/-!
Contract: the first of each group of equal items.

Owns: `Value.firsts`, the items that no item before them equals; `Value.Blocked`, the items among
which a set cannot be searched; what `unique` and `toSet` make of a sequence of regular items
(`unique_eq_firsts`).

Does not own: equality and its laws (`Presence.Proofs.Value.Equality`), and regular values
(`Presence.Proofs.Value.Equivalence`).

The items that have been seen are searched by their hashes, and only those of them that were kept.
Nothing is missed: an item that was not kept equals one that was, and equality goes on from it. An
item that was kept equals itself, if it is regular.
-/

namespace Presence

namespace Value

variable {m : Type → Type} [Monad m]

/-! ## The first items -/

/-- The items that equal none of the items before them, among items that come after some others. -/
def firstsAfter : (earlier items : List Value) → List Value
  | _, [] => []
  | earlier, item :: rest =>
      if earlier.any (· == item) then firstsAfter (earlier ++ [item]) rest
      else item :: firstsAfter (earlier ++ [item]) rest

/-- The items that equal none of the items before them. -/
def firsts (items : List Value) : List Value := firstsAfter [] items

private theorem firstsAfter_append (earlier items : List Value) (item : Value) :
    firstsAfter earlier (items ++ [item]) =
      firstsAfter earlier items ++ if (earlier ++ items).any (· == item) then [] else [item] := by
  induction items generalizing earlier with
  | nil => simp [firstsAfter]
  | cons head rest inductionHypothesis =>
      rw [List.cons_append, firstsAfter, firstsAfter, inductionHypothesis, List.append_assoc]
      by_cases found : earlier.any (· == head) = true
      · rw [if_pos found, if_pos found]
        rfl
      · rw [if_neg found, if_neg found]
        rfl

/-- One more item is kept if no item before it equals it. -/
theorem firsts_append (items : List Value) (item : Value) :
    firsts (items ++ [item]) =
      if items.any (· == item) then firsts items else firsts items ++ [item] := by
  unfold firsts
  rw [firstsAfter_append, List.nil_append]
  by_cases found : items.any (· == item) = true
  · rw [if_pos found, if_pos found, List.append_nil]
  · rw [if_neg found, if_neg found]

private theorem firstsAfter_sublist (earlier items : List Value) :
    (firstsAfter earlier items).Sublist items := by
  induction items generalizing earlier with
  | nil => exact List.Sublist.refl _
  | cons item rest inductionHypothesis =>
      rw [firstsAfter]
      by_cases found : earlier.any (· == item) = true
      · rw [if_pos found]
        exact (inductionHypothesis _).cons item
      · rw [if_neg found]
        exact (inductionHypothesis _).cons_cons item

theorem firsts_sublist (items : List Value) : (firsts items).Sublist items :=
  firstsAfter_sublist [] items

/-- No kept item equals one that is kept after it. -/
theorem firsts_pairwise (items : List Value) :
    (firsts items).Pairwise fun first second => (first == second) = false := by
  induction items using List.reverseRecOn with
  | nil => exact List.Pairwise.nil
  | append_singleton items item inductionHypothesis =>
      rw [firsts_append]
      by_cases found : items.any (· == item) = true
      · rw [if_pos found]
        exact inductionHypothesis
      · rw [if_neg found, List.pairwise_append]
        refine ⟨inductionHypothesis, List.pairwise_singleton _ _, ?_⟩
        intro kept member last isLast
        rw [List.mem_singleton.mp isLast]
        rw [List.any_eq_true] at found
        have notEqual : ¬ (kept == item) = true := fun equal =>
          found ⟨kept, (firsts_sublist items).subset member, equal⟩
        exact Bool.eq_false_iff.mpr notEqual

/-- Items none of which equals one after it are all kept. -/
private theorem firstsAfter_of_pairwise {earlier items : List Value}
    (pairwise : (earlier ++ items).Pairwise fun first second => (first == second) = false) :
    firstsAfter earlier items = items := by
  induction items generalizing earlier with
  | nil => rfl
  | cons item rest inductionHypothesis =>
      have none_equals : ¬ earlier.any (· == item) = true := by
        rw [List.any_eq_true]
        rintro ⟨other, member, equal⟩
        have different := (List.pairwise_append.mp pairwise).2.2 other member item
          List.mem_cons_self
        rw [different] at equal
        cases equal
      rw [firstsAfter, if_neg none_equals, inductionHypothesis]
      rw [List.append_assoc]
      exact pairwise

private theorem firsts_firsts (items : List Value) : firsts (firsts items) = firsts items :=
  firstsAfter_of_pairwise (firsts_pairwise items)

/-! ## Items that cannot be searched for -/

/-- An item has no hash and is no set that equals a frozen set before it. -/
def Blocks (earlier : List Value) (item : Value) : Prop :=
  item.isHashable = false ∧
    ¬ ∃ members others, item = .set members ∧ .frozenSet others ∈ earlier ∧
      (Value.frozenSet others == item) = true

/-- Some item has no hash and is no set that equals a frozen set before it. -/
def Blocked (items : List Value) : Prop :=
  ∃ earlier item later, items = earlier ++ item :: later ∧ Blocks earlier item

theorem blocked_append (items : List Value) (item : Value) :
    Blocked (items ++ [item]) ↔ Blocked items ∨ Blocks items item := by
  constructor
  · rintro ⟨earlier, blocking, later, split, blocks⟩
    rcases List.eq_nil_or_concat later with rfl | ⟨later, last, rfl⟩
    · obtain ⟨rfl, isLast⟩ := List.append_inj' split rfl
      cases isLast
      exact .inr blocks
    · rw [List.concat_eq_append, ← List.cons_append, ← List.append_assoc] at split
      obtain ⟨rfl, -⟩ := List.append_inj' split rfl
      exact .inl ⟨earlier, blocking, later, rfl, blocks⟩
  · rintro (⟨earlier, blocking, later, rfl, blocks⟩ | blocks)
    · exact ⟨earlier, blocking, later ++ [item], by simp, blocks⟩
    · exact ⟨items, item, [], rfl, blocks⟩

/-- What is kept of items none of which is blocked has a hash. -/
theorem isHashable_of_mem_firsts {items : List Value} (free : ¬ Blocked items) :
    ∀ kept ∈ firsts items, kept.isHashable = true := by
  induction items using List.reverseRecOn with
  | nil =>
      intro kept member
      cases member
  | append_singleton items item inductionHypothesis =>
      rw [blocked_append, not_or] at free
      rw [firsts_append]
      intro kept member
      by_cases found : items.any (· == item) = true
      · rw [if_pos found] at member
        exact inductionHypothesis free.1 kept member
      · rw [if_neg found, List.mem_append, List.mem_singleton] at member
        rcases member with member | rfl
        · exact inductionHypothesis free.1 kept member
        · by_contra noHash
          refine free.2 ⟨Bool.eq_false_iff.mpr noHash, ?_⟩
          rintro ⟨members, others, rfl, member, equal⟩
          exact found (List.any_eq_true.mpr ⟨_, member, equal⟩)

/-- Equality goes on from what is kept. -/
theorem equal_of_mem_firsts {items : List Value} (free : ¬ Blocked items) {kept v w : Value}
    (isKept : kept ∈ firsts items) (first : (kept == v) = true) (second : (v == w) = true) :
    (kept == w) = true := by
  obtain ⟨code, hashed⟩ := isHashable_iff.mp (isHashable_of_mem_firsts free kept isKept)
  exact same_trans kept hashed first second

/-- Each item is kept, or equals one before it that is kept. -/
theorem exists_first {items : List Value} (free : ¬ Blocked items) :
    ∀ item ∈ items, ∃ kept ∈ firsts items, kept = item ∨ (kept == item) = true := by
  induction items using List.reverseRecOn with
  | nil =>
      intro item member
      cases member
  | append_singleton items last inductionHypothesis =>
      rw [blocked_append, not_or] at free
      rw [firsts_append]
      intro item member
      by_cases found : items.any (· == last) = true
      · rw [if_pos found]
        rw [List.mem_append, List.mem_singleton] at member
        rcases member with member | rfl
        · exact inductionHypothesis free.1 item member
        · obtain ⟨other, member, equal⟩ := List.any_eq_true.mp found
          obtain ⟨kept, isKept, rfl | same⟩ := inductionHypothesis free.1 other member
          · exact ⟨kept, isKept, .inr equal⟩
          · exact ⟨kept, isKept, .inr (equal_of_mem_firsts free.1 isKept same equal)⟩
      · rw [if_neg found]
        rw [List.mem_append, List.mem_singleton] at member
        rcases member with member | rfl
        · obtain ⟨kept, isKept, same⟩ := inductionHypothesis free.1 item member
          exact ⟨kept, List.mem_append_left _ isKept, same⟩
        · exact ⟨item, List.mem_append_right _ (List.mem_singleton_self item), .inl rfl⟩

/-- Regular items are kept, or equal one that is. -/
theorem exists_equal_first {items : List Value} (free : ¬ Blocked items)
    (regular : ∀ item ∈ items, Regular item) :
    ∀ item ∈ items, ∃ kept ∈ firsts items, (kept == item) = true ∧ (item == kept) = true := by
  intro item member
  obtain ⟨kept, isKept, rfl | equal⟩ := exists_first free item member
  · have itself := same_refl (regular kept member)
    exact ⟨kept, isKept, itself, itself⟩
  · have isRegular := regular kept ((firsts_sublist items).subset isKept)
    exact ⟨kept, isKept, equal, same_symm isRegular equal⟩

/-- No kept item equals another one, in either order. -/
theorem firsts_distinct {items : List Value} (regular : ∀ item ∈ items, Regular item) :
    (firsts items).Pairwise fun first second =>
      (first == second) = false ∧ (second == first) = false := by
  refine (firsts_pairwise items).imp_of_mem fun {first second} _ isSecond unequal => ⟨unequal, ?_⟩
  rw [← Bool.not_eq_true]
  intro equal
  rw [beq_def, same_symm (regular second ((firsts_sublist items).subset isSecond)) equal] at unequal
  cases unequal

/-- It makes no difference whether all items are searched or only those that are kept. -/
theorem any_firsts {items : List Value} (free : ¬ Blocked items) (v : Value) :
    (firsts items).any (· == v) = items.any (· == v) := by
  rw [Bool.eq_iff_iff, List.any_eq_true, List.any_eq_true]
  constructor
  · rintro ⟨kept, member, equal⟩
    exact ⟨kept, (firsts_sublist items).subset member, equal⟩
  · rintro ⟨item, member, equal⟩
    obtain ⟨kept, isKept, rfl | same⟩ := exists_first free item member
    · exact ⟨kept, isKept, equal⟩
    · exact ⟨kept, isKept, equal_of_mem_firsts free isKept same equal⟩

/-- Of the items that equal a value, the first one is kept. -/
theorem mem_firsts_of_find? {items : List Value} (free : ¬ Blocked items) {v first : Value}
    (isFirst : items.find? (· == v) = some first) : first ∈ firsts items := by
  induction items using List.reverseRecOn with
  | nil => cases isFirst
  | append_singleton items item inductionHypothesis =>
      rw [blocked_append, not_or] at free
      rw [firsts_append]
      cases before : items.find? (· == v) with
      | some other =>
          rw [List.find?_append, before] at isFirst
          cases isFirst
          have isKept := inductionHypothesis free.1 before
          by_cases found : items.any (· == item) = true
          · rw [if_pos found]
            exact isKept
          · rw [if_neg found]
            exact List.mem_append_left _ isKept
      | none =>
          rw [List.find?_append, before, Option.none_or, List.find?_singleton] at isFirst
          by_cases equal : (item == v) = true
          · rw [if_pos equal] at isFirst
            have isItem := Option.some.inj isFirst
            subst isItem
            have notFound : ¬ items.any (· == item) = true := by
              rw [← any_firsts free.1, List.any_eq_true]
              rintro ⟨kept, isKept, same⟩
              have noneEqual :=
                List.find?_eq_none.mp before kept ((firsts_sublist items).subset isKept)
              exact noneEqual (equal_of_mem_firsts free.1 isKept same equal)
            rw [if_neg notFound]
            exact List.mem_append_right _ (List.mem_singleton_self item)
          · rw [if_neg equal] at isFirst
            cases isFirst

/-! ## Search among the kept items -/

/-- Nothing that is the same as a set differs from its frozen set. -/
theorem same_frozen (v w : Value) : same v w.frozen = same v w := by
  cases w with
  | set members =>
      cases v with
      | option o => cases o <;> rfl
      | either e => cases e <;> rfl
      | ternary t =>
          obtain ⟨condition, payload, call⟩ := t
          cases call <;> rfl
      | _ => rfl
  | _ => rfl

/-- A value with a hash is found among the kept items if any item equals it. -/
theorem isStored_firsts {items : List Value} (free : ¬ Blocked items) {v : Value}
    (hashable : v.isHashable = true) : v.isStored (firsts items) = items.any (· == v) := by
  rw [← any_firsts free, isStored, Bool.eq_iff_iff, List.any_eq_true, List.any_eq_true]
  constructor
  · rintro ⟨kept, member, found⟩
    rw [Bool.and_eq_true] at found
    exact ⟨kept, member, found.2⟩
  · rintro ⟨kept, member, equal⟩
    refine ⟨kept, member, ?_⟩
    rw [Bool.and_eq_true]
    exact ⟨hashesAgree_of_same equal (isHashable_of_mem_firsts free kept member) hashable, equal⟩

/-- An item that is not blocked is found if any item before it equals it. -/
theorem isInSet_firsts {items : List Value} (free : ¬ Blocked items) {item : Value}
    (hashable : item.frozen.isHashable = true) :
    item.isInSet (firsts items) = .ok (items.any (· == item)) := by
  obtain ⟨code, hashed⟩ := isHashable_iff.mp hashable
  have sameAny : items.any (· == item.frozen) = items.any (· == item) :=
    List.any_congr rfl fun other => same_frozen other item
  rw [isInSet, requireHash, hashed, isStored_firsts free hashable, sameAny]
  rfl

/-- An item with a hash is added to the kept ones unless an item before it equals it. -/
theorem addToSet_firsts {items : List Value} (free : ¬ Blocked items) {item : Value}
    (hashable : item.isHashable = true) :
    addToSet (firsts items) item = .ok (firsts (items ++ [item])) := by
  obtain ⟨code, hashed⟩ := isHashable_iff.mp hashable
  rw [addToSet, requireHash, hashed, isStored_firsts free hashable, firsts_append]
  rfl

theorem addToSet_of_not_isHashable (items : List Value) {item : Value}
    (noHash : item.isHashable = false) : ∃ kind, addToSet items item = .error kind := by
  unfold isHashable at noHash
  rw [addToSet, requireHash]
  cases hashed : item.hash with
  | error kind => exact ⟨kind, rfl⟩
  | ok code => simp [hashed] at noHash

/-- A value with a hash is not looked for in another form. -/
private theorem frozen_of_isHashable {v : Value} (hashable : v.isHashable = true) :
    v.frozen = v := by
  cases v with
  | set members => cases hashable
  | _ => rfl

/-- One step of keeping the first items: whatever is found is left out, and whatever is not found
is added, to the items that are searched as well as to those that are kept. -/
def keepFirst (state : List Value × List Value) (item : Value) :
    Except Kind (List Value × List Value) := do
  if ← item.isInSet state.1 then return state
  else return (← addToSet state.1 item, state.2 ++ [item])

private theorem keepFirst_of_not_blocks {items : List Value} (free : ¬ Blocked items) {item : Value}
    (passes : ¬ Blocks items item) :
    keepFirst (firsts items, firsts items) item =
      .ok (firsts (items ++ [item]), firsts (items ++ [item])) := by
  by_cases hashable : item.isHashable = true
  · have searched := isInSet_firsts free (frozen_of_isHashable hashable ▸ hashable)
    rw [keepFirst, searched, addToSet_firsts free hashable, firsts_append]
    by_cases found : items.any (· == item) = true
    · simp only [found]
      rfl
    · rw [Bool.eq_false_iff.mpr found]
      rfl
  · -- A set is only searched for, and it is found as the frozen set before it.
    have noHash := Bool.eq_false_iff.mpr hashable
    obtain ⟨members, others, rfl, member, equal⟩ :=
      Classical.byContradiction fun none => passes ⟨noHash, none⟩
    have found : items.any (· == Value.set members) = true :=
      List.any_eq_true.mpr ⟨_, member, equal⟩
    have searched : isInSet (.set members) (firsts items) = .ok (items.any (· == .set members)) :=
      isInSet_firsts free rfl
    rw [keepFirst, searched, firsts_append, found]
    rfl

/-- An item without a hash that is found is a set, and is found as a frozen set. -/
private theorem exists_frozenSet_of_isInSet {items : List Value} {item : Value}
    (noHash : item.isHashable = false) (found : item.isInSet items = .ok true) :
    ∃ members others, item = .set members ∧ .frozenSet others ∈ items ∧
      (Value.frozenSet others == item) = true := by
  obtain ⟨members, rfl⟩ : ∃ members, item = .set members := by
    cases item with
    | set members => exact ⟨members, rfl⟩
    | _ =>
        exfalso
        obtain ⟨_, required, -⟩ := bind_eq_ok found
        obtain ⟨code, hashed, -⟩ := bind_eq_ok required
        exact Bool.false_ne_true (noHash.symm.trans (isHashable_iff.mpr ⟨code, hashed⟩))
  obtain ⟨_, -, stored⟩ := bind_eq_ok found
  obtain ⟨other, member, same⟩ := List.any_eq_true.mp (Except.ok.inj stored)
  rw [Bool.and_eq_true] at same
  obtain ⟨code, hashed, -⟩ := hashesAgree_iff.mp same.1
  cases equals_of_same same.2 with
  | setFrozen count allFound => cases hashed
  | @frozen others _ count allFound =>
      refine ⟨members, others, rfl, member, ?_⟩
      exact (same_frozen (.frozenSet others) (.set members)).symm.trans same.2

private theorem keepFirst_of_blocks {items : List Value} {item : Value}
    (blocks : Blocks items item) :
    ∃ kind, keepFirst (firsts items, firsts items) item = .error kind := by
  obtain ⟨noHash, noFrozen⟩ := blocks
  obtain ⟨kind, refused⟩ := addToSet_of_not_isHashable (firsts items) noHash
  cases isInSet : item.isInSet (firsts items) with
  | error kind =>
      refine ⟨kind, ?_⟩
      rw [keepFirst, isInSet]
      rfl
  | ok found =>
      cases found with
      | false =>
          refine ⟨kind, ?_⟩
          rw [keepFirst, isInSet]
          show (do return (← addToSet (firsts items) item, firsts items ++ [item])) = _
          rw [refused]
          rfl
      | true =>
          obtain ⟨members, others, isSet, member, equal⟩ :=
            exists_frozenSet_of_isInSet noHash isInSet
          have earlier := (firsts_sublist items).subset member
          exact (noFrozen ⟨members, others, isSet, earlier, equal⟩).elim

/-! ## All items, one after the other -/

theorem foldlM_append_singleton [LawfulMonad m] {α σ : Type} (step : σ → α → m σ) (start : σ)
    (items : List α) (item : α) :
    (items ++ [item]).foldlM step start = (do step (← items.foldlM step start) item) := by
  simp [List.foldlM_append]

/-- Items none of which is blocked leave the first of each group of equal ones. -/
theorem foldlM_keepFirst {items : List Value} (free : ¬ Blocked items) :
    items.foldlM keepFirst ([], []) = .ok (firsts items, firsts items) := by
  induction items using List.reverseRecOn with
  | nil => rfl
  | append_singleton items item inductionHypothesis =>
      rw [blocked_append, not_or] at free
      rw [foldlM_append_singleton, inductionHypothesis free.1]
      exact keepFirst_of_not_blocks free.1 free.2

/-- The first item that is blocked ends the search. -/
theorem foldlM_keepFirst_of_blocked {items : List Value} (blocked : Blocked items) :
    ∃ kind, items.foldlM keepFirst ([], []) = .error kind := by
  induction items using List.reverseRecOn with
  | nil =>
      obtain ⟨earlier, item, later, split, -⟩ := blocked
      cases earlier <;> cases split
  | append_singleton items item inductionHypothesis =>
      rw [foldlM_append_singleton]
      by_cases before : Blocked items
      · obtain ⟨kind, ended⟩ := inductionHypothesis before
        exact ⟨kind, by rw [ended]; rfl⟩
      · obtain ⟨kind, ended⟩ :=
          keepFirst_of_blocks (((blocked_append items item).mp blocked).resolve_left before)
        refine ⟨kind, ?_⟩
        rw [foldlM_keepFirst before]
        exact ended

theorem not_blocked_of_isHashable {items : List Value}
    (hashable : ∀ item ∈ items, item.isHashable = true) : ¬ Blocked items := by
  rintro ⟨earlier, item, later, rfl, noHash, -⟩
  rw [hashable item (by simp)] at noHash
  cases noHash

/-- The set of items with hashes has the first of each group of equal ones. -/
theorem setOf_eq_firsts {items : List Value} (hashable : ∀ item ∈ items, item.isHashable = true) :
    setOf items = .ok (firsts items) := by
  induction items using List.reverseRecOn with
  | nil => rfl
  | append_singleton items item inductionHypothesis =>
      rw [List.forall_mem_append] at hashable
      have before := inductionHypothesis hashable.1
      unfold setOf at before ⊢
      rw [foldlM_append_singleton, before]
      exact addToSet_firsts (not_blocked_of_isHashable hashable.1)
        (hashable.2 item (List.mem_singleton_self item))

theorem setOf_of_not_isHashable {items : List Value} {item : Value} (member : item ∈ items)
    (noHash : item.isHashable = false) : ∃ kind, setOf items = .error kind := by
  obtain ⟨earlier, later, rfl⟩ := List.append_of_mem member
  unfold setOf
  rw [List.foldlM_append]
  cases List.foldlM addToSet [] earlier with
  | error kind => exact ⟨kind, rfl⟩
  | ok sofar =>
      obtain ⟨kind, refused⟩ := addToSet_of_not_isHashable sofar noHash
      refine ⟨kind, ?_⟩
      show List.foldlM addToSet sofar (item :: later) = _
      rw [List.foldlM_cons, refused]
      rfl

end Value

namespace Sequence

open Value

variable {m : Type → Type} [Monad m] [LawfulMonad m]

theorem ofHash_error_bind {α β : Type} (kind : Kind) (next : α → Attempt m β) :
    (Attempt.ofHash (.error kind) >>= next) = throw (.unhashable kind) := by
  show (throw (.unhashable kind) : Attempt m α) >>= next = throw (.unhashable kind)
  apply ExceptT.ext
  simp

theorem ofHash_bind {α β : Type} (first : Except Kind α) (next : α → Except Kind β) :
    (Attempt.ofHash (first >>= next) : Attempt m β) =
      (do Attempt.ofHash (next (← Attempt.ofHash first))) := by
  cases first with
  | error kind => exact (ofHash_error_bind kind _).symm
  | ok a =>
      show Attempt.ofHash (next a) = (pure a : Attempt m α) >>= fun a => Attempt.ofHash (next a)
      rw [pure_bind]

/-- A loop that asks for nothing but hashes. -/
theorem foldlM_ofHash {α σ : Type} (step : σ → α → Except Kind σ) (start : σ) (items : List α) :
    (items.foldlM (fun sofar item => Attempt.ofHash (step sofar item)) start : Attempt m σ) =
      Attempt.ofHash (items.foldlM step start) := by
  induction items generalizing start with
  | nil => rfl
  | cons item rest inductionHypothesis =>
      rw [List.foldlM_cons, List.foldlM_cons, ofHash_bind]
      apply bind_congr
      intro sofar
      exact inductionHypothesis sofar

private theorem ofHash_keepFirst (state : List Value × List Value) (item : Value) :
    (Attempt.ofHash (keepFirst state item) : Attempt m (List Value × List Value)) = (do
      if ← Attempt.ofHash (item.isInSet state.1) then return state
      else return (← Attempt.ofHash (addToSet state.1 item), state.2 ++ [item])) := by
  rw [keepFirst, ofHash_bind]
  apply bind_congr
  intro found
  cases found with
  | true => rfl
  | false => exact ofHash_bind _ _

theorem unique_eq (s : Sequence (List Value)) :
    (s.unique : Attempt m (Sequence (List Value))) = (do
      let state ← Attempt.ofHash (s.items.foldlM keepFirst ([], []))
      return ⟨state.2⟩) := by
  rw [unique, Feed.unique, feed, Feed.fold_ofList, ← foldlM_ofHash, bind_assoc]
  simp only [ofHash_keepFirst, pure_bind]

private theorem toSet_eq (s : Sequence (List Value)) :
    (s.toSet : Attempt m Value) = (do return .set (← Attempt.ofHash (setOf s.items))) := by
  rw [toSet, Feed.toSet, feed, Feed.fold_ofList, foldlM_ofHash]
  rfl

/-- A sequence of regular items without a blocked one is left with the items that no item before
them equals; one with a blocked item has no such sequence. What is left has no two equal items,
stands in for all items, each of which equals one that is left, with the first one of those that
equal an item, and is left as it is another time. The set of the items has the same ones. -/
theorem unique_eq_firsts (s : Sequence (List Value))
    (regular : ∀ item ∈ s.items, Regular item) :
    (¬ Blocked s.items → (s.unique : Attempt m _) = pure ⟨firsts s.items⟩) ∧
    (Blocked s.items → ∃ kind, (s.unique : Attempt m _) = throw (.unhashable kind)) ∧
    (firsts s.items).Sublist s.items ∧
    (firsts s.items).Pairwise (fun first second =>
      (first == second) = false ∧ (second == first) = false) ∧
    (¬ Blocked s.items → ∀ item ∈ s.items, ∃ kept ∈ firsts s.items,
      (kept == item) = true ∧ (item == kept) = true) ∧
    (¬ Blocked s.items → ∀ item ∈ s.items, ∀ first,
      s.items.find? (· == item) = some first → first ∈ firsts s.items) ∧
    (¬ Blocked s.items →
      (unique ⟨firsts s.items⟩ : Attempt m _) = pure ⟨firsts s.items⟩) ∧
    ((∀ item ∈ s.items, item.isHashable = true) →
      (s.toSet : Attempt m _) = pure (.set (firsts s.items))) ∧
    ((∃ item ∈ s.items, item.isHashable = false) →
      ∃ kind, (s.toSet : Attempt m _) = throw (.unhashable kind)) := by
  have keeps (t : Sequence (List Value)) (free : ¬ Blocked t.items) :
      (t.unique : Attempt m _) = pure ⟨firsts t.items⟩ := by
    rw [unique_eq, foldlM_keepFirst free]
    exact pure_bind _ _
  refine ⟨keeps s, ?_, firsts_sublist s.items, firsts_distinct regular,
    fun free => exists_equal_first free regular,
    fun free item _ first isFirst => mem_firsts_of_find? free isFirst, ?_, ?_, ?_⟩
  · intro blocked
    obtain ⟨kind, ended⟩ := foldlM_keepFirst_of_blocked blocked
    refine ⟨kind, ?_⟩
    rw [unique_eq, ended]
    exact ofHash_error_bind kind _
  · intro free
    have kept := keeps ⟨firsts s.items⟩ (not_blocked_of_isHashable (isHashable_of_mem_firsts free))
    rw [firsts_firsts] at kept
    exact kept
  · intro hashable
    rw [toSet_eq, setOf_eq_firsts hashable]
    exact pure_bind _ _
  · rintro ⟨item, member, noHash⟩
    obtain ⟨kind, ended⟩ := setOf_of_not_isHashable member noHash
    refine ⟨kind, ?_⟩
    rw [toSet_eq, ended]
    exact ofHash_error_bind kind _

/-- Numbers of different kinds are equal, and a set is found as the frozen set before it. -/
theorem unique_eq_firsts_mixed :
    (∀ item ∈ [Value.int 1, .bool true, .frozenSet [], .set []], Regular item) ∧
    ¬ Blocked [.int 1, .bool true, .frozenSet [], .set []] ∧
    (unique ⟨[.int 1, .bool true, .frozenSet [], .set []]⟩ : Attempt Id _) =
      pure ⟨[.int 1, .frozenSet []]⟩ := by
  have empty : Members [] := ⟨nofun, .nil⟩
  have regular : ∀ item ∈ [Value.int 1, .bool true, .frozenSet [], .set []], Regular item := by
    simpa using ⟨.scalar rfl, .scalar rfl, .frozenSet nofun empty, .set nofun empty⟩
  have free : ¬ Blocked [.int 1, .bool true, .frozenSet [], .set []] := by
    have start : ¬ Blocked [.int 1, .bool true, .frozenSet []] := by
      refine not_blocked_of_isHashable ?_
      simp only [List.forall_mem_cons]
      exact ⟨rfl, rfl, rfl, fun item member => (List.not_mem_nil member).elim⟩
    have appended := blocked_append [.int 1, .bool true, .frozenSet []] (.set [])
    rw [List.cons_append, List.cons_append, List.cons_append, List.nil_append] at appended
    rw [appended, not_or]
    exact ⟨start, fun blocks => blocks.2 ⟨[], [], rfl, by simp, rfl⟩⟩
  exact ⟨regular, free, (unique_eq_firsts (m := Id) ⟨_⟩ regular).1 free⟩

/-- What is not a number is kept, and equals nothing that is kept. -/
theorem unique_keeps_nan :
    (unique ⟨[.float .nan]⟩ : Attempt Id _) = pure ⟨[.float .nan]⟩ ∧
    ∃ item ∈ [Value.float .nan], ∀ kept ∈ [Value.float .nan], (kept == item) = false := by
  refine ⟨?_, .float .nan, List.mem_singleton_self _, ?_⟩
  · rw [unique_eq, foldlM_keepFirst]
    · exact pure_bind _ _
    · refine not_blocked_of_isHashable fun item member => ?_
      rw [List.mem_singleton.mp member]
      rfl
  · intro kept member
    rw [List.mem_singleton.mp member]
    rfl

end Sequence

end Presence
