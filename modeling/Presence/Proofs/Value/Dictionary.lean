import Presence.Proofs.Sequence.Distinct
import Presence.Proofs.Value.Equivalence
import Presence.Value.Items

/-!
Contract: what sets and dictionaries hold when they are made, and what is found in a dictionary.

Owns: the keys of a dictionary are the items of a set (`keys_dictionaryOf`); sets and dictionaries
that are made of regular values are regular (`regular_setOf`, `regular_dictionaryOf`); a dictionary
is searched as if its keys were gone through one after the other (`lookup_dictionary`).

Does not own: equality and its laws (`Presence.Proofs.Value.Equivalence`), and what a session looks
up (`Presence.Proofs.Session.Lookup`).
-/

namespace Presence.Value

/-! ## Keys -/

/-- Putting a value under a key adds the key to the keys as to a set. -/
private theorem keys_putStored (key v : Value) (entries : List (Value × Value)) :
    (putStored key v entries).map Prod.fst =
      if key.isStored (entries.map Prod.fst) then entries.map Prod.fst
      else entries.map Prod.fst ++ [key] := by
  induction entries with
  | nil => rfl
  | cons entry rest inductionHypothesis =>
      rw [putStored, List.map_cons, isStored, List.any_cons]
      by_cases found : (hashesAgree entry.1 key && entry.1 == key) = true
      · rw [if_pos found, found, Bool.true_or, if_pos rfl, List.map_cons]
      · rw [if_neg found, Bool.eq_false_iff.mpr found, Bool.false_or, List.map_cons,
          inductionHypothesis]
        exact apply_ite (entry.1 :: ·) _ _ _

private theorem keys_putUnder (entries : List (Value × Value)) (key v : Value) :
    List.map Prod.fst <$> putUnder entries key v = addToSet (entries.map Prod.fst) key := by
  rw [putUnder, addToSet, map_bind]
  refine bind_congr fun _ => ?_
  rw [map_pure, keys_putStored]

/-- The keys of a dictionary are the items of the set made from the keys of its entries. -/
theorem keys_dictionaryOf (entries : List (Value × Value)) :
    List.map Prod.fst <$> dictionaryOf entries = setOf (entries.map Prod.fst) := by
  have goesOn (start : List (Value × Value)) :
      List.map Prod.fst <$>
          entries.foldlM (fun sofar entry => putUnder sofar entry.1 entry.2) start =
        (entries.map Prod.fst).foldlM addToSet (start.map Prod.fst) := by
    induction entries generalizing start with
    | nil => rfl
    | cons entry rest inductionHypothesis =>
        rw [List.foldlM_cons, List.map_cons, List.foldlM_cons, map_bind, ← keys_putUnder start _
          entry.2, bind_map_left]
        exact bind_congr fun sofar => inductionHypothesis sofar
  exact goesOn []

/-! ## What is made is regular -/

/-- A set that is made has the first of each group of equal items. -/
theorem eq_firsts_of_setOf {items kept : List Value} (made : setOf items = .ok kept) :
    kept = firsts items ∧ ∀ item ∈ items, item.isHashable = true := by
  have hashable : ∀ item ∈ items, item.isHashable = true := by
    intro item member
    by_contra noHash
    obtain ⟨kind, refused⟩ := setOf_of_not_isHashable member (Bool.eq_false_iff.mpr noHash)
    rw [refused] at made
    cases made
  rw [setOf_eq_firsts hashable] at made
  exact ⟨(Except.ok.inj made).symm, hashable⟩

/-- A set that is made holds what a set can hold. -/
theorem members_setOf {items kept : List Value} (made : setOf items = .ok kept) :
    Members kept := by
  obtain ⟨rfl, hashable⟩ := eq_firsts_of_setOf made
  exact ⟨fun item member => hashable item ((firsts_sublist items).subset member),
    firsts_pairwise items⟩

theorem regular_setOf {items kept : List Value} (each : ∀ item ∈ items, Regular item)
    (made : setOf items = .ok kept) : Regular (.set kept) ∧ Regular (.frozenSet kept) := by
  have regular : ∀ item ∈ kept, Regular item := by
    obtain ⟨rfl, -⟩ := eq_firsts_of_setOf made
    exact fun item member => each item ((firsts_sublist items).subset member)
  exact ⟨.set regular (members_setOf made), .frozenSet regular (members_setOf made)⟩

private theorem value_of_mem_putStored {key v : Value} {entries : List (Value × Value)}
    {entry : Value × Value} (member : entry ∈ putStored key v entries) :
    entry.2 = v ∨ ∃ other ∈ entries, other.2 = entry.2 := by
  induction entries with
  | nil =>
      rw [putStored, List.mem_singleton] at member
      exact .inl (congrArg Prod.snd member)
  | cons first rest inductionHypothesis =>
      rw [putStored] at member
      split at member
      · rcases List.mem_cons.mp member with rfl | member
        · exact .inl rfl
        · exact .inr ⟨entry, List.mem_cons_of_mem _ member, rfl⟩
      · rcases List.mem_cons.mp member with rfl | member
        · exact .inr ⟨entry, List.mem_cons_self, rfl⟩
        · rcases inductionHypothesis member with isNew | ⟨other, isOld, same⟩
          · exact .inl isNew
          · exact .inr ⟨other, List.mem_cons_of_mem _ isOld, same⟩

/-- Under the keys of a dictionary that is made stand values of the entries it is made of. -/
private theorem values_dictionaryOf {P : Value → Prop} {entries made : List (Value × Value)}
    (each : ∀ entry ∈ entries, P entry.2) (isMade : dictionaryOf entries = .ok made) :
    ∀ entry ∈ made, P entry.2 := by
  have goesOn (start : List (Value × Value)) (before : ∀ entry ∈ start, P entry.2)
      (ended : entries.foldlM (fun sofar entry => putUnder sofar entry.1 entry.2) start =
        Except.ok made) : ∀ entry ∈ made, P entry.2 := by
    clear isMade
    induction entries generalizing start with
    | nil =>
        cases ended
        exact before
    | cons entry rest inductionHypothesis =>
        rw [List.forall_mem_cons] at each
        obtain ⟨sofar, put, ended⟩ := bind_eq_ok ended
        obtain ⟨_, -, stored⟩ := bind_eq_ok put
        cases stored
        refine inductionHypothesis each.2 _ ?_ ended
        intro stored member
        rcases value_of_mem_putStored member with isNew | ⟨other, isOld, same⟩
        · rw [isNew]
          exact each.1
        · rw [← same]
          exact before other isOld
  exact goesOn [] (fun _ member => absurd member List.not_mem_nil) isMade

theorem regular_dictionaryOf {entries made : List (Value × Value)}
    (keys : ∀ entry ∈ entries, Regular entry.1) (each : ∀ entry ∈ entries, Regular entry.2)
    (isMade : dictionaryOf entries = .ok made) : Regular (.dictionary made) := by
  have ofKeys := keys_dictionaryOf entries
  rw [isMade] at ofKeys
  have isSet : setOf (entries.map Prod.fst) = .ok (made.map Prod.fst) := ofKeys.symm
  obtain ⟨areFirsts, -⟩ := eq_firsts_of_setOf isSet
  refine .dictionary ?_ (values_dictionaryOf each isMade) (members_setOf isSet)
  intro entry member
  have isKey : entry.1 ∈ made.map Prod.fst := List.mem_map_of_mem member
  rw [areFirsts] at isKey
  obtain ⟨other, isOther, same⟩ :=
    List.mem_map.mp ((firsts_sublist (entries.map Prod.fst)).subset isKey)
  rw [← same]
  exact keys other isOther

/-! ## What is found -/

/-- The first entry whose key equals a value. -/
def firstUnder (key : Value) (entries : List (Value × Value)) : Option (Value × Value) :=
  entries.find? fun entry => entry.1 == key

theorem isSome_firstUnder (key : Value) (entries : List (Value × Value)) :
    (firstUnder key entries).isSome = key.isAmong (entries.map Prod.fst) := by
  rw [firstUnder, isAmong, List.any_map, Bool.eq_iff_iff, List.find?_isSome, List.any_eq_true]
  rfl

/-- Nothing is missed by searching for the hash first. -/
theorem findStored?_eq {key : Value} (hashable : key.isHashable = true)
    {entries : List (Value × Value)} (keys : ∀ entry ∈ entries, entry.1.isHashable = true) :
    findStored? key entries = (firstUnder key entries).map Prod.snd := by
  unfold findStored? firstUnder
  induction entries with
  | nil => rfl
  | cons entry rest inductionHypothesis =>
      rw [List.forall_mem_cons] at keys
      have sameTest : (hashesAgree entry.1 key && entry.1 == key) = (entry.1 == key) := by
        cases equal : entry.1 == key with
        | false => rw [Bool.and_false]
        | true => rw [hashesAgree_of_same equal keys.1 hashable, Bool.and_true]
      rw [List.find?_cons, List.find?_cons, sameTest]
      cases entry.1 == key with
      | true => rfl
      | false => exact inductionHypothesis keys.2

section Found

variable {entries : List (Value × Value)}
  (keys : ∀ entry ∈ entries, entry.1.isHashable = true) (key : Value)

include keys

/-- A dictionary holds what equals one of its keys; it is not searched for what has no hash. -/
theorem holds_dictionary :
    (Value.dictionary entries).holds key =
      match key.hash with
      | .error unhashable => .error (.unhashable unhashable)
      | .ok _ => .ok (firstUnder key entries).isSome := by
  cases hashed : key.hash with
  | error unhashable =>
      simp only [holds, findUnder?, requireHash, hashed]
      rfl
  | ok code =>
      have found := findStored?_eq (isHashable_iff.mpr ⟨code, hashed⟩) keys
      simp only [holds, findUnder?, requireHash, hashed, found]
      cases firstUnder key entries <;> rfl

theorem item_dictionary :
    (Value.dictionary entries).item key =
      match key.hash with
      | .error unhashable => .error (.unhashable unhashable)
      | .ok _ => (firstUnder key entries).elim (.error (.missingKey key)) fun entry =>
          .ok entry.2 := by
  cases hashed : key.hash with
  | error unhashable =>
      simp only [item, findUnder?, requireHash, hashed]
      rfl
  | ok code =>
      have found := findStored?_eq (isHashable_iff.mpr ⟨code, hashed⟩) keys
      simp only [item, findUnder?, requireHash, hashed, found]
      cases firstUnder key entries <;> rfl

/-- What is looked up in a dictionary stands under the first key that equals the one looked for;
one without a hash is refused. -/
theorem lookup_dictionary (kind : Value) :
    lookup (.dictionary entries) key kind =
      match key.hash with
      | .error unhashable => .error (.unhashable unhashable)
      | .ok _ => .ok ((firstUnder key entries).elim (.notOk kind) fun entry => .ok entry.2) := by
  simp only [lookup, holds_dictionary keys, item_dictionary keys]
  cases key.hash with
  | error unhashable => rfl
  | ok code => cases firstUnder key entries <;> rfl

end Found

/-- What is found first is found under every key that equals the one looked for, since no two keys
equal each other. -/
theorem firstUnder_eq {entries : List (Value × Value)} (members : Members (entries.map Prod.fst))
    (keys : ∀ entry ∈ entries, Regular entry.1) {key : Value} {entry : Value × Value}
    (member : entry ∈ entries) (equal : (entry.1 == key) = true) :
    firstUnder key entries = some entry := by
  refine find?_eq_some_of_only member equal ?_
  intro other isMember equal'
  obtain ⟨code, hashed⟩ :=
    isHashable_iff.mp (members.hashable other.1 (List.mem_map_of_mem isMember))
  obtain ⟨code', hashed'⟩ :=
    isHashable_iff.mp (members.hashable entry.1 (List.mem_map_of_mem member))
  exact members.eq_of_same isMember member
    (same_trans other.1 hashed equal' (same_symm (keys entry member) equal))
    (same_trans entry.1 hashed' equal (same_symm (keys other isMember) equal'))

end Presence.Value
