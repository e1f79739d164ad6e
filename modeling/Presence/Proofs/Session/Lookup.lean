import Presence.Proofs.Session.Frames
import Presence.Proofs.Value.Dictionary
import Presence.Proofs.Session.ReadingBack
import Presence.Session.Sequences
import Presence.Session.Step

/-!
Contract: what a session finds in a dictionary.

Owns: a session looks a key up in a dictionary as if the keys were gone through one after the
other, and finds it where their sequence contains it (`lookup_by_equality`).

Does not own: equality and its laws (`Presence.Proofs.Value.Equivalence`), and what reading lists
back changes (`Presence.Proofs.Session.ReadingBack`).

Keys are observed before they are compared, which reads their lists back. A key has a hash, so
lists are only in those parts of it that equality leaves out.
-/

namespace Presence.Session

open Attempt Run Value

/-! ## Dictionaries as they are observed -/

/-- A dictionary is observed as one with similar keys, which have hashes too. -/
private theorem settled_dictionary (store : Store) {entries : List (Value × Value)}
    (hashable : ∀ entry ∈ entries, entry.1.isHashable = true) :
    ∃ seen, store.settled (.dictionary entries) = .dictionary seen ∧
      (∀ entry ∈ seen, entry.1.isHashable = true) ∧
      List.Forall₂ (fun entry other => Similar true entry.1 other.1) seen entries := by
  obtain ⟨rule, reads, same⟩ := exists_rule store
  refine ⟨Id.run (rebuildEntries rule entries), same _, ?_⟩
  clear same
  induction entries with
  | nil => exact ⟨fun entry member => absurd member List.not_mem_nil, .nil⟩
  | cons entry rest inductionHypothesis =>
      rw [List.forall_mem_cons] at hashable
      obtain ⟨code, hashed⟩ := isHashable_iff.mp hashable.1
      obtain ⟨restHashable, restAlike⟩ := inductionHypothesis hashable.2
      have isSeen : (Id.run (rebuild rule entry.1)).isHashable = true :=
        isHashable_iff.mpr ⟨code, (hash_rebuild reads entry.1).trans hashed⟩
      exact ⟨List.forall_mem_cons.mpr ⟨isSeen, restHashable⟩,
        .cons (similar_rebuild reads entry.1 hashed) restAlike⟩

/-- Similar values are found under the same key. -/
private theorem firstUnder_congr {key other : Value} (similar : Similar true key other)
    (entries : List (Value × Value)) : firstUnder key entries = firstUnder other entries := by
  have sameTest : (fun entry : Value × Value => entry.1 == key) = fun entry => entry.1 == other :=
    funext fun entry => same_similar entry.1 (Value.Similar.refl entry.1) similar
  rw [firstUnder, firstUnder, sameTest]

/-- Similar keys hold the same values. -/
private theorem isSome_firstUnder_congr (key : Value) {seen entries : List (Value × Value)}
    (alike : List.Forall₂ (fun entry other => Similar true entry.1 other.1) seen entries) :
    (firstUnder key seen).isSome = (firstUnder key entries).isSome := by
  have found := find?_rel_of_forall₂ alike fun entry other similar =>
    same_similar entry.1 similar (Value.Similar.refl key)
  unfold firstUnder
  generalize seen.find? _ = one, entries.find? _ = two at found ⊢
  cases found <;> rfl

private theorem lookupIn_dictionary (entries : List (Value × Value)) (key kind : Value) :
    lookupIn (.dictionary entries) key kind = (do
      if ← Run.holds (.dictionary entries) key then
        return .ok (← Run.lift ((Value.dictionary entries).item (← observe key)))
      else return .notOk kind) := by
  simp only [lookupIn, look, pure_bind]

private theorem ofParts_dictionary (call : Caller) (entries : List (Value × Value)) :
    performSequence call .ofParts [.dictionary entries] =
      pure (sequence (entries.map Prod.fst)) := by
  show (do return sequence (← (Feed.ofList (entries.map Prod.fst)).toList)) = _
  rw [Feed.toList_ofList, pure_bind]

theorem contains_sequence (call : Caller) (items : List Value) (target : Value) :
    performSequence call .contains [sequence items, target] =
      (do return .bool (← Run.holds (.tuple items) target)) := by
  simp only [performSequence, sequence, ofSequence, containerOf, pure_bind]

section Dictionaries

variable {entries : List (Value × Value)} (members : Members (entries.map Prod.fst))
  {key : Value}

include members

/-- What a session looks up in a dictionary is what the dictionary has there. -/
private theorem runFrom_lookupIn (kind : Value) (world : World) :
    (lookupIn (.dictionary entries) key kind).runFrom world =
      (lookup (.dictionary entries) key kind, world) := by
  have hashable : ∀ entry ∈ entries, entry.1.isHashable = true := fun entry member =>
    members.hashable entry.1 (List.mem_map_of_mem member)
  obtain ⟨seen, observed, seenHashable, alike⟩ :=
    settled_dictionary world.store hashable
  have searched : (Run.holds (.dictionary entries) key).runFrom world =
      ((Value.dictionary seen).holds (world.store.settled key), world) := by
    rw [runFrom_holds key world rfl, observed]
  rw [holds_dictionary seenHashable, hash_settled] at searched
  rw [lookup_dictionary hashable, lookupIn_dictionary]
  cases hashed : key.hash with
  | error unhashable =>
      rw [hashed] at searched
      exact runFrom_bind_of_error _ searched
  | ok code =>
      have similar := similar_settled world.store (isHashable_iff.mpr ⟨code, hashed⟩)
      -- What stands there is taken from the dictionary itself, by the key as it is observed.
      have taken := item_dictionary hashable (world.store.settled key)
      rw [hash_settled, hashed, firstUnder_congr similar] at taken
      rw [hashed, isSome_firstUnder_congr _ alike, firstUnder_congr similar] at searched
      rw [runFrom_bind_of_ok _ searched]
      cases found : firstUnder key entries with
      | none => rfl
      | some entry =>
          rw [found] at taken
          rw [if_pos (Option.isSome_some), runFrom_bind_of_ok _ (runFrom_observe key world), taken]
          rfl

/-- The sequence of the keys of a dictionary contains what equals one of the keys. -/
theorem runFrom_contains (hashable : key.isHashable = true) (call : Caller) (world : World) :
    (performSequence call .ofParts [.dictionary entries] >>= fun keys =>
      performSequence call .contains [keys, key]).runFrom world =
        (.ok (.bool (key.isAmong (entries.map Prod.fst))), world) := by
  have similar := similar_settled world.store hashable
  obtain ⟨rule, reads, same⟩ := exists_rule world.store
  have alike := forall₂_of_members (similarMembers_rebuild reads (entries.map Prod.fst))
    members.hashable
  have sameAnswer : (world.store.settled key).isAmong
      (Id.run (rebuildItems rule (entries.map Prod.fst))) =
        key.isAmong (entries.map Prod.fst) :=
    any_eq_of_forall₂ alike fun item item' similarItem => same_similar item similarItem similar
  have observed : world.store.settled (.tuple (entries.map Prod.fst)) =
      .tuple (Id.run (rebuildItems rule (entries.map Prod.fst))) := same _
  have held : (Run.holds (.tuple (entries.map Prod.fst)) key).runFrom world =
      ((Value.tuple (Id.run (rebuildItems rule (entries.map Prod.fst)))).holds
        (world.store.settled key), world) := by
    rw [runFrom_holds key world rfl, observed]
  rw [ofParts_dictionary, pure_bind, contains_sequence, runFrom_bind_of_ok _ held, ← sameAnswer]
  rfl

end Dictionaries

/-- Looking up a key in a dictionary: what the session gives is there if the key is among the keys
of the dictionary, is what stands under any of them that equals it, and is refused to a key without
a hash. -/
theorem runFrom_lookup {entries : List (Value × Value)} (whole : Regular (.dictionary entries))
    (key kind : Value) (world : World) :
    (key.isHashable = true → ∃ found,
      (lookupIn (.dictionary entries) key kind).runFrom world = (.ok found, world) ∧
      found.isOk = key.isAmong (entries.map Prod.fst) ∧
      ∀ entry ∈ entries, (entry.1 == key) = true → found = .ok entry.2) ∧
    (key.isHashable = false → ∃ unhashable,
      (lookupIn (.dictionary entries) key kind).runFrom world =
        (.error (.unhashable unhashable), world)) := by
  cases whole with
  | dictionary keys each members =>
      have hashable : ∀ entry ∈ entries, entry.1.isHashable = true := fun entry member =>
        members.hashable entry.1 (List.mem_map_of_mem member)
      rw [runFrom_lookupIn members, lookup_dictionary hashable]
      constructor
      · intro isHashable
        obtain ⟨code, hashed⟩ := isHashable_iff.mp isHashable
        rw [hashed]
        refine ⟨_, rfl, ?_, ?_⟩
        · rw [← isSome_firstUnder]
          cases firstUnder key entries <;> rfl
        · intro entry member equal
          rw [firstUnder_eq members keys member equal]
          rfl
      · intro noHash
        cases hashed : key.hash with
        | error unhashable => exact ⟨unhashable, rfl⟩
        | ok code =>
            rw [isHashable_iff.mpr ⟨code, hashed⟩] at noHash
            cases noHash

/-! ## Equality and search -/

/-- Equality is an equivalence on regular values and respects hashes, and sets and dictionaries of
regular values are regular. Therefore a key with a hash is found in a dictionary exactly if one of
its keys equals it, which is when the sequence of its keys contains it, and what is found is what
stands there; a key is of the wrong type exactly if it has no hash. -/
theorem lookup_by_equality :
    (∀ v : Value, Regular v → (v == v) = true) ∧
    (∀ v w : Value, Regular v → (v == w) = true → (w == v) = true) ∧
    (∀ v w u : Value, Regular v → Regular u → (v == w) = true → (w == u) = true → (v == u) = true) ∧
    (∀ v w : Value, (v == w) = true → v.isHashable = true → w.isHashable = true → v.hash = w.hash) ∧
    (∀ items kept : List Value, (∀ item ∈ items, Regular item) → Value.setOf items = .ok kept →
      Regular (.set kept) ∧ Regular (.frozenSet kept)) ∧
    (∀ entries made : List (Value × Value), (∀ entry ∈ entries, Regular entry.1 ∧ Regular entry.2) →
      dictionaryOf entries = .ok made → Regular (.dictionary made)) ∧
    ∀ (call : Caller) (entries : List (Value × Value)) (key kind : Value) (world : World),
      Regular (.dictionary entries) → Regular key →
      ∀ arguments ∈ [[.dictionary entries, key], [.dictionary entries, key, kind]],
        (key.isHashable = true → ∃ found,
          (performOption call .lookup arguments).runFrom world = (.ok (.option found), world) ∧
          (performSequence call .ofParts [.dictionary entries] >>= fun keys =>
            performSequence call .contains [keys, key]).runFrom world =
              (.ok (.bool found.isOk), world) ∧
          (found.isOk = true ↔ ∃ entry ∈ entries, (entry.1 == key) = true) ∧
          ∀ entry ∈ entries, (entry.1 == key) = true → found = .ok entry.2) ∧
        ((∃ fault, (performOption call .lookup arguments).runFrom world = (.error fault, world) ∧
          fault.kind = .type) ↔ key.isHashable = false) := by
  refine ⟨fun v regular => same_refl regular, fun v w regular => same_symm regular,
    fun v w u regular last => same_through regular last, ?_,
    fun items kept each made => regular_setOf each made, ?_, ?_⟩
  · intro v w equal hashV hashW
    obtain ⟨code, hashed, hashed'⟩ :=
      hashesAgree_iff.mp (hashesAgree_of_same equal hashV hashW)
    rw [hashed, hashed']
  · intro entries made each isMade
    exact regular_dictionaryOf (fun entry member => (each entry member).1)
      (fun entry member => (each entry member).2) isMade
  · intro call entries key kind world whole regular arguments isCall
    have performed : ∃ kind, performOption call .lookup arguments =
        (do return .option (← lookupIn (.dictionary entries) key kind)) := by
      rcases List.mem_pair.mp isCall with rfl | rfl
      · exact ⟨.null, rfl⟩
      · exact ⟨kind, rfl⟩
    obtain ⟨kind, performed⟩ := performed
    obtain ⟨searched, refused⟩ := runFrom_lookup whole key kind world
    rw [performed]
    constructor
    · intro hashable
      obtain ⟨found, ended, isOk, stored⟩ := searched hashable
      refine ⟨found, runFrom_bind_of_ok _ ended, ?_, ?_, stored⟩
      · cases whole with
        | dictionary keys each members =>
            rw [runFrom_contains members hashable, isOk]
      · rw [isOk, isAmong, List.any_map, List.any_eq_true]
        rfl
    · constructor
      · rintro ⟨fault, ended, -⟩
        by_contra hashable
        obtain ⟨found, ended', -⟩ := searched (Bool.not_eq_false _ ▸ hashable)
        rw [runFrom_bind_of_ok _ ended'] at ended
        cases ended
      · intro noHash
        obtain ⟨unhashable, ended⟩ := refused noHash
        exact ⟨_, runFrom_bind_of_error _ ended, rfl⟩

/-- Entries whose keys have an absent payload, a truth value and a set in them. -/
def mixedEntries : List (Value × Value) :=
  [(.tuple [.option (.notOk (.ofKind .int)), .bool true], .text "first"),
    (.frozenSet [.int 2], .list [.text "second"])]

/-- A key is found by one that equals it: kinds are left out, and one is a truth value too. -/
theorem lookup_by_equality_mixed :
    Regular (.dictionary mixedEntries) ∧
    (performOption call .lookup
      [.dictionary mixedEntries, .tuple [.option (.notOk .null), .int 1]]).runFrom
        (.start ⟨[]⟩ ⟨2024, 2, 29, 1, 2, 3, 0⟩) =
      (.ok (.option (.ok (.text "first"))), .start ⟨[]⟩ ⟨2024, 2, 29, 1, 2, 3, 0⟩) := by
  have first : Regular (.tuple [.option (.notOk (.ofKind .int)), .bool true]) :=
    .tuple (by simpa using ⟨.notOk _, .scalar rfl⟩)
  have second : Regular (.frozenSet [.int 2]) :=
    .frozenSet (by simpa using .scalar rfl) ⟨by simp; rfl, List.pairwise_singleton _ _⟩
  have members : Members (mixedEntries.map Prod.fst) :=
    ⟨by simp [mixedEntries]; decide, by simp [mixedEntries]; decide⟩
  have whole : Regular (.dictionary mixedEntries) := by
    refine .dictionary ?_ ?_ members
    · simpa [mixedEntries] using ⟨first, second⟩
    · simpa [mixedEntries] using ⟨.scalar rfl, .list (by simpa using .scalar rfl)⟩
  have regular : Regular (.tuple [.option (.notOk .null), .int 1]) :=
    .tuple (by simpa using ⟨.notOk _, .scalar rfl⟩)
  obtain ⟨-, -, -, -, -, -, searched⟩ := lookup_by_equality
  obtain ⟨found, ended, -, -, stored⟩ :=
    (searched call mixedEntries _ .null (.start ⟨[]⟩ ⟨2024, 2, 29, 1, 2, 3, 0⟩) whole regular _
      List.mem_cons_self).1 rfl
  refine ⟨whole, ?_⟩
  rw [ended, stored _ List.mem_cons_self rfl]

end Presence.Session
