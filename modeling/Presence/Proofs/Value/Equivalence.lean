import Mathlib.Data.Fintype.EquivFin
import Mathlib.Data.List.Pairwise
import Presence.Proofs.Value.Equality

/-!
Contract: equality of values is an equivalence, as long as nothing in them is no number.

Owns: `Value.Sound`, the values whose sets and dictionaries are as they are made, on which equality
is symmetric (`Sound.same_symm`), and `Value.Regular`, those of them in which nothing is no number,
on which it is an equivalence (`same_refl`, `same_symm`, `same_through`).

Does not own: equality case by case, and hashes (`Presence.Proofs.Value.Equality`), and how regular
sets and dictionaries are made (`Presence.Proofs.Value.Dictionary`).

Equality of sets and dictionaries looks for each part of the first one in the second one only. That
none of the second one is left over is a matter of counting: no two parts of the first one find the
same part, since they are not equal to each other.
-/

namespace Presence

/-! ## Counting -/

section Counting

variable {α β : Type} {R : α → β → Prop} {xs : List α} {ys : List β}

/-- If each of as many items has its counterpart, and no two have the same one, then no counterpart
is left over. -/
theorem exists_counterpart (count : xs.length = ys.length)
    (found : ∀ x ∈ xs, ∃ y ∈ ys, R x y)
    (distinct : xs.Pairwise fun x x' => ∀ y, R x y → ¬ R x' y) :
    ∀ y ∈ ys, ∃ x ∈ xs, R x y := by
  have placed : ∀ i : Fin xs.length, ∃ j : Fin ys.length, R xs[i] ys[j] := by
    intro i
    obtain ⟨y, member, related⟩ := found xs[i] (List.getElem_mem i.isLt)
    obtain ⟨place, inside, rfl⟩ := List.mem_iff_getElem.mp member
    exact ⟨⟨place, inside⟩, related⟩
  choose counterpart related using placed
  -- Two items cannot have one counterpart, so that there are as many counterparts as items.
  have injective : Function.Injective counterpart := by
    intro i j same
    by_contra differ
    have relatedJ := related j
    rw [← same] at relatedJ
    rcases lt_or_gt_of_ne differ with before | after
    · exact List.pairwise_iff_getElem.mp distinct i j i.isLt j.isLt before _ (related i) relatedJ
    · exact List.pairwise_iff_getElem.mp distinct j i j.isLt i.isLt after _ relatedJ (related i)
  have cards : Fintype.card (Fin xs.length) = Fintype.card (Fin ys.length) := by
    rw [Fintype.card_fin, Fintype.card_fin, count]
  have surjective := ((Fintype.bijective_iff_injective_and_card counterpart).mpr
    ⟨injective, cards⟩).surjective
  intro y member
  obtain ⟨place, inside, rfl⟩ := List.mem_iff_getElem.mp member
  obtain ⟨i, isPlace⟩ := surjective ⟨place, inside⟩
  have there := related i
  rw [isPlace] at there
  exact ⟨xs[i], List.getElem_mem i.isLt, there⟩

/-- A search finds the only item that passes. -/
theorem find?_eq_some_of_only {p : α → Bool} {x : α} (member : x ∈ xs) (passes : p x = true)
    (only : ∀ y ∈ xs, p y = true → y = x) : xs.find? p = some x := by
  cases found : xs.find? p with
  | none => exact absurd passes (List.find?_eq_none.mp found x member)
  | some y => rw [only y (List.mem_of_find?_eq_some found) (List.find?_some found)]

end Counting

/-! ## Scalars -/

private theorem Extended.same_self {number : Extended} (isNumber : number ≠ .nan) :
    number.same number = true := by
  cases number <;> simp_all [Extended.same]

private theorem Binary64.exact_ne_nan {x : Binary64} (isNumber : x ≠ .nan) : x.exact ≠ .nan := by
  cases x <;> simp_all [Binary64.exact]

namespace Scalar

/-- Whether a scalar, or a part of it, is no number. -/
def hasNan : Scalar → Bool
  | .float x => x == .nan
  | .complex re im => re == .nan || im == .nan
  | _ => false

private theorem same_self {s : Scalar} (definite : s.hasNan = false) : s.same s = true := by
  have nought : (Extended.finite 0).same (.finite 0) = true := Extended.same_self nofun
  have whole (n : Int) : (Extended.ofInt n).same (.ofInt n) = true := Extended.same_self nofun
  cases s with
  | float x =>
      have isNumber : x ≠ .nan := by simpa [hasNan] using definite
      simp only [same, number?, Extended.same_self (Binary64.exact_ne_nan isNumber), nought,
        Bool.and_self]
  | complex re im =>
      have areNumbers : re ≠ .nan ∧ im ≠ .nan := by simpa [hasNan] using definite
      simp only [same, number?, Extended.same_self (Binary64.exact_ne_nan areNumbers.1),
        Extended.same_self (Binary64.exact_ne_nan areNumbers.2), Bool.and_self]
  | bool b => simp only [same, number?, whole, nought, Bool.and_self]
  | int n => simp only [same, number?, whole, nought, Bool.and_self]
  | null | text | bytes | byteArray | kind | handle => simp [same, number?, octets?]

theorem same_symm {a b : Scalar} (equal : a.same b = true) : b.same a = true := by
  obtain ⟨re, im, numberA, numberB, sameRe, sameIm⟩ | ⟨numberA, numberB, octets, isA, isB⟩ |
    ⟨-, -, rfl⟩ := same_cases equal
  · simp only [same, numberA, numberB, sameRe, sameIm, Bool.and_self]
  · simp only [same, numberA, numberB, isA, isB, beq_self_eq_true]
  · exact equal

theorem same_comm (a b : Scalar) : a.same b = b.same a :=
  Bool.eq_iff_iff.mpr ⟨same_symm, same_symm⟩

end Scalar

namespace Value

/-! ## Regular values -/

/-- Values as a set or the keys of a dictionary hold them: each has a hash, and no two are equal. -/
structure Members (items : List Value) : Prop where
  hashable : ∀ item ∈ items, item.isHashable = true
  distinct : items.Pairwise fun first second => same first second = false

/-- The values whose sets and dictionaries hold what such can hold, as far as equality looks at
them. -/
inductive Sound : Value → Prop where
  | scalar (s : Scalar) : Sound (.scalar s)
  | list {items : List Value} (each : ∀ item ∈ items, Sound item) : Sound (.list items)
  | tuple {items : List Value} (each : ∀ item ∈ items, Sound item) : Sound (.tuple items)
  | set {items : List Value} (each : ∀ item ∈ items, Sound item) (members : Members items) :
      Sound (.set items)
  | frozenSet {items : List Value} (each : ∀ item ∈ items, Sound item) (members : Members items) :
      Sound (.frozenSet items)
  | dictionary {entries : List (Value × Value)} (keys : ∀ entry ∈ entries, Sound entry.1)
      (each : ∀ entry ∈ entries, Sound entry.2) (members : Members (entries.map Prod.fst)) :
      Sound (.dictionary entries)
  | ok {v : Value} (payload : Sound v) : Sound (.option (.ok v))
  | notOk (kind : Value) : Sound (.option (.notOk kind))
  | left {v : Value} (kind : Value) (payload : Sound v) : Sound (.either (.left v kind))
  | right {v : Value} (kind : Value) (payload : Sound v) : Sound (.either (.right v kind))
  | pair {v w : Value} (first : Sound v) (second : Sound w) : Sound (.pair ⟨v, w⟩)
  | sequence {items : Value} (container : Sound items) : Sound (.sequence ⟨items⟩)
  | managed (holder : Holder) {v : Value} (basic : Sound v) : Sound (.managed ⟨holder, v⟩)
  | guarded {v : Value} (payload : Sound v) : Sound (.guarded ⟨v⟩)
  | deferred {f : Value} (run : Sound f) : Sound (.deferred ⟨f⟩)
  | ternary {c v : Value} (condition : Sound c) (payload : Sound v) : Sound (.ternary ⟨c, v, none⟩)
  | ternaryCall {c v f : Value} (condition : Sound c) (payload : Sound v) (call : Sound f) :
      Sound (.ternary ⟨c, v, some f⟩)
  | parseError {v reason n : Value} (input : Sound v) (why : Sound reason) (fallback : Sound n) :
      Sound (.parseError ⟨v, reason, n⟩)
  | thrown (t : Thrown Value) : Sound (.thrown t)
  | client (c : Client Value Value) : Sound (.client c)

/-- The values in which nothing is no number, as far as equality looks at them, and whose sets and
dictionaries hold what such can hold. -/
inductive Regular : Value → Prop where
  | scalar {s : Scalar} (definite : s.hasNan = false) : Regular (.scalar s)
  | list {items : List Value} (each : ∀ item ∈ items, Regular item) : Regular (.list items)
  | tuple {items : List Value} (each : ∀ item ∈ items, Regular item) : Regular (.tuple items)
  | set {items : List Value} (each : ∀ item ∈ items, Regular item) (members : Members items) :
      Regular (.set items)
  | frozenSet {items : List Value} (each : ∀ item ∈ items, Regular item)
      (members : Members items) : Regular (.frozenSet items)
  | dictionary {entries : List (Value × Value)} (keys : ∀ entry ∈ entries, Regular entry.1)
      (each : ∀ entry ∈ entries, Regular entry.2) (members : Members (entries.map Prod.fst)) :
      Regular (.dictionary entries)
  | ok {v : Value} (payload : Regular v) : Regular (.option (.ok v))
  | notOk (kind : Value) : Regular (.option (.notOk kind))
  | left {v : Value} (kind : Value) (payload : Regular v) : Regular (.either (.left v kind))
  | right {v : Value} (kind : Value) (payload : Regular v) : Regular (.either (.right v kind))
  | pair {v w : Value} (first : Regular v) (second : Regular w) : Regular (.pair ⟨v, w⟩)
  | sequence {items : Value} (container : Regular items) : Regular (.sequence ⟨items⟩)
  | managed (holder : Holder) {v : Value} (basic : Regular v) : Regular (.managed ⟨holder, v⟩)
  | guarded {v : Value} (payload : Regular v) : Regular (.guarded ⟨v⟩)
  | deferred {f : Value} (run : Regular f) : Regular (.deferred ⟨f⟩)
  | ternary {c v : Value} (condition : Regular c) (payload : Regular v) :
      Regular (.ternary ⟨c, v, none⟩)
  | ternaryCall {c v f : Value} (condition : Regular c) (payload : Regular v) (call : Regular f) :
      Regular (.ternary ⟨c, v, some f⟩)
  | parseError {v reason n : Value} (input : Regular v) (why : Regular reason)
      (fallback : Regular n) : Regular (.parseError ⟨v, reason, n⟩)
  | thrown (t : Thrown Value) : Regular (.thrown t)
  | client (c : Client Value Value) : Regular (.client c)

theorem Regular.sound {v : Value} (regular : Regular v) : Sound v := by
  induction regular with
  | scalar definite => exact .scalar _
  | list each eachSound => exact .list eachSound
  | tuple each eachSound => exact .tuple eachSound
  | set each members eachSound => exact .set eachSound members
  | frozenSet each members eachSound => exact .frozenSet eachSound members
  | dictionary keys each members keysSound eachSound =>
      exact .dictionary keysSound eachSound members
  | ok payload payloadSound => exact .ok payloadSound
  | notOk kind => exact .notOk kind
  | left kind payload payloadSound => exact .left kind payloadSound
  | right kind payload payloadSound => exact .right kind payloadSound
  | pair first second firstSound secondSound => exact .pair firstSound secondSound
  | sequence container containerSound => exact .sequence containerSound
  | managed holder basic basicSound => exact .managed holder basicSound
  | guarded payload payloadSound => exact .guarded payloadSound
  | deferred run runSound => exact .deferred runSound
  | ternary condition payload conditionSound payloadSound =>
      exact .ternary conditionSound payloadSound
  | ternaryCall condition payload call conditionSound payloadSound callSound =>
      exact .ternaryCall conditionSound payloadSound callSound
  | parseError input why fallback inputSound whySound fallbackSound =>
      exact .parseError inputSound whySound fallbackSound
  | thrown t => exact .thrown t
  | client c => exact .client c

private theorem hashesAgree_self {v : Value} (hashable : v.isHashable = true) :
    hashesAgree v v = true := by
  obtain ⟨code, coded⟩ := isHashable_iff.mp hashable
  exact hashesAgree_iff.mpr ⟨code, coded, coded⟩

theorem hashesAgree_comm (v w : Value) : hashesAgree v w = hashesAgree w v := by
  rw [Bool.eq_iff_iff, hashesAgree_iff, hashesAgree_iff]
  exact ⟨fun ⟨code, first, second⟩ => ⟨code, second, first⟩,
    fun ⟨code, first, second⟩ => ⟨code, second, first⟩⟩

theorem sameItems_iff {xs ys : List Value} :
    sameItems xs ys = true ↔ List.Forall₂ (fun x y => same x y = true) xs ys := by
  induction xs generalizing ys with
  | nil => cases ys <;> simp [sameItems]
  | cons x xs inductionHypothesis =>
      cases ys with
      | nil => simp [sameItems]
      | cons y ys => rw [sameItems, Bool.and_eq_true, inductionHypothesis, List.forall₂_cons]

/-- What an entry of another dictionary must be to be found for a key. -/
def isUnder (key : Value) (entry : Value × Value) : Bool :=
  hashesAgree key entry.1 && same key entry.1

theorem allMatched_iff {es fs : List (Value × Value)} :
    allMatched es fs = true ↔
      ∀ e ∈ es, ∃ f, fs.find? (isUnder e.1) = some f ∧ same e.2 f.2 = true := by
  induction es with
  | nil => simp [allMatched]
  | cons e es inductionHypothesis =>
      obtain ⟨key, v⟩ := e
      rw [allMatched, Bool.and_eq_true, inductionHypothesis, List.forall_mem_cons]
      refine and_congr_left fun _ => ?_
      have search : (fun f : Value × Value => hashesAgree key f.1 && same key f.1) = isUnder key :=
        rfl
      rw [search]
      cases fs.find? (isUnder key) <;> simp

/-- Sets of either kind are equal if they have as many items and each of the first is found. -/
theorem same_of_allFound {v w : Value} {xs ys : List Value}
    (isSet : v = .set xs ∨ v = .frozenSet xs) (isSet' : w = .set ys ∨ w = .frozenSet ys)
    (count : xs.length = ys.length) (found : allFound xs ys = true) : same v w = true := by
  rcases isSet with rfl | rfl <;> rcases isSet' with rfl | rfl <;>
    rw [same, count, beq_self_eq_true, found, Bool.and_self]

/-! ## Keys -/

/-- Two keys of a dictionary that equal one value are those of the same entry. -/
theorem Members.eq_of_same {entries : List (Value × Value)}
    (members : Members (entries.map Prod.fst)) {first second : Value × Value}
    (isFirst : first ∈ entries) (isSecond : second ∈ entries)
    (equal : same first.1 second.1 = true) (back : same second.1 first.1 = true) :
    first = second := by
  by_contra differ
  have distinct : entries.Pairwise fun e f => ¬ (same e.1 f.1 = true ∧ same f.1 e.1 = true) := by
    refine (List.pairwise_map.mp members.distinct).imp ?_
    rintro e f unequal ⟨same, -⟩
    rw [unequal] at same
    cases same
  have : Std.Symm fun e f : Value × Value =>
      ¬ (same e.1 f.1 = true ∧ same f.1 e.1 = true) :=
    ⟨fun _ _ unequal both => unequal ⟨both.2, both.1⟩⟩
  exact distinct.forall isFirst isSecond differ ⟨equal, back⟩

/-- The entry that a search finds for a key, where the key equals that of an entry. -/
theorem Members.find?_isUnder {entries : List (Value × Value)}
    (members : Members (entries.map Prod.fst)) {key : Value} {entry : Value × Value}
    (member : entry ∈ entries) (agree : hashesAgree key entry.1 = true)
    (equal : same key entry.1 = true)
    (back : ∀ {other : Value}, same key other = true → same other key = true) :
    entries.find? (isUnder key) = some entry := by
  refine find?_eq_some_of_only member (by rw [isUnder, agree, equal, Bool.and_self]) ?_
  intro other isMember isUnder
  rw [Value.isUnder, Bool.and_eq_true] at isUnder
  obtain ⟨_, _, hashEntry⟩ := hashesAgree_iff.mp agree
  obtain ⟨_, _, hashOther⟩ := hashesAgree_iff.mp isUnder.1
  exact members.eq_of_same isMember member (same_trans _ hashOther (back isUnder.2) equal)
    (same_trans _ hashEntry (back equal) isUnder.2)

/-! ## Equality goes both ways -/

private theorem sameItems_symm {xs ys : List Value}
    (each : ∀ x ∈ xs, ∀ {y : Value}, same x y = true → same y x = true)
    (equal : sameItems xs ys = true) : sameItems ys xs = true := by
  rw [sameItems_iff] at equal ⊢
  induction equal with
  | nil => exact .nil
  | cons equal rest inductionHypothesis =>
      rw [List.forall_mem_cons] at each
      exact .cons (each.1 equal) (inductionHypothesis each.2)

/-- No item of the second set is left over. -/
private theorem allFound_symm {xs ys : List Value} (members : Members xs)
    (each : ∀ x ∈ xs, ∀ {y : Value}, same x y = true → same y x = true)
    (count : xs.length = ys.length) (found : allFound xs ys = true) : allFound ys xs = true := by
  rw [allFound_iff] at found ⊢
  have distinct : xs.Pairwise fun x x' => ∀ y,
      (hashesAgree x y = true ∧ same x y = true) →
        ¬ (hashesAgree x' y = true ∧ same x' y = true) := by
    -- Two items with one counterpart would equal each other by way of it.
    refine members.distinct.imp_of_mem ?_
    rintro x x' _ memberX' unequal y ⟨agree, equal⟩ ⟨_, equal'⟩
    obtain ⟨_, hashX, _⟩ := hashesAgree_iff.mp agree
    rw [same_trans x hashX equal (each x' memberX' equal')] at unequal
    cases unequal
  intro y memberY
  obtain ⟨x, memberX, agree, equal⟩ := exists_counterpart count found distinct y memberY
  exact ⟨x, memberX, by rw [hashesAgree_comm, agree], each x memberX equal⟩

/-- No entry of the second dictionary is left over. -/
private theorem allMatched_symm {es fs : List (Value × Value)} (members : Members (es.map Prod.fst))
    (keys : ∀ e ∈ es, ∀ {key : Value}, same e.1 key = true → same key e.1 = true)
    (each : ∀ e ∈ es, ∀ {v : Value}, same e.2 v = true → same v e.2 = true)
    (count : es.length = fs.length) (matched : allMatched es fs = true) :
    allMatched fs es = true := by
  rw [allMatched_iff] at matched ⊢
  have found : ∀ e ∈ es, ∃ f ∈ fs,
      hashesAgree e.1 f.1 = true ∧ same e.1 f.1 = true ∧ same e.2 f.2 = true := by
    intro e memberE
    obtain ⟨f, isFound, equal⟩ := matched e memberE
    have under := List.find?_some isFound
    rw [isUnder, Bool.and_eq_true] at under
    exact ⟨f, List.mem_of_find?_eq_some isFound, under.1, under.2, equal⟩
  have distinct : es.Pairwise fun e e' => ∀ f : Value × Value,
      (hashesAgree e.1 f.1 = true ∧ same e.1 f.1 = true ∧ same e.2 f.2 = true) →
      ¬ (hashesAgree e'.1 f.1 = true ∧ same e'.1 f.1 = true ∧ same e'.2 f.2 = true) := by
    refine (List.pairwise_map.mp members.distinct).imp_of_mem ?_
    rintro e e' _ memberE' unequal f ⟨agree, equal, _⟩ ⟨_, equal', _⟩
    obtain ⟨_, hashE, _⟩ := hashesAgree_iff.mp agree
    rw [same_trans _ hashE equal (keys e' memberE' equal')] at unequal
    cases unequal
  intro f memberF
  obtain ⟨e, memberE, agree, equal, equalV⟩ := exists_counterpart count found distinct f memberF
  refine ⟨e, ?_, each e memberE equalV⟩
  refine find?_eq_some_of_only memberE ?_ ?_
  · rw [isUnder, hashesAgree_comm, agree, keys e memberE equal, Bool.and_self]
  · intro e' memberE' under
    rw [isUnder, Bool.and_eq_true] at under
    obtain ⟨_, hashE, _⟩ := hashesAgree_iff.mp agree
    have equal' := same_trans _ hashE equal under.2
    exact members.eq_of_same memberE' memberE (keys e memberE equal') equal'

/-- Equality goes both ways, even where it goes from nothing to itself. -/
theorem Sound.same_symm {v : Value} (sound : Sound v) :
    ∀ {w : Value}, same v w = true → same w v = true := by
  induction sound with
  | scalar s =>
      intro w whole
      cases equals_of_same whole with
      | scalar equal => exact Scalar.same_symm equal
  | list each itemsBack =>
      intro w whole
      cases equals_of_same whole with
      | list equal => exact sameItems_symm itemsBack equal
  | tuple each itemsBack =>
      intro w whole
      cases equals_of_same whole with
      | tuple equal => exact sameItems_symm itemsBack equal
  | set each members itemsBack =>
      intro w equal
      obtain ⟨ys, isSet, count, found⟩ := set_of_same (.inl rfl) equal
      exact same_of_allFound isSet (.inl rfl) count.symm
        (allFound_symm members itemsBack count found)
  | frozenSet each members itemsBack =>
      intro w equal
      obtain ⟨ys, isSet, count, found⟩ := set_of_same (.inr rfl) equal
      exact same_of_allFound isSet (.inr rfl) count.symm
        (allFound_symm members itemsBack count found)
  | dictionary keys each members keysBack eachBack =>
      intro w whole
      cases equals_of_same whole with
      | dictionary count matched =>
          rw [same, count, beq_self_eq_true,
            allMatched_symm members keysBack eachBack count matched, Bool.and_self]
  | ok payload back =>
      intro w whole
      cases equals_of_same whole with
      | ok equal => exact back equal
  | notOk kind =>
      intro w whole
      cases equals_of_same whole with
      | notOk => rfl
  | left kind payload back =>
      intro w whole
      cases equals_of_same whole with
      | left _ _ equal => exact back equal
  | right kind payload back =>
      intro w whole
      cases equals_of_same whole with
      | right _ _ equal => exact back equal
  | pair first second firstBack secondBack =>
      intro w whole
      cases equals_of_same whole with
      | pair equal equal' => rw [same, firstBack equal, secondBack equal', Bool.and_self]
  | sequence container back =>
      intro w whole
      cases equals_of_same whole with
      | sequence equal => exact back equal
  | managed holder basic back =>
      intro w whole
      cases equals_of_same whole with
      | managed _ equal => rw [same, beq_self_eq_true, back equal, Bool.and_self]
  | guarded payload back =>
      intro w whole
      cases equals_of_same whole with
      | guarded equal => exact back equal
  | deferred run back =>
      intro w whole
      cases equals_of_same whole with
      | deferred equal => exact back equal
  | ternary condition payload conditionBack back =>
      intro w whole
      cases equals_of_same whole with
      | ternary equal equal' => rw [same, conditionBack equal, back equal', Bool.and_self]
  | ternaryCall condition payload call conditionBack back callBack =>
      intro w whole
      cases equals_of_same whole with
      | ternaryCall equal equal' equalCall =>
          rw [same, conditionBack equal, back equal', callBack equalCall, Bool.and_self,
            Bool.and_self]
  | parseError input why fallback inputBack whyBack fallbackBack =>
      intro w whole
      cases equals_of_same whole with
      | parseError equal equal' equal'' =>
          rw [same, inputBack equal, whyBack equal', fallbackBack equal'', Bool.and_self,
            Bool.and_self]
  | thrown t =>
      intro w whole
      cases equals_of_same whole with
      | thrown number => rw [same, number, beq_self_eq_true]
  | client c =>
      intro w whole
      cases equals_of_same whole with
      | client number => rw [same, number, beq_self_eq_true]

theorem same_symm {v : Value} (regular : Regular v) :
    ∀ {w : Value}, same v w = true → same w v = true := regular.sound.same_symm

theorem Sound.same_comm {v w : Value} (soundV : Sound v) (soundW : Sound w) :
    same v w = same w v := by
  rw [Bool.eq_iff_iff]
  exact ⟨soundV.same_symm, soundW.same_symm⟩

/-! ## Equality goes on -/

/-- Equality goes on from one item to the next in the same place. -/
private theorem sameItems_through {xs ys zs : List Value} (regular : ∀ z ∈ zs, Regular z)
    (each : ∀ x ∈ xs, ∀ {y z : Value}, Regular z → same x y = true → same y z = true →
      same x z = true)
    (first : sameItems xs ys = true) (second : sameItems ys zs = true) :
    sameItems xs zs = true := by
  rw [sameItems_iff] at first second ⊢
  induction first generalizing zs with
  | nil => exact second
  | cons equal rest inductionHypothesis =>
      cases second with
      | cons equal' rest' =>
          rw [List.forall_mem_cons] at regular each
          exact .cons (each.1 regular.1 equal equal') (inductionHypothesis regular.2 each.2 rest')

private theorem allMatched_through {es fs gs : List (Value × Value)}
    (regular : ∀ g ∈ gs, Regular g.2) (members : Members (gs.map Prod.fst))
    (keys : ∀ e ∈ es, Regular e.1)
    (each : ∀ e ∈ es, ∀ {v w : Value}, Regular w → same e.2 v = true → same v w = true →
      same e.2 w = true)
    (first : allMatched es fs = true) (second : allMatched fs gs = true) :
    allMatched es gs = true := by
  rw [allMatched_iff] at first second ⊢
  intro e memberE
  obtain ⟨f, isFound, equalV⟩ := first e memberE
  obtain ⟨g, isFound', equalV'⟩ := second f (List.mem_of_find?_eq_some isFound)
  have under := List.find?_some isFound
  have under' := List.find?_some isFound'
  rw [isUnder, Bool.and_eq_true] at under under'
  have memberG := List.mem_of_find?_eq_some isFound'
  obtain ⟨code, hashE, hashF⟩ := hashesAgree_iff.mp under.1
  obtain ⟨code', hashF', hashG⟩ := hashesAgree_iff.mp under'.1
  rw [hashF] at hashF'
  cases hashF'
  -- The keys have a hash, so that their equality goes on whether the key between is regular or not.
  have equal := same_trans e.1 hashE under.2 under'.2
  exact ⟨g, members.find?_isUnder memberG (hashesAgree_iff.mpr ⟨code, hashE, hashG⟩) equal
    (same_symm (keys e memberE)), each e memberE (regular g memberG) equalV equalV'⟩

/-- Equality goes on. -/
theorem same_through {v : Value} (regular : Regular v) :
    ∀ {w u : Value}, Regular u → same v w = true → same w u = true → same v u = true := by
  induction regular with
  | scalar definite =>
      intro w u _ before after
      cases equals_of_same before with
      | scalar first =>
          cases equals_of_same after with
          | scalar second => exact Scalar.same_trans first second
  | list each itemsOn =>
      intro w u regular before after
      cases equals_of_same before with
      | list first =>
          cases equals_of_same after with
          | list second =>
              cases regular with
              | list last => exact sameItems_through last itemsOn first second
  | tuple each itemsOn =>
      intro w u regular before after
      cases equals_of_same before with
      | tuple first =>
          cases equals_of_same after with
          | tuple second =>
              cases regular with
              | tuple last => exact sameItems_through last itemsOn first second
  | set each members itemsOn =>
      intro w u _ first second
      obtain ⟨ys, isSet, count, found⟩ := set_of_same (.inl rfl) first
      obtain ⟨zs, isSet', count', found'⟩ := set_of_same isSet second
      exact same_of_allFound (.inl rfl) isSet' (count.trans count') (allFound_trans _ found found')
  | frozenSet each members itemsOn =>
      intro w u _ first second
      obtain ⟨ys, isSet, count, found⟩ := set_of_same (.inr rfl) first
      obtain ⟨zs, isSet', count', found'⟩ := set_of_same isSet second
      exact same_of_allFound (.inr rfl) isSet' (count.trans count') (allFound_trans _ found found')
  | dictionary keys each members keysOn eachOn =>
      intro w u regular before after
      cases equals_of_same before with
      | dictionary count matched =>
          cases equals_of_same after with
          | dictionary count' matched' =>
              cases regular with
              | dictionary _ last distinct =>
                  rw [same, count, count', beq_self_eq_true,
                    allMatched_through last distinct keys eachOn matched matched', Bool.and_self]
  | ok payload goesOn =>
      intro w u regular before after
      cases equals_of_same before with
      | ok first =>
          cases equals_of_same after with
          | ok second =>
              cases regular with
              | ok last => exact goesOn last first second
  | notOk kind =>
      intro w u _ before after
      cases equals_of_same before with
      | notOk =>
          cases equals_of_same after with
          | notOk => rfl
  | left kind payload goesOn =>
      intro w u regular before after
      cases equals_of_same before with
      | left _ _ first =>
          cases equals_of_same after with
          | left _ _ second =>
              cases regular with
              | left _ last => exact goesOn last first second
  | right kind payload goesOn =>
      intro w u regular before after
      cases equals_of_same before with
      | right _ _ first =>
          cases equals_of_same after with
          | right _ _ second =>
              cases regular with
              | right _ last => exact goesOn last first second
  | pair one two oneOn twoOn =>
      intro w u regular before after
      cases equals_of_same before with
      | pair first first' =>
          cases equals_of_same after with
          | pair second second' =>
              cases regular with
              | pair last last' =>
                  rw [same, oneOn last first second, twoOn last' first' second', Bool.and_self]
  | sequence container goesOn =>
      intro w u regular before after
      cases equals_of_same before with
      | sequence first =>
          cases equals_of_same after with
          | sequence second =>
              cases regular with
              | sequence last => exact goesOn last first second
  | managed holder basic goesOn =>
      intro w u regular before after
      cases equals_of_same before with
      | managed _ first =>
          cases equals_of_same after with
          | managed _ second =>
              cases regular with
              | managed _ last =>
                  rw [same, beq_self_eq_true, goesOn last first second, Bool.and_self]
  | guarded payload goesOn =>
      intro w u regular before after
      cases equals_of_same before with
      | guarded first =>
          cases equals_of_same after with
          | guarded second =>
              cases regular with
              | guarded last => exact goesOn last first second
  | deferred run goesOn =>
      intro w u regular before after
      cases equals_of_same before with
      | deferred first =>
          cases equals_of_same after with
          | deferred second =>
              cases regular with
              | deferred last => exact goesOn last first second
  | ternary condition payload conditionOn goesOn =>
      intro w u regular before after
      cases equals_of_same before with
      | ternary first first' =>
          cases equals_of_same after with
          | ternary second second' =>
              cases regular with
              | ternary last last' =>
                  rw [same, conditionOn last first second, goesOn last' first' second',
                    Bool.and_self]
  | ternaryCall condition payload call conditionOn goesOn callOn =>
      intro w u regular before after
      cases equals_of_same before with
      | ternaryCall first first' firstCall =>
          cases equals_of_same after with
          | ternaryCall second second' secondCall =>
              cases regular with
              | ternaryCall last last' lastCall =>
                  rw [same, conditionOn last first second, goesOn last' first' second',
                    callOn lastCall firstCall secondCall, Bool.and_self, Bool.and_self]
  | parseError input why fallback inputOn whyOn fallbackOn =>
      intro w u regular before after
      cases equals_of_same before with
      | parseError first first' first'' =>
          cases equals_of_same after with
          | parseError second second' second'' =>
              cases regular with
              | parseError last last' last'' =>
                  rw [same, inputOn last first second, whyOn last' first' second',
                    fallbackOn last'' first'' second'', Bool.and_self, Bool.and_self]
  | thrown t =>
      intro w u _ before after
      cases equals_of_same before with
      | thrown number =>
          cases equals_of_same after with
          | thrown number' => rw [same, number, number', beq_self_eq_true]
  | client c =>
      intro w u _ before after
      cases equals_of_same before with
      | client number =>
          cases equals_of_same after with
          | client number' => rw [same, number, number', beq_self_eq_true]

/-! ## Equality starts from each value -/

/-- A regular value equals itself. -/
theorem same_refl {v : Value} (regular : Regular v) : same v v = true := by
  have foundIn {items : List Value} (members : Members items)
      (itemsSelf : ∀ item ∈ items, same item item = true) : allFound items items = true :=
    allFound_iff.mpr fun item member =>
      ⟨item, member, hashesAgree_self (members.hashable item member), itemsSelf item member⟩
  induction regular with
  | scalar definite => exact Scalar.same_self definite
  | list each itemsSelf => exact sameItems_iff.mpr (List.forall₂_same.mpr itemsSelf)
  | tuple each itemsSelf => exact sameItems_iff.mpr (List.forall₂_same.mpr itemsSelf)
  | set each members itemsSelf | frozenSet each members itemsSelf =>
      rw [same, beq_self_eq_true, foundIn members itemsSelf, Bool.and_self]
  | dictionary keys each members keysSelf eachSelf =>
      have matched := allMatched_iff.mpr fun e member =>
        ⟨e, members.find?_isUnder member
          (hashesAgree_self (members.hashable e.1 (List.mem_map_of_mem member)))
          (keysSelf e member) (same_symm (keys e member)), eachSelf e member⟩
      rw [same, beq_self_eq_true, matched, Bool.and_self]
  | ok payload self => exact self
  | notOk kind => rfl
  | left kind payload self => exact self
  | right kind payload self => exact self
  | pair first second firstSelf secondSelf => rw [same, firstSelf, secondSelf, Bool.and_self]
  | sequence container self => exact self
  | managed holder basic self => rw [same, beq_self_eq_true, self, Bool.and_self]
  | guarded payload self => exact self
  | deferred run self => exact self
  | ternary condition payload conditionSelf self => rw [same, conditionSelf, self, Bool.and_self]
  | ternaryCall condition payload call conditionSelf self callSelf =>
      rw [same, conditionSelf, self, callSelf, Bool.and_self, Bool.and_self]
  | parseError input why fallback inputSelf whySelf fallbackSelf =>
      rw [same, inputSelf, whySelf, fallbackSelf, Bool.and_self, Bool.and_self]
  | thrown t => rw [same, beq_self_eq_true]
  | client c => rw [same, beq_self_eq_true]

end Value

end Presence
