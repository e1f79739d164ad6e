import Mathlib.Data.List.Forall2
import Presence.Proofs.Value.Equality

/-!
Contract: values that differ in nothing but the kinds that absent payloads and sides carry.

Owns: `Value.Similar`, also for values that may differ in whatever equality leaves out; similar
values have the same hash and are equal to the same values (`hash_similar`, `same_similar`).

Does not own: text and documents of similar values, and what is done with them.
-/

namespace Presence.Value

/-! ## Lists item by item -/

section Lists

variable {α β : Type} {R : α → β → Prop} {p : α → Bool} {q : β → Bool}

theorem any_eq_of_forall₂ {xs : List α} {ys : List β} (related : List.Forall₂ R xs ys)
    (alike : ∀ x y, R x y → p x = q y) : xs.any p = ys.any q := by
  induction related with
  | nil => rfl
  | cons first _ inductionHypothesis =>
      rw [List.any_cons, List.any_cons, alike _ _ first, inductionHypothesis]

theorem isEmpty_eq_of_forall₂ {xs : List α} {ys : List β} (related : List.Forall₂ R xs ys) :
    xs.isEmpty = ys.isEmpty := by
  cases related <;> rfl

theorem find?_rel_of_forall₂ {xs : List α} {ys : List β} (related : List.Forall₂ R xs ys)
    (alike : ∀ x y, R x y → p x = q y) : Option.Rel R (xs.find? p) (ys.find? q) := by
  induction related with
  | nil => exact .none
  | @cons x y _ _ first _ inductionHypothesis =>
      rw [List.find?_cons, List.find?_cons, alike x y first]
      cases q y with
      | true => exact .some first
      | false => exact inductionHypothesis

end Lists

/-! ## Similar values -/

mutual

/-- Values of the same structure that differ at most in the kinds of absent payloads and of sides.
What is the same only as itself has a number, which must be the same, and contents, which may be
any if they are `hidden`. -/
inductive Similar (hidden : Bool) : Value → Value → Prop where
  | scalar (s : Scalar) : Similar hidden (.scalar s) (.scalar s)
  | list {xs ys : List Value} (items : List.Forall₂ (Similar hidden) xs ys) :
      Similar hidden (.list xs) (.list ys)
  | tuple {xs ys : List Value} (items : List.Forall₂ (Similar hidden) xs ys) :
      Similar hidden (.tuple xs) (.tuple ys)
  | set {xs ys : List Value} (items : List.Forall₂ (SimilarMembers hidden) xs ys) :
      Similar hidden (.set xs) (.set ys)
  | frozenSet {xs ys : List Value} (items : List.Forall₂ (SimilarMembers hidden) xs ys) :
      Similar hidden (.frozenSet xs) (.frozenSet ys)
  | dictionary {es fs : List (Value × Value)}
      (entries : List.Forall₂ (SimilarEntries hidden) es fs) :
      Similar hidden (.dictionary es) (.dictionary fs)
  | ok {v w : Value} (payload : Similar hidden v w) :
      Similar hidden (.option (.ok v)) (.option (.ok w))
  | notOk (kind kind' : Value) : Similar hidden (.option (.notOk kind)) (.option (.notOk kind'))
  | left {v w : Value} (kind kind' : Value) (payload : Similar hidden v w) :
      Similar hidden (.either (.left v kind)) (.either (.left w kind'))
  | right {v w : Value} (kind kind' : Value) (payload : Similar hidden v w) :
      Similar hidden (.either (.right v kind)) (.either (.right w kind'))
  | pair {v w v' w' : Value} (first : Similar hidden v v') (second : Similar hidden w w') :
      Similar hidden (.pair ⟨v, w⟩) (.pair ⟨v', w'⟩)
  | sequence {v w : Value} (container : Similar hidden v w) :
      Similar hidden (.sequence ⟨v⟩) (.sequence ⟨w⟩)
  | managed (holder : Holder) {v w : Value} (basic : Similar hidden v w) :
      Similar hidden (.managed ⟨holder, v⟩) (.managed ⟨holder, w⟩)
  | guarded {v w : Value} (payload : Similar hidden v w) :
      Similar hidden (.guarded ⟨v⟩) (.guarded ⟨w⟩)
  | deferred {f g : Value} (run : Similar hidden f g) :
      Similar hidden (.deferred ⟨f⟩) (.deferred ⟨g⟩)
  | ternary {c v c' w : Value} (condition : Similar hidden c c') (payload : Similar hidden v w) :
      Similar hidden (.ternary ⟨c, v, none⟩) (.ternary ⟨c', w, none⟩)
  | ternaryCall {c v f c' w g : Value} (condition : Similar hidden c c')
      (payload : Similar hidden v w) (call : Similar hidden f g) :
      Similar hidden (.ternary ⟨c, v, some f⟩) (.ternary ⟨c', w, some g⟩)
  | parseError {v reason n w reason' n' : Value} (input : Similar hidden v w)
      (why : Similar hidden reason reason') (fallback : Similar hidden n n') :
      Similar hidden (.parseError ⟨v, reason, n⟩) (.parseError ⟨w, reason', n'⟩)
  | thrown (number : Nat) (kind : FaultKind) {xs ys : List Value} {v w : Option Value}
      (arguments : List.Forall₂ (Similar hidden) xs ys)
      (carried : Option.Rel (Similar hidden) v w) :
      Similar hidden (.thrown ⟨number, kind, xs, v⟩) (.thrown ⟨number, kind, ys, w⟩)
  | client (number : Nat) {v w v' w' : Value} (users : Similar hidden v v')
      (failing : Similar hidden w w') :
      Similar hidden (.client ⟨number, v, w⟩) (.client ⟨number, v', w'⟩)
  | hiddenThrown {t t' : Thrown Value} (hides : hidden = true) (number : t.number = t'.number) :
      Similar hidden (.thrown t) (.thrown t')
  | hiddenClient {c c' : Client Value Value} (hides : hidden = true)
      (number : c.number = c'.number) : Similar hidden (.client c) (.client c')

/-- Members of sets that are similar. What has no hash is never found in a set, so that it may be
anything if contents are hidden. -/
inductive SimilarMembers (hidden : Bool) : Value → Value → Prop where
  | member {v w : Value} (similar : Similar hidden v w) : SimilarMembers hidden v w
  | hiddenMember {v w : Value} (hides : hidden = true) (noHash : v.isHashable = false)
      (noHash' : w.isHashable = false) : SimilarMembers hidden v w

/-- Entries with similar keys and values. -/
inductive SimilarEntries (hidden : Bool) : Value × Value → Value × Value → Prop where
  | entry {key key' v v' : Value} (under : Similar hidden key key') (value : Similar hidden v v') :
      SimilarEntries hidden (key, v) (key', v')

end

variable {hidden : Bool}

mutual

theorem Similar.refl : (v : Value) → Similar hidden v v
  | .scalar s => .scalar s
  | .list xs => .list (Similar.reflItems xs)
  | .tuple xs => .tuple (Similar.reflItems xs)
  | .set xs => .set ((Similar.reflItems xs).imp fun _ _ => .member)
  | .frozenSet xs => .frozenSet ((Similar.reflItems xs).imp fun _ _ => .member)
  | .dictionary es => .dictionary (Similar.reflEntries es)
  | .option (.ok v) => .ok (Similar.refl v)
  | .option (.notOk kind) => .notOk kind kind
  | .either (.left v kind) => .left kind kind (Similar.refl v)
  | .either (.right v kind) => .right kind kind (Similar.refl v)
  | .pair ⟨v, w⟩ => .pair (Similar.refl v) (Similar.refl w)
  | .sequence ⟨v⟩ => .sequence (Similar.refl v)
  | .managed ⟨holder, v⟩ => .managed holder (Similar.refl v)
  | .guarded ⟨v⟩ => .guarded (Similar.refl v)
  | .deferred ⟨f⟩ => .deferred (Similar.refl f)
  | .ternary ⟨c, v, none⟩ => .ternary (Similar.refl c) (Similar.refl v)
  | .ternary ⟨c, v, some f⟩ => .ternaryCall (Similar.refl c) (Similar.refl v) (Similar.refl f)
  | .parseError ⟨v, reason, n⟩ =>
      .parseError (Similar.refl v) (Similar.refl reason) (Similar.refl n)
  | .thrown ⟨number, kind, xs, none⟩ => .thrown number kind (Similar.reflItems xs) .none
  | .thrown ⟨number, kind, xs, some v⟩ =>
      .thrown number kind (Similar.reflItems xs) (.some (Similar.refl v))
  | .client ⟨number, v, w⟩ => .client number (Similar.refl v) (Similar.refl w)

theorem Similar.reflItems : (xs : List Value) → List.Forall₂ (Similar hidden) xs xs
  | [] => .nil
  | x :: xs => .cons (Similar.refl x) (Similar.reflItems xs)

theorem Similar.reflEntries : (es : List (Value × Value)) →
    List.Forall₂ (SimilarEntries hidden) es es
  | [] => .nil
  | (key, v) :: es => .cons (.entry (Similar.refl key) (Similar.refl v)) (Similar.reflEntries es)

end

/-! ## Hashes -/

mutual

/-- Similar values have the same hash, or lack one for the same part. -/
theorem hash_similar : (v : Value) → ∀ {w : Value}, Similar hidden v w → v.hash = w.hash
  | .scalar s, _, similar => by
      cases similar
      rfl
  | .list xs, _, similar => by
      cases similar with
      | list items => rw [hash, hash]
  | .tuple xs, _, similar => by
      cases similar with
      | tuple items => rw [hash, hash, hashItems_similar xs 1 items]
  | .set xs, _, similar => by
      cases similar with
      | set items => rw [hash, hash]
  | .frozenSet xs, _, similar => by
      cases similar with
      | frozenSet items => rw [hash, hash, items.length_eq]
  | .dictionary es, _, similar => by
      cases similar with
      | dictionary entries => rw [hash, hash]
  | .option (.ok v), _, similar => by
      cases similar with
      | ok payload => rw [hash, hash, hash_similar v payload]
  | .option (.notOk _), _, similar => by
      cases similar with
      | notOk => rw [hash, hash]
  | .either (.left v _), _, similar => by
      cases similar with
      | left _ _ payload => rw [hash, hash, hash_similar v payload]
  | .either (.right v _), _, similar => by
      cases similar with
      | right _ _ payload => rw [hash, hash, hash_similar v payload]
  | .pair ⟨v, w⟩, _, similar => by
      cases similar with
      | pair first second => rw [hash, hash, hash_similar v first, hash_similar w second]
  | .sequence ⟨v⟩, _, similar => by
      cases similar with
      | sequence container => rw [hash, hash, hash_similar v container]
  | .managed ⟨_, v⟩, _, similar => by
      cases similar with
      | managed _ basic => rw [hash, hash, hash_similar v basic]
  | .guarded ⟨v⟩, _, similar => by
      cases similar with
      | guarded payload => rw [hash, hash, hash_similar v payload]
  | .deferred ⟨f⟩, _, similar => by
      cases similar with
      | deferred run => rw [hash, hash, hash_similar f run]
  | .ternary ⟨c, v, none⟩, _, similar => by
      cases similar with
      | ternary condition payload =>
          rw [hash, hash, hash_similar c condition, hash_similar v payload]
  | .ternary ⟨c, v, some f⟩, _, similar => by
      cases similar with
      | ternaryCall condition payload call =>
          rw [hash, hash, hash_similar c condition, hash_similar v payload, hash_similar f call]
  | .parseError ⟨v, reason, n⟩, _, similar => by
      cases similar with
      | parseError input why fallback =>
          rw [hash, hash, hash_similar v input, hash_similar reason why, hash_similar n fallback]
  | .thrown t, _, similar => by
      cases similar with
      | thrown number kind arguments carried => rw [hash, hash]
      | hiddenThrown hides number => rw [hash, hash, number]
  | .client c, _, similar => by
      cases similar with
      | client number users failing => rw [hash, hash]
      | hiddenClient hides number => rw [hash, hash, number]

theorem hashItems_similar : (xs : List Value) → ∀ {ys : List Value} (sofar : UInt64),
    List.Forall₂ (Similar hidden) xs ys → hashItems sofar xs = hashItems sofar ys
  | [], _, _, similar => by
      cases similar
      rfl
  | x :: xs, _, sofar, similar => by
      cases similar with
      | cons first rest =>
          rw [hashItems, hashItems, hash_similar x first]
          exact bind_congr fun code => hashItems_similar xs (mixHash sofar code) rest

end

theorem hashesAgree_similar {v v' w w' : Value} (similar : Similar hidden v v')
    (other : Similar hidden w w') : hashesAgree v w = hashesAgree v' w' := by
  rw [hashesAgree, hashesAgree, hash_similar v similar, hash_similar w other]

private theorem hashesAgree_of_left_noHash {v : Value} (noHash : v.isHashable = false) (w : Value) :
    hashesAgree v w = false := by
  rw [← Bool.not_eq_true, hashesAgree_iff]
  rintro ⟨code, hashed, -⟩
  rw [isHashable_iff.mpr ⟨code, hashed⟩] at noHash
  cases noHash

private theorem hashesAgree_of_right_noHash (v : Value) {w : Value}
    (noHash : w.isHashable = false) :
    hashesAgree v w = false := by
  rw [← Bool.not_eq_true, hashesAgree_iff]
  rintro ⟨code, -, hashed⟩
  rw [isHashable_iff.mpr ⟨code, hashed⟩] at noHash
  cases noHash

/-! ## Equality -/

/-- Similar members are found in the same places, if similar values are equal to the same ones. -/
theorem found_similar {x x' y y' : Value}
    (alike : Similar hidden x x' → Similar hidden y y' → same x y = same x' y')
    (first : SimilarMembers hidden x x') (second : SimilarMembers hidden y y') :
    (hashesAgree x y && same x y) = (hashesAgree x' y' && same x' y') := by
  cases first with
  | hiddenMember _ noHash noHash' =>
      rw [hashesAgree_of_left_noHash noHash, hashesAgree_of_left_noHash noHash']
      rfl
  | member similar =>
      cases second with
      | hiddenMember _ noHash noHash' =>
          rw [hashesAgree_of_right_noHash x noHash, hashesAgree_of_right_noHash x' noHash']
          rfl
      | member similar' => rw [hashesAgree_similar similar similar', alike similar similar']

mutual

/-- Similar values are equal to the same values. -/
theorem same_similar : (v : Value) → ∀ {v' w w' : Value}, Similar hidden v v' →
    Similar hidden w w' → same v w = same v' w'
  | .scalar s, _, _, _, similar, other => by
      cases similar
      cases other with
      | scalar => rfl
      | _ => rfl
  | .list xs, _, _, _, similar, other => by
      cases similar with
      | list items =>
          cases other with
          | list items' => exact sameItems_similar xs items items'
          | _ => rfl
  | .tuple xs, _, _, _, similar, other => by
      cases similar with
      | tuple items =>
          cases other with
          | tuple items' => exact sameItems_similar xs items items'
          | _ => rfl
  | .set xs, _, _, _, similar, other => by
      cases similar with
      | set items =>
          cases other with
          | set items' | frozenSet items' =>
              rw [same, same, items.length_eq, items'.length_eq, allFound_similar xs items items']
          | _ => rfl
  | .frozenSet xs, _, _, _, similar, other => by
      cases similar with
      | frozenSet items =>
          cases other with
          | set items' | frozenSet items' =>
              rw [same, same, items.length_eq, items'.length_eq, allFound_similar xs items items']
          | _ => rfl
  | .dictionary es, _, _, _, similar, other => by
      cases similar with
      | dictionary entries =>
          cases other with
          | dictionary entries' =>
              rw [same, same, entries.length_eq, entries'.length_eq,
                allMatched_similar es entries entries']
          | _ => rfl
  | .option (.ok v), _, _, _, similar, other => by
      cases similar with
      | ok payload =>
          cases other with
          | ok payload' => rw [same, same, same_similar v payload payload']
          | _ => rfl
  | .option (.notOk _), _, _, _, similar, other => by
      cases similar
      cases other with
      | _ => rfl
  | .either (.left v _), _, _, _, similar, other => by
      cases similar with
      | left _ _ payload =>
          cases other with
          | left _ _ payload' => rw [same, same, same_similar v payload payload']
          | _ => rfl
  | .either (.right v _), _, _, _, similar, other => by
      cases similar with
      | right _ _ payload =>
          cases other with
          | right _ _ payload' => rw [same, same, same_similar v payload payload']
          | _ => rfl
  | .pair ⟨v, w⟩, _, _, _, similar, other => by
      cases similar with
      | pair first second =>
          cases other with
          | pair first' second' =>
              rw [same, same, same_similar v first first', same_similar w second second']
          | _ => rfl
  | .sequence ⟨v⟩, _, _, _, similar, other => by
      cases similar with
      | sequence container =>
          cases other with
          | sequence container' => rw [same, same, same_similar v container container']
          | _ => rfl
  | .managed ⟨_, v⟩, _, _, _, similar, other => by
      cases similar with
      | managed _ basic =>
          cases other with
          | managed _ basic' => rw [same, same, same_similar v basic basic']
          | _ => rfl
  | .guarded ⟨v⟩, _, _, _, similar, other => by
      cases similar with
      | guarded payload =>
          cases other with
          | guarded payload' => rw [same, same, same_similar v payload payload']
          | _ => rfl
  | .deferred ⟨f⟩, _, _, _, similar, other => by
      cases similar with
      | deferred run =>
          cases other with
          | deferred run' => rw [same, same, same_similar f run run']
          | _ => rfl
  | .ternary ⟨c, v, none⟩, _, _, _, similar, other => by
      cases similar with
      | ternary condition payload =>
          cases other with
          | ternary condition' payload' =>
              rw [same, same, same_similar c condition condition', same_similar v payload payload']
          | _ => rfl
  | .ternary ⟨c, v, some f⟩, _, _, _, similar, other => by
      cases similar with
      | ternaryCall condition payload call =>
          cases other with
          | ternaryCall condition' payload' call' =>
              rw [same, same, same_similar c condition condition', same_similar v payload payload',
                same_similar f call call']
          | _ => rfl
  | .parseError ⟨v, reason, n⟩, _, _, _, similar, other => by
      cases similar with
      | parseError input why fallback =>
          cases other with
          | parseError input' why' fallback' =>
              rw [same, same, same_similar v input input', same_similar reason why why',
                same_similar n fallback fallback']
          | _ => rfl
  | .thrown t, _, _, _, similar, other => by
      cases similar with
      | thrown =>
          cases other with
          | hiddenThrown _ number' => rw [same, same, number']
          | _ => rfl
      | hiddenThrown _ number =>
          cases other with
          | thrown => rw [same, same, number]
          | hiddenThrown _ number' => rw [same, same, number, number']
          | _ => rfl
  | .client c, _, _, _, similar, other => by
      cases similar with
      | client =>
          cases other with
          | hiddenClient _ number' => rw [same, same, number']
          | _ => rfl
      | hiddenClient _ number =>
          cases other with
          | client => rw [same, same, number]
          | hiddenClient _ number' => rw [same, same, number, number']
          | _ => rfl
termination_by structural v => v

theorem sameItems_similar : (xs : List Value) → ∀ {xs' ys ys' : List Value},
    List.Forall₂ (Similar hidden) xs xs' → List.Forall₂ (Similar hidden) ys ys' →
      sameItems xs ys = sameItems xs' ys'
  | [], _, _, _, similar, other => by
      cases similar
      cases other <;> rfl
  | x :: xs, _, _, _, similar, other => by
      cases similar with
      | cons first rest =>
          cases other with
          | nil => rfl
          | cons first' rest' =>
              rw [sameItems, sameItems, same_similar x first first',
                sameItems_similar xs rest rest']
termination_by structural xs => xs

theorem allFound_similar : (xs : List Value) → ∀ {xs' ys ys' : List Value},
    List.Forall₂ (SimilarMembers hidden) xs xs' → List.Forall₂ (SimilarMembers hidden) ys ys' →
      allFound xs ys = allFound xs' ys'
  | [], _, _, _, similar, other => by
      cases similar
      rw [allFound, allFound]
  | x :: xs, _, _, _, similar, other => by
      cases similar with
      | cons first rest =>
          rw [allFound, allFound, allFound_similar xs rest other, any_eq_of_forall₂ other]
          intro y y' second
          exact found_similar (same_similar x) first second
termination_by structural xs => xs

theorem allMatched_similar : (es : List (Value × Value)) → ∀ {es' fs fs' : List (Value × Value)},
    List.Forall₂ (SimilarEntries hidden) es es' → List.Forall₂ (SimilarEntries hidden) fs fs' →
      allMatched es fs = allMatched es' fs'
  | [], _, _, _, similar, other => by
      cases similar
      rw [allMatched, allMatched]
  | (key, v) :: es, _, fs, fs', similar, other => by
      cases similar with
      | cons first rest =>
          cases first with
          | @entry _ key' _ v' under value =>
              -- Keys are found alike, so that both searches end at the same place.
              have found := find?_rel_of_forall₂ (p := fun f => hashesAgree key f.1 && same key f.1)
                (q := fun f => hashesAgree key' f.1 && same key' f.1) other (by
                  rintro _ _ ⟨under', _⟩
                  rw [hashesAgree_similar under under', same_similar key under under'])
              rw [allMatched, allMatched, allMatched_similar es rest other]
              generalize fs.find? _ = one, fs'.find? _ = other at found ⊢
              cases found with
              | none => rfl
              | some found =>
                  cases found with
                  | entry _ value' => exact congrArg (· && _) (same_similar v value value')
termination_by structural es => es

end

end Presence.Value
