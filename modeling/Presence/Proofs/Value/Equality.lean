import Presence.Value.Lookup

/-!
Contract: what equality of values is, case by case, and how it goes with hashes.

Owns: `Value.Equals`, equality read off the forms of two values (`equals_of_same`); equal values
with hashes have the same hash (`hash_eq_of_same`); equality goes on from values with a hash
(`same_trans`).

Does not own: search in sets (`Presence.Value.Lookup`), and what follows for sequences.

Equality compares the items of sets by their hashes first, so that it goes on only as far as equal
items have equal hashes: the two facts are proved one after the other, and the second uses the
first. What is not a number is equal to nothing, so that equality is not reflexive.
-/

namespace Presence

/-! ## Scalars -/

private theorem Extended.eq_of_same {a b : Extended} (equal : a.same b = true) : a = b := by
  cases a <;> cases b <;> simp_all [Extended.same]

namespace Scalar

/-- Scalars are equal if they mean the same number, or are the same octets, or are the same. -/
theorem same_cases {a b : Scalar} (equal : a.same b = true) :
    (∃ re im, a.number? = some (re, im) ∧ b.number? = some (re, im) ∧
      re.same re = true ∧ im.same im = true) ∨
    (a.number? = none ∧ b.number? = none ∧
      ∃ octets, a.octets? = some octets ∧ b.octets? = some octets) ∨
    (a.number? = none ∧ a.octets? = none ∧ a = b) := by
  unfold same at equal
  split at equal
  · rename_i re im re' im' number number'
    rw [Bool.and_eq_true] at equal
    have sameRe := Extended.eq_of_same equal.1
    have sameIm := Extended.eq_of_same equal.2
    subst sameRe sameIm
    exact .inl ⟨re, im, number, number', equal.1, equal.2⟩
  · rename_i number number'
    split at equal
    · rename_i octets octets' isOctets isOctets'
      have sameOctets := eq_of_beq equal
      subst sameOctets
      exact .inr (.inl ⟨number, number', octets, isOctets, isOctets'⟩)
    · rename_i isOctets isOctets'
      exact .inr (.inr ⟨number, isOctets, eq_of_beq equal⟩)
    · cases equal
  · cases equal

theorem same_trans {a b c : Scalar} (first : a.same b = true) (second : b.same c = true) :
    a.same c = true := by
  obtain ⟨re, im, numberA, numberB, sameRe, sameIm⟩ | ⟨numberA, numberB, octets, isA, isB⟩ |
    ⟨numberA, isA, rfl⟩ := same_cases first
  · obtain ⟨re', im', numberB', numberC, -, -⟩ | ⟨numberB', -⟩ | ⟨numberB', -⟩ := same_cases second
    · rw [numberB] at numberB'
      cases numberB'
      simp only [same, numberA, numberC, sameRe, sameIm, Bool.and_self]
    · rw [numberB] at numberB'
      cases numberB'
    · rw [numberB] at numberB'
      cases numberB'
  · obtain ⟨re', im', numberB', -⟩ | ⟨-, numberC, octets', isB', isC⟩ | ⟨-, isB', -⟩ :=
      same_cases second
    · rw [numberB] at numberB'
      cases numberB'
    · rw [isB] at isB'
      cases isB'
      simp only [same, numberA, numberC, isA, isC, beq_self_eq_true]
    · rw [isB] at isB'
      cases isB'
  · exact second

/-- Equal scalars with hashes have the same hash. -/
theorem hash_eq_of_same {a b : Scalar} (equal : a.same b = true) {x y : UInt64}
    (hashA : a.hash = .ok x) (hashB : b.hash = .ok y) : x = y := by
  obtain ⟨re, im, numberA, numberB, -⟩ | ⟨numberA, numberB, octets, isA, isB⟩ | ⟨-, -, rfl⟩ :=
    same_cases equal
  · unfold hash at hashA hashB
    rw [numberA] at hashA
    rw [numberB] at hashB
    exact Except.ok.inj (hashA.symm.trans hashB)
  · cases a <;> cases b <;> simp_all [hash, octets?, number?]
  · exact Except.ok.inj (hashA.symm.trans hashB)

end Scalar

namespace Value

/-! ## Equality, case by case -/

/-- How two values can be equal. -/
inductive Equals : Value → Value → Prop where
  | scalar {a b : Scalar} (equal : a.same b = true) : Equals (.scalar a) (.scalar b)
  | list {xs ys : List Value} (items : sameItems xs ys = true) : Equals (.list xs) (.list ys)
  | tuple {xs ys : List Value} (items : sameItems xs ys = true) : Equals (.tuple xs) (.tuple ys)
  | set {xs ys : List Value} (count : xs.length = ys.length) (found : allFound xs ys = true) :
      Equals (.set xs) (.set ys)
  | setFrozen {xs ys : List Value} (count : xs.length = ys.length)
      (found : allFound xs ys = true) : Equals (.set xs) (.frozenSet ys)
  | frozenSet {xs ys : List Value} (count : xs.length = ys.length)
      (found : allFound xs ys = true) : Equals (.frozenSet xs) (.set ys)
  | frozen {xs ys : List Value} (count : xs.length = ys.length) (found : allFound xs ys = true) :
      Equals (.frozenSet xs) (.frozenSet ys)
  | dictionary {es fs : List (Value × Value)} (count : es.length = fs.length)
      (found : allMatched es fs = true) : Equals (.dictionary es) (.dictionary fs)
  | ok {v w : Value} (payload : same v w = true) : Equals (.option (.ok v)) (.option (.ok w))
  | notOk (kind kind' : Value) : Equals (.option (.notOk kind)) (.option (.notOk kind'))
  | left {v w : Value} (kind kind' : Value) (payload : same v w = true) :
      Equals (.either (.left v kind)) (.either (.left w kind'))
  | right {v w : Value} (kind kind' : Value) (payload : same v w = true) :
      Equals (.either (.right v kind)) (.either (.right w kind'))
  | pair {v w v' w' : Value} (first : same v v' = true) (second : same w w' = true) :
      Equals (.pair ⟨v, w⟩) (.pair ⟨v', w'⟩)
  | sequence {xs ys : Value} (items : same xs ys = true) : Equals (.sequence ⟨xs⟩) (.sequence ⟨ys⟩)
  | managed (holder : Holder) {v w : Value} (basic : same v w = true) :
      Equals (.managed ⟨holder, v⟩) (.managed ⟨holder, w⟩)
  | guarded {v w : Value} (payload : same v w = true) : Equals (.guarded ⟨v⟩) (.guarded ⟨w⟩)
  | deferred {f g : Value} (run : same f g = true) : Equals (.deferred ⟨f⟩) (.deferred ⟨g⟩)
  | ternary {c v c' w : Value} (condition : same c c' = true) (payload : same v w = true) :
      Equals (.ternary ⟨c, v, none⟩) (.ternary ⟨c', w, none⟩)
  | ternaryCall {c v f c' w g : Value} (condition : same c c' = true) (payload : same v w = true)
      (call : same f g = true) : Equals (.ternary ⟨c, v, some f⟩) (.ternary ⟨c', w, some g⟩)
  | parseError {v reason n w reason' n' : Value} (input : same v w = true)
      (why : same reason reason' = true) (fallback : same n n' = true) :
      Equals (.parseError ⟨v, reason, n⟩) (.parseError ⟨w, reason', n'⟩)
  | thrown {t t' : Thrown Value} (number : t.number = t'.number) : Equals (.thrown t) (.thrown t')
  | client {c c' : Client Value Value} (number : c.number = c'.number) :
      Equals (.client c) (.client c')

theorem equals_of_same {v w : Value} (equal : same v w = true) : Equals v w := by
  revert equal
  fun_cases same v w
  all_goals
    intro equal
    try simp only [Bool.and_eq_true, beq_iff_eq] at equal
  case case1 => exact .scalar equal
  case case2 => exact .list equal
  case case3 => exact .tuple equal
  case case4 => exact .set equal.1 equal.2
  case case5 => exact .setFrozen equal.1 equal.2
  case case6 => exact .frozenSet equal.1 equal.2
  case case7 => exact .frozen equal.1 equal.2
  case case8 => exact .dictionary equal.1 equal.2
  case case9 => exact .ok equal
  case case10 => exact .notOk _ _
  case case11 => exact .left _ _ equal
  case case12 => exact .right _ _ equal
  case case13 => exact .pair equal.1 equal.2
  case case14 => exact .sequence equal
  case case15 =>
    obtain ⟨sameHolder, basic⟩ := equal
    subst sameHolder
    exact .managed _ basic
  case case16 => exact .guarded equal
  case case17 => exact .deferred equal
  case case18 => exact .ternary equal.1 equal.2
  case case19 => exact .ternaryCall equal.1.1 equal.1.2 equal.2
  case case20 => exact .parseError equal.1.1 equal.1.2 equal.2
  case case21 => exact .thrown equal
  case case22 => exact .client equal
  case case23 => cases equal

/-! ## Hashes -/

theorem isHashable_iff {v : Value} : v.isHashable = true ↔ ∃ code, v.hash = .ok code := by
  unfold isHashable
  cases v.hash <;> simp

theorem hashesAgree_iff {v w : Value} :
    hashesAgree v w = true ↔ ∃ code, v.hash = .ok code ∧ w.hash = .ok code := by
  unfold hashesAgree
  cases v.hash with
  | error kind => simp
  | ok code =>
      cases w.hash with
      | error kind => simp
      | ok code' => simpa using eq_comm

/-- Two results are the same if both are there. -/
def Concur {ε α : Type} (first second : Except ε α) : Prop :=
  ∀ a b, first = .ok a → second = .ok b → a = b

theorem Concur.refl {ε α : Type} (result : Except ε α) : Concur result result :=
  fun _ _ first second => Except.ok.inj (first.symm.trans second)

theorem Concur.bind {ε α β : Type} {first second : Except ε α} {f g : α → Except ε β}
    (concur : Concur first second) (next : ∀ a, Concur (f a) (g a)) :
    Concur (first >>= f) (second >>= g) := by
  intro x y isFirst isSecond
  cases first with
  | error fault => cases isFirst
  | ok a =>
      cases second with
      | error fault => cases isSecond
      | ok b =>
          have same := concur a b rfl rfl
          subst same
          exact next a x y isFirst isSecond

mutual

/-- Equal values with hashes have the same hash. -/
theorem hashes_concur : (v : Value) → ∀ {w : Value}, same v w = true → Concur v.hash w.hash
  | .scalar a, _, equal => by
      cases equals_of_same equal with
      | scalar equal => exact fun _ _ hashA hashB => Scalar.hash_eq_of_same equal hashA hashB
  | .list _, _, _ => fun _ _ hashV _ => by
      rw [hash] at hashV
      cases hashV
  | .set _, _, _ => fun _ _ hashV _ => by
      rw [hash] at hashV
      cases hashV
  | .dictionary _, _, _ => fun _ _ hashV _ => by
      rw [hash] at hashV
      cases hashV
  | .tuple xs, _, equal => by
      cases equals_of_same equal with
      | tuple items =>
          rw [hash, hash]
          exact hashItems_concur xs 1 items
  | .frozenSet _, _, equal => by
      cases equals_of_same equal with
      | frozenSet count found =>
          intro _ _ _ hashW
          rw [hash] at hashW
          cases hashW
      | frozen count found =>
          rw [hash, hash, count]
          exact .refl _
  | .option (.ok v), _, equal => by
      cases equals_of_same equal with
      | ok payload =>
          rw [hash, hash]
          exact (hashes_concur v payload).bind fun _ => .refl _
  | .option (.notOk _), _, equal => by
      cases equals_of_same equal with
      | notOk kind kind' =>
          rw [hash, hash]
          exact .refl _
  | .either (.left v _), _, equal => by
      cases equals_of_same equal with
      | left kind kind' payload =>
          rw [hash, hash]
          exact (hashes_concur v payload).bind fun _ => .refl _
  | .either (.right v _), _, equal => by
      cases equals_of_same equal with
      | right kind kind' payload =>
          rw [hash, hash]
          exact (hashes_concur v payload).bind fun _ => .refl _
  | .pair ⟨v, w⟩, _, equal => by
      cases equals_of_same equal with
      | pair first second =>
          rw [hash, hash]
          exact (hashes_concur v first).bind fun _ => (hashes_concur w second).bind fun _ => .refl _
  | .sequence ⟨v⟩, _, equal => by
      cases equals_of_same equal with
      | sequence items =>
          rw [hash, hash]
          exact (hashes_concur v items).bind fun _ => .refl _
  | .managed ⟨_, v⟩, _, equal => by
      cases equals_of_same equal with
      | managed holder basic =>
          rw [hash, hash]
          exact (hashes_concur v basic).bind fun _ => .refl _
  | .guarded ⟨v⟩, _, equal => by
      cases equals_of_same equal with
      | guarded payload =>
          rw [hash, hash]
          exact (hashes_concur v payload).bind fun _ => .refl _
  | .deferred ⟨v⟩, _, equal => by
      cases equals_of_same equal with
      | deferred run =>
          rw [hash, hash]
          exact (hashes_concur v run).bind fun _ => .refl _
  | .ternary ⟨c, v, none⟩, _, equal => by
      cases equals_of_same equal with
      | ternary condition payload =>
          rw [hash, hash]
          exact (hashes_concur c condition).bind fun _ =>
            (hashes_concur v payload).bind fun _ => .refl _
  | .ternary ⟨c, v, some f⟩, _, equal => by
      cases equals_of_same equal with
      | ternaryCall condition payload call =>
          rw [hash, hash]
          exact (hashes_concur c condition).bind fun _ =>
            (hashes_concur v payload).bind fun _ => (hashes_concur f call).bind fun _ => .refl _
  | .parseError ⟨v, reason, n⟩, _, equal => by
      cases equals_of_same equal with
      | parseError input why fallback =>
          rw [hash, hash]
          exact (hashes_concur v input).bind fun _ =>
            (hashes_concur reason why).bind fun _ =>
              (hashes_concur n fallback).bind fun _ => .refl _
  | .thrown _, _, equal => by
      cases equals_of_same equal with
      | thrown number =>
          rw [hash, hash, number]
          exact .refl _
  | .client _, _, equal => by
      cases equals_of_same equal with
      | client number =>
          rw [hash, hash, number]
          exact .refl _

theorem hashItems_concur : (xs : List Value) → ∀ {ys : List Value} (sofar : UInt64),
    sameItems xs ys = true → Concur (hashItems sofar xs) (hashItems sofar ys)
  | [], [], _, _ => .refl _
  | [], _ :: _, _, equal => by
      rw [sameItems] at equal
      · cases equal
      all_goals simp
  | _ :: _, [], _, equal => by
      rw [sameItems] at equal
      · cases equal
      all_goals simp
  | v :: xs, w :: ys, sofar, equal => by
      rw [sameItems, Bool.and_eq_true] at equal
      rw [hashItems, hashItems]
      exact (hashes_concur v equal.1).bind fun code =>
        hashItems_concur xs (mixHash sofar code) equal.2

end

theorem hashesAgree_of_same {v w : Value} (equal : same v w = true) (hashV : v.isHashable = true)
    (hashW : w.isHashable = true) : hashesAgree v w = true := by
  obtain ⟨code, coded⟩ := isHashable_iff.mp hashV
  obtain ⟨code', coded'⟩ := isHashable_iff.mp hashW
  rw [← hashes_concur v equal code code' coded coded'] at coded'
  exact hashesAgree_iff.mpr ⟨code, coded, coded'⟩

/-! ## Equality goes on -/

theorem bind_eq_ok {ε α β : Type} {first : Except ε α} {next : α → Except ε β} {result : β}
    (ended : first >>= next = .ok result) : ∃ a, first = .ok a ∧ next a = .ok result := by
  cases first with
  | error fault => cases ended
  | ok a => exact ⟨a, rfl, ended⟩

theorem allFound_iff {xs ys : List Value} :
    allFound xs ys = true ↔ ∀ x ∈ xs, ∃ y ∈ ys, hashesAgree x y = true ∧ same x y = true := by
  induction xs with
  | nil => simp [allFound]
  | cons x xs inductionHypothesis =>
      rw [allFound, Bool.and_eq_true, inductionHypothesis, List.any_eq_true, List.forall_mem_cons]
      simp only [Bool.and_eq_true]

/-- What equals a set of either kind is a set of either kind. -/
theorem set_of_same {v w : Value} {xs : List Value} (isSet : v = .set xs ∨ v = .frozenSet xs)
    (equal : same v w = true) :
    ∃ ys, (w = .set ys ∨ w = .frozenSet ys) ∧ xs.length = ys.length ∧ allFound xs ys = true := by
  rcases isSet with rfl | rfl
  · cases equals_of_same equal with
    | set count found => exact ⟨_, .inl rfl, count, found⟩
    | setFrozen count found => exact ⟨_, .inr rfl, count, found⟩
  · cases equals_of_same equal with
    | frozenSet count found => exact ⟨_, .inl rfl, count, found⟩
    | frozen count found => exact ⟨_, .inr rfl, count, found⟩

mutual

/-- Equality goes on from a value that has a hash. -/
theorem same_trans : (v : Value) → ∀ {w u : Value} {code : UInt64}, v.hash = .ok code →
    same v w = true → same w u = true → same v u = true
  | .scalar a, _, _, _, _, first, second => by
      cases equals_of_same first with
      | scalar first =>
          cases equals_of_same second with
          | scalar second => exact Scalar.same_trans first second
  | .list _, _, _, _, hashed, _, _ => by
      rw [hash] at hashed
      cases hashed
  | .set _, _, _, _, hashed, _, _ => by
      rw [hash] at hashed
      cases hashed
  | .dictionary _, _, _, _, hashed, _, _ => by
      rw [hash] at hashed
      cases hashed
  | .tuple xs, _, _, _, hashed, first, second => by
      cases equals_of_same first with
      | tuple first =>
          cases equals_of_same second with
          | tuple second =>
              rw [hash] at hashed
              rw [same]
              exact sameItems_trans xs hashed first second
  | .frozenSet xs, _, _, _, _, first, second => by
      obtain ⟨ys, isSet, count, found⟩ := set_of_same (.inr rfl) first
      obtain ⟨zs, isSet', count', found'⟩ := set_of_same isSet second
      have through : allFound xs zs = true := allFound_trans xs found found'
      rcases isSet' with rfl | rfl
      · rw [same, count, count', beq_self_eq_true, through, Bool.and_self]
      · rw [same, count, count', beq_self_eq_true, through, Bool.and_self]
  | .option (.ok v), _, _, _, hashed, first, second => by
      cases equals_of_same first with
      | ok first =>
          cases equals_of_same second with
          | ok second =>
              rw [hash] at hashed
              obtain ⟨a, hashA, -⟩ := bind_eq_ok hashed
              rw [same]
              exact same_trans v hashA first second
  | .option (.notOk _), _, _, _, _, first, second => by
      cases equals_of_same first with
      | notOk =>
          cases equals_of_same second with
          | notOk => rw [same]
  | .either (.left v _), _, _, _, hashed, first, second => by
      cases equals_of_same first with
      | left _ _ first =>
          cases equals_of_same second with
          | left _ _ second =>
              rw [hash] at hashed
              obtain ⟨a, hashA, -⟩ := bind_eq_ok hashed
              rw [same]
              exact same_trans v hashA first second
  | .either (.right v _), _, _, _, hashed, first, second => by
      cases equals_of_same first with
      | right _ _ first =>
          cases equals_of_same second with
          | right _ _ second =>
              rw [hash] at hashed
              obtain ⟨a, hashA, -⟩ := bind_eq_ok hashed
              rw [same]
              exact same_trans v hashA first second
  | .pair ⟨v, w⟩, _, _, _, hashed, first, second => by
      cases equals_of_same first with
      | pair left right =>
          cases equals_of_same second with
          | pair left' right' =>
              rw [hash] at hashed
              obtain ⟨a, hashA, hashed⟩ := bind_eq_ok hashed
              obtain ⟨b, hashB, -⟩ := bind_eq_ok hashed
              rw [same, Bool.and_eq_true]
              exact ⟨same_trans v hashA left left', same_trans w hashB right right'⟩
  | .sequence ⟨v⟩, _, _, _, hashed, first, second => by
      cases equals_of_same first with
      | sequence first =>
          cases equals_of_same second with
          | sequence second =>
              rw [hash] at hashed
              obtain ⟨a, hashA, -⟩ := bind_eq_ok hashed
              rw [same]
              exact same_trans v hashA first second
  | .managed ⟨_, v⟩, _, _, _, hashed, first, second => by
      cases equals_of_same first with
      | managed holder basic =>
          cases equals_of_same second with
          | managed _ basic' =>
              rw [hash] at hashed
              obtain ⟨a, hashA, -⟩ := bind_eq_ok hashed
              rw [same, beq_self_eq_true, Bool.true_and]
              exact same_trans v hashA basic basic'
  | .guarded ⟨v⟩, _, _, _, hashed, first, second => by
      cases equals_of_same first with
      | guarded first =>
          cases equals_of_same second with
          | guarded second =>
              rw [hash] at hashed
              obtain ⟨a, hashA, -⟩ := bind_eq_ok hashed
              rw [same]
              exact same_trans v hashA first second
  | .deferred ⟨v⟩, _, _, _, hashed, first, second => by
      cases equals_of_same first with
      | deferred first =>
          cases equals_of_same second with
          | deferred second =>
              rw [hash] at hashed
              obtain ⟨a, hashA, -⟩ := bind_eq_ok hashed
              rw [same]
              exact same_trans v hashA first second
  | .ternary ⟨c, v, none⟩, _, _, _, hashed, first, second => by
      cases equals_of_same first with
      | ternary condition payload =>
          cases equals_of_same second with
          | ternary condition' payload' =>
              rw [hash] at hashed
              obtain ⟨a, hashA, hashed⟩ := bind_eq_ok hashed
              obtain ⟨b, hashB, -⟩ := bind_eq_ok hashed
              rw [same, Bool.and_eq_true]
              exact ⟨same_trans c hashA condition condition', same_trans v hashB payload payload'⟩
  | .ternary ⟨c, v, some f⟩, _, _, _, hashed, first, second => by
      cases equals_of_same first with
      | ternaryCall condition payload call =>
          cases equals_of_same second with
          | ternaryCall condition' payload' call' =>
              rw [hash] at hashed
              obtain ⟨a, hashA, hashed⟩ := bind_eq_ok hashed
              obtain ⟨b, hashB, hashed⟩ := bind_eq_ok hashed
              obtain ⟨c', hashC, -⟩ := bind_eq_ok hashed
              rw [same, Bool.and_eq_true, Bool.and_eq_true]
              exact ⟨⟨same_trans c hashA condition condition',
                same_trans v hashB payload payload'⟩, same_trans f hashC call call'⟩
  | .parseError ⟨v, reason, n⟩, _, _, _, hashed, first, second => by
      cases equals_of_same first with
      | parseError input why fallback =>
          cases equals_of_same second with
          | parseError input' why' fallback' =>
              rw [hash] at hashed
              obtain ⟨a, hashA, hashed⟩ := bind_eq_ok hashed
              obtain ⟨b, hashB, hashed⟩ := bind_eq_ok hashed
              obtain ⟨c, hashC, -⟩ := bind_eq_ok hashed
              rw [same, Bool.and_eq_true, Bool.and_eq_true]
              exact ⟨⟨same_trans v hashA input input', same_trans reason hashB why why'⟩,
                same_trans n hashC fallback fallback'⟩
  | .thrown _, _, _, _, _, first, second => by
      cases equals_of_same first with
      | thrown number =>
          cases equals_of_same second with
          | thrown number' => rw [same, number, number', beq_self_eq_true]
  | .client _, _, _, _, _, first, second => by
      cases equals_of_same first with
      | client number =>
          cases equals_of_same second with
          | client number' => rw [same, number, number', beq_self_eq_true]
termination_by structural v => v

theorem sameItems_trans : (xs : List Value) → ∀ {ys zs : List Value} {sofar code : UInt64},
    hashItems sofar xs = .ok code → sameItems xs ys = true → sameItems ys zs = true →
      sameItems xs zs = true
  | [], [], _, _, _, _, _, second => second
  | [], _ :: _, _, _, _, _, first, _ => by
      rw [sameItems] at first
      · cases first
      all_goals simp
  | _ :: _, [], _, _, _, _, first, _ => by
      rw [sameItems] at first
      · cases first
      all_goals simp
  | _ :: _, _ :: _, [], _, _, _, _, second => by
      rw [sameItems] at second
      · cases second
      all_goals simp
  | v :: xs, w :: ys, u :: zs, _, _, hashed, first, second => by
      rw [sameItems, Bool.and_eq_true] at first second
      rw [hashItems] at hashed
      obtain ⟨a, hashA, hashed⟩ := bind_eq_ok hashed
      rw [sameItems, Bool.and_eq_true]
      exact ⟨same_trans v hashA first.1 second.1, sameItems_trans xs hashed first.2 second.2⟩
termination_by structural xs => xs

theorem allFound_trans : (xs : List Value) → ∀ {ys zs : List Value}, allFound xs ys = true →
    allFound ys zs = true → allFound xs zs = true
  | [], _, _, _, _ => by rw [allFound]
  | x :: xs, ys, zs, first, second => by
      rw [allFound, Bool.and_eq_true, List.any_eq_true] at first
      obtain ⟨⟨y, memberY, foundY⟩, rest⟩ := first
      obtain ⟨z, memberZ, agree', equal'⟩ := allFound_iff.mp second y memberY
      rw [Bool.and_eq_true] at foundY
      obtain ⟨code, hashX, hashY⟩ := hashesAgree_iff.mp foundY.1
      obtain ⟨code', hashY', hashZ⟩ := hashesAgree_iff.mp agree'
      rw [hashY] at hashY'
      cases hashY'
      have agree : hashesAgree x z = true := hashesAgree_iff.mpr ⟨code, hashX, hashZ⟩
      have equal : same x z = true := same_trans x hashX foundY.2 equal'
      rw [allFound, Bool.and_eq_true, List.any_eq_true]
      exact ⟨⟨z, memberZ, by rw [agree, equal, Bool.and_self]⟩, allFound_trans xs rest second⟩
termination_by structural xs => xs

end

end Value

end Presence
