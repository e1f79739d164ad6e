import Mathlib.Order.Lattice
import Presence.Proofs.Sort.Runs

/-!
Contract: keys that have a strict weak order between them are sorted by it.

Owns: `StrictWeakOrder`, keys each two of which have an order between them, and a strict weak one;
`heightAmong`, the level of a key among others, which stands for its place in the order; `Arranged`,
items sorted by the order itself; that sorting arranges items upwards and downwards, and leaves
alone what it has arranged (`sort_spec`, `sortDown_spec`).

Does not own: how sorting goes (`Presence.Proofs.Sort.Runs`).

Two keys that are neither before nor after each other have the same number of keys before them, so
that their levels tell the groups of tied keys apart.
-/

namespace Presence.Sort

variable {κ α : Type}

/-- Keys in different places have an order between them, and it is a strict weak order. -/
structure StrictWeakOrder (before? : Before κ) (keys : List κ) : Prop where
  answers : keys.Pairwise fun a b => (before? a b).isSome ∧ (before? b a).isSome
  irreflexive : ∀ a ∈ keys, before? a a ≠ some true
  transitive : ∀ a ∈ keys, ∀ b ∈ keys, ∀ c ∈ keys,
    before? a b = some true → before? b c = some true → before? a c = some true
  between : ∀ a ∈ keys, ∀ b ∈ keys, ∀ c ∈ keys,
    before? a c = some true → before? a b = some true ∨ before? b c = some true

/-- Keys that are compared as what they are made of is in a linear order. -/
theorem StrictWeakOrder.of_lt {β : Type} [LinearOrder β] {before? : Before κ} {key : β → κ}
    {less : β → β → Bool} (answers : ∀ x y, before? (key x) (key y) = some (less x y))
    (isLess : ∀ x y, less x y = true ↔ x < y) (places : List β) :
    StrictWeakOrder before? (places.map key) := by
  have isBefore (x y : β) : before? (key x) (key y) = some true ↔ x < y := by
    rw [answers, Option.some_inj, isLess]
  constructor
  · refine List.pairwise_map.mpr (List.pairwise_of_forall fun x y => ?_)
    rw [answers, answers]
    exact ⟨rfl, rfl⟩
  · simp only [List.forall_mem_map, Ne, isBefore]
    exact fun x _ => lt_irrefl x
  · simp only [List.forall_mem_map, isBefore]
    exact fun x _ y _ z _ first second => lt_trans first second
  · simp only [List.forall_mem_map, isBefore]
    intro x _ y _ z _ whole
    rcases lt_or_ge x y with isBelow | notBelow
    · exact .inl isBelow
    · exact .inr (lt_of_le_of_lt notBelow whole)

/-! ## Levels -/

/-- How many keys are before a key. -/
def heightAmong (before? : Before κ) (keys : List κ) (key : κ) : Nat :=
  keys.countP fun other => before? other key == some true

private theorem countP_lt {p q : κ → Bool} {keys : List κ}
    (within : ∀ k ∈ keys, p k = true → q k = true)
    {more : κ} (member : more ∈ keys) (passes : q more = true) (fails : p more = false) :
    keys.countP p < keys.countP q := by
  induction keys with
  | nil => cases member
  | cons k keys inductionHypothesis =>
      rw [List.forall_mem_cons] at within
      have others := List.countP_mono_left within.2
      rw [List.countP_cons, List.countP_cons]
      rcases List.mem_cons.mp member with rfl | isLater
      · rw [passes, fails]
        simp only [Bool.false_eq_true, if_false, if_true]
        omega
      · have less := inductionHypothesis within.2 isLater
        by_cases isCounted : p k = true
        · rw [isCounted, within.1 isCounted]
          omega
        · rw [Bool.not_eq_true] at isCounted
          rw [isCounted, if_neg Bool.false_ne_true]
          omega

/-- A key is before another one exactly if fewer keys are before it. -/
theorem StrictWeakOrder.before_iff {before? : Before κ} {keys : List κ}
    (order : StrictWeakOrder before? keys) {a b : κ} (isA : a ∈ keys) (isB : b ∈ keys) :
    before? a b = some true ↔ heightAmong before? keys a < heightAmong before? keys b := by
  constructor
  · intro isBefore
    refine countP_lt ?_ isA (by simp [isBefore]) ?_
    · intro k isK first
      rw [beq_iff_eq] at first ⊢
      exact order.transitive k isK a isA b isB first isBefore
    · rw [Bool.eq_false_iff, Ne, beq_iff_eq]
      exact order.irreflexive a isA
  · intro isLess
    by_contra notBefore
    refine absurd isLess (Nat.not_lt.mpr (List.countP_mono_left fun k isK first => ?_))
    rw [beq_iff_eq] at first ⊢
    exact (order.between k isK a isA b isB first).resolve_right notBefore

/-- Items that are compared by their levels, and whose order their levels are. -/
structure OnLevels (before? : Before α) (level : α → Int) (items : List α) : Prop where
  compare : AllCompare before? level items
  before_iff : ∀ x ∈ items, ∀ y ∈ items, before? x y = some true ↔ level x < level y

theorem onLevels_of_order {before? : Before κ} {items : List (Keyed κ α)}
    (order : StrictWeakOrder before? (items.map Keyed.key)) :
    OnLevels before?.ofKeys (fun x => heightAmong before? (items.map Keyed.key) x.key) items := by
  have isBefore : ∀ x ∈ items, ∀ y ∈ items, before? x.key y.key = some true ↔
      (heightAmong before? (items.map Keyed.key) x.key : Int) <
        heightAmong before? (items.map Keyed.key) y.key := by
    intro x isX y isY
    rw [order.before_iff (List.mem_map_of_mem isX) (List.mem_map_of_mem isY), Int.ofNat_lt]
  have compared : ∀ x ∈ items, ∀ y ∈ items, (before? x.key y.key).isSome →
      before? x.key y.key = some (decide
        ((heightAmong before? (items.map Keyed.key) x.key : Int) <
          heightAmong before? (items.map Keyed.key) y.key)) := by
    intro x isX y isY isSome
    obtain ⟨answer, answered⟩ := Option.isSome_iff_exists.mp isSome
    have same := isBefore x isX y isY
    rw [answered, Option.some_inj] at same
    rw [answered, Option.some_inj, ← Bool.coe_iff_coe, same]
    simp
  refine ⟨(List.pairwise_map.mp order.answers).imp_of_mem ?_, isBefore⟩
  rintro x y isX isY ⟨isSome, isSome'⟩
  exact ⟨compared x isX y isY isSome, compared y isY x isX isSome'⟩

/-- The order turned round is that of the levels turned round. -/
private theorem OnLevels.turned {before? : Before α} {level : α → Int} {items : List α}
    (levels : OnLevels before? level items) :
    OnLevels (fun x y => before? y x) (fun x => -level x) items := by
  have turned (x y : α) : -level x < -level y ↔ level y < level x := by omega
  constructor
  · refine levels.compare.imp fun compares => ⟨?_, ?_⟩
    · simp only [turned]
      exact compares.back
    · simp only [turned]
      exact compares.there
  · intro x isX y isY
    rw [turned]
    exact levels.before_iff y isY x isX

/-! ## Items in order -/

/-- Whether neither of two is before the other. -/
def tied (before? : Before α) (x y : α) : Bool :=
  before? x y != some true && before? y x != some true

/-- The same items, none of them before one that it stands behind, and those that are tied as they
were. -/
structure Arranged (before? : Before α) (items sorted : List α) : Prop where
  perm : sorted.Perm items
  inOrder : sorted.Pairwise fun x y => before? y x = some false
  stable : ∀ x ∈ items, sorted.filter (tied before? x) = items.filter (tied before? x)

theorem OnLevels.arranged {before? : Before α} {level : α → Int} {items sorted : List α}
    (levels : OnLevels before? level items) (arranges : Arranges level items sorted) :
    Arranged before? items sorted := by
  refine ⟨arranges.keeps.perm.symm, ?_, fun x isX => ?_⟩
  · have both := (levels.compare.perm arranges.keeps.perm).and arranges.rises
    refine both.imp ?_
    rintro x y ⟨compares, isBelow⟩
    rw [compares.back, decide_eq_false (Int.not_lt.mpr isBelow)]
  · have tiedOnLevel : ∀ y ∈ items, tied before? x y = decide (level y = level x) := by
      intro y isY
      have there := levels.before_iff x isX y isY
      have back := levels.before_iff y isY x isX
      rw [tied, Bool.eq_iff_iff, Bool.and_eq_true, bne_iff_ne, bne_iff_ne, Ne, Ne, there, back,
        decide_eq_true_eq]
      omega
    rw [List.filter_congr fun y member => tiedOnLevel y (arranges.keeps.perm.symm.subset member),
      List.filter_congr tiedOnLevel]
    exact (arranges.keeps.ties (level x)).symm

section Sorting

variable {before? : Before κ} {items : List (Keyed κ α)}
  (order : StrictWeakOrder before? (items.map Keyed.key))

include order

/-- Sorting arranges the items, and leaves them alone another time. -/
theorem sort_spec : ∃ sorted, sort before? items = some sorted ∧
    Arranged before?.ofKeys items sorted ∧ sort before? sorted = some sorted := by
  have levels := onLevels_of_order order
  obtain ⟨sorted, ended, arranges⟩ := sortItems_spec levels.compare
  obtain ⟨again, ended', arranges'⟩ :=
    sortItems_spec (levels.compare.perm arranges.keeps.perm)
  have same : sorted = again := arranges'.keeps.eq_of_rises arranges.rises arranges'.rises
  rw [← same] at ended'
  exact ⟨sorted, ended, levels.arranged arranges, ended'⟩

/-- Sorting downwards arranges the items by the order turned round, and leaves them alone another
time. -/
theorem sortDown_spec : ∃ sorted, sortDown before? items = some sorted ∧
    Arranged (fun x y => before?.ofKeys y x) items sorted ∧
    sortDown before? sorted = some sorted ∧ sort before? items.reverse = some sorted.reverse := by
  have levels := onLevels_of_order order
  obtain ⟨sorted, ended, arranges⟩ :=
    sortItems_spec (levels.compare.perm (List.reverse_perm items).symm)
  obtain ⟨again, ended', arranges'⟩ := sortItems_spec
    ((levels.compare.perm (List.reverse_perm items).symm).perm arranges.keeps.perm)
  have same : sorted = again := arranges'.keeps.eq_of_rises arranges.rises arranges'.rises
  rw [← same] at ended'
  have down := arranges.turned
  rw [List.reverse_reverse] at down
  refine ⟨sorted.reverse, ?_, levels.turned.arranged down, ?_, ?_⟩
  · rw [sortDown, sort, ended, Option.map_some]
  · rw [sortDown, List.reverse_reverse, sort, ended', Option.map_some]
  · rw [List.reverse_reverse]
    exact ended

end Sorting

end Presence.Sort
