import Mathlib.Data.List.Perm.Basic
import Presence.Sequence.Sort

/-!
Contract: what it is for items to be sorted, whatever way it is done.

Owns: `Rises`, items whose levels do not fall; `Keeps`, the same items with those of one level in
the same order; `Arranges`, both at once, which one list of items does alone (`Keeps.eq_of_rises`).

Does not own: what sorts (`Presence.Sequence.Sort`), and where levels come from
(`Presence.Proofs.Sort.Levels`).

Items are on levels, which are whole numbers, so that turning an order round is changing a sign.
-/

namespace Presence.Sort

variable {α : Type} {level : α → Int}

/-- Items none of which is on a lower level than an item before it. -/
def Rises (level : α → Int) (items : List α) : Prop := items.Pairwise fun x y => level x ≤ level y

/-- The items of one level. -/
def onLevel (level : α → Int) (height : Int) (items : List α) : List α :=
  items.filter fun x => level x = height

/-- The same items, those of each level in the same order. -/
structure Keeps (level : α → Int) (before after : List α) : Prop where
  perm : before.Perm after
  ties : ∀ height, onLevel level height before = onLevel level height after

/-- The same items sorted, those of each level as they were. -/
structure Arranges (level : α → Int) (before after : List α) : Prop where
  keeps : Keeps level before after
  rises : Rises level after

theorem onLevel_append (height : Int) (front back : List α) :
    onLevel level height (front ++ back) =
      onLevel level height front ++ onLevel level height back :=
  List.filter_append front back

private theorem onLevel_reverse (height : Int) (items : List α) :
    onLevel level height items.reverse = (onLevel level height items).reverse :=
  List.filter_reverse

private theorem onLevel_neg (height : Int) (items : List α) :
    onLevel (fun x => -level x) height items = onLevel level (-height) items := by
  refine List.filter_congr fun x _ => ?_
  have turned : -level x = height ↔ level x = -height := by omega
  simp only [turned]

private theorem onLevel_eq_nil {items : List α} {height : Int}
    (none : ∀ x ∈ items, level x ≠ height) :
    onLevel level height items = [] :=
  List.filter_eq_nil_iff.mpr fun x member => by simpa using none x member

namespace Keeps

variable {one two three one' two' : List α}

theorem refl (items : List α) : Keeps level items items := ⟨.refl items, fun _ => rfl⟩

theorem symm (keeps : Keeps level one two) : Keeps level two one :=
  ⟨keeps.perm.symm, fun height => (keeps.ties height).symm⟩

theorem trans (first : Keeps level one two) (second : Keeps level two three) :
    Keeps level one three :=
  ⟨first.perm.trans second.perm, fun height => (first.ties height).trans (second.ties height)⟩

theorem append (front : Keeps level one two) (back : Keeps level one' two') :
    Keeps level (one ++ one') (two ++ two') := by
  refine ⟨front.perm.append back.perm, fun height => ?_⟩
  rw [onLevel_append, onLevel_append, front.ties, back.ties]

private theorem reverse (keeps : Keeps level one two) : Keeps level one.reverse two.reverse := by
  refine ⟨(List.reverse_perm one).trans (keeps.perm.trans (List.reverse_perm two).symm), ?_⟩
  intro height
  rw [onLevel_reverse, onLevel_reverse, keeps.ties]

/-- Turning the order round leaves the levels apart as they were. -/
private theorem neg (keeps : Keeps level one two) : Keeps (fun x => -level x) one two := by
  refine ⟨keeps.perm, fun height => ?_⟩
  rw [onLevel_neg, onLevel_neg, keeps.ties]

/-- Items with no level in common may change places. -/
theorem swap (front back : List α) (apart : ∀ x ∈ front, ∀ y ∈ back, level x ≠ level y) :
    Keeps level (front ++ back) (back ++ front) := by
  refine ⟨List.perm_append_comm, fun height => ?_⟩
  rw [onLevel_append, onLevel_append]
  by_cases there : ∃ x ∈ front, level x = height
  · obtain ⟨x, member, isThere⟩ := there
    have noneBehind : onLevel level height back = [] :=
      onLevel_eq_nil fun y isBack isHere => apart x member y isBack (isThere.trans isHere.symm)
    rw [noneBehind, List.append_nil, List.nil_append]
  · have noneInFront : onLevel level height front = [] :=
      onLevel_eq_nil fun x member isThere => there ⟨x, member, isThere⟩
    rw [noneInFront, List.append_nil, List.nil_append]

theorem eq_nil (keeps : Keeps level [] two) : two = [] := keeps.perm.symm.eq_nil

/-- There is one way only to have the same items sorted, those of each level in the same order. -/
theorem eq_of_rises (keeps : Keeps level one two) (rises : Rises level one)
    (rises' : Rises level two) : one = two := by
  induction one generalizing two with
  | nil => exact keeps.eq_nil.symm
  | cons x rest inductionHypothesis =>
      cases two with
      | nil => exact absurd keeps.perm.eq_nil (List.cons_ne_nil x rest)
      | cons y others =>
          rw [Rises, List.pairwise_cons] at rises rises'
          -- Neither of the first items is on a higher level than the other.
          have lowest : level y ≤ level x := by
            rcases List.mem_cons.mp (keeps.perm.subset List.mem_cons_self) with same | member
            · exact Int.le_of_eq (congrArg level same.symm)
            · exact rises'.1 x member
          have lowest' : level x ≤ level y := by
            rcases List.mem_cons.mp (keeps.perm.symm.subset List.mem_cons_self) with same | member
            · exact Int.le_of_eq (congrArg level same.symm)
            · exact rises.1 y member
          have sameLevel : level y = level x := Int.le_antisymm lowest lowest'
          have first := keeps.ties (level x)
          rw [onLevel, onLevel, List.filter_cons_of_pos (by simp),
            List.filter_cons_of_pos (by simpa using sameLevel)] at first
          obtain ⟨rfl, -⟩ := List.cons.inj first
          have left : Keeps level rest others := by
            refine ⟨keeps.perm.cons_inv, fun height => ?_⟩
            have ties := keeps.ties height
            by_cases isThere : level x = height
            · rw [onLevel, onLevel, List.filter_cons_of_pos (by simpa using isThere),
                List.filter_cons_of_pos (by simpa using isThere)] at ties
              exact (List.cons.inj ties).2
            · rw [onLevel, onLevel, List.filter_cons_of_neg (by simpa using isThere),
                List.filter_cons_of_neg (by simpa using isThere)] at ties
              exact ties
          rw [inductionHypothesis left rises.2 rises'.2]

end Keeps

theorem Rises.sublist {some all : List α} (rises : Rises level all) (within : some.Sublist all) :
    Rises level some := List.Pairwise.sublist within rises

theorem rises_append {front back : List α} :
    Rises level (front ++ back) ↔
      Rises level front ∧ Rises level back ∧ ∀ x ∈ front, ∀ y ∈ back, level x ≤ level y :=
  List.pairwise_append

theorem Rises.reverse {items : List α} (rises : Rises level items) :
    Rises (fun x => -level x) items.reverse := by
  rw [Rises, List.pairwise_reverse]
  exact rises.imp fun isBelow => Int.neg_le_neg isBelow

/-- Items between others that they are not below, and not above, may be sorted by themselves. -/
theorem Arranges.between {front before after back : List α} (arranges : Arranges level before after)
    (frontRises : Rises level front) (backRises : Rises level back)
    (below : ∀ x ∈ front, ∀ y ∈ before ++ back, level x ≤ level y)
    (above : ∀ x ∈ before, ∀ y ∈ back, level x ≤ level y) :
    Arranges level (front ++ before ++ back) (front ++ after ++ back) := by
  have same : ∀ x, x ∈ after → x ∈ before := fun x member => arranges.keeps.perm.symm.subset member
  refine ⟨((Keeps.refl front).append arranges.keeps).append (.refl back), ?_⟩
  rw [List.append_assoc, rises_append, rises_append]
  refine ⟨frontRises, ⟨arranges.rises, backRises, fun x member => above x (same x member)⟩, ?_⟩
  intro x isFront y member
  refine below x isFront y ?_
  rw [List.mem_append] at member ⊢
  exact member.imp_left (same y)

theorem neg_neg_level (level : α → Int) : (fun x => - -level x) = level :=
  funext fun x => Int.neg_neg (level x)

/-- Turned round, what is sorted is sorted downwards. -/
theorem Arranges.turned {before after : List α} (arranges : Arranges level before after) :
    Arranges (fun x => -level x) before.reverse after.reverse :=
  ⟨arranges.keeps.reverse.neg, arranges.rises.reverse⟩

/-- Items that fall from each to the next are sorted by turning them round. -/
theorem keeps_reverse_of_falls {items : List α}
    (falls : items.Pairwise fun x y => level y < level x) : Keeps level items items.reverse := by
  induction items with
  | nil => exact .refl []
  | cons x rest inductionHypothesis =>
      rw [List.pairwise_cons] at falls
      rw [List.reverse_cons]
      have turned : Keeps level ([x] ++ rest) ([x] ++ rest.reverse) :=
        (Keeps.refl [x]).append (inductionHypothesis falls.2)
      refine turned.trans (.swap [x] rest.reverse ?_)
      intro first isFirst y member
      rw [List.mem_singleton.mp isFirst]
      have isBelow := falls.1 y (List.mem_reverse.mp member)
      omega

end Presence.Sort
