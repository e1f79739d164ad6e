import Presence.Proofs.Value.Similarity
import Presence.Value.Items
import Presence.Zero

/-!
Contract: what similar values hold, and what holds them.

Owns: similar values have parts of the same number, which are similar one by one where nothing is
hidden; they count as true alike; they are in the same sets and sequences, and hold the same values;
both are zeros or neither is.

Does not own: similar values, their hashes and their equality (`Presence.Proofs.Value.Similarity`).
-/

namespace Presence.Value

variable {hidden : Bool}

/-! ## Kinds and parts -/

theorem SimilarMembers.similar {v w : Value} (member : SimilarMembers false v w) :
    Similar false v w := by
  cases member with
  | member similar => exact similar
  | hiddenMember hides => cases hides

/-- Members of sets are similar values where nothing is hidden. -/
theorem forall₂_similar {xs ys : List Value} (members : List.Forall₂ (SimilarMembers false) xs ys) :
    List.Forall₂ (Similar false) xs ys :=
  members.imp fun _ _ => SimilarMembers.similar

theorem isNull_similar {v w : Value} (similar : Similar hidden v w) : v.isNull = w.isNull := by
  cases similar <;> rfl

/-- Similar values are of the same kind: those that they carry are not theirs. -/
theorem kindOf_similar {v w : Value} (similar : Similar false v w) : v.kindOf = w.kindOf := by
  cases similar with
  | hiddenThrown hides => cases hides
  | _ => rfl

theorem size?_similar : (v : Value) → ∀ {w : Value}, Similar hidden v w → v.size? = w.size?
  | .sequence ⟨v⟩, _, similar => by
      cases similar with
      | sequence container =>
          have sameSize := size?_similar v container
          exact sameSize
  | .scalar _, _, similar => by
      cases similar
      rfl
  | .list _, _, similar => by
      cases similar with
      | list items => exact congrArg some items.length_eq
  | .tuple _, _, similar => by
      cases similar with
      | tuple items => exact congrArg some items.length_eq
  | .set _, _, similar => by
      cases similar with
      | set items => exact congrArg some items.length_eq
  | .frozenSet _, _, similar => by
      cases similar with
      | frozenSet items => exact congrArg some items.length_eq
  | .dictionary _, _, similar => by
      cases similar with
      | dictionary entries => exact congrArg some entries.length_eq
  | .option _, _, similar | .either _, _, similar | .pair _, _, similar | .managed _, _, similar
  | .guarded _, _, similar | .deferred _, _, similar | .ternary _, _, similar
  | .parseError _, _, similar | .thrown _, _, similar | .client _, _, similar => by
      cases similar <;> rfl

theorem truthy?_similar {v w : Value} (similar : Similar hidden v w) : v.truthy? = w.truthy? := by
  cases similar with
  | list items | tuple items | set items | frozenSet items =>
      exact congrArg (fun empty => some !empty) (isEmpty_eq_of_forall₂ items)
  | dictionary entries => exact congrArg (fun empty => some !empty) (isEmpty_eq_of_forall₂ entries)
  | sequence container =>
      exact congrArg (Option.map fun size => size != 0) (size?_similar _ container)
  | _ => rfl

theorem parts?_similar : (v : Value) → ∀ {w : Value}, Similar false v w →
    Option.Rel (List.Forall₂ (Similar false)) v.parts? w.parts?
  | .sequence ⟨v⟩, _, similar => by
      cases similar with
      | sequence container =>
          have parts := parts?_similar v container
          exact parts
  | .scalar s, _, similar => by
      cases similar
      cases s with
      | text | bytes | byteArray => exact .some (Similar.reflItems _)
      | _ => exact .none
  | .list _, _, similar => by
      cases similar with
      | list items => exact .some items
  | .tuple _, _, similar => by
      cases similar with
      | tuple items => exact .some items
  | .set _, _, similar => by
      cases similar with
      | set items => exact .some (forall₂_similar items)
  | .frozenSet _, _, similar => by
      cases similar with
      | frozenSet items => exact .some (forall₂_similar items)
  | .dictionary _, _, similar => by
      cases similar with
      | dictionary entries =>
          refine .some ?_
          rw [List.forall₂_map_left_iff, List.forall₂_map_right_iff]
          exact entries.imp fun _ _ ⟨under, _⟩ => under
  | .option _, _, similar | .either _, _, similar | .pair _, _, similar | .managed _, _, similar
  | .guarded _, _, similar | .deferred _, _, similar | .ternary _, _, similar
  | .parseError _, _, similar | .thrown _, _, similar | .client _, _, similar => by
      cases similar <;> exact .none

/-! ## Search -/

theorem requireHash_similar {v w : Value} (similar : Similar hidden v w) :
    v.requireHash = w.requireHash := by
  rw [requireHash, requireHash, hash_similar v similar]

private theorem isAmong_similar {v w : Value} {xs ys : List Value} (similar : Similar hidden v w)
    (items : List.Forall₂ (Similar hidden) xs ys) : v.isAmong xs = w.isAmong ys :=
  any_eq_of_forall₂ items fun x _ item => same_similar x item similar

private theorem isStored_similar {v w : Value} {xs ys : List Value} (similar : Similar hidden v w)
    (members : List.Forall₂ (SimilarMembers hidden) xs ys) : v.isStored xs = w.isStored ys :=
  any_eq_of_forall₂ members fun x _ member =>
    found_similar (same_similar x) member (.member similar)

theorem frozen_similar {v w : Value} (similar : Similar hidden v w) :
    Similar hidden v.frozen w.frozen := by
  cases similar with
  | set items => exact .frozenSet items
  | scalar s => exact .scalar s
  | list items => exact .list items
  | tuple items => exact .tuple items
  | frozenSet items => exact .frozenSet items
  | dictionary entries => exact .dictionary entries
  | ok payload => exact .ok payload
  | notOk kind kind' => exact .notOk kind kind'
  | left kind kind' payload => exact .left kind kind' payload
  | right kind kind' payload => exact .right kind kind' payload
  | pair first second => exact .pair first second
  | sequence container => exact .sequence container
  | managed holder basic => exact .managed holder basic
  | guarded payload => exact .guarded payload
  | deferred run => exact .deferred run
  | ternary condition payload => exact .ternary condition payload
  | ternaryCall condition payload call => exact .ternaryCall condition payload call
  | parseError input why fallback => exact .parseError input why fallback
  | thrown number kind arguments carried => exact .thrown number kind arguments carried
  | client number users failing => exact .client number users failing
  | hiddenThrown hides number => exact .hiddenThrown hides number
  | hiddenClient hides number => exact .hiddenClient hides number

private theorem isInSet_similar {v w : Value} {xs ys : List Value} (similar : Similar hidden v w)
    (members : List.Forall₂ (SimilarMembers hidden) xs ys) : v.isInSet xs = w.isInSet ys := by
  have frozen := frozen_similar similar
  rw [isInSet, isInSet, requireHash_similar frozen, isStored_similar frozen members]

private theorem octetsHold_similar {part part' : Value} (octets : List UInt8)
    (similar : Similar hidden part part') : octetsHold octets part = octetsHold octets part' := by
  cases similar <;> rfl

/-- Similar keys are under similar keys. -/
private theorem isSome_findUnder?_similar {key key' : Value} {es fs : List (Value × Value)}
    (similar : Similar hidden key key') (entries : List.Forall₂ (SimilarEntries hidden) es fs) :
    ((findUnder? key es).mapError Fault.unhashable).map Option.isSome =
      ((findUnder? key' fs).mapError Fault.unhashable).map Option.isSome := by
  have found := find?_rel_of_forall₂ (p := fun e => hashesAgree e.1 key && e.1 == key)
    (q := fun f => hashesAgree f.1 key' && f.1 == key') entries (by
      rintro _ _ ⟨under, _⟩
      exact found_similar (same_similar _) (.member under) (.member similar))
  have sameAnswer : (findStored? key es).isSome = (findStored? key' fs).isSome := by
    rw [findStored?, findStored?, Option.isSome_map, Option.isSome_map]
    generalize es.find? _ = one, fs.find? _ = other at found ⊢
    cases found <;> rfl
  rw [findUnder?, findUnder?, requireHash_similar similar]
  cases key'.requireHash with
  | error kind => rfl
  | ok _ => exact congrArg Except.ok sameAnswer

/-- Similar values hold similar ones. -/
theorem holds_similar {v w part part' : Value} (similar : Similar false v w)
    (other : Similar false part part') : v.holds part = w.holds part' := by
  cases similar with
  | scalar s =>
      cases s with
      | text => cases other <;> rfl
      | bytes octets | byteArray octets => exact octetsHold_similar octets other
      | _ => rfl
  | list items | tuple items => exact congrArg Except.ok (isAmong_similar other items)
  | set items | frozenSet items =>
      exact congrArg (Except.mapError Fault.unhashable) (isInSet_similar other items)
  | dictionary entries => exact isSome_findUnder?_similar other entries
  | @sequence v w container =>
      have parts := parts?_similar v container
      rw [holds, holds]
      generalize v.parts? = one, w.parts? = two at parts
      cases parts with
      | none => rfl
      | some items => exact congrArg Except.ok (isAmong_similar other items)
  | _ => rfl

theorem isZero_similar {v w : Value} (similar : Similar false v w) : isZero v = isZero w := by
  have sameZero : ∀ zero : Value, (v == zero) = (w == zero) := fun zero =>
    same_similar v similar (Similar.refl zero)
  rw [isZero, isZero, isNull_similar similar, kindOf_similar similar]
  simp only [sameZero]

end Presence.Value
