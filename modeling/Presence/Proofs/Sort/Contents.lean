import Mathlib.Data.List.Basic
import Presence.Sequence.Sort

/-!
Contract: sorting gives no other items than it is given, whatever the order.

Owns: what holds of all items that are sorted holds of all items of the result (`each_sort`,
`each_sortDown`), also where the order has gaps and contradicts itself.

Does not own: that the result is sorted, and that no item is lost, which only an order grants
(`Presence.Proofs.Sort.Levels`).
-/

namespace Presence.Sort

variable {κ α : Type} {Q : α → Prop} {before? : Before α}

/-- Something holds of all items. -/
def Each (Q : α → Prop) (items : List α) : Prop := ∀ x ∈ items, Q x

theorem each_nil : Each Q ([] : List α) := List.forall_mem_nil _

theorem each_cons {x : α} {items : List α} : Each Q (x :: items) ↔ Q x ∧ Each Q items :=
  List.forall_mem_cons

theorem Each.take {items : List α} (each : Each Q items) (count : Nat) :
    Each Q (items.take count) := fun x member => each x (List.mem_of_mem_take member)

theorem Each.drop {items : List α} (each : Each Q items) (count : Nat) :
    Each Q (items.drop count) := fun x member => each x (List.mem_of_mem_drop member)

theorem Each.reverse {items : List α} (each : Each Q items) : Each Q items.reverse :=
  fun x member => each x (List.mem_reverse.mp member)

theorem Each.append {front back : List α} (first : Each Q front) (second : Each Q back) :
    Each Q (front ++ back) := List.forall_mem_append.mpr ⟨first, second⟩

/-! ## Merging -/

/-- Something holds of all items of a merge. -/
structure Merging.Each (Q : α → Prop) (m : Merging α) : Prop where
  slow : Sort.Each Q m.slow
  fast : Sort.Each Q m.fast
  taken : Sort.Each Q m.taken

namespace Merging.Each

variable {m m' : Merging α}

theorem takeSlow (each : m.Each Q) (count : Nat) : (m.takeSlow count).Each Q :=
  ⟨each.slow.drop count, each.fast, (each.slow.take count).reverse.append each.taken⟩

theorem takeFast (each : m.Each Q) (count : Nat) : (m.takeFast count).Each Q :=
  ⟨each.slow, each.fast.drop count, (each.fast.take count).reverse.append each.taken⟩

theorem all (each : m.Each Q) {rest : List α} (isRest : Sort.Each Q rest) :
    Sort.Each Q (m.all rest) := each.taken.reverse.append isRest

private theorem rest? (each : m.Each Q) {rest : List α} (isRest : m.rest? = some rest) :
    Sort.Each Q rest := by
  unfold Merging.rest? at isRest
  split at isRest
  · cases isRest
    exact each.fast
  · next isSlow =>
      cases isRest
      exact each.fast.append (isSlow ▸ each.slow)
  · cases isRest
    exact each.slow
  · cases isRest

private theorem makeMove (each : m.Each Q) {direction : Direction} {move : Move} {count : Nat}
    (moved : makeMove direction before? move m = some (m', count)) : m'.Each Q := by
  unfold Sort.makeMove at moved
  split at moved
  · obtain ⟨_, _, moved⟩ := Option.bind_eq_some_iff.mp moved
    cases moved
    exact each.takeSlow count
  · obtain ⟨_, _, moved⟩ := Option.bind_eq_some_iff.mp moved
    cases moved
    exact each.takeFast count
  · cases moved
    exact each.takeSlow 1
  · cases moved
    exact each.takeFast 1
  · cases moved
    exact each

private theorem makeMoves (each : m.Each Q) {direction : Direction} {moves : List Move}
    {longest count : Nat}
    (moved : makeMoves direction before? longest moves m = some (m', count)) : m'.Each Q := by
  induction moves generalizing m longest with
  | nil =>
      cases moved
      exact each
  | cons move moves inductionHypothesis =>
      unfold Sort.makeMoves at moved
      split at moved
      · cases moved
        exact each
      · obtain ⟨⟨between, leapt⟩, isMove, moved⟩ := Option.bind_eq_some_iff.mp moved
        exact inductionHypothesis (each.makeMove isMove) moved

end Merging.Each

private theorem each_mergeWith {direction : Direction} {steps patience patience' : Nat}
    {pace : Pace} {m : Merging α} {merged : List α} (each : m.Each Q)
    (ended : mergeWith direction before? steps patience pace m = some (merged, patience')) :
    Each Q merged := by
  induction steps generalizing patience pace m with
  | zero =>
      cases ended
      exact each.all (each.slow.append each.fast)
  | succ steps inductionHypothesis =>
      unfold mergeWith at ended
      split at ended
      · next isRest =>
          cases ended
          exact each.all (each.rest? isRest)
      · obtain ⟨wins, _, ended⟩ := Option.bind_eq_some_iff.mp ended
        split at ended
        · exact inductionHypothesis (each.takeFast 1) ended
        · exact inductionHypothesis (each.takeSlow 1) ended
      · obtain ⟨⟨between, longest⟩, moved, ended⟩ := Option.bind_eq_some_iff.mp ended
        have between := each.makeMoves moved
        dsimp only at ended
        split at ended
        · next isRest =>
            cases ended
            exact between.all (between.rest? isRest)
        · split at ended
          · exact inductionHypothesis between ended
          · exact inductionHypothesis between ended
      · cases ended
        exact each.all (each.slow.append each.fast)

private theorem each_merge {patience patience' : Nat} {first second merged : List α}
    (isFirst : Each Q first) (isSecond : Each Q second)
    (ended : merge before? patience first second = some (merged, patience')) :
    Each Q merged := by
  unfold merge at ended
  dsimp only at ended
  split at ended
  · exact each_mergeWith (Merging.Each.takeFast ⟨isFirst, isSecond, each_nil⟩ 1) ended
  · obtain ⟨⟨items, _⟩, isMerged, ended⟩ := Option.bind_eq_some_iff.mp ended
    cases ended
    exact (each_mergeWith (Merging.Each.takeFast ⟨isSecond.reverse, isFirst.reverse, each_nil⟩ 1)
      isMerged).reverse

theorem each_join {patience patience' : Nat} {first second joined : List α}
    (isFirst : Each Q first) (isSecond : Each Q second)
    (ended : join before? patience first second = some (joined, patience')) : Each Q joined := by
  unfold join at ended
  split at ended
  · cases ended
    exact isFirst
  · obtain ⟨front, _, ended⟩ := Option.bind_eq_some_iff.mp ended
    dsimp only at ended
    split at ended
    · cases ended
      exact isFirst.append isSecond
    · obtain ⟨back, _, ended⟩ := Option.bind_eq_some_iff.mp ended
      split at ended
      · cases ended
        exact isFirst.append isSecond
      · obtain ⟨⟨merged, _⟩, isMerged, ended⟩ := Option.bind_eq_some_iff.mp ended
        cases ended
        exact ((isFirst.take front).append (each_merge (isFirst.drop front)
          (isSecond.take _) isMerged)).append (isSecond.drop _)

/-! ## Runs -/

private theorem spanRun_append {falling : Bool} {last : α} {items run rest : List α}
    (ended : spanRun before? falling last items = some (run, rest)) : run ++ rest = items := by
  induction items generalizing last run rest with
  | nil =>
      cases ended
      rfl
  | cons next items inductionHypothesis =>
      unfold spanRun at ended
      obtain ⟨answer, _, ended⟩ := Option.bind_eq_some_iff.mp ended
      split at ended
      · obtain ⟨⟨others, left⟩, isSpan, ended⟩ := Option.bind_eq_some_iff.mp ended
        cases ended
        rw [List.cons_append, inductionHypothesis isSpan]
      · cases ended
        rfl

private theorem each_frontRun {items run rest : List α} (each : Each Q items)
    (ended : frontRun before? items = some (run, rest)) : Each Q run ∧ Each Q rest := by
  unfold frontRun at ended
  split at ended
  · obtain ⟨falling, _, ended⟩ := Option.bind_eq_some_iff.mp ended
    obtain ⟨⟨others, left⟩, isSpan, ended⟩ := Option.bind_eq_some_iff.mp ended
    rw [← spanRun_append isSpan, ← List.cons_append, ← List.cons_append] at each
    obtain ⟨isRun, isRest⟩ := List.forall_mem_append.mp each
    cases ended
    refine ⟨?_, isRest⟩
    split
    · exact Each.reverse isRun
    · exact isRun
  · cases ended
    exact ⟨each, each_nil⟩

private theorem each_insertSorted {sorted made : List α} {entry : α} (each : Each Q sorted)
    (isEntry : Q entry) (ended : insertSorted before? sorted entry = some made) :
    Each Q made := by
  unfold insertSorted at ended
  obtain ⟨place, _, ended⟩ := Option.bind_eq_some_iff.mp ended
  cases ended
  exact (each.take place).append (each_cons.mpr ⟨isEntry, each.drop place⟩)

private theorem each_insertAll {new sorted made : List α} (each : Each Q sorted)
    (isNew : Each Q new)
    (ended : new.foldlM (insertSorted before?) sorted = some made) : Each Q made := by
  induction new generalizing sorted with
  | nil =>
      cases ended
      exact each
  | cons entry new inductionHypothesis =>
      rw [each_cons] at isNew
      rw [List.foldlM_cons] at ended
      obtain ⟨next, inserted, ended⟩ := Option.bind_eq_some_iff.mp ended
      exact inductionHypothesis (each_insertSorted each isNew.1 inserted) isNew.2 ended

private theorem each_longRun {least : Nat} {items run rest : List α} (each : Each Q items)
    (ended : longRun before? least items = some (run, rest)) : Each Q run ∧ Each Q rest := by
  unfold longRun at ended
  obtain ⟨⟨front, left⟩, isFront, ended⟩ := Option.bind_eq_some_iff.mp ended
  obtain ⟨isRun, isRest⟩ := each_frontRun each isFront
  obtain ⟨long, inserted, ended⟩ := Option.bind_eq_some_iff.mp ended
  cases ended
  exact ⟨each_insertAll isRun (Each.take isRest _) inserted, Each.drop isRest _⟩

/-- Something holds of all items of some runs. -/
def EachRun (Q : α → Prop) (runs : List (Run α)) : Prop := ∀ run ∈ runs, Each Q run.items

theorem eachRun_nil : EachRun Q ([] : List (Run α)) := List.forall_mem_nil _

theorem eachRun_cons {run : Run α} {runs : List (Run α)} :
    EachRun Q (run :: runs) ↔ Each Q run.items ∧ EachRun Q runs := List.forall_mem_cons

private theorem eachRun_mergeDeeper {power steps : Nat} {pending later : Pending α}
    (each : EachRun Q pending.runs)
    (ended : mergeDeeper before? power steps pending = some later) : EachRun Q later.runs := by
  induction steps generalizing pending with
  | zero =>
      cases ended
      exact each
  | succ steps inductionHypothesis =>
      unfold mergeDeeper at ended
      split at ended
      · next last previous others isRuns =>
          split at ended
          · obtain ⟨⟨items, patience⟩, isJoin, ended⟩ := Option.bind_eq_some_iff.mp ended
            rw [isRuns, eachRun_cons, eachRun_cons] at each
            obtain ⟨isLast, isPrevious, isOthers⟩ := each
            exact inductionHypothesis
              (eachRun_cons.mpr ⟨each_join isPrevious isLast isJoin, isOthers⟩) ended
          · cases ended
            exact each
      · cases ended
        exact each

private theorem eachRun_addRun {size : Nat} {pending later : Pending α} {items : List α}
    (each : EachRun Q pending.runs) (isItems : Each Q items)
    (ended : addRun before? size pending items = some later) : EachRun Q later.runs := by
  unfold addRun at ended
  split at ended
  · cases ended
    exact eachRun_cons.mpr ⟨isItems, eachRun_nil⟩
  · obtain ⟨between, isMerged, ended⟩ := Option.bind_eq_some_iff.mp ended
    have merged := eachRun_mergeDeeper each isMerged
    split at ended
    · next last others isRuns =>
        rw [isRuns, eachRun_cons] at merged
        cases ended
        exact eachRun_cons.mpr ⟨isItems, eachRun_cons.mpr merged⟩
    · cases ended
      exact eachRun_cons.mpr ⟨isItems, eachRun_nil⟩

private theorem eachRun_addRuns {size steps : Nat} {pending later : Pending α} {items : List α}
    (each : EachRun Q pending.runs) (isItems : Each Q items)
    (ended : addRuns before? size steps pending items = some later) : EachRun Q later.runs := by
  induction steps generalizing pending items with
  | zero =>
      cases ended
      exact each
  | succ steps inductionHypothesis =>
      cases items with
      | nil =>
          cases ended
          exact each
      | cons item items =>
          rw [addRuns] at ended
          · obtain ⟨⟨run, rest⟩, isRun, ended⟩ := Option.bind_eq_some_iff.mp ended
            obtain ⟨between, added, ended⟩ := Option.bind_eq_some_iff.mp ended
            obtain ⟨isFront, isRest⟩ := each_longRun isItems isRun
            exact inductionHypothesis (eachRun_addRun each isFront added) isRest ended
          · exact nofun

private theorem each_mergeAll {steps : Nat} {pending : Pending α} {merged : List α}
    (each : EachRun Q pending.runs) (ended : mergeAll before? steps pending = some merged) :
    Each Q merged := by
  induction steps generalizing pending with
  | zero =>
      cases ended
      intro x member
      obtain ⟨run, isRun, isItem⟩ := List.mem_flatMap.mp member
      exact each run (List.mem_reverse.mp isRun) x isItem
  | succ steps inductionHypothesis =>
      unfold mergeAll at ended
      split at ended
      · cases ended
        exact each_nil
      · next isRuns =>
          rw [isRuns, eachRun_cons] at each
          cases ended
          exact each.1
      · next isRuns =>
          rw [isRuns, eachRun_cons, eachRun_cons] at each
          obtain ⟨⟨items, _⟩, isJoin, ended⟩ := Option.bind_eq_some_iff.mp ended
          cases ended
          exact each_join each.2.1 each.1 isJoin
      · next isRuns =>
          rw [isRuns, eachRun_cons, eachRun_cons, eachRun_cons] at each
          obtain ⟨isLast, isPrevious, isThird, isOthers⟩ := each
          split at ended
          · obtain ⟨⟨items, patience⟩, isJoin, ended⟩ := Option.bind_eq_some_iff.mp ended
            exact inductionHypothesis (eachRun_cons.mpr ⟨isLast,
              eachRun_cons.mpr ⟨each_join isThird isPrevious isJoin, isOthers⟩⟩) ended
          · obtain ⟨⟨items, patience⟩, isJoin, ended⟩ := Option.bind_eq_some_iff.mp ended
            exact inductionHypothesis (eachRun_cons.mpr ⟨each_join isPrevious isLast isJoin,
              eachRun_cons.mpr ⟨isThird, isOthers⟩⟩) ended

/-! ## Sorting -/

variable {order? : Before κ} {Q : Keyed κ α → Prop} {items sorted : List (Keyed κ α)}

/-- What holds of all items holds of the sorted ones. -/
theorem each_sort (each : Each Q items) (ended : sort order? items = some sorted) :
    Each Q sorted := by
  obtain ⟨pending, isPending, ended⟩ := Option.bind_eq_some_iff.mp ended
  exact each_mergeAll (eachRun_addRuns eachRun_nil each isPending) ended

theorem each_sortDown (each : Each Q items) (ended : sortDown order? items = some sorted) :
    Each Q sorted := by
  obtain ⟨upwards, isSorted, rfl⟩ := Option.map_eq_some_iff.mp ended
  exact (each_sort each.reverse isSorted).reverse

end Presence.Sort
