import Presence.Sequence.Sort

/-!
Contract: searches among places find the border up to which places pass.

Owns: `Border`, a test that passes below a place and nowhere from it on; that leaping and searching
by halves find the border (`leap_eq`, `halve_eq`); what that means for items (`leapIn_eq`,
`insertSorted_eq`).

Does not own: what is done with the border (`Presence.Proofs.Sort.Merging`,
`Presence.Proofs.Sort.Runs`).
-/

namespace Presence.Sort

variable {α : Type}

/-- A test of places that answers for each place below a count, and passes those below a border. -/
structure Border (passes : Nat → Option Bool) (count border : Nat) : Prop where
  inside : border ≤ count
  answers : ∀ place < count, passes place = some (decide (place < border))

section Searches

variable {passes : Nat → Option Bool} {count border : Nat} (isBorder : Border passes count border)

include isBorder

/-- Growing steps end with the border between the last place that passed and the next one. -/
private theorem leapOut_spec (steps next : Nat) {last : Nat} (before : last < border)
    (enough : count ≤ next + steps) :
    ∃ last' next', leapOut passes count steps last next = some (last', next') ∧
      last' < border ∧ border ≤ next' ∧ next' ≤ count := by
  have inside := isBorder.inside
  -- On the steps left: each doubles the next place at least, which comes to the count in time.
  induction steps generalizing last next with
  | zero =>
      refine ⟨last, min next count, rfl, before, ?_, Nat.min_le_right _ _⟩
      omega
  | succ steps inductionHypothesis =>
      rw [leapOut]
      by_cases left : next < count
      · rw [if_pos left, isBorder.answers next left]
        by_cases passed : next < border
        · obtain ⟨last', next', ended, found⟩ :=
            inductionHypothesis (2 * next + 1) passed (by omega)
          exact ⟨last', next', by simp [passed, ended], found⟩
        · refine ⟨last, next, by simp [passed], before, by omega, by omega⟩
      · rw [if_neg left]
        exact ⟨last, min next count, rfl, before, by omega, Nat.min_le_right _ _⟩

/-- A search by halves ends at the border between its ends, from whichever end it looks. -/
theorem halve_eq (fromEnd : Bool) (steps low high : Nat) (below : low ≤ border)
    (above : border ≤ high) (within : high ≤ count) (enough : high ≤ low + steps) :
    halve passes fromEnd steps low high = some border := by
  induction steps generalizing low high with
  | zero =>
      have same : low = border := by omega
      rw [halve, same]
  | succ steps inductionHypothesis =>
      rw [halve]
      by_cases left : low < high
      · have notBelow : low ≤ middle fromEnd low high := by
          unfold middle
          split <;> omega
        have notAbove : middle fromEnd low high < high := by
          unfold middle
          split <;> omega
        have answer := isBorder.answers (middle fromEnd low high) (by omega)
        simp only [if_pos left, answer]
        by_cases passed : middle fromEnd low high < border
        · have goesOn := inductionHypothesis (middle fromEnd low high + 1) high
            (by omega) above within (by omega)
          simpa [passed] using goesOn
        · have goesOn := inductionHypothesis low (middle fromEnd low high)
            below (by omega) (by omega) (by omega)
          simpa [passed] using goesOn
      · have same : low = border := by omega
        rw [if_neg left, same]

/-- A leap comes to the border. -/
theorem leap_eq (fromEnd : Bool) (somePlace : 0 < count) :
    leap passes fromEnd count = some border := by
  rw [leap, isBorder.answers 0 somePlace]
  by_cases passed : 0 < border
  · obtain ⟨last, next, ended, before, behind, within⟩ :=
      leapOut_spec isBorder count 1 passed (by omega)
    have found := halve_eq isBorder fromEnd count (last + 1) next before behind within (by omega)
    simpa [passed, ended] using found
  · have same : border = 0 := by omega
    simp [same]

end Searches

/-! ## Among items -/

variable {front back : List α} {q : α → Bool}

theorem border_of_append (passed : ∀ x ∈ front, q x = true) (failed : ∀ x ∈ back, q x = false)
    {passes : Nat → Option Bool}
    (answers : ∀ (place : Nat) (x : α), (front ++ back)[place]? = some x →
      passes place = some (q x)) :
    Border passes (front ++ back).length front.length := by
  refine ⟨by simp, fun place inside => ?_⟩
  rw [answers place _ (List.getElem?_eq_getElem inside)]
  by_cases isFront : place < front.length
  · rw [List.getElem_append_left isFront, passed _ (List.getElem_mem isFront)]
    simp [isFront]
  · have isBack : front.length ≤ place := by omega
    rw [List.getElem_append_right isBack, failed _ (List.getElem_mem _)]
    simp [isFront]

/-- A leap among items comes to the first one that does not pass. -/
theorem leapIn_eq (direction : Direction) {passes : α → Option Bool} (items : front ++ back ≠ [])
    (passed : ∀ x ∈ front, passes x = some true) (failed : ∀ x ∈ back, passes x = some false) :
    leapIn direction passes (front ++ back) = some front.length := by
  have answers : ∀ (place : Nat) (x : α), (front ++ back)[place]? = some x →
      ((front ++ back)[place]?).bind passes = some ((passes x).getD false) := by
    intro place x found
    rw [found, Option.bind_some]
    rcases List.mem_append.mp (List.mem_of_getElem? found) with isFront | isBack
    · rw [passed x isFront]
      rfl
    · rw [failed x isBack]
      rfl
  have isBorder := border_of_append (fun x member => by rw [passed x member]; rfl)
    (fun x member => by rw [failed x member]; rfl) answers
  exact leap_eq isBorder _ (List.length_pos_iff.mpr items)

/-- A new item is put before the first of those that it is before. -/
theorem insertSorted_eq {before? : Before α} {entry : α}
    (notBefore : ∀ x ∈ front, before? entry x = some false)
    (isBefore : ∀ x ∈ back, before? entry x = some true) :
    insertSorted before? (front ++ back) entry = some (front ++ entry :: back) := by
  have answers : ∀ (place : Nat) (x : α), (front ++ back)[place]? = some x →
      (do return !(← before? entry (← (front ++ back).toArray[place]?))) =
        some (!((before? entry x).getD false)) := by
    intro place x found
    rw [List.getElem?_toArray, found]
    rcases List.mem_append.mp (List.mem_of_getElem? found) with isFront | isBack
    · simp [notBefore x isFront]
    · simp [isBefore x isBack]
  have isBorder := border_of_append (fun x member => by rw [notBefore x member]; rfl)
    (fun x member => by rw [isBefore x member]; rfl) answers
  have placed := halve_eq isBorder false (front ++ back).length 0 (front ++ back).length
    (Nat.zero_le _) isBorder.inside (Nat.le_refl _) (by omega)
  rw [insertSorted, placed]
  simp

end Presence.Sort
