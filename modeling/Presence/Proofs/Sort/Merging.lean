import Presence.Proofs.Sort.Arrangement
import Presence.Proofs.Sort.Leaping

/-!
Contract: two sorted runs that stand side by side are merged into one.

Owns: `Compares`, two that are compared by their levels; `Ready`, what holds of a merge under way;
`Completes`, what a merge under way must come to; `Leads`, what keeps the one and leads to the
other; that moves by turns do (`moveWell_moves`), and that the merge comes to its end
(`mergeWith_spec`); joining two runs (`join_spec`).

Does not own: which runs are joined (`Presence.Proofs.Sort.Runs`).

Taking from either run is right as long as what is taken is not above anything that is left, and
from the run that goes second where levels are equal, only if it is below all that is left of the
other. The last item of the slow run is above all of the fast one, so that the slow run is never
used up before the other.
-/

namespace Presence.Sort

variable {α : Type} {before? : Before α} {level : α → Int}

/-- Two that are compared by their levels, whichever is asked for first. -/
structure Compares (before? : Before α) (level : α → Int) (x y : α) : Prop where
  there : before? x y = some (decide (level x < level y))
  back : before? y x = some (decide (level y < level x))

theorem Compares.symm {x y : α} (compares : Compares before? level x y) :
    Compares before? level y x := ⟨compares.back, compares.there⟩

/-- The levels as they are met in the direction of a merge. -/
def Direction.levels (direction : Direction) (level : α → Int) : α → Int :=
  match direction with
  | .forwards => level
  | .backwards => fun x => -level x

private theorem Compares.fastWins {slow fast : α} (compares : Compares before? level slow fast)
    (direction : Direction) : direction.fastWins before? slow fast =
      some (decide (direction.levels level fast < direction.levels level slow)) := by
  cases direction with
  | forwards => exact compares.back
  | backwards =>
      have turned : -level fast < -level slow ↔ level slow < level fast := by omega
      rw [Direction.fastWins, compares.there, Direction.levels]
      simp only [turned]

/-! ## Merges under way -/

/-- Runs that are sorted and are compared by their levels, and of which the slow one ends above all
of the other. -/
structure Ready (direction : Direction) (before? : Before α) (level : α → Int)
    (m : Merging α) : Prop where
  wins : ∀ s ∈ m.slow, ∀ f ∈ m.fast,
    direction.fastWins before? s f = some (decide (level f < level s))
  slowRises : Rises level m.slow
  fastRises : Rises level m.fast
  ends : ∀ s ∈ m.slow.getLast?, ∀ f ∈ m.fast, level f < level s

/-- A result that has what is left sorted behind what was taken. -/
def Completes (level : α → Int) (m : Merging α) (result : List α) : Prop :=
  ∃ merged, result = m.taken.reverse ++ merged ∧ Arranges level (m.slow ++ m.fast) merged

/-- How many items are left. -/
def Merging.left (m : Merging α) : Nat := m.slow.length + m.fast.length

variable {direction : Direction} {m : Merging α}

private theorem Ready.takeSlow (ready : Ready direction before? level m) (count : Nat) :
    Ready direction before? level (m.takeSlow count) where
  wins s isSlow f isFast := ready.wins s (List.mem_of_mem_drop isSlow) f isFast
  slowRises := ready.slowRises.sublist (List.drop_sublist count m.slow)
  fastRises := ready.fastRises
  ends := by
    intro s isLast f isFast
    refine ready.ends s ?_ f isFast
    rw [Merging.takeSlow, Option.mem_def, List.getLast?_drop] at isLast
    split at isLast
    · cases isLast
    · exact isLast

private theorem Ready.takeFast (ready : Ready direction before? level m) (count : Nat) :
    Ready direction before? level (m.takeFast count) where
  wins s isSlow f isFast := ready.wins s isSlow f (List.mem_of_mem_drop isFast)
  slowRises := ready.slowRises
  fastRises := ready.fastRises.sublist (List.drop_sublist count m.fast)
  ends s isLast f isFast := ready.ends s isLast f (List.mem_of_mem_drop isFast)

/-- Items of the slow run may be taken if they are not above what is left of the fast one. -/
private theorem completes_takeSlow (ready : Ready direction before? level m) {count : Nat}
    (first : ∀ s ∈ m.slow.take count, ∀ f ∈ m.fast, level s ≤ level f) {result : List α}
    (completes : Completes level (m.takeSlow count) result) : Completes level m result := by
  obtain ⟨merged, isResult, keeps, rises⟩ := completes
  have split := ready.slowRises
  rw [← List.take_append_drop count m.slow, rises_append] at split
  refine ⟨m.slow.take count ++ merged, ?_, ?_, rises_append.mpr ⟨split.1, rises, ?_⟩⟩
  · rw [isResult, Merging.takeSlow]
    simp
  · have before : Keeps level (m.slow.take count) (m.slow.take count) := .refl _
    have together := before.append keeps
    rw [← List.append_assoc] at together
    simpa only [Merging.takeSlow, List.take_append_drop] using together
  · intro s isTaken x member
    rcases List.mem_append.mp (keeps.perm.symm.subset member) with isSlow | isFast
    · exact split.2.2 s isTaken x isSlow
    · exact first s isTaken x isFast

/-- Items of the fast run may be taken if they are below what is left of the slow one. -/
private theorem completes_takeFast (ready : Ready direction before? level m) {count : Nat}
    (first : ∀ f ∈ m.fast.take count, ∀ s ∈ m.slow, level f < level s) {result : List α}
    (completes : Completes level (m.takeFast count) result) : Completes level m result := by
  obtain ⟨merged, isResult, keeps, rises⟩ := completes
  have split := ready.fastRises
  rw [← List.take_append_drop count m.fast, rises_append] at split
  refine ⟨m.fast.take count ++ merged, ?_, ?_, rises_append.mpr ⟨split.1, rises, ?_⟩⟩
  · rw [isResult, Merging.takeFast]
    simp
  · -- What is taken goes past the slow run, with which it has no level in common.
    have past : Keeps level (m.slow ++ m.fast.take count) (m.fast.take count ++ m.slow) :=
      .swap _ _ fun s isSlow f isTaken => (Int.ne_of_lt (first f isTaken s isSlow)).symm
    have together := past.append (Keeps.refl (m.fast.drop count))
    rw [List.append_assoc, List.append_assoc, List.take_append_drop] at together
    exact together.trans ((Keeps.refl _).append keeps)
  · intro f isTaken x member
    rcases List.mem_append.mp (keeps.perm.symm.subset member) with isSlow | isFast
    · exact Int.le_of_lt (first f isTaken x isSlow)
    · exact split.2.2 f isTaken x isFast

/-- Once no comparison is needed any more, what is left can be put behind what was taken. -/
private theorem completes_rest (ready : Ready direction before? level m) {rest : List α}
    (isRest : m.rest? = some rest) : Completes level m (m.all rest) := by
  refine ⟨rest, rfl, ?_⟩
  obtain ⟨slow, fast, taken⟩ := m
  match slow, fast with
  | [], fast =>
      cases isRest
      exact ⟨.refl fast, ready.fastRises⟩
  | [last], fast =>
      cases isRest
      have above : ∀ f ∈ fast, level f < level last := ready.ends last rfl
      refine ⟨.swap [last] fast ?_, rises_append.mpr ⟨ready.fastRises, ready.slowRises, ?_⟩⟩
      · intro s isLast f isFast
        rw [List.mem_singleton.mp isLast]
        exact (Int.ne_of_lt (above f isFast)).symm
      · intro f isFast s isLast
        rw [List.mem_singleton.mp isLast]
        exact Int.le_of_lt (above f isFast)
  | first :: second :: slow, [] =>
      cases isRest
      rw [List.append_nil]
      exact ⟨.refl _, ready.slowRises⟩
  | first :: second :: slow, next :: fast => cases isRest

/-- As long as a comparison is needed, there is a next item of either run. -/
theorem exists_next_of_rest?_eq_none (goesOn : m.rest? = none) :
    ∃ s slow f fast, m.slow = s :: slow ∧ m.fast = f :: fast := by
  obtain ⟨slow, fast, taken⟩ := m
  cases slow with
  | nil => cases goesOn
  | cons s slow =>
      cases fast with
      | nil => cases slow <;> cases goesOn
      | cons f fast => exact ⟨s, slow, f, fast, rfl, rfl⟩

/-! ## Moves -/

/-- Sorted items that pass below some level stand in front of those that do not. -/
theorem Rises.exists_split {items : List α} (rises : Rises level items) {q : α → Bool}
    (lower : ∀ x y, level x ≤ level y → q y = true → q x = true) :
    ∃ front back, items = front ++ back ∧ (∀ x ∈ front, q x = true) ∧ ∀ x ∈ back, q x = false := by
  induction items with
  | nil => exact ⟨[], [], rfl, nofun, nofun⟩
  | cons x rest inductionHypothesis =>
      rw [Rises, List.pairwise_cons] at rises
      by_cases passed : q x = true
      · obtain ⟨front, back, rfl, inFront, inBack⟩ := inductionHypothesis rises.2
        exact ⟨x :: front, back, rfl, List.forall_mem_cons.mpr ⟨passed, inFront⟩, inBack⟩
      · refine ⟨[], x :: rest, rfl, nofun, List.forall_mem_cons.mpr ⟨by simpa using passed, ?_⟩⟩
        intro y member
        rw [Bool.eq_false_iff]
        exact fun isHigher => passed (lower x y (rises.1 y member) isHigher)

/-- What one move or some of them make of a merge under way: one that is ready as well, that leads
to the same results, and that has no more items left. -/
structure Leads (direction : Direction) (before? : Before α) (level : α → Int)
    (m m' : Merging α) : Prop where
  ready : Ready direction before? level m'
  completes : ∀ result, Completes level m' result → Completes level m result
  left : m'.left ≤ m.left

theorem Leads.refl (ready : Ready direction before? level m) :
    Leads direction before? level m m := ⟨ready, fun _ completes => completes, Nat.le_refl _⟩

private theorem Leads.trans {m' m'' : Merging α} (first : Leads direction before? level m m')
    (second : Leads direction before? level m' m'') : Leads direction before? level m m'' :=
  ⟨second.ready, fun result completes => first.completes result (second.completes result completes),
    Nat.le_trans second.left first.left⟩

theorem leads_takeSlow (ready : Ready direction before? level m) {count : Nat}
    (first : ∀ s ∈ m.slow.take count, ∀ f ∈ m.fast, level s ≤ level f) :
    Leads direction before? level m (m.takeSlow count) := by
  refine ⟨ready.takeSlow count, fun result => completes_takeSlow ready first, ?_⟩
  simp only [Merging.left, Merging.takeSlow, List.length_drop]
  omega

theorem leads_takeFast (ready : Ready direction before? level m) {count : Nat}
    (first : ∀ f ∈ m.fast.take count, ∀ s ∈ m.slow, level f < level s) :
    Leads direction before? level m (m.takeFast count) := by
  refine ⟨ready.takeFast count, fun result => completes_takeFast ready first, ?_⟩
  simp only [Merging.left, Merging.takeFast, List.length_drop]
  omega

/-- The next item of a sorted run is not above those behind it. -/
theorem Rises.next_le {items : List α} {next : α} {rest : List α} (rises : Rises level items)
    (isNext : items = next :: rest) : ∀ x ∈ items, level next ≤ level x := by
  subst isNext
  intro x member
  rcases List.mem_cons.mp member with rfl | isRest
  · exact Int.le_refl _
  · exact (List.pairwise_cons.mp rises).1 x isRest

/-- No item of a sorted run is above its last one. -/
private theorem Rises.le_final {items : List α} {final : α} (rises : Rises level items)
    (isFinal : items.getLast? = some final) : ∀ x ∈ items, level x ≤ level final := by
  obtain ⟨rest, rfl⟩ := List.getLast?_eq_some_iff.mp isFinal
  intro x member
  rcases List.mem_append.mp member with isRest | isLast
  · exact (rises_append.mp rises).2.2 x isRest final (List.mem_singleton_self final)
  · exact Int.le_of_eq (congrArg level (List.mem_singleton.mp isLast))

/-- The slow run leaps over what is not above the next item of the fast one. -/
private theorem leapSlow_spec (ready : Ready direction before? level m) {s f : α}
    {slow fast : List α} (isSlow : m.slow = s :: slow) (isFast : m.fast = f :: fast) :
    ∃ count, makeMove direction before? .leapSlow m = some (m.takeSlow count, count) ∧
      Leads direction before? level m (m.takeSlow count) ∧
      ∀ x ∈ (m.takeSlow count).slow, level f < level x := by
  have nextFast := ready.fastRises.next_le isFast
  have memberFast : f ∈ m.fast := by rw [isFast]; exact List.mem_cons_self
  obtain ⟨front, back, split, inFront, inBack⟩ :=
    ready.slowRises.exists_split (q := fun x => decide (level x ≤ level f))
      fun x y below isPassed => decide_eq_true (Int.le_trans below (of_decide_eq_true isPassed))
  have passes : ∀ x ∈ m.slow, (do return !(← direction.fastWins before? x f)) =
      some (decide (level x ≤ level f)) := by
    intro x member
    have turned : (!decide (level f < level x)) = decide (level x ≤ level f) := by
      rw [← decide_not, decide_eq_decide, Int.not_lt]
    rw [ready.wins x member f memberFast, ← turned]
    rfl
  have leapt : leapIn direction (fun x => do return !(← direction.fastWins before? x f)) m.slow =
      some front.length := by
    rw [split] at passes ⊢
    refine leapIn_eq direction (by rw [← split, isSlow]; exact List.cons_ne_nil s slow) ?_ ?_
    · intro x member
      rw [passes x (List.mem_append_left _ member), inFront x member]
    · intro x member
      rw [passes x (List.mem_append_right _ member), inBack x member]
  have taken : m.slow.take front.length = front := by rw [split, List.take_left]
  have left : m.slow.drop front.length = back := by rw [split, List.drop_left]
  refine ⟨front.length, ?_, leads_takeSlow ready ?_, ?_⟩
  · unfold makeMove
    rw [isFast]
    simp only [leapt]
    rfl
  · intro x member y isFast
    rw [taken] at member
    exact Int.le_trans (of_decide_eq_true (inFront x member)) (nextFast y isFast)
  · intro x member
    rw [Merging.takeSlow, left] at member
    exact Int.not_le.mp (of_decide_eq_false (inBack x member))

/-- The fast run leaps over what is below the next item of the slow one. -/
private theorem leapFast_spec (ready : Ready direction before? level m) {s f : α}
    {slow fast : List α} (isSlow : m.slow = s :: slow) (isFast : m.fast = f :: fast) :
    ∃ count, makeMove direction before? .leapFast m = some (m.takeFast count, count) ∧
      Leads direction before? level m (m.takeFast count) ∧
      ∀ x ∈ (m.takeFast count).fast, level s ≤ level x := by
  have nextSlow := ready.slowRises.next_le isSlow
  have memberSlow : s ∈ m.slow := by rw [isSlow]; exact List.mem_cons_self
  obtain ⟨front, back, split, inFront, inBack⟩ :=
    ready.fastRises.exists_split (q := fun x => decide (level x < level s))
      fun x y below isPassed =>
        decide_eq_true (Int.lt_of_le_of_lt below (of_decide_eq_true isPassed))
  have leapt : leapIn direction (direction.fastWins before? s) m.fast = some front.length := by
    have passes := ready.wins s memberSlow
    rw [split] at passes ⊢
    refine leapIn_eq direction (by rw [← split, isFast]; exact List.cons_ne_nil f fast) ?_ ?_
    · intro x member
      rw [passes x (List.mem_append_left _ member), inFront x member]
    · intro x member
      rw [passes x (List.mem_append_right _ member), inBack x member]
  have taken : m.fast.take front.length = front := by rw [split, List.take_left]
  have left : m.fast.drop front.length = back := by rw [split, List.drop_left]
  refine ⟨front.length, ?_, leads_takeFast ready ?_, ?_⟩
  · unfold makeMove
    rw [isSlow]
    simp only [leapt]
    rfl
  · intro x member y isSlow
    rw [taken] at member
    exact Int.lt_of_lt_of_le (of_decide_eq_true (inFront x member)) (nextSlow y isSlow)
  · intro x member
    rw [Merging.takeFast, left] at member
    exact Int.not_lt.mp (of_decide_eq_false (inBack x member))

/-- A step of the slow run takes its next item. -/
theorem leads_stepSlow (ready : Ready direction before? level m) {s : α} {slow : List α}
    (isSlow : m.slow = s :: slow) (first : ∀ y ∈ m.fast, level s ≤ level y) :
    Leads direction before? level m (m.takeSlow 1) ∧ (m.takeSlow 1).left < m.left := by
  refine ⟨leads_takeSlow ready fun x member => ?_, ?_⟩
  · rw [isSlow] at member
    rw [List.mem_singleton.mp member]
    exact first
  · simp only [Merging.left, Merging.takeSlow, isSlow, List.length_drop, List.length_cons]
    omega

/-- A step of the fast run takes its next item. -/
theorem leads_stepFast (ready : Ready direction before? level m) {f : α} {fast : List α}
    (isFast : m.fast = f :: fast) (first : ∀ y ∈ m.slow, level f < level y) :
    Leads direction before? level m (m.takeFast 1) ∧ (m.takeFast 1).left < m.left := by
  refine ⟨leads_takeFast ready fun x member => ?_, ?_⟩
  · rw [isFast] at member
    rw [List.mem_singleton.mp member]
    exact first
  · simp only [Merging.left, Merging.takeFast, isFast, List.length_drop, List.length_cons]
    omega

/-- After a leap of the slow run the fast one may take a step. -/
private theorem slowLeaps_spec (ready : Ready direction before? level m) (goesOn : m.rest? = none) :
    ∃ m' count, makeMove direction before? .leapSlow m = some (m', count) ∧
      Leads direction before? level m m' ∧
      (m'.rest? = none → ∃ m'', makeMove direction before? .stepFast m' = some (m'', 0) ∧
        Leads direction before? level m' m'' ∧ m''.left < m'.left) := by
  obtain ⟨s, slow, f, fast, isSlow, isFast⟩ := exists_next_of_rest?_eq_none goesOn
  obtain ⟨count, moved, leads, above⟩ := leapSlow_spec ready isSlow isFast
  exact ⟨_, count, moved, leads, fun _ => ⟨_, rfl, leads_stepFast leads.ready isFast above⟩⟩

/-- After a leap of the fast run the slow one may take a step. -/
private theorem fastLeaps_spec (ready : Ready direction before? level m) (goesOn : m.rest? = none) :
    ∃ m' count, makeMove direction before? .leapFast m = some (m', count) ∧
      Leads direction before? level m m' ∧
      (m'.rest? = none → ∃ m'', makeMove direction before? .stepSlow m' = some (m'', 0) ∧
        Leads direction before? level m' m'' ∧ m''.left < m'.left) := by
  obtain ⟨s, slow, f, fast, isSlow, isFast⟩ := exists_next_of_rest?_eq_none goesOn
  obtain ⟨count, moved, leads, above⟩ := leapFast_spec ready isSlow isFast
  exact ⟨_, count, moved, leads, fun _ => ⟨_, rfl, leads_stepSlow leads.ready isSlow above⟩⟩

/-- Moves that do not fail, lead on, and take something unless no comparison is needed any more. -/
def MoveWell (direction : Direction) (before? : Before α) (level : α → Int)
    (moves : List Move) : Prop :=
  ∀ longest m, Ready direction before? level m → ∃ m' longest',
    makeMoves direction before? longest moves m = some (m', longest') ∧
      Leads direction before? level m m' ∧ (m'.rest? = none → moves ≠ [] → m'.left < m.left)

private theorem moveWell_nil : MoveWell direction before? level ([] : List Move) :=
  fun longest m ready => ⟨m, longest, rfl, .refl ready, fun _ some => absurd rfl some⟩

private theorem makeMoves_of_rest {rest : List α} (isRest : m.rest? = some rest) (longest : Nat)
    (move : Move) (moves : List Move) :
    makeMoves direction before? longest (move :: moves) m = some (m, longest) := by
  rw [makeMoves, isRest]

private theorem makeMoves_of_moved {m' : Merging α} {move : Move} {count : Nat}
    (goesOn : m.rest? = none)
    (moved : makeMove direction before? move m = some (m', count)) (longest : Nat)
    (moves : List Move) :
    makeMoves direction before? longest (move :: moves) m =
      makeMoves direction before? (max longest count) moves m' := by
  rw [makeMoves, goesOn]
  simp only [moved, Option.bind_eq_bind, Option.bind_some]

/-- One run leaps, and the other takes a step, unless the leap was enough. -/
private theorem MoveWell.pair {leaps steps : Move} {moves : List Move}
    (spec : ∀ m, Ready direction before? level m → m.rest? = none →
      ∃ m' count, makeMove direction before? leaps m = some (m', count) ∧
        Leads direction before? level m m' ∧
        (m'.rest? = none → ∃ m'', makeMove direction before? steps m' = some (m'', 0) ∧
          Leads direction before? level m' m'' ∧ m''.left < m'.left))
    (others : MoveWell direction before? level moves) :
    MoveWell direction before? level (leaps :: steps :: moves) := by
  intro longest m ready
  cases atFirst : m.rest? with
  | some rest =>
      exact ⟨m, longest, makeMoves_of_rest atFirst _ _ _, .refl ready, by rw [atFirst]; exact nofun⟩
  | none =>
      obtain ⟨m', count, leapt, leads, steps⟩ := spec m ready atFirst
      rw [makeMoves_of_moved atFirst leapt]
      cases atSecond : m'.rest? with
      | some rest =>
          exact ⟨m', _, makeMoves_of_rest atSecond _ _ _, leads, by rw [atSecond]; exact nofun⟩
      | none =>
          obtain ⟨m'', stepped, leads', less⟩ := steps atSecond
          rw [makeMoves_of_moved atSecond stepped]
          obtain ⟨last, longest', moved, leads'', -⟩ := others _ m'' leads'.ready
          have noMore := leads''.left
          have noMore' := leads.left
          exact ⟨last, longest', moved, leads.trans (leads'.trans leads''), fun _ _ => by omega⟩

theorem moveWell_moves (direction : Direction) :
    MoveWell direction before? level direction.moves := by
  have slow (m : Merging α) (ready : Ready direction before? level m) (goesOn : m.rest? = none) :=
    slowLeaps_spec ready goesOn
  have fast (m : Merging α) (ready : Ready direction before? level m) (goesOn : m.rest? = none) :=
    fastLeaps_spec ready goesOn
  cases direction with
  | forwards => exact .pair slow (.pair fast moveWell_nil)
  | backwards => exact .pair fast (.pair slow moveWell_nil)

private theorem moves_ne_nil (direction : Direction) : direction.moves ≠ [] := by
  cases direction <;> exact List.cons_ne_nil _ _

/-! ## Whole merges -/

/-- At whatever pace it goes on, a merge comes to an end that completes it. -/
theorem mergeWith_spec (steps patience : Nat) (pace : Pace)
    (ready : Ready direction before? level m) (enough : m.left ≤ steps) :
    ∃ result patience', mergeWith direction before? steps patience pace m =
      some (result, patience') ∧ Completes level m result := by
  induction steps generalizing m patience pace with
  | zero =>
      obtain ⟨slow, fast, taken⟩ := m
      obtain ⟨noSlow, noFast⟩ : slow = [] ∧ fast = [] := by
        simpa [Merging.left] using enough
      subst noSlow noFast
      exact ⟨_, patience, rfl, [], rfl, .refl [], .nil⟩
  | succ steps inductionHypothesis =>
      unfold mergeWith
      cases goesOn : m.rest? with
      | some rest => exact ⟨m.all rest, patience, rfl, completes_rest ready goesOn⟩
      | none =>
          obtain ⟨s, slow, f, fast, isSlow, isFast⟩ := exists_next_of_rest?_eq_none goesOn
          cases pace with
          | walking slowWins fastWins =>
              have won := ready.wins s (by simp [isSlow]) f (by simp [isFast])
              rw [isSlow, isFast]
              by_cases fastFirst : level f < level s
              · obtain ⟨leads, less⟩ := leads_stepFast ready isFast fun y member =>
                  Int.lt_of_lt_of_le fastFirst (ready.slowRises.next_le isSlow y member)
                obtain ⟨result, patience', ended, completes⟩ := inductionHypothesis patience
                  (paceAfter patience 0 (fastWins + 1)) leads.ready (by omega)
                exact ⟨result, patience', by simp [won, fastFirst, ended],
                  leads.completes result completes⟩
              · obtain ⟨leads, less⟩ := leads_stepSlow ready isSlow fun y member =>
                  Int.le_trans (Int.not_lt.mp fastFirst) (ready.fastRises.next_le isFast y member)
                obtain ⟨result, patience', ended, completes⟩ := inductionHypothesis patience
                  (paceAfter patience (slowWins + 1) 0) leads.ready (by omega)
                exact ⟨result, patience', by simp [won, fastFirst, ended],
                  leads.completes result completes⟩
          | leaping again =>
              obtain ⟨m', longest, moved, leads, less⟩ := moveWell_moves direction 0 m ready
              simp only [moved, Option.bind_eq_bind, Option.bind_some]
              cases goesOn' : m'.rest? with
              | some rest =>
                  exact ⟨_, _, rfl, leads.completes _ (completes_rest leads.ready goesOn')⟩
              | none =>
                  have fewer := less goesOn' (moves_ne_nil direction)
                  have goes (patience : Nat) (pace : Pace) := inductionHypothesis patience pace
                    leads.ready (by omega)
                  by_cases isLong : longLeap ≤ longest
                  · rw [if_pos isLong]
                    obtain ⟨result, patience', ended, completes⟩ := goes _ (.leaping true)
                    exact ⟨result, patience', ended, leads.completes result completes⟩
                  · rw [if_neg isLong]
                    obtain ⟨result, patience', ended, completes⟩ := goes _ (.walking 0 0)
                    exact ⟨result, patience', ended, leads.completes result completes⟩

/-! ## Joining runs -/

/-- The items of the first run that may stay where they are, since the second one does not start
below them. -/
private theorem leapIn_front {first : List α} (rises : Rises level first) (someItem : first ≠ [])
    {start : α} (compares : ∀ x ∈ first, before? start x = some (decide (level start < level x))) :
    ∃ staying moving, first = staying ++ moving ∧
      leapIn .forwards (fun x => do return !(← before? start x)) first = some staying.length ∧
      (∀ x ∈ staying, level x ≤ level start) ∧ ∀ x ∈ moving, level start < level x := by
  obtain ⟨staying, moving, rfl, inFront, inBack⟩ :=
    rises.exists_split (q := fun x => decide (level x ≤ level start)) fun x y below isPassed =>
      decide_eq_true (Int.le_trans below (of_decide_eq_true isPassed))
  have stays : ∀ x ∈ staying, level x ≤ level start := fun x member =>
    of_decide_eq_true (inFront x member)
  have moves : ∀ x ∈ moving, level start < level x := fun x member =>
    Int.not_le.mp (of_decide_eq_false (inBack x member))
  refine ⟨staying, moving, rfl, leapIn_eq .forwards someItem ?_ ?_, stays, moves⟩
  · intro x member
    rw [compares x (List.mem_append_left _ member)]
    simp [stays x member]
  · intro x member
    rw [compares x (List.mem_append_right _ member)]
    simp [moves x member]

/-- The items of the second run that may stay where they are, since the first one does not end
above them. -/
private theorem leapIn_back {second : List α} (rises : Rises level second) (someItem : second ≠ [])
    {final : α} (compares : ∀ y ∈ second, before? y final = some (decide (level y < level final))) :
    ∃ moving staying, second = moving ++ staying ∧
      leapIn .backwards (fun y => do return !(← before? y final)) second.reverse =
        some staying.length ∧
      (∀ y ∈ moving, level y < level final) ∧ ∀ y ∈ staying, level final ≤ level y := by
  obtain ⟨moving, staying, rfl, inFront, inBack⟩ :=
    rises.exists_split (q := fun y => decide (level y < level final)) fun x y below isPassed =>
      decide_eq_true (Int.lt_of_le_of_lt below (of_decide_eq_true isPassed))
  have moves : ∀ y ∈ moving, level y < level final := fun y member =>
    of_decide_eq_true (inFront y member)
  have stays : ∀ y ∈ staying, level final ≤ level y := fun y member =>
    Int.not_lt.mp (of_decide_eq_false (inBack y member))
  refine ⟨moving, staying, rfl, ?_, moves, stays⟩
  rw [List.reverse_append, ← List.length_reverse]
  refine leapIn_eq .backwards ?_ ?_ ?_
  · rw [← List.reverse_append]
    exact List.reverse_ne_nil_iff.mpr someItem
  · intro y member
    have isStaying := List.mem_reverse.mp member
    rw [compares y (List.mem_append_right _ isStaying)]
    simp [stays y isStaying]
  · intro y member
    have isMoving := List.mem_reverse.mp member
    rw [compares y (List.mem_append_left _ isMoving)]
    simp [moves y isMoving]

section Joining

variable {front moving : List α} {start final : α}
  (leapt : leapIn .forwards (fun x => do return !(← before? start x)) (front ++ moving) =
    some front.length)

include leapt

/-- Where all of the first run stays in place, so does the second one. -/
private theorem join_of_nothing_moving {second : List α} (isStart : second.head? = some start)
    (isFinal : moving.getLast? = none) (patience : Nat) :
    join before? patience (front ++ moving) second =
      some (front ++ moving ++ second, patience) := by
  have goesOn (n : Nat) (f : Nat → Option (List α × Nat)) : (some n >>= f) = f n := rfl
  rw [join, isStart]
  simp only [leapt, goesOn, List.drop_left, isFinal]
  rfl

/-- What moves of both runs is merged between what stays of them. -/
private theorem join_of_moving {others staying : List α} {patience : Nat}
    (isStart : others.head? = some start) (isFinal : moving.getLast? = some final)
    (leapt' : leapIn .backwards (fun y => do return !(← before? y final))
      (others ++ staying).reverse = some staying.length) :
    join before? patience (front ++ moving) (others ++ staying) =
      (merge before? patience moving others).map fun (merged, patience) =>
        (front ++ merged ++ staying, patience) := by
  have startsWith : (others ++ staying).head? = some start := by
    rw [List.head?_append, isStart, Option.some_or]
  have moves : others.isEmpty = false := by
    cases others with
    | nil => cases isStart
    | cons first others => rfl
  have isOthers : (others ++ staying).length - staying.length = others.length := by simp
  have goesOn (n : Nat) (f : Nat → Option (List α × Nat)) : (some n >>= f) = f n := rfl
  rw [join, startsWith]
  simp only [leapt, goesOn, List.drop_left, isFinal, leapt', isOthers, List.take_left, moves]
  cases merge before? patience moving others <;> rfl

end Joining

section Runs

variable {first second : List α} (rises : Rises level first) (rises' : Rises level second)
  (compares : ∀ x ∈ first, ∀ y ∈ second, Compares before? level x y)

include rises rises' compares

/-- Runs of which the second starts below the first, and the first ends above the second. -/
private theorem merge_spec (patience : Nat) {start final : α} (isStart : start ∈ second.head?)
    (isFinal : final ∈ first.getLast?) (starts : ∀ x ∈ first, level start < level x)
    (ends : ∀ y ∈ second, level y < level final) :
    ∃ merged patience', merge before? patience first second = some (merged, patience') ∧
      Arranges level (first ++ second) merged := by
  unfold merge
  by_cases shorter : first.length ≤ second.length
  · obtain ⟨rest, rfl⟩ := List.head?_eq_some_iff.mp isStart
    have ready : Ready .forwards before? level ⟨first, start :: rest, []⟩ := by
      refine ⟨fun s isSlow f isFast => (compares s isSlow f isFast).fastWins .forwards, rises,
        rises', fun s isLast => ?_⟩
      rw [Option.mem_unique isLast isFinal]
      exact ends
    obtain ⟨leads, less⟩ := leads_stepFast ready rfl starts
    obtain ⟨merged, patience', ended, completes⟩ := mergeWith_spec
      (first.length + (start :: rest).length + 1) patience (.walking 0 0) leads.ready
      (by simp only [Merging.left] at less ⊢; omega)
    obtain ⟨_, rfl, arranges⟩ := leads.completes merged completes
    exact ⟨_, patience', by simp only [if_pos shorter, ended], arranges⟩
  · -- From the end the runs change their parts, and each is gone through turned round.
    obtain ⟨rest, rfl⟩ := List.getLast?_eq_some_iff.mp isFinal
    have ready : Ready .backwards before? (fun x => -level x)
        ⟨second.reverse, (rest ++ [final]).reverse, []⟩ := by
      refine ⟨fun s isSlow f isFast => ?_, rises'.reverse, rises.reverse,
        fun s isLast f isFast => ?_⟩
      · exact (compares f (List.mem_reverse.mp isFast) s (List.mem_reverse.mp isSlow)).symm.fastWins
          .backwards
      · rw [List.getLast?_reverse] at isLast
        rw [Option.mem_unique isLast isStart]
        exact Int.neg_lt_neg (starts f (List.mem_reverse.mp isFast))
    obtain ⟨leads, less⟩ := leads_stepFast ready (by rw [List.reverse_concat]) fun y member =>
      Int.neg_lt_neg (ends y (List.mem_reverse.mp member))
    obtain ⟨merged, patience', ended, completes⟩ := mergeWith_spec
      ((rest ++ [final]).length + second.length + 1) patience (.walking 0 0) leads.ready
      (by simp only [Merging.left, List.length_reverse] at less ⊢; omega)
    obtain ⟨_, rfl, arranges⟩ := leads.completes merged completes
    have turned := arranges.turned
    rw [neg_neg_level, List.reverse_append, List.reverse_reverse, List.reverse_reverse] at turned
    refine ⟨_, patience', ?_, turned⟩
    rw [if_neg shorter, ended]
    rfl

/-- Two runs are joined into one, at whatever patience. -/
theorem join_spec (someItem : first ≠ []) (patience : Nat) :
    ∃ joined patience', join before? patience first second = some (joined, patience') ∧
      Arranges level (first ++ second) joined := by
  cases isStart : second.head? with
  | none =>
      have nothing : second = [] := List.head?_eq_none_iff.mp isStart
      rw [join, isStart, nothing, List.append_nil]
      exact ⟨first, patience, rfl, .refl first, rises⟩
  | some start =>
      have memberStart : start ∈ second := List.mem_of_head? isStart
      have startsSecond : ∀ y ∈ second, level start ≤ level y := by
        obtain ⟨rest, isSecond⟩ := List.head?_eq_some_iff.mp isStart
        exact rises'.next_le isSecond
      obtain ⟨front, moving, rfl, leapt, notAbove, above⟩ := leapIn_front rises someItem
        fun x member => (compares x member start memberStart).back
      have parts := rises_append.mp rises
      cases isFinal : moving.getLast? with
      | none =>
          have nothing : moving = [] := List.getLast?_eq_none_iff.mp isFinal
          refine ⟨_, patience, join_of_nothing_moving leapt isStart isFinal patience, .refl _, ?_⟩
          rw [nothing, List.append_nil]
          exact rises_append.mpr ⟨parts.1, rises', fun x isFront y member =>
            Int.le_trans (notAbove x isFront) (startsSecond y member)⟩
      | some final =>
          have memberFinal : final ∈ moving := List.mem_of_getLast? isFinal
          obtain ⟨others, staying, rfl, leapt', below, notBelow⟩ := leapIn_back rises'
            (List.ne_nil_of_mem memberStart) fun y member =>
              (compares final (List.mem_append_right _ memberFinal) y member).back
          have parts' := rises_append.mp rises'
          have endsFirst := parts.2.1.le_final isFinal
          -- The start of the second run is below the end of the first one, so that it moves.
          have startMoves : others.head? = some start := by
            cases others with
            | nil =>
                have tooHigh := notBelow start memberStart
                have isLow := above final memberFinal
                omega
            | cons first others => exact isStart
          obtain ⟨merged, patience', ended, arranges⟩ := merge_spec parts.2.1 parts'.1
            (fun x member y member' => compares x (List.mem_append_right _ member) y
              (List.mem_append_left _ member')) patience startMoves isFinal above below
          refine ⟨front ++ merged ++ staying, patience', ?_, ?_⟩
          · rw [join_of_moving leapt startMoves isFinal leapt', ended]
            rfl
          · have together := arranges.between parts.1 parts'.2.1 ?_ ?_
            · simpa only [List.append_assoc] using together
            · intro x isFront y member
              rw [List.append_assoc, List.mem_append] at member
              rcases member with isMoving | isSecond
              · exact parts.2.2 x isFront y isMoving
              · exact Int.le_trans (notAbove x isFront) (startsSecond y isSecond)
            · intro x member y isStaying
              rcases List.mem_append.mp member with isMoving | isOther
              · exact Int.le_trans (endsFirst x isMoving) (notBelow y isStaying)
              · exact parts'.2.2 x isOther y isStaying

end Runs

end Presence.Sort
