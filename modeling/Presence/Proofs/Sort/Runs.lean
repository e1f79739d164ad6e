import Presence.Proofs.Sort.Merging

/-!
Contract: items are sorted by merging runs.

Owns: that the run at the front is sorted (`frontRun_spec`) and stays so while it is lengthened
(`longRun_spec`); `contents`, the items of the runs that wait to be merged, which merging keeps
(`mergeDeeper_spec`, `addRuns_spec`, `mergeAll_spec`); that sorting comes to an end and arranges the
items (`sortItems_spec`).

Does not own: merging two runs (`Presence.Proofs.Sort.Merging`).

Which runs are merged when makes no difference to what comes of it, so that nothing is said here of
the powers of boundaries and of the patience of merges.
-/

namespace Presence.Sort

variable {α : Type} {before? : Before α} {level : α → Int}

/-- Items each two of which are compared by their levels. -/
abbrev AllCompare (before? : Before α) (level : α → Int) (items : List α) : Prop :=
  items.Pairwise (Compares before? level)

theorem AllCompare.perm {items others : List α} (compare : AllCompare before? level items)
    (perm : items.Perm others) : AllCompare before? level others :=
  List.Pairwise.perm compare perm fun same => same.symm

/-! ## Runs -/

/-- Items each of which is below those before it, or none of which is. -/
def Goes (level : α → Int) (falling : Bool) (items : List α) : Prop :=
  items.Pairwise fun x y => decide (level y < level x) = falling

theorem Goes.cons {falling : Bool} {x y : α} {rest : List α} (goes : Goes level falling (y :: rest))
    (first : decide (level y < level x) = falling) : Goes level falling (x :: y :: rest) := by
  refine List.pairwise_cons.mpr ⟨?_, goes⟩
  intro z member
  rcases List.mem_cons.mp member with rfl | isRest
  · exact first
  · have further := (List.pairwise_cons.mp goes).1 z isRest
    cases falling <;> simp only [decide_eq_true_eq, decide_eq_false_iff_not] at * <;> omega

private theorem spanRun_spec (falling : Bool) {items : List α} {last : α}
    (compare : AllCompare before? level (last :: items)) :
    ∃ run rest, spanRun before? falling last items = some (run, rest) ∧ items = run ++ rest ∧
      Goes level falling (last :: run) := by
  induction items generalizing last with
  | nil => exact ⟨[], [], rfl, rfl, List.pairwise_singleton _ _⟩
  | cons next rest inductionHypothesis =>
      obtain ⟨each, others⟩ := List.pairwise_cons.mp compare
      have first := each next List.mem_cons_self
      by_cases goesOn : decide (level next < level last) = falling
      · obtain ⟨run, rest', spanned, rfl, goes⟩ := inductionHypothesis others
        refine ⟨next :: run, rest', ?_, rfl, goes.cons goesOn⟩
        simp [spanRun, first.back, goesOn, spanned]
      · refine ⟨[], next :: rest, ?_, rfl, List.pairwise_singleton _ _⟩
        simp [spanRun, first.back, goesOn]

/-- A run that falls is turned round, which no two of its items notice. -/
private theorem arranges_of_goes {falling : Bool} {items : List α}
    (goes : Goes level falling items) :
    Arranges level items (if falling then items.reverse else items) := by
  cases falling with
  | true =>
      have falls : items.Pairwise fun x y => level y < level x :=
        goes.imp fun isBelow => of_decide_eq_true isBelow
      refine ⟨keeps_reverse_of_falls falls, ?_⟩
      exact List.pairwise_reverse.mpr (falls.imp fun isBelow => Int.le_of_lt isBelow)
  | false =>
      exact ⟨.refl items, goes.imp fun notBelow => Int.not_lt.mp (of_decide_eq_false notBelow)⟩

/-- The run at the front, which is not empty unless there are no items. -/
theorem frontRun_spec {items : List α} (compare : AllCompare before? level items) :
    ∃ run rest taken, frontRun before? items = some (run, rest) ∧ items = taken ++ rest ∧
      Arranges level taken run ∧ (items ≠ [] → taken ≠ []) := by
  match items with
  | [] => exact ⟨[], [], [], rfl, rfl, ⟨.refl [], .nil⟩, fun some => some⟩
  | [only] =>
      exact ⟨[only], [], [only], rfl, rfl, ⟨.refl _, List.pairwise_singleton _ _⟩, fun some => some⟩
  | first :: second :: rest =>
      obtain ⟨each, others⟩ := List.pairwise_cons.mp compare
      have firstTwo := each second List.mem_cons_self
      obtain ⟨run, rest', spanned, rfl, goes⟩ :=
        spanRun_spec (decide (level second < level first)) others
      have whole : Goes level (decide (level second < level first)) (first :: second :: run) :=
        goes.cons rfl
      refine ⟨_, rest', first :: second :: run, ?_, rfl, arranges_of_goes whole,
        fun _ => List.cons_ne_nil _ _⟩
      simp [frontRun, firstTwo.back, spanned]

/-- A new item comes behind those that it is not below. -/
private theorem insertSorted_spec {run : List α} (rises : Rises level run) {entry : α}
    (compares : ∀ x ∈ run, Compares before? level x entry) :
    ∃ run', insertSorted before? run entry = some run' ∧ Arranges level (run ++ [entry]) run' := by
  obtain ⟨front, back, rfl, inFront, inBack⟩ :=
    rises.exists_split (q := fun x => decide (level x ≤ level entry)) fun x y below isPassed =>
      decide_eq_true (Int.le_trans below (of_decide_eq_true isPassed))
  have notAbove : ∀ x ∈ front, level x ≤ level entry := fun x member =>
    of_decide_eq_true (inFront x member)
  have above : ∀ x ∈ back, level entry < level x := fun x member =>
    Int.not_le.mp (of_decide_eq_false (inBack x member))
  have parts := rises_append.mp rises
  refine ⟨front ++ entry :: back, insertSorted_eq ?_ ?_, ?_, ?_⟩
  · intro x member
    rw [(compares x (List.mem_append_left _ member)).back]
    simp [notAbove x member]
  · intro x member
    rw [(compares x (List.mem_append_right _ member)).back]
    simp [above x member]
  · rw [List.append_assoc]
    refine (Keeps.refl front).append (.swap back [entry] fun x member y isEntry => ?_)
    rw [List.mem_singleton.mp isEntry]
    exact (Int.ne_of_lt (above x member)).symm
  · refine rises_append.mpr ⟨parts.1, List.pairwise_cons.mpr ⟨?_, parts.2.1⟩, ?_⟩
    · exact fun x member => Int.le_of_lt (above x member)
    · intro x member y isBehind
      rcases List.mem_cons.mp isBehind with rfl | isBack
      · exact notAbove x member
      · exact parts.2.2 x member y isBack

/-- A run is lengthened item by item. -/
private theorem insertAll_spec {new taken run : List α} (arranges : Arranges level taken run)
    (compare : AllCompare before? level (taken ++ new)) :
    ∃ run', new.foldlM (insertSorted before?) run = some run' ∧
      Arranges level (taken ++ new) run' := by
  induction new generalizing taken run with
  | nil => exact ⟨run, rfl, by rw [List.append_nil]; exact arranges⟩
  | cons entry new inductionHypothesis =>
      have others := (List.pairwise_append.mp compare).2.2
      have compares : ∀ x ∈ run, Compares before? level x entry := fun x member =>
        others x (arranges.keeps.perm.symm.subset member) entry List.mem_cons_self
      obtain ⟨longer, inserted, arranges'⟩ := insertSorted_spec arranges.rises compares
      have both : Arranges level (taken ++ [entry]) longer :=
        ⟨(arranges.keeps.append (.refl [entry])).trans arranges'.keeps, arranges'.rises⟩
      have split : taken ++ entry :: new = taken ++ [entry] ++ new := by simp
      rw [split] at compare ⊢
      obtain ⟨run', ended, whole⟩ := inductionHypothesis both compare
      refine ⟨run', ?_, whole⟩
      rw [List.foldlM_cons, inserted]
      exact ended

/-- The run at the front, lengthened as far as there are items; some item is always taken. -/
theorem longRun_spec (least : Nat) {items : List α} (compare : AllCompare before? level items)
    (someItem : items ≠ []) :
    ∃ run rest taken, longRun before? least items = some (run, rest) ∧ items = taken ++ rest ∧
      Arranges level taken run ∧ taken ≠ [] := by
  obtain ⟨run, rest, taken, found, rfl, arranges, someTaken⟩ := frontRun_spec compare
  have fewer : AllCompare before? level (taken ++ rest.take (least - run.length)) :=
    compare.sublist ((List.Sublist.refl taken).append (List.take_sublist _ _))
  obtain ⟨run', lengthened, arranges'⟩ := insertAll_spec arranges fewer
  refine ⟨run', rest.drop (least - run.length), taken ++ rest.take (least - run.length), ?_, ?_,
    arranges', ?_⟩
  · simp [longRun, found, lengthened]
  · rw [List.append_assoc, List.take_append_drop]
  · exact List.append_ne_nil_of_left_ne_nil (someTaken someItem) _

/-! ## Runs that wait -/

/-- The items of runs of which the last one comes first. -/
def contents (runs : List (Run α)) : List α := runs.reverse.flatMap Run.items

@[simp] theorem contents_nil : contents ([] : List (Run α)) = [] := rfl

@[simp] theorem contents_cons (run : Run α) (runs : List (Run α)) :
    contents (run :: runs) = contents runs ++ run.items := by
  simp [contents]

@[simp] theorem contents_append (later runs : List (Run α)) :
    contents (later ++ runs) = contents runs ++ contents later := by
  simp [contents]

/-- Runs none of which is empty, each of them sorted. -/
def AreSorted (level : α → Int) (runs : List (Run α)) : Prop :=
  ∀ run ∈ runs, run.items ≠ [] ∧ Rises level run.items

/-- The items of a run that is alone. -/
private theorem arranges_only {only : Run α} (sorted : AreSorted level [only]) :
    Arranges level (contents [only]) only.items := by
  rw [contents_cons, contents_nil, List.nil_append]
  exact ⟨.refl only.items, (sorted only (List.mem_singleton_self only)).2⟩

theorem ne_nil_of_keeps {items others : List α} (keeps : Keeps level items others)
    (someItem : items ≠ []) : others ≠ [] := by
  rintro rfl
  exact someItem keeps.symm.eq_nil

/-- Two runs that stand side by side are joined into one, wherever they stand. -/
theorem joinRuns_spec (later : List (Run α)) {second first : Run α} {others : List (Run α)}
    (patience : Nat) (sorted : AreSorted level (later ++ second :: first :: others))
    (compare : AllCompare before? level (contents (later ++ second :: first :: others))) :
    ∃ joined patience',
      join before? patience first.items second.items = some (joined, patience') ∧
        Keeps level (contents (later ++ second :: first :: others))
          (contents (later ++ { first with items := joined } :: others)) ∧
        AreSorted level (later ++ { first with items := joined } :: others) := by
  obtain ⟨sortedLater, ⟨-, rises'⟩, ⟨someItem, rises⟩, sortedOthers⟩ := by
    simpa only [AreSorted, List.forall_mem_append, List.forall_mem_cons] using sorted
  simp only [contents_append, contents_cons, List.append_assoc] at compare ⊢
  have sideBySide : AllCompare before? level (first.items ++ second.items) := by
    have behind := (List.pairwise_append.mp compare).2.1
    rw [← List.append_assoc] at behind
    exact (List.pairwise_append.mp behind).1
  obtain ⟨joined, patience', ended, arranges⟩ :=
    join_spec rises rises' (List.pairwise_append.mp sideBySide).2.2 someItem patience
  have someJoined : joined ≠ [] :=
    ne_nil_of_keeps arranges.keeps (List.append_ne_nil_of_left_ne_nil someItem _)
  refine ⟨joined, patience', ended, ?_, ?_⟩
  · have keeps := (Keeps.refl (contents others)).append
      (arranges.keeps.append (.refl (contents later)))
    rwa [List.append_assoc] at keeps
  · simp only [AreSorted, List.forall_mem_append, List.forall_mem_cons]
    exact ⟨sortedLater, ⟨someJoined, arranges.rises⟩, sortedOthers⟩

/-- Merging the last runs keeps all items, and leaves a run. -/
theorem mergeDeeper_spec (power steps : Nat) (pending : Pending α)
    (sorted : AreSorted level pending.runs)
    (compare : AllCompare before? level (contents pending.runs)) (someRun : pending.runs ≠ []) :
    ∃ pending', mergeDeeper before? power steps pending = some pending' ∧
      Keeps level (contents pending.runs) (contents pending'.runs) ∧
      AreSorted level pending'.runs ∧ pending'.runs ≠ [] := by
  induction steps generalizing pending with
  | zero => exact ⟨pending, rfl, .refl _, sorted, someRun⟩
  | succ steps inductionHypothesis =>
      obtain ⟨runs, patience⟩ := pending
      match runs with
      | [] => exact absurd rfl someRun
      | [only] => exact ⟨_, rfl, .refl _, sorted, someRun⟩
      | last :: previous :: others =>
          by_cases deeper : power < previous.power
          · obtain ⟨joined, patience', ended, keeps, sortedJoined⟩ :=
              joinRuns_spec [] patience sorted compare
            obtain ⟨pending', merged, keeps', sorted', someRun'⟩ := inductionHypothesis
              ⟨{ previous with items := joined } :: others, patience'⟩ sortedJoined
              (compare.perm keeps.perm) (List.cons_ne_nil _ _)
            refine ⟨pending', ?_, keeps.trans keeps', sorted', someRun'⟩
            simp [mergeDeeper, deeper, ended, merged]
          · exact ⟨_, by simp [mergeDeeper, deeper], .refl _, sorted, someRun⟩

/-- A run is added behind all others. -/
private theorem addRun_spec (size : Nat) {pending : Pending α} {items : List α}
    (sorted : AreSorted level pending.runs) (someItem : items ≠ []) (rises : Rises level items)
    (compare : AllCompare before? level (contents pending.runs)) :
    ∃ pending', addRun before? size pending items = some pending' ∧
      Keeps level (contents pending.runs ++ items) (contents pending'.runs) ∧
      AreSorted level pending'.runs := by
  obtain ⟨runs, patience⟩ := pending
  match runs with
  | [] =>
      refine ⟨_, rfl, ?_, List.forall_mem_singleton.mpr ⟨someItem, rises⟩⟩
      simpa using Keeps.refl items
  | last :: others =>
      obtain ⟨⟨runs', patience'⟩, merged, keeps, sorted', someRun⟩ := mergeDeeper_spec
        (boundaryPower size (size + 1) (2 * last.start + last.items.length)
          (2 * last.start + last.items.length + last.items.length + items.length))
        (last :: others).length ⟨last :: others, patience⟩ sorted compare (List.cons_ne_nil _ _)
      match runs' with
      | [] => exact absurd rfl someRun
      | last' :: others' =>
          refine ⟨_, by simp only [addRun]; rw [merged]; rfl, ?_, ?_⟩
          · simp only [contents_cons] at keeps ⊢
            exact keeps.append (.refl items)
          · simp only [AreSorted, List.forall_mem_cons] at sorted' ⊢
            exact ⟨⟨someItem, rises⟩, sorted'⟩

/-- All items are added, run by run. -/
theorem addRuns_spec (size : Nat) {steps : Nat} (pending : Pending α) {items : List α}
    (enough : items.length ≤ steps) (sorted : AreSorted level pending.runs)
    (compare : AllCompare before? level (contents pending.runs ++ items)) :
    ∃ pending', addRuns before? size steps pending items = some pending' ∧
      Keeps level (contents pending.runs ++ items) (contents pending'.runs) ∧
      AreSorted level pending'.runs := by
  induction steps generalizing pending items with
  | zero =>
      obtain rfl := List.length_eq_zero_iff.mp (Nat.le_zero.mp enough)
      exact ⟨pending, rfl, by simpa using Keeps.refl _, sorted⟩
  | succ steps inductionHypothesis =>
      cases items with
      | nil => exact ⟨pending, rfl, by simpa using Keeps.refl _, sorted⟩
      | cons item rest =>
          have parts := List.pairwise_append.mp compare
          obtain ⟨run, left, taken, found, split, arranges, someTaken⟩ :=
            longRun_spec (leastRun size false) parts.2.1 (List.cons_ne_nil _ _)
          obtain ⟨pending', added, keeps, sorted'⟩ := addRun_spec size sorted
            (ne_nil_of_keeps arranges.keeps someTaken) arranges.rises parts.1
          have together : Keeps level (contents pending.runs ++ item :: rest)
              (contents pending'.runs ++ left) := by
            rw [split, ← List.append_assoc]
            refine .append (.trans ?_ keeps) (.refl left)
            exact (Keeps.refl _).append arranges.keeps
          have fewer : left.length ≤ steps := by
            have lengths := congrArg List.length split
            have someLength := List.length_pos_iff.mpr someTaken
            simp only [List.length_cons, List.length_append] at lengths enough
            omega
          obtain ⟨pending'', ended, keeps', sorted''⟩ :=
            inductionHypothesis pending' fewer sorted' (compare.perm together.perm)
          refine ⟨pending'', ?_, together.trans keeps', sorted''⟩
          simp [addRuns, found, added, ended]

/-- Merging all runs arranges their items. -/
theorem mergeAll_spec {steps : Nat} (pending : Pending α) (enough : pending.runs.length ≤ steps)
    (sorted : AreSorted level pending.runs)
    (compare : AllCompare before? level (contents pending.runs)) :
    ∃ items, mergeAll before? steps pending = some items ∧
      Arranges level (contents pending.runs) items := by
  induction steps generalizing pending with
  | zero =>
      obtain ⟨runs, patience⟩ := pending
      obtain rfl := List.length_eq_zero_iff.mp (Nat.le_zero.mp enough)
      exact ⟨[], rfl, .refl _, .nil⟩
  | succ steps inductionHypothesis =>
      obtain ⟨runs, patience⟩ := pending
      match runs with
      | [] => exact ⟨[], rfl, .refl _, .nil⟩
      | [only] => exact ⟨only.items, rfl, arranges_only sorted⟩
      | [last, first] =>
          obtain ⟨joined, patience', ended, keeps, sortedJoined⟩ :=
            joinRuns_spec [] patience sorted compare
          have arranged := arranges_only sortedJoined
          exact ⟨joined, by simp [mergeAll, ended], keeps.trans arranged.keeps, arranged.rises⟩
      | last :: previous :: third :: others =>
          simp only [List.length_cons] at enough
          by_cases shorter : third.items.length < last.items.length
          · obtain ⟨joined, patience', ended, keeps, sortedJoined⟩ :=
              joinRuns_spec [last] patience sorted compare
            obtain ⟨items, merged, arranged⟩ := inductionHypothesis
              ⟨last :: { third with items := joined } :: others, patience'⟩
              (by simp only [List.length_cons]; omega) sortedJoined (compare.perm keeps.perm)
            refine ⟨items, ?_, keeps.trans arranged.keeps, arranged.rises⟩
            simp [mergeAll, shorter, ended, merged]
          · obtain ⟨joined, patience', ended, keeps, sortedJoined⟩ :=
              joinRuns_spec [] patience sorted compare
            obtain ⟨items, merged, arranged⟩ := inductionHypothesis
              ⟨{ previous with items := joined } :: third :: others, patience'⟩
              (by simp only [List.length_cons]; omega) sortedJoined (compare.perm keeps.perm)
            refine ⟨items, ?_, keeps.trans arranged.keeps, arranged.rises⟩
            simp [mergeAll, shorter, ended, merged]

/-- Sorting comes to an end, with the items arranged. -/
theorem sortItems_spec {items : List α} (compare : AllCompare before? level items) :
    ∃ sorted, sortItems before? items = some sorted ∧ Arranges level items sorted := by
  obtain ⟨pending, added, keeps, areSorted⟩ :=
    addRuns_spec items.length ⟨[], longLeap⟩ (Nat.le_refl _) nofun compare
  obtain ⟨sorted, merged, arranges⟩ := mergeAll_spec pending (Nat.le_refl _) areSorted
    (compare.perm keeps.perm)
  exact ⟨sorted, by simp [sortItems, added, merged], keeps.trans arranges.keeps, arranges.rises⟩

end Presence.Sort
