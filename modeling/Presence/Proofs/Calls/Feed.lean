import Presence.Proofs.Calls.Schedule
import Presence.Sequence

/-!
Contract: which calls are made by what goes through the items of a feed.

Owns: the schedules of going through items (`eachItem`, `untilPasses`, `folding`, `rowByRow`), and
that every way of going through a feed follows its schedule.

Does not own: what follows for faults (`Presence.Proofs.Calls.Propagation`).

An item is asked for when the call before has been answered. What is left of a loop after some
answered calls is the same loop, begun at a later place with what has been gathered so far
(`goFrom_itemAt`, `foldFrom_itemAt`).
-/

namespace Presence

namespace Feed

variable {m : Type → Type} [Monad m] {α β γ σ : Type}

/-- The item at a place, as far as the bound goes. -/
def itemAt (feed : Feed m α) (place : Nat) : Attempt m (Option α) :=
  if place < feed.bound then feed.next place else pure none

/-- One step of going through a feed. -/
theorem goFrom_itemAt [LawfulMonad m] (feed : Feed m α)
    (body : α → σ → Attempt m (ForInStep σ)) (place : Nat) (sofar : σ) :
    feed.goFrom body (feed.bound - place) place sofar = (do
      match ← feed.itemAt place with
      | none => return sofar
      | some item =>
          match ← body item sofar with
          | .done final => return final
          | .yield sofar => feed.goFrom body (feed.bound - (place + 1)) (place + 1) sofar) := by
  unfold itemAt
  by_cases inside : place < feed.bound
  · have more : feed.bound - place = feed.bound - (place + 1) + 1 := by omega
    rw [if_pos inside, more]
    rfl
  · have none_left : feed.bound - place = 0 := by omega
    rw [if_neg inside, none_left, goFrom, pure_bind]

/-- Folds the items from a place on. -/
def foldFrom (feed : Feed m α) (step : σ → α → Attempt m σ) (place : Nat) (sofar : σ) :
    Attempt m σ :=
  feed.goFrom (fun item sofar => do return .yield (← step sofar item)) (feed.bound - place) place
    sofar

/-- One step of folding. -/
theorem foldFrom_itemAt [LawfulMonad m] (feed : Feed m α) (step : σ → α → Attempt m σ)
    (place : Nat) (sofar : σ) :
    feed.foldFrom step place sofar = (do
      match ← feed.itemAt place with
      | none => return sofar
      | some item => feed.foldFrom step (place + 1) (← step sofar item)) := by
  unfold foldFrom
  rw [goFrom_itemAt]
  apply bind_congr
  intro item
  cases item with
  | none => rfl
  | some item => simp only [bind_assoc, pure_bind]

/-! ## Items that are all there -/

theorem itemAt_ofList (items : List α) (place : Nat) :
    (ofList items : Feed m α).itemAt place = pure items[place]? := by
  unfold itemAt ofList
  by_cases inside : place < items.length
  · rw [if_pos inside]
    show pure items.toArray[place]? = pure items[place]?
    rw [List.getElem?_toArray]
  · rw [if_neg inside, List.getElem?_eq_none (Nat.le_of_not_lt inside)]

private theorem foldFrom_ofList [LawfulMonad m] (items : List α) (step : σ → α → Attempt m σ)
    (before : List α) (sofar : σ) :
    (ofList (before ++ items) : Feed m α).foldFrom step before.length sofar =
      items.foldlM step sofar := by
  induction items generalizing before sofar with
  | nil =>
      rw [foldFrom_itemAt, itemAt_ofList, List.append_nil, List.getElem?_eq_none (Nat.le_refl _),
        pure_bind]
      rfl
  | cons item rest inductionHypothesis =>
      rw [foldFrom_itemAt, itemAt_ofList, List.getElem?_append_right (Nat.le_refl _), Nat.sub_self,
        List.getElem?_cons_zero, pure_bind, List.foldlM_cons]
      apply bind_congr
      intro sofar
      have goesOn := inductionHypothesis (before ++ [item]) sofar
      rw [List.append_assoc, List.length_append] at goesOn
      exact goesOn

/-- Items that are all there are folded as their list is. -/
theorem fold_ofList [LawfulMonad m] (items : List α) (initial : σ) (step : σ → α → Attempt m σ) :
    (ofList items : Feed m α).fold initial step = items.foldlM step initial :=
  foldFrom_ofList items step [] initial

theorem toList_ofList [LawfulMonad m] (items : List α) :
    (ofList items : Feed m α).toList = pure items := by
  have gathered (sofar : Array α) :
      items.foldlM (fun sofar item => do return sofar.push (← pure item)) sofar =
        (pure (sofar ++ items.toArray) : Attempt m (Array α)) := by
    induction items generalizing sofar with
    | nil => simp
    | cons item rest inductionHypothesis =>
        rw [List.foldlM_cons, pure_bind, pure_bind, inductionHypothesis]
        simp
  rw [toList, collect, fold_ofList, gathered, pure_bind]
  simp

/-- Items that are all there are searched as their list is. -/
theorem any_ofList [LawfulMonad m] (items : List α) (p : α → Attempt m Bool) :
    (ofList items : Feed m α).any p = items.anyM p := by
  have goesOn (before : List α) (place : Nat) :
      (do
        let state ← (ofList (before ++ items) : Feed m α).goFrom
          (fun item (sofar : Nat × Option (α × Nat)) => do
            return if ← p item then .done (sofar.1, some (item, sofar.1))
              else .yield (sofar.1 + 1, none))
          ((ofList (before ++ items) : Feed m α).bound - before.length) before.length (place, none)
        return state.2.isSome) = items.anyM p := by
    induction items generalizing before place with
    | nil =>
        rw [goFrom_itemAt, itemAt_ofList, List.append_nil, List.getElem?_eq_none (Nat.le_refl _)]
        simp
    | cons item rest inductionHypothesis =>
        rw [goFrom_itemAt, itemAt_ofList, List.getElem?_append_right (Nat.le_refl _), Nat.sub_self,
          List.getElem?_cons_zero, pure_bind, List.anyM_cons]
        simp only [bind_assoc, pure_bind]
        apply bind_congr
        intro passes
        cases passes with
        | true => simp
        | false =>
            have later := inductionHypothesis (before ++ [item]) (place + 1)
            rw [List.append_assoc, List.length_append] at later
            exact later
  rw [any, findPlace, bind_assoc]
  exact (bind_congr fun state => pure_bind _ _).trans (goesOn [] 0)

end Feed

namespace Calls

open Feed

variable {m : Type → Type} [Monad m] {α β γ δ σ : Type}

/-! ## Schedules of going through items -/

/-- One call for each item, in the order of the items. -/
def eachItem (feed : Feed m α) : Schedule m α β := fun calls => feed.itemAt calls.length

/-- The item of the last call, if it has passed. -/
def passed (calls : List (α × Bool)) : Option α :=
  calls.getLast?.bind fun (item, answer) => if answer then some item else none

/-- One call for each item, in the order of the items, up to the first that passes. -/
def untilPasses (feed : Feed m α) : Schedule m α Bool := fun calls =>
  match passed calls with
  | some _ => pure none
  | none => feed.itemAt calls.length

/-- The last of some answers, or what there was before. -/
def lastAnswer (initial : β) (calls : List (α × β)) : β :=
  (calls.getLast?.map Prod.snd).getD initial

/-- One call for each item, in the order of the items, with the answer before it. -/
def folding (feed : Feed m α) (initial : β) : Schedule m (β × α) β := fun calls => do
  return (← feed.itemAt calls.length).map fun item => (lastAnswer initial calls, item)

/-- One call for each column on each row: all columns on a row before any on the next one. -/
def rowByRow (feed : Feed m α) (columns : Nat) : Schedule m (Nat × α) β := fun calls =>
  match calls.length % columns, calls.getLast? with
  | column + 1, some ((_, row), _) => pure (some (column + 1, row))
  | _, _ => do return (← feed.itemAt (calls.length / columns)).map fun row => (0, row)

/-! ## Folding -/

/-- A fold whose step makes one call follows the calls for the items, one after the other: what it
has gathered is a function of the calls that have been answered. -/
theorem follows_fold [LawfulMonad m] (feed : Feed m α) {f : δ → Attempt m β}
    {step : σ → α → Attempt m σ} (argument : σ → α → δ) (join : σ → δ → β → σ)
    (gathered : List (δ × β) → σ)
    (calls_once : ∀ sofar item,
      step sofar item = do
        return join sofar (argument sofar item) (← f (argument sofar item)))
    (grows : ∀ calls used answer,
      gathered (calls ++ [(used, answer)]) = join (gathered calls) used answer) :
    Follows (fun calls => do
      return (← feed.itemAt calls.length).map (argument (gathered calls))) f
      (feed.fold (gathered []) step) := by
  refine ⟨fun calls rest => rest = feed.foldFrom step calls.length (gathered calls), rfl, ?_⟩
  rintro calls rest rfl
  refine ⟨pure (gathered calls), fun used answer =>
    feed.foldFrom step (calls.length + 1) (join (gathered calls) used answer), ?_, ?_⟩
  · rw [foldFrom_itemAt, bind_assoc]
    apply bind_congr
    intro item
    cases item with
    | none => simp only [Option.map_none, pure_bind]
    | some item => simp only [Option.map_some, pure_bind, calls_once, bind_assoc]
  · intro used answer
    rw [grows, List.length_append, List.length_singleton]

/-- A fold whose step makes one call on the item itself. -/
theorem follows_fold_eachItem [LawfulMonad m] (feed : Feed m α) {f : α → Attempt m β}
    {step : σ → α → Attempt m σ} (join : σ → α → β → σ) (gathered : List (α × β) → σ)
    (calls_once : ∀ sofar item, step sofar item = do return join sofar item (← f item))
    (grows : ∀ calls item answer,
      gathered (calls ++ [(item, answer)]) = join (gathered calls) item answer) :
    Follows (eachItem feed) f (feed.fold (gathered []) step) := by
  have follows := follows_fold feed (fun _ item => item) join gathered calls_once grows
  simp only [Option.map_id', bind_pure] at follows
  exact follows

private theorem lastAnswer_append (initial : β) (calls : List (α × β)) (argument : α) (answer : β) :
    lastAnswer initial (calls ++ [(argument, answer)]) = answer := by
  simp [lastAnswer]

theorem follows_collect [LawfulMonad m] (feed : Feed m α) (f : α → Attempt m β) :
    Follows (eachItem feed) f (feed.collect f) := by
  have follows : Follows (eachItem feed) f
      (feed.fold #[] fun sofar item => do return sofar.push (← f item)) :=
    follows_fold_eachItem feed (fun sofar _ answer => sofar.push answer)
      (fun calls => (calls.map Prod.snd).toArray) (fun _ _ => rfl)
      (fun calls item answer => by simp)
  exact follows.bind _

/-- Filtering by a test that calls the function once, and keeps an item or drops it by the
answer. -/
theorem follows_filter [LawfulMonad m] (feed : Feed m α) (p : α → Attempt m Bool)
    {test : α → Attempt m Bool} (keeps : Bool → Bool)
    (calls_once : ∀ item, test item = do return keeps (← p item)) :
    Follows (eachItem feed) p (feed.filter test) := by
  have follows : Follows (eachItem feed) p
      (feed.fold #[] fun sofar item => do
        return if ← test item then sofar.push item else sofar) := by
    refine follows_fold_eachItem feed
      (fun sofar item answer => if keeps answer then sofar.push item else sofar)
      (fun calls => ((calls.filter fun call => keeps call.2).map Prod.fst).toArray) ?_ ?_
    · intro sofar item
      rw [calls_once, bind_assoc]
      simp only [pure_bind]
    · intro calls item answer
      by_cases kept : keeps answer = true <;> simp [kept]
  exact follows.bind _

theorem follows_each [LawfulMonad m] (feed : Feed m α) (f : α → Attempt m Unit) :
    Follows (eachItem feed) f (feed.each f) :=
  follows_fold_eachItem feed (fun _ _ answer => answer) (fun _ => ())
    (fun _ _ => (bind_pure _).symm) (fun _ _ _ => rfl)

theorem follows_folding [LawfulMonad m] (feed : Feed m α) (initial : β)
    (f : β × α → Attempt m β) :
    Follows (folding feed initial) f (feed.fold initial fun sofar item => f (sofar, item)) :=
  follows_fold feed (fun sofar item => (sofar, item)) (fun _ _ answer => answer)
    (lastAnswer initial) (fun _ _ => (bind_pure _).symm) (lastAnswer_append initial)

/-! ## Finding -/

private theorem passed_append (calls : List (α × Bool)) (item : α) (answer : Bool) :
    passed (calls ++ [(item, answer)]) = if answer then some item else none := by
  simp [passed]

/-- What a search does with the next item. -/
private def searchStep (p : α → Attempt m Bool) (item : α) (sofar : Nat × Option (α × Nat)) :
    Attempt m (ForInStep (Nat × Option (α × Nat))) := do
  return if ← p item then .done (sofar.1, some (item, sofar.1)) else .yield (sofar.1 + 1, none)

/-- What is left of a search after some calls: nothing once the last item has passed, and the search
from the next place on before. -/
private def searchLeft (feed : Feed m α) (p : α → Attempt m Bool) (calls : List (α × Bool)) :
    Attempt m (Nat × Option (α × Nat)) :=
  (passed calls).elim
    (feed.goFrom (searchStep p) (feed.bound - calls.length) calls.length (calls.length, none))
    fun item => pure (calls.length - 1, some (item, calls.length - 1))

private theorem searchLeft_itemAt [LawfulMonad m] (feed : Feed m α) (p : α → Attempt m Bool)
    {calls : List (α × Bool)} (goesOn : passed calls = none) :
    searchLeft feed p calls = (do
      match ← feed.itemAt calls.length with
      | none => return (calls.length, none)
      | some item => searchLeft feed p (calls ++ [(item, ← p item)])) := by
  simp only [searchLeft, goesOn, passed_append, Option.elim_none]
  rw [goFrom_itemAt]
  apply bind_congr
  intro item
  cases item with
  | none => rfl
  | some item =>
      simp only [searchStep, bind_assoc, pure_bind]
      apply bind_congr
      intro answer
      cases answer <;> simp

theorem follows_findPlace [LawfulMonad m] (feed : Feed m α) (p : α → Attempt m Bool) :
    Follows (untilPasses feed) p (feed.findPlace p) := by
  suffices follows : Follows (untilPasses feed) p (searchLeft feed p []) from follows.bind _
  refine ⟨fun calls rest => rest = searchLeft feed p calls, rfl, ?_⟩
  rintro calls rest rfl
  refine ⟨(passed calls).elim (pure (calls.length, none)) fun _ => searchLeft feed p calls,
    fun item answer => searchLeft feed p (calls ++ [(item, answer)]), ?_, fun _ _ => rfl⟩
  cases ended : passed calls with
  | some item =>
      simp only [untilPasses, ended, pure_bind, Option.elim_some]
  | none =>
      simp only [untilPasses, ended, Option.elim_none]
      exact searchLeft_itemAt feed p ended

theorem follows_find [LawfulMonad m] (feed : Feed m α) (p : α → Attempt m Bool) :
    Follows (untilPasses feed) p (feed.find p) := (follows_findPlace feed p).bind _

theorem follows_indexWhere [LawfulMonad m] (feed : Feed m α) (p : α → Attempt m Bool) :
    Follows (untilPasses feed) p (feed.indexWhere p) := (follows_findPlace feed p).bind _

theorem follows_any [LawfulMonad m] (feed : Feed m α) (p : α → Attempt m Bool) :
    Follows (untilPasses feed) p (feed.any p) := (follows_findPlace feed p).bind _

/-! ## Columns -/

/-- The functions of some columns, each of them on a row. -/
def columnsOf (count : Nat) (f : Nat × α → Attempt m β) : List (α → Attempt m β) :=
  (List.range count).map fun column row => f (column, row)

section Columns

variable (feed : Feed m α) (columns : Nat) (f : Nat × α → Attempt m β)

/-- All rows from a place on, after the rows before. -/
private def rowsLeft (rows : Array (List β)) : Attempt m (Array (List β)) :=
  feed.foldFrom (fun sofar row => do
    return sofar.push (← (columnsOf columns f).mapM fun column => column row)) rows.size rows

/-- The columns of a row that are left, and all rows after it. -/
private def rowLeft (rows : Array (List β)) (cells : List β) (row : α) :
    Attempt m (Array (List β)) := do
  let more ← (List.range' cells.length (columns - cells.length)).mapM fun column => f (column, row)
  rowsLeft feed columns f (rows.push (cells ++ more))

private theorem rowLeft_of_fewer [LawfulMonad m] (rows : Array (List β)) (cells : List β)
    (row : α) (fewer : cells.length < columns) :
    rowLeft feed columns f rows cells row = (do
      rowLeft feed columns f rows (cells ++ [← f (cells.length, row)]) row) := by
  have more : columns - cells.length = columns - (cells.length + 1) + 1 := by omega
  unfold rowLeft
  rw [more, List.range'_succ]
  simp [List.mapM_cons]

private theorem rowLeft_of_full [LawfulMonad m] (rows : Array (List β)) {cells : List β}
    (row : α) (full : cells.length = columns) :
    rowLeft feed columns f rows cells row = rowsLeft feed columns f (rows.push cells) := by
  unfold rowLeft
  simp [full]

private theorem rowsLeft_itemAt [LawfulMonad m] (rows : Array (List β)) :
    rowsLeft feed columns f rows = (do
      match ← feed.itemAt rows.size with
      | none => return rows
      | some row => rowLeft feed columns f rows [] row) := by
  unfold rowsLeft
  rw [foldFrom_itemAt]
  apply bind_congr
  intro item
  cases item with
  | none => rfl
  | some row => simp [rowLeft, rowsLeft, columnsOf, List.range_eq_range', Function.comp_def]

/-- What is left after some calls, between two rows or within one. -/
private inductive RowsLeft : List ((Nat × α) × β) → Attempt m (Array (List β)) → Prop where
  | between {calls : List ((Nat × α) × β)} (rows : Array (List β))
      (count : calls.length = rows.size * columns) :
      RowsLeft calls (rowsLeft feed columns f rows)
  | within {calls : List ((Nat × α) × β)} (rows : Array (List β)) {cells : List β} {row : α}
      (count : calls.length = rows.size * columns + cells.length)
      (begun : cells ≠ []) (fewer : cells.length < columns)
      (last : calls.getLast?.map (fun call => call.1.2) = some row) :
      RowsLeft calls (rowLeft feed columns f rows cells row)

private theorem rowsLeft_answered [LawfulMonad m] {calls : List ((Nat × α) × β)}
    (rows : Array (List β)) (cells : List β)
    (count : calls.length = rows.size * columns + cells.length)
    (fewer : cells.length < columns) (argument : Nat × α) (answer : β) :
    RowsLeft feed columns f (calls ++ [(argument, answer)])
      (rowLeft feed columns f rows (cells ++ [answer]) argument.2) := by
  by_cases full : (cells ++ [answer]).length = columns
  · rw [rowLeft_of_full feed columns f rows argument.2 full]
    refine .between _ ?_
    rw [List.length_append, List.length_singleton] at full
    rw [Array.size_push, Nat.succ_mul, List.length_append, count, List.length_singleton]
    omega
  · rw [List.length_append, List.length_singleton] at full
    refine .within rows ?_ (by simp) ?_ (by simp)
    · simp only [List.length_append, List.length_singleton]
      omega
    · rw [List.length_append, List.length_singleton]
      omega

theorem follows_rowByRow [LawfulMonad m] (some_column : 0 < columns) :
    Follows (rowByRow feed columns) f (feed.unzip (columnsOf columns f)) := by
  suffices follows : Follows (rowByRow feed columns) f (rowsLeft feed columns f #[]) by
    have collects : feed.unzip (columnsOf columns f) = (do
        let rows ← rowsLeft feed columns f #[]
        let cells ← pure rows.toList
        return (List.range (columnsOf columns f).length).map fun place =>
          cells.filterMap fun row => row[place]?) := by
      rw [unzip, collect, bind_assoc]
      rfl
    rw [collects]
    exact follows.bind _
  refine ⟨RowsLeft feed columns f, .between #[] (by simp), ?_⟩
  intro calls rest stands
  cases stands with
  | between rows count =>
      refine ⟨pure rows, fun argument answer => rowLeft feed columns f rows [answer] argument.2,
        ?_, ?_⟩
      · have next : (rowByRow feed columns calls : Attempt m (Option (Nat × α))) = (do
            return (← feed.itemAt rows.size).map fun row => (0, row)) := by
          unfold rowByRow
          rw [count, Nat.mul_mod_left, Nat.mul_div_cancel _ some_column]
        rw [next, rowsLeft_itemAt, bind_assoc]
        apply bind_congr
        intro item
        cases item with
        | none => simp only [Option.map_none, pure_bind]
        | some row =>
            rw [Option.map_some, pure_bind]
            exact rowLeft_of_fewer feed columns f rows [] row some_column
      · intro argument answer
        exact rowsLeft_answered feed columns f rows [] count some_column argument answer
  | @within rows cells row count begun fewer last =>
      refine ⟨rowLeft feed columns f rows cells row, fun argument answer =>
        rowLeft feed columns f rows (cells ++ [answer]) argument.2, ?_, ?_⟩
      · have next : (rowByRow feed columns calls : Attempt m (Option (Nat × α))) =
            pure (some (cells.length, row)) := by
          obtain ⟨column, length⟩ :=
            Nat.exists_eq_succ_of_ne_zero (mt List.length_eq_zero_iff.mp begun)
          obtain ⟨⟨⟨used, same⟩, answer⟩, isLast, rfl⟩ := Option.map_eq_some_iff.mp last
          unfold rowByRow
          rw [count, Nat.mul_add_mod_self_right, Nat.mod_eq_of_lt fewer, isLast, length]
        rw [next, pure_bind]
        exact rowLeft_of_fewer feed columns f rows cells row fewer
      · intro argument answer
        exact rowsLeft_answered feed columns f rows cells count fewer argument answer

end Columns

end Calls

end Presence
