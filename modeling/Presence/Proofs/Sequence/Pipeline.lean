import Presence.Proofs.Calls.Propagation
import Presence.Session.Sequences

/-!
Contract: sequences that go through stages, each of which calls a function on every item.

Owns: `Stage` and `pipeline` for sequences; that every stage is a sweep through the items
(`run_eq`); `Sweeps` and `Unfolds`, which calls the functions of the stages get and what comes of
them, and that a pipeline makes these calls and no others (`runFrom_pipeline`); what a session does
to a sequence with one operation after the other (`performAll_eq`).

Does not own: what the items of the result are (`Presence.Proofs.Sequence.ItemByItem`), and records
of calls (`Presence.Proofs.Calls.Schedule`).

The functions give values. What counts as true, and which parts a value has, is read off a value by
a `Reading`, which may look at the state and may fail. A stage is over before the next one begins.
-/

namespace Presence

open Calls Session

variable {m : Type → Type} [Monad m] {α β γ σ : Type}

/-! ## Sweeps -/

/-- Goes through items, and puts together what they give. -/
def sweep (gives : α → m (List β)) (items : List α) : m (List β) := do
  return (← items.mapM gives).flatten

@[simp] theorem sweep_nil [LawfulMonad m] (gives : α → m (List β)) : sweep gives [] = pure [] := by
  simp [sweep]

theorem sweep_cons [LawfulMonad m] (gives : α → m (List β)) (item : α) (rest : List α) :
    sweep gives (item :: rest) = do
      let first ← gives item
      let others ← sweep gives rest
      return first ++ others := by
  simp [sweep]

theorem sweep_append [LawfulMonad m] (gives : α → m (List β)) (front back : List α) :
    sweep gives (front ++ back) = do
      let first ← sweep gives front
      let others ← sweep gives back
      return first ++ others := by
  simp [sweep]

/-- One item that is given for each item need not be put together. -/
theorem sweep_single [LawfulMonad m] (f : α → m β) (items : List α) :
    sweep (fun item => do return [← f item]) items = items.mapM f := by
  induction items with
  | nil => simp
  | cons item rest inductionHypothesis =>
      rw [sweep_cons, inductionHypothesis, List.mapM_cons]
      simp

namespace Feed

/-- A fold that adds what each item gives to what it has is a sweep. -/
theorem foldlM_sweep [LawfulMonad m] {step : Array β → α → Attempt m (Array β)}
    {gives : α → Attempt m (List β)}
    (adds : ∀ sofar item, step sofar item = do return sofar ++ (← gives item).toArray)
    (items : List α) (sofar : Array β) :
    items.foldlM step sofar = do return sofar ++ (← sweep gives items).toArray := by
  induction items generalizing sofar with
  | nil => simp
  | cons item rest inductionHypothesis => simp [adds, sweep_cons, inductionHypothesis]

theorem collect_ofList [LawfulMonad m] (items : List α) (f : α → Attempt m β) :
    (ofList items).collect f = items.mapM f := by
  have adds (sofar : Array β) (item : α) :
      (do return sofar.push (← f item) : Attempt m (Array β)) = do
        return sofar ++ (← (do return [← f item] : Attempt m (List β))).toArray := by
    simp
  rw [collect, fold_ofList, foldlM_sweep adds, sweep_single]
  simp

private theorem flatCollect_ofList [LawfulMonad m] (items : List α) (f : α → Attempt m (List β)) :
    (ofList items).flatCollect f = sweep f items := by
  rw [flatCollect, collect_ofList, sweep]

theorem filter_ofList [LawfulMonad m] (items : List α) (p : α → Attempt m Bool) :
    (ofList items).filter p =
      sweep (fun item => do return if ← p item then [item] else []) items := by
  have adds (sofar : Array α) (item : α) :
      (do return if ← p item then sofar.push item else sofar : Attempt m (Array α)) = do
        return sofar ++ (← (do return if ← p item then [item] else [] :
          Attempt m (List α))).toArray := by
    simp only [bind_assoc, pure_bind]
    refine bind_congr fun passes => ?_
    cases passes <;> simp
  rw [filter, fold_ofList, foldlM_sweep adds]
  simp

end Feed

namespace Sequence

/-! ## Stages -/

/-- How the answers of functions are read. -/
structure Reading (m : Type → Type) where
  truth : Value → Attempt m Bool
  parts : Value → Attempt m (List Value)

/-- What a stage does with the answers of its function. -/
inductive StageSort where
  | map
  | flatMap
  | keepIf
  | removeIf

structure Stage (m : Type → Type) where
  sort : StageSort
  callback : Value → Attempt m Value

def Stage.run (read : Reading m) (stage : Stage m) (s : Sequence (List Value)) :
    Attempt m (Sequence (List Value)) :=
  match stage.sort with
  | .map => s.map stage.callback
  | .flatMap => s.flatMap fun x => do read.parts (← stage.callback x)
  | .keepIf => s.keepIf fun x => do read.truth (← stage.callback x)
  | .removeIf => s.removeIf fun x => do read.truth (← stage.callback x)

def pipeline (read : Reading m) (stages : List (Stage m)) (s : Sequence (List Value)) :
    Attempt m (Sequence (List Value)) :=
  stages.foldlM (fun s stage => stage.run read s) s

/-- The items that are passed on for an item, by the answer that the function gave on it. -/
def StageSort.passesOn (read : Reading m) (sort : StageSort) (x answer : Value) :
    Attempt m (List Value) :=
  match sort with
  | .map => pure [answer]
  | .flatMap => read.parts answer
  | .keepIf => do return if ← read.truth answer then [x] else []
  | .removeIf => do return if ← read.truth answer then [] else [x]

/-- The items that a stage passes on for an item. -/
def Stage.gives (read : Reading m) (stage : Stage m) (x : Value) : Attempt m (List Value) := do
  stage.sort.passesOn read x (← stage.callback x)

/-- All stages but one go through the items inside another iteration. -/
def StageSort.leaving (sort : StageSort) (body : Attempt m α) : Attempt m α :=
  match sort with
  | .flatMap => body
  | _ => Attempt.sealed body

/-- What a fault becomes on its way out of a stage. -/
def StageSort.leaves (sort : StageSort) (fault : Fault) : Fault :=
  match sort with
  | .flatMap => fault
  | _ => stopped fault

/-- A stage is a sweep through the items. -/
theorem run_eq [LawfulMonad m] (read : Reading m) (stage : Stage m) (s : Sequence (List Value)) :
    stage.run read s = do return ⟨← stage.sort.leaving (sweep (stage.gives read) s.items)⟩ := by
  obtain ⟨sort, callback⟩ := stage
  cases sort with
  | map =>
      have single : sweep (Stage.gives read ⟨.map, callback⟩) s.items = s.items.mapM callback :=
        sweep_single callback s.items
      rw [single, ← Feed.collect_ofList]
      rfl
  | flatMap =>
      rw [← Feed.flatCollect_ofList]
      rfl
  | keepIf =>
      have tested : Stage.gives read ⟨.keepIf, callback⟩ = fun x => do
          return if ← (do read.truth (← callback x)) then [x] else [] := by
        funext x
        exact (bind_assoc _ _ _).symm
      rw [tested, ← Feed.filter_ofList]
      rfl
  | removeIf =>
      have tested : Stage.gives read ⟨.removeIf, callback⟩ = fun x => do
          return if ← (do return !(← (do read.truth (← callback x)))) then [x] else [] := by
        funext x
        simp only [Stage.gives, StageSort.passesOn, bind_assoc, pure_bind]
        refine bind_congr fun answer => bind_congr fun passes => ?_
        cases passes <;> rfl
      rw [tested, ← Feed.filter_ofList]
      rfl

theorem pipeline_cons (read : Reading m) (stage : Stage m) (stages : List (Stage m))
    (s : Sequence (List Value)) :
    pipeline read (stage :: stages) s = stage.run read s >>= pipeline read stages :=
  List.foldlM_cons

/-! ## Calls on record -/

def Reading.beside (read : Reading (StateM σ)) :
    Reading (StateM (Record σ (Nat × Value) Value)) where
  truth v := aside (read.truth v)
  parts v := aside (read.parts v)

private theorem passesOn_beside (read : Reading (StateM σ)) (sort : StageSort) (x answer : Value) :
    sort.passesOn read.beside x answer = aside (sort.passesOn read x answer) := by
  cases sort with
  | map => rfl
  | flatMap => rfl
  | keepIf | removeIf =>
      simp only [StageSort.passesOn, aside_bind]
      rfl

/-- Stages of some sorts, whose functions are told apart by the places of the stages. -/
def stagesFrom (callback : Nat × Value → Attempt m Value) (place : Nat) :
    List StageSort → List (Stage m)
  | [] => []
  | sort :: sorts => ⟨sort, fun x => callback (place, x)⟩ :: stagesFrom callback (place + 1) sorts

section Order

variable {read : Reading (StateM σ)} {f : Nat × Value → Attempt (StateM σ) Value}
  {place : Nat} {sort : StageSort} {sorts : List StageSort} {items : List Value}
  {before after : σ} {calls : List (Entry (Nat × Value) Value)}

/-- The calls of the stage at some place on items, one for each item in their order, with all that
is passed on and the state after them. A fault, of the function or of what reads its answer, is the
end: the items after it are not called on. -/
inductive Sweeps (read : Reading (StateM σ)) (f : Nat × Value → Attempt (StateM σ) Value)
    (place : Nat) (sort : StageSort) : (items : List Value) → (before : σ) →
    List (Entry (Nat × Value) Value) → Except Fault (List Value) → (after : σ) → Prop
  | ends (before : σ) : Sweeps read f place sort [] before [] (.ok []) before
  | passes {x answer : Value} {rest passed : List Value} {before asked judged after : σ}
      {calls : List (Entry (Nat × Value) Value)} {outcome : Except Fault (List Value)}
      (gives : (f (place, x)).runFrom before = (.ok answer, asked))
      (passesOn : (sort.passesOn read x answer).runFrom asked = (.ok passed, judged))
      (goesOn : Sweeps read f place sort rest judged calls outcome after) :
      Sweeps read f place sort (x :: rest) before (⟨(place, x), .ok answer⟩ :: calls)
        (outcome.map (passed ++ ·)) after
  | raises {x : Value} {rest : List Value} {before asked : σ} {fault : Fault}
      (fails : (f (place, x)).runFrom before = (.error fault, asked)) :
      Sweeps read f place sort (x :: rest) before [⟨(place, x), .error fault⟩] (.error fault) asked
  | unread {x answer : Value} {rest : List Value} {before asked judged : σ} {fault : Fault}
      (gives : (f (place, x)).runFrom before = (.ok answer, asked))
      (unreadable : (sort.passesOn read x answer).runFrom asked = (.error fault, judged)) :
      Sweeps read f place sort (x :: rest) before [⟨(place, x), .ok answer⟩] (.error fault) judged

/-- From some items on, the calls of the stages from some place on: all calls of a stage, and then
those of the next one on what was passed on. No stage after one with a fault is called. -/
inductive Unfolds (read : Reading (StateM σ)) (f : Nat × Value → Attempt (StateM σ) Value) :
    (place : Nat) → List StageSort → (items : List Value) → (before : σ) →
    List (Entry (Nat × Value) Value) → Except Fault (List Value) → (after : σ) → Prop
  | ends (place : Nat) (items : List Value) (before : σ) :
      Unfolds read f place [] items before [] (.ok items) before
  | goesOn {place : Nat} {sort : StageSort} {sorts : List StageSort} {items passed : List Value}
      {before between after : σ} {calls later : List (Entry (Nat × Value) Value)}
      {outcome : Except Fault (List Value)}
      (sweeps : Sweeps read f place sort items before calls (.ok passed) between)
      (rest : Unfolds read f (place + 1) sorts passed between later outcome after) :
      Unfolds read f place (sort :: sorts) items before (calls ++ later) outcome after
  | stops {place : Nat} {sort : StageSort} {sorts : List StageSort} {items : List Value}
      {before after : σ} {calls : List (Entry (Nat × Value) Value)} {fault : Fault}
      (sweeps : Sweeps read f place sort items before calls (.error fault) after) :
      Unfolds read f place (sort :: sorts) items before calls (.error (sort.leaves fault)) after

/-- A stage is called on its items one after the other, from the first on. -/
private theorem Sweeps.arguments {outcome : Except Fault (List Value)}
    (sweeps : Sweeps read f place sort items before calls outcome after) :
    calls.map Entry.argument = (items.take calls.length).map (Prod.mk place) := by
  induction sweeps with
  | ends => rfl
  | passes _ _ _ inductionHypothesis =>
      rw [List.map_cons, inductionHypothesis, List.length_cons, List.take_succ_cons, List.map_cons]
  | raises => rfl
  | unread => rfl

private theorem Sweeps.place_eq {outcome : Except Fault (List Value)}
    (sweeps : Sweeps read f place sort items before calls outcome after) :
    ∀ call ∈ calls, call.argument.1 = place := by
  intro call member
  have isArgument := List.mem_map_of_mem (f := Entry.argument) member
  rw [sweeps.arguments] at isArgument
  obtain ⟨x, -, same⟩ := List.mem_map.mp isArgument
  rw [← same]

/-- A stage that ends without a fault was called on every item, and no call failed. -/
private theorem Sweeps.of_ok {passed : List Value}
    (sweeps : Sweeps read f place sort items before calls (.ok passed) after) :
    calls.length = items.length ∧ ∀ call ∈ calls, ∃ answer, call.outcome = .ok answer := by
  generalize isOutcome : Except.ok passed = outcome at sweeps
  induction sweeps generalizing passed with
  | ends => exact ⟨rfl, fun call member => absurd member List.not_mem_nil⟩
  | @passes _ answer _ _ _ _ _ _ _ outcome _ _ _ inductionHypothesis =>
      cases outcome with
      | error fault => cases isOutcome
      | ok others =>
          obtain ⟨count, answered⟩ := inductionHypothesis rfl
          refine ⟨congrArg (· + 1) count, ?_⟩
          rw [List.forall_mem_cons]
          exact ⟨⟨answer, rfl⟩, answered⟩
  | raises => cases isOutcome
  | unread => cases isOutcome

/-- A call that fails is the last one, and its fault ends the stage. -/
private theorem Sweeps.failed {outcome : Except Fault (List Value)}
    (sweeps : Sweeps read f place sort items before calls outcome after) :
    ∀ call ∈ calls, ∀ fault, call.outcome = .error fault →
      calls.getLast? = some call ∧ outcome = .error fault := by
  induction sweeps with
  | ends =>
      intro call member
      exact absurd member List.not_mem_nil
  | passes _ _ _ inductionHypothesis =>
      intro call member fault fails
      rcases List.mem_cons.mp member with rfl | later
      · cases fails
      · obtain ⟨isLast, rfl⟩ := inductionHypothesis call later fault fails
        exact ⟨by rw [List.getLast?_cons, isLast]; rfl, rfl⟩
  | raises =>
      intro call member fault fails
      rw [List.mem_singleton.mp member] at fails ⊢
      cases fails
      exact ⟨rfl, rfl⟩
  | unread =>
      intro call member fault fails
      rw [List.mem_singleton.mp member] at fails
      cases fails

/-- No call of a stage comes after one of a later stage. -/
theorem Unfolds.ordered {outcome : Except Fault (List Value)}
    (unfolds : Unfolds read f place sorts items before calls outcome after) :
    (∀ call ∈ calls, place ≤ call.argument.1) ∧
      calls.Pairwise fun call next => call.argument.1 ≤ next.argument.1 := by
  have within {place : Nat} {calls : List (Entry (Nat × Value) Value)}
      (here : ∀ call ∈ calls, call.argument.1 = place) :
      calls.Pairwise fun call next => call.argument.1 ≤ next.argument.1 :=
    List.pairwise_of_forall_mem_list fun call member next isNext =>
      Nat.le_of_eq ((here call member).trans (here next isNext).symm)
  induction unfolds with
  | ends => exact ⟨fun call member => absurd member List.not_mem_nil, List.Pairwise.nil⟩
  | goesOn sweeps _ inductionHypothesis =>
      obtain ⟨after, ordered⟩ := inductionHypothesis
      have here := sweeps.place_eq
      refine ⟨?_, List.pairwise_append.mpr ⟨within here, ordered, ?_⟩⟩
      · intro call member
        rcases List.mem_append.mp member with isHere | isLater
        · exact Nat.le_of_eq (here call isHere).symm
        · exact Nat.le_of_succ_le (after call isLater)
      · intro call member next isLater
        rw [here call member]
        exact Nat.le_of_succ_le (after next isLater)
  | stops sweeps =>
      exact ⟨fun call member => Nat.le_of_eq (sweeps.place_eq call member).symm,
        within sweeps.place_eq⟩

/-- A call that fails is the last one of all, and the pipeline ends in its fault, unless that is the
end of an iteration. -/
theorem Unfolds.failed {outcome : Except Fault (List Value)}
    (unfolds : Unfolds read f place sorts items before calls outcome after) :
    ∀ call ∈ calls, ∀ fault, call.outcome = .error fault →
      calls.getLast? = some call ∧ (fault.kind ≠ .stopIteration → outcome = .error fault) := by
  induction unfolds with
  | ends =>
      intro call member
      exact absurd member List.not_mem_nil
  | @goesOn _ _ _ _ _ _ _ _ calls later _ sweeps _ inductionHypothesis =>
      intro call member fault fails
      rcases List.mem_append.mp member with isHere | isLater
      -- A stage that others come after has no call that fails.
      · obtain ⟨answer, answered⟩ := sweeps.of_ok.2 call isHere
        rw [answered] at fails
        cases fails
      · obtain ⟨isLast, ended⟩ := inductionHypothesis call isLater fault fails
        exact ⟨by rw [List.getLast?_append, isLast]; rfl, ended⟩
  | @stops _ sort _ _ _ _ _ _ sweeps =>
      intro call member fault fails
      obtain ⟨isLast, isFault⟩ := sweeps.failed call member fault fails
      rw [Except.error.inj isFault]
      refine ⟨isLast, fun goesOn => ?_⟩
      cases sort with
      | flatMap => rfl
      | map | keepIf | removeIf =>
          exact congrArg Except.error ((stopped_eq_self_iff fault).mpr goesOn)

end Order

/-! ## The calls of a pipeline -/

section Runs

variable (read : Reading (StateM σ)) (f : Nat × Value → Attempt (StateM σ) Value)

theorem runFrom_leaving {body : Attempt (StateM σ) α} {start after : σ} {outcome : Except Fault α}
    (sort : StageSort) (ended : body.runFrom start = (outcome, after)) :
    (sort.leaving body).runFrom start = (outcome.mapError sort.leaves, after) := by
  cases sort with
  | flatMap =>
      rw [StageSort.leaving, ended]
      cases outcome <;> rfl
  | map | keepIf | removeIf =>
      show (Attempt.sealed body).runFrom start = _
      rw [runFrom_sealed, ended]
      rfl

/-- A sweep whose function puts its calls on record has the calls on record that it makes; putting
them on record changes nothing else. -/
private theorem runFrom_sweep (place : Nat) (sort : StageSort) (items : List Value) (before : σ)
    (record : List (Entry (Nat × Value) Value)) :
    ∃ calls outcome after,
      (sweep (Stage.gives read.beside ⟨sort, fun x => recorded f (place, x)⟩) items).runFrom
          ⟨before, record⟩ = (outcome, ⟨after, record ++ calls⟩) ∧
        (sweep (Stage.gives read ⟨sort, fun x => f (place, x)⟩) items).runFrom before =
          (outcome, after) ∧
        Sweeps read f place sort items before calls outcome after := by
  -- On the items; a fault, of the function or of what reads its answer, leaves the rest alone.
  induction items generalizing before record with
  | nil => exact ⟨[], .ok [], before, by rw [List.append_nil]; rfl, rfl, .ends before⟩
  | cons x rest inductionHypothesis =>
      rw [sweep_cons, sweep_cons, Stage.gives, Stage.gives, bind_assoc, bind_assoc]
      rcases called : (f (place, x)).runFrom before with ⟨fault | answer, asked⟩
      · exact ⟨_, _, _, Attempt.runFrom_bind_of_error _ (runFrom_recorded called record),
          Attempt.runFrom_bind_of_error _ called, .raises called⟩
      · rw [Attempt.runFrom_bind_of_ok _ (runFrom_recorded called record), passesOn_beside,
          Attempt.runFrom_bind_of_ok _ called]
        rcases judged : (sort.passesOn read x answer).runFrom asked with ⟨fault | passed, reached⟩
        · exact ⟨_, _, _, Attempt.runFrom_bind_of_error _ (runFrom_aside judged _),
            Attempt.runFrom_bind_of_error _ judged, .unread called judged⟩
        · obtain ⟨calls, outcome, after, ran, plain, sweeps⟩ :=
            inductionHypothesis reached (record ++ [⟨(place, x), .ok answer⟩])
          refine ⟨_, _, after, ?_, ?_, .passes called judged sweeps⟩
          · rw [Attempt.runFrom_bind_of_ok _ (runFrom_aside judged _), Attempt.runFrom_bind, ran,
              List.append_assoc]
            cases outcome <;> rfl
          · rw [Attempt.runFrom_bind_of_ok _ judged, Attempt.runFrom_bind, plain]
            cases outcome <;> rfl

/-- A pipeline whose functions put their calls on record has the calls on record that unfold from
the items, and ends as they do, which is as it ends without a record. -/
theorem runFrom_pipeline (sorts : List StageSort) (place : Nat) (s : Sequence (List Value))
    (before : σ) (record : List (Entry (Nat × Value) Value)) :
    ∃ calls outcome after,
      (pipeline read.beside (stagesFrom (recorded f) place sorts) s).runFrom ⟨before, record⟩ =
          (outcome, ⟨after, record ++ calls⟩) ∧
        (pipeline read (stagesFrom f place sorts) s).runFrom before = (outcome, after) ∧
        Unfolds read f place sorts s.items before calls (outcome.map Sequence.items) after := by
  induction sorts generalizing place s before record with
  | nil => exact ⟨[], .ok s, before, by rw [List.append_nil]; rfl, rfl, .ends place s.items before⟩
  | cons sort sorts inductionHypothesis =>
      obtain ⟨calls, outcome, between, ran, plain, sweeps⟩ :=
        runFrom_sweep read f place sort s.items before record
      have left := runFrom_leaving sort ran
      have leftPlain := runFrom_leaving sort plain
      rw [stagesFrom, stagesFrom, pipeline_cons, pipeline_cons, run_eq, run_eq, bind_assoc,
        bind_assoc]
      cases outcome with
      | error fault =>
          exact ⟨calls, _, between, Attempt.runFrom_bind_of_error _ left,
            Attempt.runFrom_bind_of_error _ leftPlain, .stops sweeps⟩
      | ok passed =>
          obtain ⟨later, outcome, after, ended, endedPlain, unfolds⟩ :=
            inductionHypothesis (place + 1) ⟨passed⟩ between (record ++ calls)
          refine ⟨calls ++ later, outcome, after, ?_, ?_, .goesOn sweeps unfolds⟩
          · rw [Attempt.runFrom_bind_of_ok _ left, pure_bind, ended, List.append_assoc]
          · rw [Attempt.runFrom_bind_of_ok _ leftPlain, pure_bind, endedPlain]

end Runs

/-! ## Pipelines in a session -/

/-- Answers as a session reads them. -/
def inSession : Reading (StateM World) where
  truth := Run.truth
  parts := Run.parts

/-- The operation of a stage in a session. -/
def StageSort.operation : StageSort → SequenceOperation
  | .map => .map
  | .flatMap => .flatMap
  | .keepIf => .keepIf
  | .removeIf => .removeIf

theorem performSequence_eq_run (call : Caller) (sort : StageSort) (s : Sequence (List Value))
    (f : Value) :
    performSequence call sort.operation [.ofSequence s, f] =
      (do return .ofSequence (← Stage.run inSession ⟨sort, fun x => call f [x]⟩ s)) := by
  have fed : itemsOf (.ofSequence s) = pure s.feed := rfl
  cases sort with
  | map | flatMap | keepIf | removeIf =>
      simp only [StageSort.operation, performSequence, fed, Stage.run, map, flatMap, keepIf,
        removeIf, bind_assoc, pure_bind]
      rfl

/-- Stages that a session performs one after the other, from some value on. -/
def performAll (call : Caller) (stages : List (StageSort × Value)) (v : Value) : Run Value :=
  stages.foldlM (fun v stage => performSequence call stage.1.operation [v, stage.2]) v

theorem performAll_eq (call : Caller) (stages : List (StageSort × Value))
    (s : Sequence (List Value)) :
    performAll call stages (.ofSequence s) = (do
      return .ofSequence (← pipeline inSession
        (stages.map fun stage => ⟨stage.1, fun x => call stage.2 [x]⟩) s)) := by
  induction stages generalizing s with
  | nil => rfl
  | cons stage stages inductionHypothesis =>
      rw [performAll, List.foldlM_cons, performSequence_eq_run, List.map_cons, pipeline_cons,
        bind_assoc, bind_assoc]
      refine bind_congr fun passed => ?_
      rw [pure_bind]
      exact inductionHypothesis passed

end Sequence

end Presence
