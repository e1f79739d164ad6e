import Presence.Proofs.Calls.TwoRuns
import Presence.Proofs.Value.Equivalence
import Presence.Session.Step

/-!
Contract: options that go through stages, each of which may call a function of the payload.

Owns: `Stage` and `pipeline`; `SamePayload`, when two options have one payload and when they are
equal then; `Unfolds`, which calls the functions of the stages get and what comes of them;
`pipeline_unfolds`, that a pipeline makes these calls and no others, and that stages may be grouped.

Does not own: what a single stage does (`Presence.Optional`), records of calls
(`Presence.Proofs.Calls.Schedule`), and equality (`Presence.Proofs.Value.Equivalence`).

The functions give values. What counts as true, and which option a value is, is read off a value by
a `Reading`, which may look at the state and may fail. Stages that are grouped end in the payload
that they have by themselves. That is all: a payload that is no number is not equal to itself.
-/

namespace Presence.Optional

open Attempt Calls Session

variable {m : Type → Type} [Monad m] {κ α σ : Type}

def payload? : Optional κ α → Option α
  | .ok v => some v
  | .notOk _ => none

/-- Two options with one payload, or without any. They are equal unless the payload is not even
equal to itself, as it is if nothing in it is no number. -/
structure SamePayload (one other : Optional Value Value) : Prop where
  payload : one.payload? = other.payload?
  equal_iff : (Value.option one == .option other) = true ↔ ∀ v ∈ other.payload?, (v == v) = true
  equal_of_regular : (∀ v ∈ other.payload?, v.Regular) → (Value.option one == .option other) = true

theorem samePayload_of_eq {one other : Optional Value Value}
    (same : one.payload? = other.payload?) : SamePayload one other := by
  have equal_iff : (Value.option one == .option other) = true ↔
      ∀ v ∈ other.payload?, (v == v) = true := by
    cases one with
    | ok v =>
        cases other with
        | ok w =>
            cases same
            simp only [payload?, Option.mem_some_iff, forall_eq']
            exact Iff.rfl
        | notOk kind => cases same
    | notOk kind =>
        cases other with
        | ok w => cases same
        | notOk other => exact ⟨fun _ _ => nofun, fun _ => rfl⟩
  exact ⟨same, equal_iff, fun regular =>
    equal_iff.mpr fun v member => Value.same_refl (regular v member)⟩

/-- How the answers of functions are read. An option is read as itself. -/
structure Reading (m : Type → Type) [Monad m] where
  truth : Value → Attempt m Bool
  option : Value → Attempt m (Optional Value Value)
  option_option : ∀ o, option (.option o) = pure o

/-- What a stage does with the answer of its function. -/
inductive StageSort where
  | map (kind : Value)
  | convert
  | flatMap
  | keepOkIf
  | toNotOkIf

structure Stage (m : Type → Type) where
  sort : StageSort
  callback : Value → Attempt m Value

def Stage.run (read : Reading m) (stage : Stage m) (o : Optional Value Value) :
    Attempt m (Optional Value Value) :=
  match stage.sort with
  | .map kind => o.map stage.callback kind
  | .convert => o.convert stage.callback
  | .flatMap => o.flatMap fun x => do read.option (← stage.callback x)
  | .keepOkIf => o.keepOkIf fun x => do read.truth (← stage.callback x)
  | .toNotOkIf => o.toNotOkIf fun x => do read.truth (← stage.callback x)

def pipeline (read : Reading m) (stages : List (Stage m)) (o : Optional Value Value) :
    Attempt m (Optional Value Value) :=
  stages.foldlM (fun o stage => stage.run read o) o

/-- What an answer makes of the payload that the function was called on. -/
def StageSort.verdict (read : Reading m) (sort : StageSort) (x answer : Value) :
    Attempt m (Optional Value Value) :=
  match sort with
  | .map _ => pure (.ok answer)
  | .convert => pure (.ok answer)
  | .flatMap => read.option answer
  | .keepOkIf => do return if ← read.truth answer then .ok x else .notOk (.ofKind x.kindOf)
  | .toNotOkIf => do return if ← read.truth answer then .notOk (.ofKind x.kindOf) else .ok x

/-! ## One stage -/

theorem run_ok [LawfulMonad m] (read : Reading m) (stage : Stage m) (x : Value) :
    stage.run read (.ok x) = (do stage.sort.verdict read x (← stage.callback x)) := by
  obtain ⟨sort, callback⟩ := stage
  cases sort with
  | map kind => rfl
  | convert => rfl
  | flatMap => rfl
  | keepOkIf => exact bind_assoc _ _ _
  | toNotOkIf => exact bind_assoc _ _ _

theorem run_notOk (read : Reading m) (stage : Stage m) (kind : Value) :
    ∃ left, stage.run read (.notOk kind) = pure (.notOk left) := by
  obtain ⟨sort, callback⟩ := stage
  cases sort with
  | map absent => exact ⟨absent, rfl⟩
  | convert => exact ⟨kind, rfl⟩
  | flatMap => exact ⟨default, rfl⟩
  | keepOkIf => exact ⟨kind, rfl⟩
  | toNotOkIf => exact ⟨kind, rfl⟩

/-! ## Pipelines -/

theorem pipeline_cons (read : Reading m) (stage : Stage m) (stages : List (Stage m))
    (o : Optional Value Value) :
    pipeline read (stage :: stages) o = stage.run read o >>= pipeline read stages :=
  List.foldlM_cons

private theorem pipeline_append [LawfulMonad m] (read : Reading m) (front back : List (Stage m))
    (o : Optional Value Value) :
    pipeline read (front ++ back) o = pipeline read front o >>= pipeline read back :=
  List.foldlM_append

/-- Without a payload a pipeline calls nothing, whatever its stages are. -/
theorem pipeline_notOk [LawfulMonad m] (read : Reading m) (stages : List (Stage m))
    (kind : Value) : ∃ left, pipeline read stages (.notOk kind) = pure (.notOk left) := by
  induction stages generalizing kind with
  | nil => exact ⟨kind, rfl⟩
  | cons stage stages inductionHypothesis =>
      obtain ⟨left, stopped⟩ := run_notOk read stage kind
      rw [pipeline_cons, stopped, pure_bind]
      exact inductionHypothesis left

/-- Some stages as one, which runs them on the payload. -/
def grouped (read : Reading m) (stages : List (Stage m)) : Stage m :=
  ⟨.flatMap, fun x => do return .option (← pipeline read stages (.ok x))⟩

/-- The stages of a group are gone through as they would be by themselves, from whatever state. Only
the kind of an absent payload may be another one, which neither equality nor a later stage looks
at. -/
theorem alike_grouped (read : Reading (StateM σ)) (before group after : List (Stage (StateM σ)))
    (o : Optional Value Value) (start : σ) :
    Alike start (fun _ => SamePayload) (pipeline read (before ++ grouped read group :: after) o)
      (pipeline read (before ++ (group ++ after)) o) := by
  have reaches : Alike start (fun _ one other => one = other) (pipeline read before o)
      (pipeline read before o) := .refl fun _ _ _ => rfl
  rw [pipeline_append, pipeline_append]
  refine reaches.bind ?_
  rintro middle reached _ rfl
  rw [pipeline_cons, pipeline_append]
  cases reached with
  | ok x =>
      -- On a payload the group makes the same calls, since an option is read as itself.
      have same : (grouped read group).run read (.ok x) = pipeline read group (.ok x) := by
        rw [run_ok]
        simp only [grouped, StageSort.verdict, bind_assoc, pure_bind, read.option_option, bind_pure]
      rw [same]
      exact .refl fun _ _ _ => samePayload_of_eq rfl
  | notOk kind =>
      obtain ⟨left, groupStops⟩ := pipeline_notOk read group kind
      obtain ⟨other, stageStops⟩ := run_notOk read (grouped read group) kind
      obtain ⟨last, afterStops⟩ := pipeline_notOk read after left
      obtain ⟨final, restStops⟩ := pipeline_notOk read after other
      rw [groupStops, stageStops, pure_bind, pure_bind, afterStops, restStops]
      exact .pure (samePayload_of_eq rfl)

/-! ## Calls on record -/

def Reading.beside (read : Reading (StateM σ)) :
    Reading (StateM (Record σ (Nat × Value) Value)) where
  truth v := aside (read.truth v)
  option v := aside (read.option v)
  option_option o := by
    rw [read.option_option]
    rfl

/-- Stages of some sorts, whose functions are told apart by the places of the stages. -/
def stagesFrom (callback : Nat × Value → Attempt m Value) (place : Nat) :
    List StageSort → List (Stage m)
  | [] => []
  | sort :: sorts => ⟨sort, fun x => callback (place, x)⟩ :: stagesFrom callback (place + 1) sorts

omit [Monad m] in
private theorem stagesFrom_append (callback : Nat × Value → Attempt m Value) (place : Nat)
    (front back : List StageSort) :
    stagesFrom callback place (front ++ back) =
      stagesFrom callback place front ++ stagesFrom callback (place + front.length) back := by
  induction front generalizing place with
  | nil => rfl
  | cons sort front inductionHypothesis =>
      rw [List.cons_append, stagesFrom, stagesFrom, inductionHypothesis, List.length_cons,
        Nat.add_right_comm, Nat.add_assoc, List.cons_append]

/-- The stages of some sorts, those of a group in their middle as one. -/
def regrouped (read : Reading m) (callback : Nat × Value → Attempt m Value)
    (before group after : List StageSort) : List (Stage m) :=
  stagesFrom callback 0 before ++
    grouped read (stagesFrom callback before.length group) ::
      stagesFrom callback (before.length + group.length) after

/-- From a payload on, the calls of the stages from some place on, one for each stage in their
order, what comes of them all, and the state after them. A stage passes a payload on to the next
one, or it leaves none, or its function fails, or the answer cannot be read; no stage after one that
does not pass is called. -/
inductive Unfolds (read : Reading (StateM σ)) (f : Nat × Value → Attempt (StateM σ) Value) :
    (place : Nat) → List StageSort → (x : Value) → (before : σ) →
    List (Entry (Nat × Value) Value) → Except Fault (Optional Value Value) → (after : σ) → Prop
  | ends (place : Nat) (x : Value) (before : σ) :
      Unfolds read f place [] x before [] (.ok (.ok x)) before
  | passes {place : Nat} {sort : StageSort} {sorts : List StageSort} {x answer y : Value}
      {before asked judged after : σ} {calls : List (Entry (Nat × Value) Value)}
      {outcome : Except Fault (Optional Value Value)}
      (gives : (f (place, x)).runFrom before = (.ok answer, asked))
      (keeps : (sort.verdict read x answer).runFrom asked = (.ok (.ok y), judged))
      (rest : Unfolds read f (place + 1) sorts y judged calls outcome after) :
      Unfolds read f place (sort :: sorts) x before (⟨(place, x), .ok answer⟩ :: calls) outcome
        after
  | rejects {place : Nat} {sort : StageSort} {sorts : List StageSort} {x answer kind left : Value}
      {before asked judged : σ}
      (gives : (f (place, x)).runFrom before = (.ok answer, asked))
      (drops : (sort.verdict read x answer).runFrom asked = (.ok (.notOk kind), judged)) :
      Unfolds read f place (sort :: sorts) x before [⟨(place, x), .ok answer⟩] (.ok (.notOk left))
        judged
  | raises {place : Nat} {sort : StageSort} {sorts : List StageSort} {x : Value} {before asked : σ}
      {fault : Fault}
      (fails : (f (place, x)).runFrom before = (.error fault, asked)) :
      Unfolds read f place (sort :: sorts) x before [⟨(place, x), .error fault⟩] (.error fault)
        asked
  | unread {place : Nat} {sort : StageSort} {sorts : List StageSort} {x answer : Value}
      {before asked judged : σ} {fault : Fault}
      (gives : (f (place, x)).runFrom before = (.ok answer, asked))
      (unreadable : (sort.verdict read x answer).runFrom asked = (.error fault, judged)) :
      Unfolds read f place (sort :: sorts) x before [⟨(place, x), .ok answer⟩] (.error fault) judged

/-- The calls are those of the first stages, in the order of the stages and each made once. -/
theorem Unfolds.places {read : Reading (StateM σ)} {f : Nat × Value → Attempt (StateM σ) Value}
    {place : Nat} {sorts : List StageSort} {x : Value} {before after : σ}
    {calls : List (Entry (Nat × Value) Value)} {outcome : Except Fault (Optional Value Value)}
    (unfolds : Unfolds read f place sorts x before calls outcome after) :
    calls.map (fun call => call.argument.1) = List.range' place calls.length := by
  induction unfolds with
  | ends => rfl
  | passes _ _ _ inductionHypothesis =>
      rw [List.map_cons, inductionHypothesis, List.length_cons, List.range'_succ]
  | rejects => rfl
  | raises => rfl
  | unread => rfl

private theorem verdict_beside (read : Reading (StateM σ)) (sort : StageSort) (x answer : Value) :
    sort.verdict read.beside x answer = aside (sort.verdict read x answer) := by
  cases sort with
  | map kind => rfl
  | convert => rfl
  | flatMap => rfl
  | keepOkIf | toNotOkIf =>
      simp only [StageSort.verdict, aside_bind]
      rfl

/-- A pipeline whose functions put their calls on record has the calls on record that unfold from
the payload, and ends as they do. -/
theorem runFrom_pipeline (read : Reading (StateM σ)) (f : Nat × Value → Attempt (StateM σ) Value)
    (sorts : List StageSort) (place : Nat) (x : Value) (before : σ)
    (record : List (Entry (Nat × Value) Value)) :
    ∃ calls outcome after,
      (pipeline read.beside (stagesFrom (recorded f) place sorts) (.ok x)).runFrom
          ⟨before, record⟩ = (outcome, ⟨after, record ++ calls⟩) ∧
        Unfolds read f place sorts x before calls outcome after := by
  induction sorts generalizing place x before record with
  | nil => exact ⟨[], .ok (.ok x), before, by rw [List.append_nil]; rfl, .ends place x before⟩
  | cons sort sorts inductionHypothesis =>
      rw [stagesFrom, pipeline_cons, run_ok]
      rcases called : (f (place, x)).runFrom before with ⟨fault | answer, asked⟩
      · have stops := Attempt.runFrom_bind_of_error (fun answer =>
          sort.verdict read.beside x answer) (runFrom_recorded called record)
        exact ⟨_, _, _, Attempt.runFrom_bind_of_error _ stops, .raises called⟩
      · have goesOn := Attempt.runFrom_bind_of_ok (fun answer =>
          sort.verdict read.beside x answer) (runFrom_recorded called record)
        rw [verdict_beside] at goesOn
        rcases judged : (sort.verdict read x answer).runFrom asked with ⟨fault | next, reached⟩
        · rw [runFrom_aside judged] at goesOn
          exact ⟨_, _, _, Attempt.runFrom_bind_of_error _ goesOn, .unread called judged⟩
        · rw [runFrom_aside judged] at goesOn
          cases next with
          | notOk kind =>
              obtain ⟨left, stops⟩ := pipeline_notOk read.beside
                (stagesFrom (recorded f) (place + 1) sorts) kind
              have unfolds : Unfolds read f place (sort :: sorts) x before
                  [⟨(place, x), .ok answer⟩] (.ok (.notOk left)) reached :=
                .rejects called judged
              refine ⟨_, _, _, ?_, unfolds⟩
              rw [Attempt.runFrom_bind_of_ok _ goesOn, stops]
              exact Attempt.runFrom_pure _ _
          | ok y =>
              obtain ⟨calls, outcome, after, ran, unfolds⟩ := inductionHypothesis (place + 1) y
                reached (record ++ [⟨(place, x), .ok answer⟩])
              refine ⟨⟨(place, x), .ok answer⟩ :: calls, outcome, after, ?_,
                .passes called judged unfolds⟩
              rw [Attempt.runFrom_bind_of_ok _ goesOn, ran, List.append_assoc]
              rfl

/-! ## Pipelines in a session -/

/-- Values that are read before and after a fold may be read once, before it, if each step can be
taken on what is read. -/
theorem foldlM_read [LawfulMonad m] {β γ : Type} (act : β → α → m β) (read : β → m γ)
    (step : γ → α → m γ) (xs : List α)
    (reads : ∀ v x, (act v x >>= read) = (read v >>= fun e => step e x)) (v : β) :
    (xs.foldlM act v >>= read) = (read v >>= fun e => xs.foldlM step e) := by
  induction xs generalizing v with
  | nil => simp only [List.foldlM_nil, pure_bind, bind_pure]
  | cons x xs inductionHypothesis =>
      calc (x :: xs).foldlM act v >>= read
          = act v x >>= fun w => xs.foldlM act w >>= read := by
            rw [List.foldlM_cons, bind_assoc]
        _ = (act v x >>= read) >>= fun e => xs.foldlM step e := by
            simp only [inductionHypothesis, bind_assoc]
        _ = _ := by
            rw [reads, bind_assoc]
            simp only [List.foldlM_cons]

/-- Answers as a session reads them. -/
def inSession : Reading (StateM World) where
  truth := Run.truth
  option := optionOf
  option_option _ := rfl

/-- The operation of a stage in a session. -/
def StageSort.perform (call : Caller) (sort : StageSort) (v f : Value) : Run Value :=
  match sort with
  | .map kind => performOption call .map [v, f, kind]
  | .convert => performOption call .convert [v, f]
  | .flatMap => performOption call .flatMap [v, f]
  | .keepOkIf => performOption call .keepOkIf [v, f]
  | .toNotOkIf => performOption call .toNotOkIf [v, f]

theorem optionOf_option (o : Optional Value Value) : optionOf (.option o) = pure o := rfl

theorem perform_eq_run (call : Caller) (sort : StageSort) (v f : Value) :
    (sort.perform call v f >>= optionOf) =
      (optionOf v >>= Stage.run inSession ⟨sort, fun x => call f [x]⟩) := by
  cases sort with
  | map kind | convert | keepOkIf | toNotOkIf =>
      simp only [StageSort.perform, performOption, bind_assoc, pure_bind, optionOf_option,
        bind_pure]
      rfl
  | flatMap =>
      -- The answer of a function is read as an option on either side, or the option is absent.
      simp only [StageSort.perform, performOption, bind_assoc]
      apply bind_congr
      intro o
      cases o with
      | ok x => rfl
      | notOk kind => rfl

/-- Stages that a session performs one after the other, from some value on. -/
def performAll (call : Caller) (stages : List (StageSort × Value)) (v : Value) : Run Value :=
  stages.foldlM (fun v stage => stage.1.perform call v stage.2) v

theorem performAll_eq_pipeline (call : Caller) (stages : List (StageSort × Value)) (v : Value) :
    (performAll call stages v >>= optionOf) =
      (optionOf v >>= pipeline inSession
        (stages.map fun stage => ⟨stage.1, fun x => call stage.2 [x]⟩)) := by
  rw [performAll, foldlM_read _ _ _ _ fun v stage => perform_eq_run call stage.1 v stage.2]
  apply bind_congr
  intro o
  rw [pipeline, List.foldlM_map]

/-! ## All pipelines -/

/-- From a payload a pipeline makes the calls that unfold from it, of the first stages in their
order and each once, and ends as they do; without a payload it makes none and has none in the end.
Some stages in a row may be made one, which goes through them on the payload: that changes no call,
no state, no fault and no payload, so that the options in the end are equal unless the payload is
not even equal to itself. What a session does to an option with one operation after the other is a
pipeline. -/
theorem pipeline_unfolds (read : Reading (StateM σ)) (f : Nat × Value → Attempt (StateM σ) Value)
    (sorts : List StageSort) (o : Optional Value Value) (start : σ) :
    (∃ calls outcome after,
      (pipeline read.beside (stagesFrom (recorded f) 0 sorts) o).runFrom ⟨start, []⟩ =
          (outcome, ⟨after, calls⟩) ∧
        calls.map (fun call => call.argument.1) = List.range calls.length ∧
        match o with
        | .ok x => Unfolds read f 0 sorts x start calls outcome after
        | .notOk _ => calls = [] ∧ after = start ∧ ∃ kind, outcome = .ok (.notOk kind)) ∧
    (∀ before group after : List StageSort,
      Alike ⟨start, []⟩ (fun _ => SamePayload)
        (pipeline read.beside (regrouped read.beside (recorded f) before group after) o)
        (pipeline read.beside (stagesFrom (recorded f) 0 (before ++ (group ++ after))) o)) ∧
    ∀ (call : Caller) (stages : List (StageSort × Value)) (v : Value),
      (performAll call stages v >>= optionOf) =
        (optionOf v >>= pipeline inSession
          (stages.map fun stage => ⟨stage.1, fun x => call stage.2 [x]⟩)) := by
  refine ⟨?_, fun before group after => ?_, performAll_eq_pipeline⟩
  · cases o with
    | ok x =>
        obtain ⟨calls, outcome, after, ran, unfolds⟩ := runFrom_pipeline read f sorts 0 x start []
        rw [List.nil_append] at ran
        refine ⟨calls, outcome, after, ran, ?_, unfolds⟩
        rw [unfolds.places, List.range_eq_range']
    | notOk kind =>
        obtain ⟨left, stops⟩ := pipeline_notOk read.beside (stagesFrom (recorded f) 0 sorts) kind
        refine ⟨[], .ok (.notOk left), start, ?_, rfl, rfl, rfl, left, rfl⟩
        rw [stops]
        exact Attempt.runFrom_pure _ _
  · rw [stagesFrom_append, stagesFrom_append, Nat.zero_add]
    exact alike_grouped read.beside _ _ _ o ⟨start, []⟩

/-- A function that takes the infinite away, in whatever place. -/
def lessInfinite (call : Nat × Value) : Attempt (StateM World) Value :=
  Attempt.ofExcept (call.2.sub (.float (.infinite false)))

/-- What is left of the infinite when as much is taken away is no number, and is not equal to
itself: a stage by itself and as a group, from one state, come to options that are not equal. -/
theorem regrouped_infinite_ne :
    ¬ ∀ (read : Reading (StateM World)) (f : Nat × Value → Attempt (StateM World) Value)
        (before group after : List StageSort) (o : Optional Value Value) (start : World),
      Alike ⟨start, []⟩ (fun _ one other => (Value.option one == .option other) = true)
        (pipeline read.beside (regrouped read.beside (recorded f) before group after) o)
        (pipeline read.beside (stagesFrom (recorded f) 0 (before ++ (group ++ after))) o) := by
  intro equal
  cases equal inSession lessInfinite [] [.map .null] [] (.ok (.float (.infinite false)))
      (.start ⟨[]⟩ ⟨2024, 2, 29, 1, 2, 3, 0⟩) with
  | ok ended ended' relates =>
      cases ended
      cases ended'
      cases relates
  | error ended _ => cases ended

end Presence.Optional
