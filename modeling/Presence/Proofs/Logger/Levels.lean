import Presence.Proofs.Logger.Runs

/-!
Contract: the levels of loggers in a run of steps, and what bound loggers take over.

Owns: `settingsIn`, the values that a run sets the level of a logger to; `lastNamed?`, the level of
the last value that names one; what a run leaves of each logger; `levels_of_run`.

Does not own: what one step does (`Presence.Proofs.Logger.Steps`), and what loggers write
(`Presence.Proofs.Logger.Runs`).
-/

namespace Presence.Session

open Attempt Run

/-! ## Settings -/

/-- The level of the last value that names one. -/
def lastNamed? (values : List Value) : Option Level := (values.filterMap named?).getLast?

theorem lastNamed?_cons (v : Value) (values : List Value) :
    lastNamed? (v :: values) = (lastNamed? values).or (named? v) := by
  unfold lastNamed?
  rcases known : named? v with _ | level
  · rw [List.filterMap_cons_none known, Option.or_none]
  · rw [List.filterMap_cons_some known, List.getLast?_cons]
    cases (values.filterMap named?).getLast? <;> rfl

/-- A logger at a level, if there is one. -/
def atLevel (l : Logger) : Option Level → Logger
  | some level => { l with threshold := .int level.number }
  | none => l

/-- Only the last value that names a level makes a difference. -/
private theorem foldl_setTo (l : Logger) (values : List Value) :
    values.foldl setTo l = atLevel l (lastNamed? values) := by
  induction values generalizing l with
  | nil => rfl
  | cons v rest inductionHypothesis =>
      rw [List.foldl_cons, inductionHypothesis, lastNamed?_cons, setTo]
      cases lastNamed? rest <;> cases named? v <;> rfl

/-- The values that steps set the level of a logger to, in the order of the steps. -/
def settingsIn (number : Nat) : List Step → World → List Value
  | [], _ => []
  | step :: rest, world =>
      settingsOf number step world ++ settingsIn number rest (runStep step world).2

/-- A run leaves a logger as it is, but for the level that it is set to last. -/
theorem getElem?_loggers_runSteps {steps : List Step} (each : ∀ step ∈ steps, step.IsLogging)
    {world : World} {number : Nat} {l : Logger}
    (found : world.store.loggers[number]? = some l) :
    (runSteps steps world).2.store.loggers[number]? =
      some (atLevel l (lastNamed? (settingsIn number steps world))) := by
  -- A step applies its own settings only, so the induction is on settings one after the other.
  rw [← foldl_setTo]
  induction steps generalizing world l with
  | nil => exact found
  | cons step rest inductionHypothesis =>
      obtain ⟨isLogging, others⟩ := List.forall_mem_cons.mp each
      rw [runSteps_cons, settingsIn, List.foldl_append]
      exact inductionHypothesis others (getElem?_runStep isLogging found)

/-! ## Thresholds -/

theorem level_of_threshold {l : Logger} {level : Level}
    (isLevel : l.threshold = .int level.number) : l.level = level := by
  unfold Logger.level
  rw [isLevel]
  cases level <;> decide

/-- The level of a logger is one whose number its threshold equals, or the middle one if there is
none. -/
private theorem level_cases (l : Logger) :
    (Value.int l.level.number == l.threshold) = true ∨
      l.level = .info ∧ ∀ level : Level, (Value.int level.number == l.threshold) = false := by
  rcases found : Level.all.find? (fun level => Value.int level.number == l.threshold) with _ | level
  · right
    refine ⟨by rw [Logger.level, found]; rfl, fun level => ?_⟩
    have passedBy := List.find?_eq_none.mp found level (by cases level <;> decide)
    simpa using passedBy
  · left
    rw [Logger.level, found]
    exact List.find?_some (p := fun level : Level => Value.int level.number == l.threshold) found

/-- A logger at the level of a number takes it over to what is bound to it. -/
theorem bind_of_threshold {l : Logger} {level : Level} (isLevel : l.threshold = .int level.number)
    (fields : List (Value × Value)) :
    l.bind fields = { l with context := Logger.merge l.context fields } := by
  unfold Logger.bind
  rw [level_of_threshold isLevel, Logger.thresholdOf, Option.getD_some, ← isLevel]

/-! ## Making and binding -/

/-- A logger that is made has the level that it is given, or the middle one. -/
theorem runStep_makes {step : Step} {operation : LoggerOperation}
    (makes : operation = .make ∨ operation = .ofEnvironment)
    (isOperation : step.operation = some (.logger operation)) {world ready : World}
    {arguments : List Value} {keywords : Keywords}
    (made : step.made.runFrom world.fresh = (.ok (arguments, keywords), ready)) {number : Nat}
    (result : (runStep step world).1.result = .ok (.handle .logger number)) :
    ∃ v l, levelGiven? ready.environment arguments keywords operation = some v ∧
      (runStep step world).2.store.loggers[number]? = some l ∧
      l.threshold = Logger.thresholdOf (named? v) := by
  have assignsNothing : operation ≠ .assignLevel := by rcases makes with rfl | rfl <;> simp
  have writesNothing : operation.level? = none := by rcases makes with rfl | rfl <;> rfl
  have alters := alters_performLogger writesNothing assignsNothing ready arguments keywords
  rcases performed : (performLogger operation arguments keywords).runFrom ready with
    ⟨outcome, after⟩
  obtain ⟨bindings, ended⟩ := runStep_of_ok isOperation assignsNothing made performed
  rw [performed] at alters
  rw [ended] at result ⊢
  cases alters with
  | fails fault quiet unset => cases result
  | tells asks plain => rcases makes with rfl | rfl <;> simp at asks
  | @makes _ l later v quiet given known =>
      cases result
      exact ⟨v, l, given, Array.getElem?_push_size, known⟩
  | binds alone found fields => simp at makes
  | sets asked found => simp at makes

/-- The fields of a call as entries. -/
def entriesFor (keywords : Keywords) : List (Value × Value) :=
  keywords.map fun field => (.text field.1, field.2)

/-- Binding adds a logger behind the others, and changes none of them. -/
theorem runFrom_bindLogger {world : World} {number : Nat} {l : Logger}
    (found : world.store.loggers[number]? = some l) {keywords : Keywords}
    (allowed : ∀ field ∈ keywords, field.1 ≠ "self") :
    (performLogger .bind [.handle .logger number] keywords).runFrom world =
      (.ok (.handle .logger world.store.loggers.size),
        world.withLoggers (world.store.loggers.push (l.bind (entriesFor keywords)))) := by
  have notSelf : (keywords.any fun field => field.1 == "self") = false := by
    rw [List.any_eq_false]
    intro field member
    simpa using allowed field member
  show ((loggerAt number >>= _).runFrom world) = _
  rw [runFrom_bind_of_ok _ (runFrom_loggerAt found)]
  dsimp only
  rw [notSelf]
  rfl

private theorem runStep_binds {step : Step} (isOperation : step.operation = some (.logger .bind))
    {world ready : World} {number : Nat} {keywords : Keywords}
    (made : step.made.runFrom world.fresh = (.ok ([.handle .logger number], keywords), ready))
    (allowed : ∀ field ∈ keywords, field.1 ≠ "self") {l : Logger}
    (found : world.store.loggers[number]? = some l) :
    (runStep step world).1.result = .ok (.handle .logger world.store.loggers.size) ∧
      (runStep step world).2.store.loggers =
        world.store.loggers.push (l.bind (entriesFor keywords)) := by
  have quiet : Quiet _ _ := (keepsTo_made step).leadsTo made
  have same : ready.store.loggers = world.store.loggers := quiet.loggers
  rw [← same] at found
  obtain ⟨bindings, ended⟩ := runStep_of_ok isOperation (by simp) made
    (runFrom_bindLogger found allowed)
  rw [ended, ← same]
  exact ⟨rfl, rfl⟩

/-- Whatever a threshold was set to, what is bound then is at the level of its number, or at the
middle one if it is the number of none. -/
theorem runFrom_assign_bind {world : World} {number : Nat} {l : Logger}
    (found : world.store.loggers[number]? = some l) (n : Value) {keywords : Keywords}
    (allowed : ∀ field ∈ keywords, field.1 ≠ "self") :
    ∃ (level : Level) (assigned : World),
      ((Value.int level.number == n) = true ∨
        level = .info ∧ ∀ other : Level, (Value.int other.number == n) = false) ∧
      (performLogger .assignLevel [.handle .logger number, n] []).runFrom world =
        (.ok .null, assigned) ∧
      (performLogger .bind [.handle .logger number] keywords).runFrom assigned =
        (.ok (.handle .logger assigned.store.loggers.size),
          assigned.withLoggers (assigned.store.loggers.push
            { l with
              threshold := .int level.number
              context := Logger.merge l.context (entriesFor keywords) })) := by
  have inside : number < world.store.loggers.size := (Array.getElem?_eq_some_iff.mp found).1
  let assigned := world.withLoggers
    (world.store.loggers.setIfInBounds number { l with threshold := n })
  have there : assigned.store.loggers[number]? = some { l with threshold := n } := by
    show (Array.setIfInBounds _ _ _)[number]? = _
    rw [Array.getElem?_setIfInBounds, if_pos rfl, if_pos inside]
  refine ⟨Logger.level { l with threshold := n }, assigned, level_cases _, ?_,
    runFrom_bindLogger there allowed⟩
  show ((loggerAt number >>= _).runFrom world) = _
  rw [runFrom_bind_of_ok _ (runFrom_loggerAt found)]
  rfl

/-! ## Runs -/

/-- In every run of steps on loggers that assigns no level, thresholds are numbers of levels, and a
logger that is made has the level of the last name of one among what it was made with and what it
was set to since. A bound logger takes over everything but its fields, which are merged; from then
on it and the logger that it was bound to depend each on their own settings alone. Whatever number a
threshold is assigned, what is bound then has the level of this number, or the middle one. -/
theorem levels_of_run (environment : Environment) (now : Moment) {steps : List Step}
    (each : ∀ step ∈ steps, step.IsLogging) :
    (∀ l ∈ (runSteps steps (.start environment now)).2.store.loggers,
      ∃ level : Level, l.threshold = .int level.number ∧ l.level = level) ∧
    (∀ front step back, steps = front ++ step :: back →
      ∃ before outcome after,
        before = (runSteps front (.start environment now)).2 ∧
        runStep step before = (outcome, after) ∧
        (∀ operation arguments keywords ready number,
          operation = .make ∨ operation = .ofEnvironment →
          step.operation = some (.logger operation) →
          step.made.runFrom before.fresh = (.ok (arguments, keywords), ready) →
          outcome.result = .ok (.handle .logger number) →
          ∃ v l, levelGiven? ready.environment arguments keywords operation = some v ∧
            (runSteps steps (.start environment now)).2.store.loggers[number]? = some l ∧
            l.threshold =
              .int ((lastNamed? (v :: settingsIn number back after)).getD .info).number) ∧
        ∀ number keywords ready l, step.operation = some (.logger .bind) →
          step.made.runFrom before.fresh = (.ok ([.handle .logger number], keywords), ready) →
          (∀ field ∈ keywords, field.1 ≠ "self") → before.store.loggers[number]? = some l →
          ∃ bound : Logger,
            bound = { l with context := Logger.merge l.context (entriesFor keywords) } ∧
            (∀ level, bound.passes level = l.passes level) ∧
            outcome.result = .ok (.handle .logger before.store.loggers.size) ∧
            after.store.loggers = before.store.loggers.push bound ∧
            (runSteps steps (.start environment now)).2.store.loggers[before.store.loggers.size]? =
              some (atLevel bound
                (lastNamed? (settingsIn before.store.loggers.size back after))) ∧
            (runSteps steps (.start environment now)).2.store.loggers[number]? =
              some (atLevel l (lastNamed? (settingsIn number back after)))) ∧
    ∀ (world : World) number l (n : Value) keywords, world.store.loggers[number]? = some l →
      (∀ field ∈ keywords, field.1 ≠ "self") →
      ∃ (level : Level) (assigned : World),
        ((Value.int level.number == n) = true ∨
          level = .info ∧ ∀ other : Level, (Value.int other.number == n) = false) ∧
        (performLogger .assignLevel [.handle .logger number, n] []).runFrom world =
          (.ok .null, assigned) ∧
        (performLogger .bind [.handle .logger number] keywords).runFrom assigned =
          (.ok (.handle .logger assigned.store.loggers.size),
            assigned.withLoggers (assigned.store.loggers.push
              { l with
                threshold := .int level.number
                context := Logger.merge l.context (entriesFor keywords) })) := by
  have levelledIn : ∀ part : List Step, (∀ step ∈ part, step.IsLogging) →
      Levelled (runSteps part (.start environment now)).2 := fun part eachIn =>
    (text_runSteps eachIn (levelled_start environment now) Store.holds_empty).2.2
  refine ⟨?_, ?_, ?_⟩
  · intro l member
    obtain ⟨level, isLevel⟩ := levelledIn steps each l member
    exact ⟨level, isLevel, level_of_threshold isLevel⟩
  · rintro front step back rfl
    have levelledBefore := levelledIn front fun step member =>
      each step (List.mem_append_left _ member)
    have backs : ∀ step ∈ back, step.IsLogging := fun step member =>
      each step (List.mem_append_right _ (List.mem_cons_of_mem _ member))
    have whole := runSteps_append front (step :: back) (.start environment now)
    generalize (runSteps front (.start environment now)).2 = before at whole levelledBefore
    rw [whole, runSteps_cons]
    refine ⟨before, (runStep step before).1, (runStep step before).2, rfl, rfl, ?_, ?_⟩
    · intro operation arguments keywords ready number makes isOperation made result
      obtain ⟨v, l, given, found, known⟩ := runStep_makes makes isOperation made result
      refine ⟨v, atLevel l (lastNamed? (settingsIn number back (runStep step before).2)), given,
        getElem?_loggers_runSteps backs found, ?_⟩
      rw [lastNamed?_cons]
      cases lastNamed? (settingsIn number back (runStep step before).2) with
      | none => exact known
      | some level => rfl
    · intro number keywords ready l isOperation made allowed found
      obtain ⟨level, isLevel⟩ := levelledBefore l (Array.mem_of_getElem? found)
      obtain ⟨result, pushed⟩ := runStep_binds isOperation made allowed found
      rw [bind_of_threshold isLevel] at pushed
      refine ⟨_, rfl, fun _ => rfl, result, pushed, ?_, ?_⟩
      · apply getElem?_loggers_runSteps backs
        rw [pushed]
        exact Array.getElem?_push_size
      · apply getElem?_loggers_runSteps backs
        rw [pushed]
        exact getElem?_push_of_found found _
  · intro world number l n keywords found allowed
    exact runFrom_assign_bind found n allowed

/-- A logger is made at an unknown level, and set to one. -/
def earlySteps : List Step :=
  [⟨some (.logger .make), [.scalar (.text "a"), .scalar (.text "bogus")], [], some "a"⟩,
    ⟨some (.logger .setLevel), [.variable "a", .scalar (.text "wARn")], [], none⟩]

/-- Another one is bound to it. -/
def boundStep : Step :=
  ⟨some (.logger .bind), [.variable "a"], [("k", .scalar (.int 1))], some "c"⟩

/-- Both are set to levels, and to what is none. -/
def lateSteps : List Step :=
  [⟨some (.logger .setLevel), [.variable "a", .scalar (.text "nope")], [], none⟩,
    ⟨some (.logger .setLevel), [.variable "c", .scalar (.text "debug")], [], none⟩,
    ⟨some (.logger .ofEnvironment), [], [], none⟩,
    ⟨some (.logger .setLevel), [.variable "a", .scalar (.text "error")], [], none⟩]

theorem levels_of_run_bound :
    (∀ step ∈ earlySteps ++ boundStep :: lateSteps, step.IsLogging) ∧
      (runSteps (earlySteps ++ boundStep :: lateSteps)
        (.start ⟨[]⟩ ⟨2024, 2, 29, 1, 2, 3, 0⟩)).2.store.loggers[1]? =
          some ⟨.text "a", .int 10, .bool false, [(.text "k", .int 1)], .null⟩ ∧
      (runSteps (earlySteps ++ boundStep :: lateSteps)
        (.start ⟨[]⟩ ⟨2024, 2, 29, 1, 2, 3, 0⟩)).2.store.loggers[0]? =
          some ⟨.text "a", .int 40, .bool false, [], .null⟩ := by
  have each : ∀ step ∈ earlySteps ++ boundStep :: lateSteps, step.IsLogging := by
    simp [earlySteps, boundStep, lateSteps, Step.IsLogging]
  obtain ⟨_, parts, _⟩ := levels_of_run ⟨[]⟩ ⟨2024, 2, 29, 1, 2, 3, 0⟩ each
  obtain ⟨before, outcome, after, rfl, ended, _, binds⟩ := parts earlySteps boundStep lateSteps rfl
  cases ended
  obtain ⟨bound, rfl, _, _, _, child, parent⟩ := binds 0 [("k", .int 1)] _
    ⟨.text "a", .int 30, .bool false, [], .null⟩ rfl rfl (by simp) rfl
  exact ⟨each, child, parent⟩

end Presence.Session
