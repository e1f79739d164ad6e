import Presence.Proofs.Logger.Operations
import Presence.Proofs.Session.Steps

/-!
Contract: steps on loggers, one at a time.

Owns: what a step on loggers comes to; what it leaves of the loggers that are there
(`getElem?_runStep`), and that every threshold stays the number of a level (`Levelled`).

Does not own: the operations (`Presence.Proofs.Logger.Operations`), steps in general
(`Presence.Proofs.Session.Steps`) and runs of many steps (`Presence.Proofs.Logger.Runs`,
`Presence.Proofs.Logger.Levels`).
-/

namespace Presence.Session

open Attempt Run

/-! ## Answers -/

/-- Nothing, a truth value, a text or a logger. -/
def IsAnswer (s : Scalar) : Prop :=
  s = .null ∨ (∃ b, s = .bool b) ∨ (∃ t, s = .text t) ∨ ∃ number, s = .handle ⟨.logger, number⟩

private theorem runFrom_keep {s : Scalar} (isAnswer : IsAnswer s) (world : World) :
    (keep (.scalar s)).runFrom world = (.ok (.scalar s), world) := by
  rcases isAnswer with rfl | ⟨b, rfl⟩ | ⟨t, rfl⟩ | ⟨number, rfl⟩ <;> rfl

private theorem runFrom_tell {s : Scalar} (isAnswer : IsAnswer s) (world : World) :
    (tell (.scalar s)).runFrom world = (.ok (.scalar s), world) := by
  rcases isAnswer with rfl | ⟨b, rfl⟩ | ⟨t, rfl⟩ | ⟨number, rfl⟩ <;> rfl

/-- Telling an answer changes nothing, and naming it only the bindings. -/
private theorem runFrom_finish (step : Step) {s : Scalar} (isAnswer : IsAnswer s) (world : World) :
    ∃ bindings, (step.finish (.scalar s)).runFrom world =
      (.ok (.scalar s), { world with bindings := bindings }) := by
  unfold Step.finish
  rcases step.binding with _ | name
  · exact ⟨world.bindings, runFrom_tell isAnswer world⟩
  · dsimp only
    rw [runFrom_bind_of_ok _ (runFrom_modify world _)]
    exact ⟨_, runFrom_tell isAnswer _⟩

private theorem isAnswer_of_alters {world after : World} {arguments : List Value}
    {keywords : Keywords} {operation : LoggerOperation} {answer : Value}
    (alters : Alters world arguments keywords operation (.ok answer, after)) :
    ∃ s, answer = .scalar s ∧ IsAnswer s := by
  cases alters with
  | tells _ plain =>
      rcases plain with rfl | ⟨b, rfl⟩ | ⟨t, rfl⟩
      · exact ⟨_, rfl, .inl rfl⟩
      · exact ⟨_, rfl, .inr (.inl ⟨b, rfl⟩)⟩
      · exact ⟨_, rfl, .inr (.inr (.inl ⟨t, rfl⟩))⟩
  | makes _ _ _ => exact ⟨_, rfl, .inr (.inr (.inr ⟨_, rfl⟩))⟩
  | binds _ _ _ => exact ⟨_, rfl, .inr (.inr (.inr ⟨_, rfl⟩))⟩
  | sets _ _ => exact ⟨_, rfl, .inl rfl⟩

/-- A call that writes answers nothing. -/
private theorem eq_null_of_write {operation : LoggerOperation} {level : Level}
    (writes : operation.level? = some level) {world after : World} {arguments : List Value}
    {keywords : Keywords} {answer : Value}
    (performed : (performLogger operation arguments keywords).runFrom world = (.ok answer, after)) :
    answer = .null := by
  rcases asked : world.asked? arguments keywords with _ | ⟨l, message, fields⟩
  · obtain ⟨fault, failed⟩ := runFrom_write_of_none writes asked
    cases performed.symm.trans failed
  · rw [runFrom_write writes asked] at performed
    rcases passes : l.passes level with fault | _ | _ <;> rw [passes] at performed
    · cases performed
    · cases performed
      rfl
    · dsimp only at performed
      rcases written : world.lineOf l level message fields with fault | line <;>
        rw [written] at performed
      · cases performed
      · dsimp only at performed
        rw [runFrom_bind] at performed
        rcases done : (writeTo l.sink line).runFrom world with ⟨fault | _, between⟩ <;>
          rw [done] at performed <;> cases performed
        rfl

/-- The answer of an operation that assigns no level is told as it is. -/
private theorem isAnswer_of_performLogger {operation : LoggerOperation}
    (assignsNothing : operation ≠ .assignLevel) {world after : World} {arguments : List Value}
    {keywords : Keywords} {answer : Value}
    (performed : (performLogger operation arguments keywords).runFrom world = (.ok answer, after)) :
    ∃ s, answer = .scalar s ∧ IsAnswer s := by
  rcases writes : operation.level? with _ | level
  · have alters := alters_performLogger writes assignsNothing world arguments keywords
    rw [performed] at alters
    exact isAnswer_of_alters alters
  · exact ⟨.null, eq_null_of_write writes performed, .inl rfl⟩

/-- A step whose arguments cannot be made. -/
theorem runStep_of_error {step : Step} {operation : Operation}
    (isOperation : step.operation = some operation) {world ready : World} {fault : Fault}
    (made : step.made.runFrom world.fresh = (.error fault, ready)) :
    runStep step world = (.of (.error fault) ready, ready) := by
  apply runStep_of_performStep
  rw [performStep_eq isOperation]
  exact runFrom_bind_of_error _ made

/-- A step whose operation fails or answers is that operation on its arguments. Only the bindings
change after it. -/
theorem runStep_of_answer {step : Step} {operation : LoggerOperation}
    (isOperation : step.operation = some (.logger operation)) {world ready after : World}
    {arguments : List Value} {keywords : Keywords}
    (made : step.made.runFrom world.fresh = (.ok (arguments, keywords), ready))
    {outcome : Except Fault Value}
    (performed : (performLogger operation arguments keywords).runFrom ready = (outcome, after))
    (answers : ∀ answer, outcome = .ok answer → ∃ s, answer = .scalar s ∧ IsAnswer s) :
    ∃ bindings, runStep step world =
      (.of outcome { after with bindings := bindings }, { after with bindings := bindings }) := by
  have opens : (performStep step).runFrom world.fresh =
      (performLogger operation arguments keywords >>= fun answer =>
        keep answer >>= step.finish).runFrom ready := by
    rw [performStep_eq isOperation, runFrom_bind_of_ok _ made, ← bind_assoc]
    rfl
  rcases outcome with fault | answer
  · refine ⟨after.bindings, runStep_of_performStep (opens.trans ?_)⟩
    exact runFrom_bind_of_error _ performed
  · obtain ⟨s, rfl, isAnswer⟩ := answers answer rfl
    obtain ⟨bindings, finished⟩ := runFrom_finish step isAnswer after
    refine ⟨bindings, runStep_of_performStep (opens.trans ?_)⟩
    rw [runFrom_bind_of_ok _ performed, runFrom_bind_of_ok _ (runFrom_keep isAnswer after)]
    exact finished

/-- A step that assigns no level is its operation on its arguments. -/
theorem runStep_of_ok {step : Step} {operation : LoggerOperation}
    (isOperation : step.operation = some (.logger operation))
    (assignsNothing : operation ≠ .assignLevel) {world ready after : World}
    {arguments : List Value} {keywords : Keywords}
    (made : step.made.runFrom world.fresh = (.ok (arguments, keywords), ready))
    {outcome : Except Fault Value}
    (performed : (performLogger operation arguments keywords).runFrom ready = (outcome, after)) :
    ∃ bindings, runStep step world =
      (.of outcome { after with bindings := bindings }, { after with bindings := bindings }) := by
  refine runStep_of_answer isOperation made performed ?_
  rintro answer rfl
  exact isAnswer_of_performLogger assignsNothing performed

/-! ## Loggers that are there -/

/-- The value that a call sets the level of a logger to. -/
def settingOf? (operation : LoggerOperation) (arguments : List Value) (keywords : Keywords)
    (number : Nat) : Option Value :=
  match operation, setting? arguments keywords with
  | .setLevel, some (named, v) => if named = number then some v else none
  | _, _ => none

private theorem settingOf?_of_ne {operation : LoggerOperation} (isOther : operation ≠ .setLevel)
    (arguments : List Value) (keywords : Keywords) (number : Nat) :
    settingOf? operation arguments keywords number = none := by
  unfold settingOf?
  split
  · exact absurd rfl isOther
  · rfl

/-- The world after a line is the same but for the streams and the console. -/
private theorem loggers_writeTo (sink : Value) (line : List Char) (world : World) :
    ((writeTo sink line).runFrom world).2.store.loggers = world.store.loggers := by
  unfold writeTo
  split
  · rfl
  · next number =>
      have opened := runFrom_openStreamAt number .transfer world
      show ((writeToStream number line).runFrom world).2.store.loggers = _
      unfold writeToStream
      split at opened
      · rw [runFrom_bind_of_error _ opened]
      · rw [runFrom_bind_of_ok _ opened]
        cases (world.store.streamAt number).name <;> rfl
  · rfl
  · rfl

theorem loggers_write {operation : LoggerOperation} {level : Level}
    (writes : operation.level? = some level) (world : World) (arguments : List Value)
    (keywords : Keywords) :
    ((performLogger operation arguments keywords).runFrom world).2.store.loggers =
      world.store.loggers := by
  rcases asked : world.asked? arguments keywords with _ | ⟨l, message, fields⟩
  · obtain ⟨fault, failed⟩ := runFrom_write_of_none writes asked
    rw [failed]
  · rw [runFrom_write writes asked]
    split
    · rfl
    · rfl
    · split
      · rfl
      · next line _ => rw [snd_writeTo_return, loggers_writeTo]

/-- A logger that is there stays as it is, but for the level that it is set to. -/
private theorem getElem?_performLogger {operation : LoggerOperation}
    (assignsNothing : operation ≠ .assignLevel) {world : World} {number : Nat} {l : Logger}
    (found : world.store.loggers[number]? = some l) (arguments : List Value)
    (keywords : Keywords) :
    ((performLogger operation arguments keywords).runFrom world).2.store.loggers[number]? =
      some ((settingOf? operation arguments keywords number).toList.foldl setTo l) := by
  have inside : number < world.store.loggers.size := (Array.getElem?_eq_some_iff.mp found).1
  rcases writes : operation.level? with _ | level
  · have alters := alters_performLogger writes assignsNothing world arguments keywords
    generalize (performLogger operation arguments keywords).runFrom world = performed at alters
    cases alters with
    | fails fault quiet unset =>
        show _ = _
        rw [quiet.loggers, found]
        unfold settingOf?
        split
        · next named v asked =>
            split
            · next same =>
                subst same
                have unknown := unset rfl named v asked (by simp [found])
                simp [setTo, unknown]
            · rfl
        · rfl
    | tells asks plain =>
        have isOther : operation ≠ .setLevel := by rcases asks with rfl | rfl <;> simp
        rw [settingOf?_of_ne isOther]
        exact found
    | makes quiet given known =>
        have isOther : operation ≠ .setLevel := by
          rintro rfl
          cases given
        rw [settingOf?_of_ne isOther]
        rw [← quiet.loggers] at found
        exact getElem?_push_of_found found _
    | binds alone isThere fields =>
        rw [settingOf?_of_ne (by simp)]
        exact getElem?_push_of_found found _
    | @sets named other v asked isThere =>
        have set : settingOf? .setLevel arguments keywords number =
            if named = number then some v else none := by
          simp only [settingOf?, asked]
        show (Array.setIfInBounds _ _ _)[number]? = _
        rw [Array.getElem?_setIfInBounds, set]
        by_cases same : named = number
        · subst same
          cases found.symm.trans isThere
          simp [inside]
        · simp [same, found]
  · have isOther : operation ≠ .setLevel := by
      rintro rfl
      cases writes
    rw [loggers_write writes, settingOf?_of_ne isOther, found]
    rfl

/-- Every threshold is the number of a level. -/
def Levelled (world : World) : Prop :=
  ∀ l ∈ world.store.loggers, ∃ level : Level, l.threshold = .int level.number

theorem Levelled.of_quiet {before after : World} (levelled : Levelled before)
    (quiet : Quiet before after) : Levelled after := by
  intro l member
  rw [quiet.loggers] at member
  exact levelled l member

/-- A logger that is there after an operation was there before, or is at the number of a level. -/
private theorem mem_loggers_performLogger {operation : LoggerOperation}
    (assignsNothing : operation ≠ .assignLevel) {world : World} {arguments : List Value}
    {keywords : Keywords} {l : Logger}
    (member : l ∈ ((performLogger operation arguments keywords).runFrom world).2.store.loggers) :
    l ∈ world.store.loggers ∨ ∃ level : Level, l.threshold = .int level.number := by
  rcases writes : operation.level? with _ | level
  · have alters := alters_performLogger writes assignsNothing world arguments keywords
    generalize (performLogger operation arguments keywords).runFrom world = performed
      at alters member
    cases alters with
    | fails fault quiet unset => exact .inl (quiet.loggers ▸ member)
    | tells asks plain => exact .inl member
    | makes quiet given known =>
        rcases Array.mem_push.mp member with old | rfl
        · exact .inl (quiet.loggers ▸ old)
        · exact .inr ⟨_, known⟩
    | binds alone isThere fields =>
        rcases Array.mem_push.mp member with old | rfl
        · exact .inl old
        · exact .inr ⟨_, rfl⟩
    | @sets number other v asked isThere =>
        rcases Array.mem_or_eq_of_mem_setIfInBounds member with old | rfl
        · exact .inl old
        · unfold setTo
          split
          · next level _ => exact .inr ⟨level, rfl⟩
          · exact .inl (Array.mem_of_getElem? isThere)
  · rw [loggers_write writes] at member
    exact .inl member

/-! ## Steps -/

/-- A step on loggers that assigns no level. -/
def Step.IsLogging (step : Step) : Prop :=
  ∃ operation, step.operation = some (.logger operation) ∧ operation ≠ .assignLevel

/-- All that a step on loggers can come to: its arguments cannot be made, or its operation is
performed on them, and then only the bindings change. -/
inductive ComesTo (step : Step) (world : World) : Outcome × World → Prop where
  | stops {operation : LoggerOperation} {fault : Fault} {ready : World}
      (isOperation : step.operation = some (.logger operation))
      (made : step.made.runFrom world.fresh = (.error fault, ready))
      (quiet : Quiet world.fresh ready) :
      ComesTo step world (.of (.error fault) ready, ready)
  | performs {operation : LoggerOperation} {arguments : List Value} {keywords : Keywords}
      {ready after : World} {outcome : Except Fault Value} (bindings : List (String × Value))
      (isOperation : step.operation = some (.logger operation))
      (assignsNothing : operation ≠ .assignLevel)
      (made : step.made.runFrom world.fresh = (.ok (arguments, keywords), ready))
      (quiet : Quiet world.fresh ready)
      (performed : (performLogger operation arguments keywords).runFrom ready = (outcome, after)) :
      ComesTo step world
        (.of outcome { after with bindings := bindings }, { after with bindings := bindings })

theorem comesTo_runStep {step : Step} (isLogging : step.IsLogging) (world : World) :
    ComesTo step world (runStep step world) := by
  obtain ⟨operation, isOperation, assignsNothing⟩ := isLogging
  rcases made : step.made.runFrom world.fresh with ⟨result, ready⟩
  have quiet : Quiet _ _ := (keepsTo_made step).leadsTo made
  rcases result with fault | ⟨arguments, keywords⟩
  · rw [runStep_of_error isOperation made]
    exact .stops isOperation made quiet
  · rcases performed : (performLogger operation arguments keywords).runFrom ready with
      ⟨outcome, after⟩
    obtain ⟨bindings, ended⟩ := runStep_of_ok isOperation assignsNothing made performed
    rw [ended]
    exact .performs bindings isOperation assignsNothing made quiet performed

/-- The values that a step sets the level of a logger to: one of them, or none. -/
def settingsOf (number : Nat) (step : Step) (world : World) : List Value :=
  match step.operation, step.made.runFrom world.fresh with
  | some (.logger operation), (.ok (arguments, keywords), _) =>
      (settingOf? operation arguments keywords number).toList
  | _, _ => []

/-- A step leaves the loggers that are there as they are, but for the level that it sets one to. -/
theorem getElem?_runStep {step : Step} (isLogging : step.IsLogging) {world : World} {number : Nat}
    {l : Logger} (found : world.store.loggers[number]? = some l) :
    (runStep step world).2.store.loggers[number]? =
      some ((settingsOf number step world).foldl setTo l) := by
  have comes := comesTo_runStep isLogging world
  generalize runStep step world = ended at comes
  cases comes with
  | stops isOperation made quiet =>
      rw [settingsOf, isOperation, made, quiet.loggers]
      exact found
  | @performs _ arguments keywords _ _ _ _ isOperation assignsNothing made quiet performed =>
      rw [settingsOf, isOperation, made]
      have there : world.fresh.store.loggers[number]? = some l := found
      rw [← quiet.loggers] at there
      have kept := getElem?_performLogger assignsNothing there arguments keywords
      rw [performed] at kept
      exact kept

/-- A logger that is there after a step was there before, or is at the number of a level. -/
theorem mem_loggers_runStep {step : Step} (isLogging : step.IsLogging) {world : World} {l : Logger}
    (member : l ∈ (runStep step world).2.store.loggers) :
    l ∈ world.store.loggers ∨ ∃ level : Level, l.threshold = .int level.number := by
  have comes := comesTo_runStep isLogging world
  generalize runStep step world = ended at comes member
  cases comes with
  | stops _ _ quiet => exact .inl (quiet.loggers ▸ member)
  | performs _ _ assignsNothing _ quiet performed =>
      have same : _ = world.store.loggers := quiet.loggers
      rw [← same]
      apply mem_loggers_performLogger assignsNothing
      rw [performed]
      exact member

theorem levelled_runStep {step : Step} (isLogging : step.IsLogging) {world : World}
    (levelled : Levelled world) : Levelled (runStep step world).2 := by
  intro l member
  exact (mem_loggers_runStep isLogging member).elim (levelled l) id

end Presence.Session
