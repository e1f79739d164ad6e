import Presence.Proofs.Logger.Steps

/-!
Contract: whether loggers are enabled for the level of a name, in every state that steps lead to.

Owns: `Logger.rank?`, the number that a threshold means; `Ranked`, worlds in which every threshold
means one, which steps keep even where they assign thresholds, as long as these are numbers with an
order; `enabled_of_run`.

Does not own: levels that are set by name (`Presence.Proofs.Logger.Levels`).

What is asked about the name of no level is answered by nothing, which counts as false but is no
truth value.
-/

namespace Presence

/-! ## Names of levels -/

namespace Level

variable {name : String}

theorem ofName?_eq_some_iff {level : Level} :
    ofName? name = some level ↔ name.toList.map upper = level.name.toList := by
  constructor
  · intro found
    have same := List.find?_some found
    exact (beq_iff_eq.mp same).symm
  · intro same
    rw [ofName?, same]
    cases level <;> decide

private theorem ofName?_eq_none_iff :
    ofName? name = none ↔ ∀ level : Level, name.toList.map upper ≠ level.name.toList := by
  rw [Option.eq_none_iff_forall_ne_some]
  exact forall_congr' fun level => not_congr ofName?_eq_some_iff

end Level

/-! ## Thresholds -/

namespace Logger

/-- The number that the threshold of a logger means, if it has an order. -/
def rank? (l : Logger) : Option Extended :=
  match l.threshold with
  | .scalar s => s.real?
  | _ => none

variable {l : Logger} {rank : Extended}

private theorem rank?_of_level {level : Level} (isLevel : l.threshold = .int level.number) :
    l.rank? = some (.ofInt level.number) := by
  rw [rank?, isLevel]
  rfl

/-- A level passes if the number of the threshold is not above its own. -/
private theorem passes_of_rank (isRank : l.rank? = some rank) (level : Level) :
    l.passes level = .ok (rank.lessOrSame (.ofInt level.number)) := by
  unfold rank? at isRank
  split at isRank
  · next s isScalar =>
      have compared : Scalar.compare? .greaterOrSame (.int level.number) s =
          some (rank.lessOrSame (.ofInt level.number)) := by
        unfold Scalar.compare?
        rw [isRank]
        rfl
      rw [passes, isScalar, Value.compare?, compared]
  · cases isRank

private theorem enabled_of_level (isRank : l.rank? = some rank) {name : String} {level : Level}
    (known : Level.ofName? name = some level) :
    l.enabled (.text name) = .ok (.bool (rank.lessOrSame (.ofInt level.number))) := by
  have named : Level.ofValue? (.text name) = .ok (some level) := congrArg Except.ok known
  rw [enabled, named]
  show (l.passes level >>= fun passes => pure (Value.bool passes)) = _
  rw [passes_of_rank isRank]
  rfl

private theorem enabled_of_unknown (l : Logger) {name : String}
    (unknown : Level.ofName? name = none) :
    l.enabled (.text name) = .ok .null := by
  have named : Level.ofValue? (.text name) = .ok none := congrArg Except.ok unknown
  rw [enabled, named]
  rfl

end Logger

namespace Session

open Attempt Run

/-- Asking changes nothing. -/
theorem runFrom_enabled {world : World} {number : Nat} {l : Logger}
    (found : world.store.loggers[number]? = some l) {arguments : List Value} {keywords : Keywords}
    {level : Value} (given : matched ["level"] arguments keywords = .ok [some level]) :
    (performLogger .enabled (.handle .logger number :: arguments) keywords).runFrom world =
      (l.enabled level, world) := by
  show ((loggerAt number >>= fun _ => argumentsOf ["level"] arguments keywords >>= _).runFrom
    world) = _
  rw [runFrom_bind_of_ok _ (runFrom_loggerAt found), runFrom_bind, runFrom_argumentsOf, given]
  rfl

/-! ## Assigned numbers -/

/-- Every threshold means a number that has an order. -/
def Ranked (world : World) : Prop := ∀ l ∈ world.store.loggers, ∃ rank, l.rank? = some rank

private theorem Ranked.of_quiet {before after : World} (ranked : Ranked before)
    (quiet : Quiet before after) : Ranked after := by
  intro l member
  rw [quiet.loggers] at member
  exact ranked l member

/-- Assigning a number answers nothing, and leaves numbers. -/
private theorem ranked_assign {world : World} (ranked : Ranked world) (target : Value) {s : Scalar}
    {rank : Extended} (isNumber : s.real? = some rank) (keywords : Keywords) :
    ∃ outcome after,
      (performLogger .assignLevel [target, .scalar s] keywords).runFrom world =
        (outcome, after) ∧
      (∀ answer, outcome = .ok answer → answer = .null) ∧ Ranked after := by
  have isOther : LoggerOperation.assignLevel ≠ .make ∧
      LoggerOperation.assignLevel ≠ .ofEnvironment := by simp
  rcases runFrom_performLogger isOther world [target, .scalar s] keywords with
    ⟨number, rest, l, same, found, performed⟩ | ⟨_, fault, failed⟩
  · cases same
    have opens : (performOnLogger .assignLevel number [.scalar s] keywords).runFrom world =
        (.ok .null, world.withLoggers
          (world.store.loggers.setIfInBounds number { l with threshold := .scalar s })) := by
      show ((loggerAt number >>= _).runFrom world) = _
      rw [runFrom_bind_of_ok _ (runFrom_loggerAt found)]
      rfl
    refine ⟨_, _, performed.trans opens, fun _ same => (Except.ok.inj same).symm, ?_⟩
    intro other member
    rcases Array.mem_or_eq_of_mem_setIfInBounds member with old | rfl
    · exact ranked other old
    · exact ⟨rank, isNumber⟩
  · exact ⟨_, _, failed, nofun, ranked⟩

/-- A step that assigns a number with an order to the threshold of a logger. -/
def Step.AssignsNumber (step : Step) : Prop :=
  step.operation = some (.logger .assignLevel) ∧
    ∃ target s rank, step.arguments = [target, .scalar s] ∧ s.real? = some rank

/-- The last argument of such a step is the number. -/
private theorem made_of_assigned {step : Step} {target : Literal} {s : Scalar}
    (isArgument : step.arguments = [target, .scalar s]) {world ready : World}
    {arguments : List Value} {keywords : Keywords}
    (made : step.made.runFrom world = (.ok (arguments, keywords), ready)) :
    ∃ v, arguments = [v, .scalar s] := by
  have last : ((Literal.scalar s).buildArgument 1) = pure (.scalar s) := rfl
  have opens : step.made = (target.buildArgument 0 >>= fun v =>
      step.keywords.mapM (fun keyword => do return (keyword.1, ← keyword.2.build)) >>=
        fun keywords => pure ([v, .scalar s], keywords)) := by
    unfold Step.made
    rw [isArgument]
    simp [List.zipIdx, last]
  rw [opens] at made
  rcases first : (target.buildArgument 0).runFrom world with ⟨fault | v, between⟩
  · rw [runFrom_bind_of_error _ first] at made
    cases made
  · rw [runFrom_bind_of_ok _ first] at made
    rcases others : (step.keywords.mapM (fun keyword => do
      return (keyword.1, ← keyword.2.build) : String × Literal → Run _)).runFrom between with
      ⟨fault | named, last⟩
    · rw [runFrom_bind_of_error _ others] at made
      cases made
    · rw [runFrom_bind_of_ok _ others] at made
      cases made
      exact ⟨v, rfl⟩

/-- A step on loggers leaves numbers, whether it sets levels by name or assigns a number. -/
private theorem ranked_runStep {step : Step} (each : step.IsLogging ∨ step.AssignsNumber)
    {world : World} (ranked : Ranked world) : Ranked (runStep step world).2 := by
  rcases each with isLogging | ⟨isOperation, target, s, rank, isArgument, isNumber⟩
  · intro l member
    rcases mem_loggers_runStep isLogging member with old | ⟨level, isLevel⟩
    · exact ranked l old
    · exact ⟨_, Logger.rank?_of_level isLevel⟩
  · have isRanked : Ranked world.fresh := ranked
    rcases made : step.made.runFrom world.fresh with ⟨fault | ⟨arguments, keywords⟩, ready⟩
    · rw [runStep_of_error isOperation made]
      exact isRanked.of_quiet ((keepsTo_made step).leadsTo made)
    · obtain ⟨v, rfl⟩ := made_of_assigned isArgument made
      have rankedReady := isRanked.of_quiet ((keepsTo_made step).leadsTo made)
      obtain ⟨outcome, after, performed, answers, rankedAfter⟩ :=
        ranked_assign rankedReady v isNumber keywords
      obtain ⟨bindings, ended⟩ := runStep_of_answer isOperation made performed
        fun answer isAnswer => ⟨.null, answers answer isAnswer, .inl rfl⟩
      rw [ended]
      exact rankedAfter

private theorem ranked_runSteps {steps : List Step}
    (each : ∀ step ∈ steps, step.IsLogging ∨ step.AssignsNumber) {world : World}
    (ranked : Ranked world) : Ranked (runSteps steps world).2 := by
  induction steps generalizing world with
  | nil => exact ranked
  | cons step rest inductionHypothesis =>
      obtain ⟨first, others⟩ := List.forall_mem_cons.mp each
      rw [runSteps_cons]
      exact inductionHypothesis others (ranked_runStep first ranked)

/-! ## Answers -/

/-- After every run of steps that make, bind and set loggers, write messages and assign numbers, a
logger answers whether it is enabled for a name. The answer is a truth value if the name is that of
a level in any case: whether the threshold is not above the number of this level. For every other
name it is nothing at all. Asking changes nothing. -/
theorem enabled_of_run (environment : Environment) (now : Moment) {steps : List Step}
    (each : ∀ step ∈ steps, step.IsLogging ∨ step.AssignsNumber) {world : World}
    (ends : (runSteps steps (.start environment now)).2 = world) {number : Nat} {l : Logger}
    (found : world.store.loggers[number]? = some l) {arguments : List Value} {keywords : Keywords}
    {name : String}
    (given : matched ["level"] arguments keywords = .ok [some (.text name)]) :
    ∃ rank, l.rank? = some rank ∧
      (∀ level : Level, name.toList.map Level.upper = level.name.toList →
        (performLogger .enabled (.handle .logger number :: arguments) keywords).runFrom world =
          (.ok (.bool (rank.lessOrSame (.ofInt level.number))), world)) ∧
      ((∀ level : Level, name.toList.map Level.upper ≠ level.name.toList) →
        (performLogger .enabled (.handle .logger number :: arguments) keywords).runFrom world =
          (.ok .null, world)) := by
  have start : Ranked (.start environment now) := by
    intro l member
    cases member
    contradiction
  have ranked := ranked_runSteps each start
  rw [ends] at ranked
  obtain ⟨rank, isRank⟩ := ranked l (Array.mem_of_getElem? found)
  rw [runFrom_enabled found given]
  refine ⟨rank, isRank, ?_, ?_⟩
  · intro level isName
    rw [Logger.enabled_of_level isRank (Level.ofName?_eq_some_iff.mpr isName)]
  · intro unknown
    rw [Logger.enabled_of_unknown l (Level.ofName?_eq_none_iff.mpr unknown)]

/-- A logger whose threshold is assigned a number between those of two levels, and one that is bound
to it. -/
def betweenSteps : List Step :=
  [⟨some (.logger .make), [], [], some "a"⟩,
    ⟨some (.logger .assignLevel), [.variable "a", .scalar (.float (.finite 35))], [], none⟩,
    ⟨some (.logger .bind), [.variable "a"], [], none⟩]

/-- The world after these steps. -/
def betweenWorld : World :=
  (runSteps betweenSteps (.start ⟨[]⟩ ⟨2024, 2, 29, 1, 2, 3, 0⟩)).2

/-- The level below the assigned number does not pass, the one above it does; the bound logger is at
the middle level. -/
theorem enabled_of_run_between :
    (performLogger .enabled [.handle .logger 0] [("level", .text "wArn")]).runFrom betweenWorld =
        (.ok (.bool false), betweenWorld) ∧
      (performLogger .enabled [.handle .logger 0, .text "error"] []).runFrom betweenWorld =
        (.ok (.bool true), betweenWorld) ∧
      (performLogger .enabled [.handle .logger 1, .text "ınfo"] []).runFrom betweenWorld =
        (.ok (.bool true), betweenWorld) := by
  have each : ∀ step ∈ betweenSteps, step.IsLogging ∨ step.AssignsNumber := by
    simp only [betweenSteps, List.forall_mem_cons]
    exact ⟨.inl ⟨_, rfl, by simp⟩, .inr ⟨rfl, _, _, _, rfl, rfl⟩, .inl ⟨_, rfl, by simp⟩,
      List.forall_mem_nil _⟩
  have assigned : betweenWorld.store.loggers[0]? =
      some ⟨.text "fluentfp", .float (.finite 35), .bool false, [], .null⟩ := rfl
  have bound : betweenWorld.store.loggers[1]? =
      some ⟨.text "fluentfp", .int 20, .bool false, [], .null⟩ := rfl
  have givenBelow : matched ["level"] [] [("level", .text "wArn")] = .ok [some (.text "wArn")] :=
    rfl
  have givenAbove : matched ["level"] [.text "error"] [] = .ok [some (.text "error")] := rfl
  have givenMiddle : matched ["level"] [.text "ınfo"] [] = .ok [some (.text "ınfo")] := rfl
  obtain ⟨_, same, below, _⟩ :=
    enabled_of_run ⟨[]⟩ ⟨2024, 2, 29, 1, 2, 3, 0⟩ each rfl assigned givenBelow
  cases same
  obtain ⟨_, same, above, _⟩ :=
    enabled_of_run ⟨[]⟩ ⟨2024, 2, 29, 1, 2, 3, 0⟩ each rfl assigned givenAbove
  cases same
  obtain ⟨_, same, middle, _⟩ :=
    enabled_of_run ⟨[]⟩ ⟨2024, 2, 29, 1, 2, 3, 0⟩ each rfl bound givenMiddle
  cases same
  exact ⟨below .warn rfl, above .error rfl, middle .info rfl⟩

/-- The name of no level is answered by nothing, which is no truth value. -/
theorem enabled_unknown_null :
    (∀ level : Level, "bogus".toList.map Level.upper ≠ level.name.toList) ∧
      (performLogger .enabled [.handle .logger 1, .text "bogus"] []).runFrom betweenWorld =
        (.ok .null, betweenWorld) ∧
      ∀ b, Value.null ≠ .bool b := by
  refine ⟨?_, rfl, nofun⟩
  intro level
  cases level <;> decide

end Session

end Presence
