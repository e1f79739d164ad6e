import Presence.Proofs.Lists.Makers
import Presence.Proofs.Session.Steps

/-!
Contract: the worlds that runs of steps reach are closed.

Owns: `Step.namesNoSource`, steps whose literals name lists and iterators by variables alone; that
calling functions and performing operations is confined (`callerConfines_call`,
`confines_perform`); that steps lead from closed worlds to closed ones, and so do runs of them
(`closed_runSteps`).

Does not own: confined computations themselves (`Presence.Proofs.Lists.Confined`).
-/

namespace Presence.Session

open Attempt Run

/-- Whether the literals of a step name lists and iterators by variables alone. No step that is
written down names them otherwise. -/
def Step.namesNoSource (step : Step) : Bool :=
  step.arguments.all Literal.namesNoSource && step.keywords.all fun k => k.2.namesNoSource

/-- Any list may change. -/
abbrev Anywhere : Nat → Prop := fun _ => True

variable {changed : Nat → Prop} {call : Caller} {base : Nat} {arguments : List Value}

/-! ## Operations -/

/-- An operation changes no list but the one that it may add to. -/
theorem confines_perform (calls : CallerConfines changed call) (operation : Operation)
    {keywords : Keywords} (known : AllKnown base arguments) (named : KeywordsKnown base keywords)
    (may : operation = .general .appendToList → ∀ number rest,
      arguments = .handle .growing number :: rest → changed number) :
    Confines changed base (perform call operation arguments keywords) Known := by
  have kept : ∀ {body : Run Value}, Confines changed base body Known →
      Confines changed base (do keep (← body)) Known := fun confines =>
    confines.bind fun _ _ _ isKnown => confines_keep isKnown
  unfold perform
  split
  · exact kept (confines_performLogger _ known named)
  · split
    · exact .fail _
    · cases operation with
      | option operation => exact kept (confines_performOption calls operation known)
      | either operation => exact kept (confines_performEither calls operation known)
      | managed operation => exact kept (confines_performManaged calls operation known)
      | condition operation => exact kept (confines_performCondition calls operation known)
      | sequence operation => exact kept (confines_performSequence calls operation known)
      | logger operation =>
          exact kept (confines_performLogger operation known (List.forall_mem_nil _))
      | general operation =>
          exact kept (confines_performGeneral calls operation known fun isAppend =>
            may (by rw [isAppend]))

/-! ## Functions -/

private theorem confines_foldlM {functions : List Literal} (calls : CallerConfines changed call)
    (names : Literal.allNameNoSource functions = true) {v : Value} (known : Known base v) :
    Confines changed base (functions.foldlM (fun sofar g => do call (← g.build) [sofar]) v)
      Known := by
  induction functions generalizing base v with
  | nil => exact .known known
  | cons g rest inductionHypothesis =>
      have both := Bool.and_eq_true_iff.mp names
      rw [List.foldlM_cons]
      refine Confines.through Known ?_ fun _ _ _ isResult =>
        inductionHypothesis both.2 isResult
      exact (confines_build g both.1).bind fun _ more _ isFunction =>
        calls.one isFunction (known.later more)

private theorem confines_applyGiven (calls : CallerConfines Anywhere call) {literal : Literal}
    (names : literal.namesNoSource = true) (known : AllKnown base arguments) :
    Confines Anywhere base (applyGiven call literal arguments) Known := by
  have kept : ∀ {size : Nat} {body : Run Value}, Confines Anywhere size body Known →
      Confines Anywhere size (do keep (← body)) Known := fun confines =>
    confines.bind fun _ _ _ isKnown => confines_keep isKnown
  unfold applyGiven
  split
  · exact confines_build _ names
  · next kind argument =>
      refine (confines_build argument names).bind fun _ _ _ isMade => ?_
      exact (confines_newThrown kind (List.forall_mem_singleton.mpr isMade)).next fun _ => .fail _
  · exact .known (known _ (by simp))
  · exact .fail _
  · exact .known (known _ (by simp))
  · exact .fail _
  · exact kept (confines_applyUnary _ known.one)
  · next rule fixed x =>
      exact (confines_build fixed names).bind fun _ more _ isFixed =>
        kept (confines_applyBinary rule (known.one.later more) isFixed)
  · exact kept (confines_applyBinary _ known.two.1 known.two.2)
  · exact .known (known _ (by simp))
  · exact .fail _
  · next g rest =>
      have both := Bool.and_eq_true_iff.mp names
      refine (confines_build g both.1).bind fun _ more _ isFunction => ?_
      exact (calls isFunction (rises_allKnown known more)).bind fun _ _ _ isResult =>
        confines_foldlM calls both.2 isResult
  · next condition yes no =>
      have all := Bool.and_eq_true_iff.mp names
      have both := Bool.and_eq_true_iff.mp all.1
      refine (confines_build condition both.1).bind fun _ more _ isCondition => ?_
      refine (calls isCondition (rises_allKnown known more)).bind fun _ more' _ isAnswer => ?_
      refine (confines_finds.truth isAnswer).next fun answer => ?_
      have later := rises_allKnown known (Nat.le_trans more more')
      split
      · exact (confines_build yes both.2).bind fun _ more'' _ isFunction =>
          calls isFunction (rises_allKnown later more'')
      · exact (confines_build no all.2).bind fun _ more'' _ isFunction =>
          calls isFunction (rises_allKnown later more'')
  · next operation rest =>
      refine (confines_buildItems rest names).bind fun _ more _ areItems => ?_
      exact confines_perform calls operation (List.forall_mem_append.mpr
        ⟨rises_allKnown known more, areItems⟩) (List.forall_mem_nil _) fun _ _ _ _ => trivial
  · exact .fail _

private theorem confines_apply (calls : CallerConfines Anywhere call) {function : Function}
    (isKnown : function.Known base) (known : AllKnown base arguments) :
    Confines Anywhere base (apply call function arguments) Known := by
  unfold apply
  split
  · exact confines_applyGiven calls isKnown known
  · refine (Confines.mapM rises_known fun v member => confines_tell (known v member)).next
      fun told => ?_
    refine Confines.after (.ofStill fun _ => ⟨rfl, rfl, rfl, rfl⟩) fun _ => ?_
    exact calls isKnown known
  · split
    · exact (confines_call known.one fun _ isPayload =>
        confines_effect calls isKnown isPayload).next fun _ => .plain rfl
    · exact .fail _
  · exact confines_demand calls isKnown known

/-- Calling a function makes what it makes of the lists that are kept, however deep calls nest. -/
private theorem callerConfines_callTo (depth : Nat) : CallerConfines Anywhere (callTo depth) := by
  induction depth with
  | zero => exact fun _ _ => .fail .tooDeep
  | succ depth inductionHypothesis =>
      intro base f arguments isFunction known
      simp only [callTo]
      split
      · next number =>
          refine Confines.through (fun size store => ∀ function ∈ store.functions,
            function.Known size) ?_ fun size more store areKnown => ?_
          · exact .ofAlike (fun _ => ⟨rfl, rfl, rfl, rfl⟩) fun world _ closed result ended => by
              cases ended
              exact closed.functions
          · split
            · next function found =>
                exact confines_apply inductionHypothesis
                  (areKnown function (Array.mem_of_getElem? found)) (rises_allKnown known more)
            · exact .fail _
      · exact (confines_construct _ known).bind fun _ _ _ isMade => confines_keep isMade
      · exact .fail _

theorem callerConfines_call : CallerConfines Anywhere Session.call :=
  callerConfines_callTo depthLimit

/-! ## Steps -/

theorem confines_made {step : Step} (names : step.namesNoSource = true) :
    Confines changed base step.made fun size given =>
      AllKnown size given.1 ∧ KeywordsKnown size given.2 := by
  obtain ⟨ofArguments, ofKeywords⟩ := Bool.and_eq_true_iff.mp names
  rw [List.all_eq_true] at ofArguments ofKeywords
  refine (Confines.mapM rises_known fun argument isArgument => ?_).bind
    fun _ more arguments areArguments => ?_
  · exact confines_buildArgument (ofArguments argument.1 (List.fst_mem_of_mem_zipIdx isArgument)) _
  · have risesNamed : Rises fun size (keyword : String × Value) => Known size keyword.2 :=
      fun _ _ _ isKnown more => isKnown.later more
    refine Confines.bind (Confines.mapM risesNamed fun keyword isKeyword => ?_)
      fun _ more' keywords areKeywords => ?_
    · exact ((confines_build keyword.2 (ofKeywords keyword isKeyword)).later more).bind
        fun _ _ _ isKnown => .pure fun _ more => isKnown.later more
    exact .pure fun _ last => ⟨rises_allKnown areArguments (Nat.le_trans more' last),
      fun keyword member => (areKeywords keyword member).later last⟩

/-- A step gives its result a name and tells it, and changes no list by either. -/
theorem confines_finish (step : Step) {v : Value} (known : Known base v) :
    Confines changed base (step.finish v) Known := by
  unfold Step.finish
  split
  · next name _ =>
      refine Confines.after ?_ fun _ => confines_tell known
      intro world enough closed
      refine ⟨⟨Nat.le_refl _, fun _ _ _ => rfl⟩, closed.of_lists_eq rfl closed.functions
        closed.iterators (List.forall_mem_cons.mpr ⟨known.later enough, closed.bindings⟩), ?_⟩
      exact fun _ _ => trivial
  · exact confines_tell known

/-- A step from a closed world leads to a closed world. Which lists change is said of its operation
alone. -/
private theorem confines_performStep {step : Step} (names : step.namesNoSource = true) :
    Confines Anywhere base (performStep step) Known := by
  cases isOperation : step.operation with
  | none =>
      unfold performStep
      rw [isOperation]
      exact .fail _
  | some operation =>
      rw [performStep_eq isOperation]
      exact (confines_made names).bind fun _ _ given areGiven =>
        (confines_perform callerConfines_call operation areGiven.1 areGiven.2
          fun _ _ _ _ => trivial).bind fun _ _ _ isResult => confines_finish step isResult

theorem World.alike_fresh (world : World) : world.Alike world.fresh := ⟨rfl, rfl, rfl, rfl⟩

theorem closed_runStep {step : Step} (names : step.namesNoSource = true) {world : World}
    (closed : world.Closed) :
    world.lists ≤ (runStep step world).2.lists ∧ (runStep step world).2.Closed := by
  have confines : Confines Anywhere 0 (performStep step) Known := confines_performStep names
  obtain ⟨kept, closedAfter, _⟩ :=
    confines world.fresh (Nat.zero_le _) (world.alike_fresh.closed closed)
  rcases performed : (performStep step).runFrom world.fresh with ⟨outcome, after⟩
  rw [performed] at kept closedAfter
  rw [runStep_of_performStep performed]
  exact ⟨kept.more, closedAfter⟩

/-- Runs of steps lead from closed worlds to closed ones. -/
theorem closed_runSteps {steps : List Step} (names : ∀ step ∈ steps, step.namesNoSource = true)
    {world : World} (closed : world.Closed) :
    world.lists ≤ (runSteps steps world).2.lists ∧ (runSteps steps world).2.Closed := by
  induction steps generalizing world with
  | nil => exact ⟨Nat.le_refl _, closed⟩
  | cons step rest inductionHypothesis =>
      rw [List.forall_mem_cons] at names
      obtain ⟨more, closedBetween⟩ := closed_runStep names.1 closed
      obtain ⟨more', closedAfter⟩ := inductionHypothesis names.2 closedBetween
      rw [runSteps_cons]
      exact ⟨Nat.le_trans more more', closedAfter⟩

theorem closed_start (environment : Environment) (now : Moment) :
    (World.start environment now).Closed := by
  refine ⟨fun number => ?_, fun _ member => ?_, fun _ member => ?_, List.forall_mem_nil _⟩
  · exact List.forall_mem_nil _
  · exact absurd member (Array.not_mem_empty _)
  · exact absurd member (Array.not_mem_empty _)

end Presence.Session
