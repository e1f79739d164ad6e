import Presence.Proofs.Session.Frames
import Presence.Session.Step

/-!
Contract: steps of a session as their arguments and their operation, and runs of them.

Owns: `Step.made`, the arguments of a step, and `Step.finish`, what is done with the result of its
operation; that a step is its operation between the two (`performStep_eq`); a run taken apart at a
step (`runSteps_append`, `getElem?_runSteps`); calls of functions that literals give
(`runFrom_callTo`).

Does not own: the operations.
-/

namespace Presence.Session

open Attempt Run

/-! ## Steps -/

/-- The arguments of a step, by place and by name. -/
def Step.made (step : Step) : Run (List Value × Keywords) := do
  let arguments ← step.arguments.zipIdx.mapM fun argument => argument.1.buildArgument argument.2
  let keywords ← step.keywords.mapM fun keyword => do return (keyword.1, ← keyword.2.build)
  return (arguments, keywords)

/-- A world at the begin of a step. -/
def World.fresh (world : World) : World := { world with console := .blank, calls := [] }

/-- What comes of a step that ends in a world. -/
def Outcome.of (result : Except Fault Value) (world : World) : Outcome :=
  ⟨result.mapError world.store.settledFault, world.calls.reverse, world.console, world.store⟩

theorem keepsTo_made {R : World → World → Prop} [Frame R] (step : Step) :
    KeepsTo R step.made AnyResult := by
  refine (KeepsTo.mapM (fun (argument : Literal × Nat) =>
    keepsTo_buildArgument argument.1 argument.2) _).bind fun _ _ =>
      (KeepsTo.mapM (fun keyword => ?_) _).bind fun _ _ => .done
  exact (keepsTo_build keyword.2).bind fun _ _ => .done

/-- A step gives its result a name, and tells it. -/
def Step.finish (step : Step) (result : Value) : Run Value := do
  if let some name := step.binding then
    modify fun world => { world with bindings := (name, result) :: world.bindings }
  tell result

theorem performStep_eq {step : Step} {operation : Operation}
    (isOperation : step.operation = some operation) :
    performStep step = (do
      let (arguments, keywords) ← step.made
      step.finish (← perform call operation arguments keywords)) := by
  unfold performStep Step.made
  rw [isOperation, bind_assoc]
  apply bind_congr
  intro arguments
  rw [bind_assoc]
  apply bind_congr
  intro keywords
  rfl

theorem runStep_of_performStep {step : Step} {world after : World} {outcome : Except Fault Value}
    (performed : (performStep step).runFrom world.fresh = (outcome, after)) :
    runStep step world = (.of outcome after, after) := by
  show (let (result, world) := (performStep step).runFrom world.fresh
    ((.of result world : Outcome), world)) = _
  rw [performed]

/-! ## Runs -/

theorem runSteps_cons (step : Step) (rest : List Step) (world : World) :
    runSteps (step :: rest) world =
      ((runStep step world).1 :: (runSteps rest (runStep step world).2).1,
        (runSteps rest (runStep step world).2).2) := rfl

theorem runSteps_append (front back : List Step) (world : World) :
    (runSteps (front ++ back) world).2 = (runSteps back (runSteps front world).2).2 := by
  induction front generalizing world with
  | nil => rfl
  | cons step rest inductionHypothesis =>
      rw [List.cons_append, runSteps_cons, runSteps_cons, inductionHypothesis]

/-- The outcome of a step stands at its place, and comes of the world after the steps before. -/
theorem getElem?_runSteps (front : List Step) (step : Step) (back : List Step) (world : World) :
    (runSteps (front ++ step :: back) world).1[front.length]? =
      some (runStep step (runSteps front world).2).1 := by
  induction front generalizing world with
  | nil => rfl
  | cons first rest inductionHypothesis =>
      rw [List.cons_append, runSteps_cons, List.length_cons, List.getElem?_cons_succ,
        inductionHypothesis]
      rfl

/-! ## Calls -/

/-- A function that a literal gives does what the literal says. -/
theorem runFrom_callTo {depth number : Nat} {literal : Literal} {world : World}
    (known : world.store.functions[number]? = some (.given literal)) (arguments : List Value) :
    (callTo (depth + 1) (.handle .function number) arguments).runFrom world =
      (applyGiven (callTo depth) literal arguments).runFrom world := by
  simp only [callTo]
  rw [runFrom_bind_of_ok _ (runFrom_store world), known]
  rfl

end Presence.Session
