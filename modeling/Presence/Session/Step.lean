import Presence.Session.Machine

/-!
Contract: sessions, which are steps one after the other on one world.

Owns: `Step`, `Outcome`, `runStep` and `runSteps`.

Does not own: the operations that steps perform.

A step that fails does not stop the steps after it; what it did to the world before it failed
stays.
-/

namespace Presence.Session

open Run

/-- One operation on some arguments; its result may be given a name. -/
structure Step where
  /-- Nothing stands for a name that no operation has. -/
  operation : Option Operation
  arguments : List Literal
  keywords : List (String × Literal)
  binding : Option String

/-- What came of a step: its result, the calls and the text of the step, and the store after it. -/
structure Outcome where
  result : Except Fault Value
  calls : List Call
  console : Console
  store : Store

/-- A world in which nothing has happened yet. -/
def World.start (environment : Environment) (now : Moment) : World :=
  ⟨.empty, environment, now, [], .blank, []⟩

/-- Performs the operation of a step, names its result and tells it. It has its name even where it
cannot be told. -/
def performStep (step : Step) : Run Value := do
  match step.operation with
  | none => fail .badInput
  | some operation =>
      let arguments ← step.arguments.zipIdx.mapM fun argument =>
        argument.1.buildArgument argument.2
      let keywords ← step.keywords.mapM fun keyword => do return (keyword.1, ← keyword.2.build)
      let result ← perform call operation arguments keywords
      if let some name := step.binding then
        modify fun world => { world with bindings := (name, result) :: world.bindings }
      tell result

/-- What comes of a step, and the world after it. -/
def runStep (step : Step) (world : World) : Outcome × World :=
  let (result, world) := (performStep step).run.run { world with console := .blank, calls := [] }
  (⟨result.mapError world.store.settledFault, world.calls.reverse, world.console, world.store⟩,
    world)

/-- What comes of steps in their order, and the world after them. -/
def runSteps : List Step → World → List Outcome × World
  | [], world => ([], world)
  | step :: rest, world =>
      let (outcome, world) := runStep step world
      let (outcomes, world) := runSteps rest world
      (outcome :: outcomes, world)

/-- What a session answers to some steps. -/
def answers (environment : Environment) (now : Moment) (steps : List Step) : List Outcome :=
  (runSteps steps (.start environment now)).1

end Presence.Session
