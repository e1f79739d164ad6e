import Presence.Proofs.Kinds.Kindred
import Presence.Proofs.Session.Keeping
import Presence.Session.Machine

/-!
Contract: which branch of a condition is taken.

Owns: `Setting`, what is set to come of a condition, and `Ending`, what is asked for otherwise;
`branches`, a condition after some settings; `comesTo`, what comes of it; that a session takes the
branch that was set last, and runs one function at most (`last_branch_taken`).

Does not own: the operations themselves (`Presence.Condition`, `Presence.Session.Conditions`).

A condition with its branches is a value without a state. Whatever is done with it leaves it as it
was, so that it can be set further in several ways, and asked for what comes of it any number of
times.
-/

namespace Presence.Session

open Attempt Run

/-! ## Settings and endings -/

/-- What is to come of a condition that holds: a payload, or the result of a function. As all values
that a session hands on, both are kept. -/
inductive Setting where
  | give (v : Value) (isKept : IsKept v)
  | run (f : Value) (isKept : IsKept f) (isFunction : f ≠ .null)

namespace Setting

/-- Sets what is to come of a condition. -/
def set (call : Caller) (branches : Value) : Setting → Run Value
  | give v _ => perform call (.condition .thenGive) [branches, v] []
  | run f _ _ => perform call (.condition .thenRun) [branches, f] []

end Setting

/-- What is to come of a condition that does not hold. -/
inductive Ending where
  | give (v : Value)
  | run (f : Value)

/-- Asks for what comes of a condition. -/
def Ending.ask (call : Caller) (branches : Value) : Ending → Run Value
  | give v => perform call (.condition .orGive) [branches, v] []
  | run f => perform call (.condition .orRun) [branches, f] []

/-- A condition after some settings, of which the last one alone is left. -/
def branches (holds : Bool) (settings : List Setting) : Value :=
  match settings.getLast? with
  | none => .ternary ⟨.bool holds, .null, none⟩
  | some (.give v _) => .ternary ⟨.bool holds, v, none⟩
  | some (.run f _ _) => .ternary ⟨.bool holds, .null, some f⟩

/-- Sets one thing after the other. -/
def setAll (call : Caller) (first : Value) (settings : List Setting) : Run Value :=
  settings.foldlM (fun sofar setting => setting.set call sofar) first

/-- What comes of a condition: of one that holds, what was set last, or nothing where nothing was
set; of any other, what is asked for otherwise. -/
def comesTo (call : Caller) (holds : Bool) (settings : List Setting) (ending : Ending) :
    Run Value :=
  if holds then
    match settings.getLast? with
    | none => return .null
    | some (.give v _) => return v
    | some (.run f _ _) => do keep (← call f [])
  else
    match ending with
    | .give v => keep v
    | .run f => do keep (← call f [])

/-! ## Branches -/

private theorem isKept_branches (holds : Bool) (settings : List Setting) :
    IsKept (branches holds settings) := by
  unfold branches
  split
  · rfl
  · next v isKept _ =>
      show (rebuild keepRule v >>= fun v => pure (Value.ternary ⟨.bool holds, v, none⟩)) = _
      rw [isKept, pure_bind]
  · next f isKept _ _ =>
      show (rebuild keepRule f >>= fun f => pure (Value.ternary ⟨.bool holds, .null, some f⟩)) = _
      rw [isKept, pure_bind]

theorem branches_form (holds : Bool) (settings : List Setting) :
    ∃ v f, branches holds settings = .ternary ⟨.bool holds, v, f⟩ := by
  unfold branches
  split <;> exact ⟨_, _, rfl⟩

section Operations

variable (call : Caller)

/-- What an operation on a condition gives is kept. -/
private theorem perform_condition (operation : ConditionOperation) (arguments : List Value) :
    perform call (.condition operation) arguments [] =
      (do keep (← performCondition call operation arguments)) := rfl

private theorem performCondition_thenRun (t : Ternary Value Value Value) {f : Value}
    (isFunction : f ≠ .null) :
    performCondition call .thenRun [.ternary t, f] = return .ternary (t.thenRun .null f) := by
  cases f with
  | scalar s =>
      cases s with
      | null => exact absurd rfl isFunction
      | _ => rfl
  | _ => rfl

/-- A setting takes the place of all that were made before it, and does nothing else. -/
private theorem set_branches (holds : Bool) (settings : List Setting) (setting : Setting) :
    setting.set call (branches holds settings) = pure (branches holds (settings ++ [setting])) := by
  obtain ⟨v, f, form⟩ := branches_form holds settings
  have isKept := isKept_branches holds (settings ++ [setting])
  rw [form]
  unfold branches at isKept ⊢
  rw [List.getLast?_concat] at isKept ⊢
  cases setting with
  | give w _ => exact isKept
  | run g _ isFunction =>
      rw [Setting.set, perform_condition, performCondition_thenRun call _ isFunction, pure_bind]
      exact isKept

private theorem setAll_branches (holds : Bool) (front more : List Setting) :
    setAll call (branches holds front) more = pure (branches holds (front ++ more)) := by
  induction more generalizing front with
  | nil => rw [List.append_nil]; rfl
  | cons setting rest inductionHypothesis =>
      rw [setAll, List.foldlM_cons, set_branches, pure_bind, ← setAll, inductionHypothesis,
        List.append_assoc, List.singleton_append]

/-- A condition is decided once and for all, and asking whether it holds changes nothing. -/
theorem perform_ternary (condition : Value) :
    perform call (.condition .ternary) [condition] [] =
      (do return branches (← truth condition) []) := by
  show ((truth condition >>= fun holds => pure _) >>= keep) = _
  rw [bind_assoc]
  rfl

/-- What comes of a condition is what was set last if it holds, and what is asked for otherwise. -/
theorem ask_branches (holds : Bool) (settings : List Setting) (ending : Ending) :
    ending.ask call (branches holds settings) = comesTo call holds settings ending := by
  cases holds with
  | false =>
      obtain ⟨v, f, form⟩ := branches_form false settings
      rw [form]
      cases ending <;> rfl
  | true =>
      unfold branches comesTo
      rw [if_pos rfl]
      split
      · cases ending <;> rfl
      · next v isKept _ => cases ending <;> exact isKept
      · cases ending <;> rfl

end Operations

/-! ## All conditions -/

/-- The branch that was set last is taken, and one function runs at most.

A condition is decided when it is made, by whether it is observed to count as true, which changes
nothing of the world; from then on settings and endings depend on what was decided alone. Settings
do nothing but take the place of those before them. What is asked for is what was set last if the
condition holds, and the ending otherwise, each a payload or what its function gives, which is
called once. Two ways to go on from one condition are asked for apart from each other, in either
order and whatever is done between. -/
theorem last_branch_taken (call : Caller) :
    (∀ condition : Value, perform call (.condition .ternary) [condition] [] =
      (do return branches (← truth condition) []) ∧
      ∀ world, (truth condition).runFrom world =
        ((world.store.settled condition).truthy?.elim (.error .wrongType) .ok, world)) ∧
    (∀ (holds : Bool) (front more : List Setting),
      setAll call (branches holds front) more = pure (branches holds (front ++ more))) ∧
    (∀ (holds : Bool) (settings : List Setting) (ending : Ending),
      ending.ask call (branches holds settings) = comesTo call holds settings ending) ∧
    ∀ (holds : Bool) (front one two : List Setting) (ending other : Ending)
      (elsewhere : Run PUnit), (do
        let first ← setAll call (branches holds front) one
        let second ← setAll call (branches holds front) two
        let w ← other.ask call second
        elsewhere
        let v ← ending.ask call first
        return (v, w)) = (do
        let w ← comesTo call holds (front ++ two) other
        elsewhere
        let v ← comesTo call holds (front ++ one) ending
        return (v, w)) := by
  refine ⟨fun condition => ⟨perform_ternary call condition, ?_⟩, setAll_branches call,
    ask_branches call, ?_⟩
  · intro world
    obtain ⟨seen, looked, -, same⟩ := isLooked world condition
    rw [truth, runFrom_bind_of_ok _ looked, same]
    cases (world.store.settled condition).truthy? <;> rfl
  · intro holds front one two ending other elsewhere
    simp only [setAll_branches, ask_branches, pure_bind]

/-- Nothing, set after a function, takes the place of the function. -/
example : comesTo call true [.run (.ofKind .list) rfl nofun, .give .null rfl]
    (.run (.ofKind .int)) = return .null := rfl

end Presence.Session
