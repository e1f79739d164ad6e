import Presence.Proofs.Managed.Asking
import Presence.Proofs.Managed.Courses
import Presence.Proofs.Session.Steps

/-!
Contract: how often the clients of a session were closed.

Owns: the courses of functions, operations, steps and runs of a session (`Course.ofCall`,
`Course.ofOperation`, `Course.ofStep`, `Course.ofSteps`), and that these courses are what the
session does; that the counters of all clients agree with the wrappers that were closed, at every
point of a run (`closings_of_run`).

Does not own: courses in general (`Presence.Proofs.Managed.Courses`), and which operations close
nothing (`Presence.Proofs.Managed.Asking`).

Operations on wrappers are looked into, and so are the functions that they call, as far as these
are made of others: such a function may close wrappers, go through blocks, and fail. Other
operations and functions are not looked into.
-/

namespace Presence.Managed

open Attempt Session Run Course

/-! ## Sequences of courses -/

namespace Course

variable {α β : Type}

/-- Goes on with the result; a fault ends the course. -/
def bind (first : Course α) (next : α → Course β) : Course β :=
  .proceed first fun outcome _ =>
    match outcome with
    | .ok result => next result
    | .error fault => .act (Run.fail fault) (.fail fault)

/-- Goes on with what the world is. -/
def look (next : World → Course α) : Course α :=
  .proceed (.act (pure ()) .done) fun _ world => next world

theorem perform_bind (first : Course α) (next : α → Course β) :
    (first.bind next).perform = first.perform >>= fun result => (next result).perform := by
  funext world
  show (first.bind next).perform.runFrom world = Attempt.runFrom _ world
  rcases ended : first.perform.runFrom world with ⟨fault | result, between⟩
  · rw [bind, runFrom_proceed ended, runFrom_bind_of_error _ ended]
    rfl
  · rw [bind, runFrom_proceed ended, runFrom_bind_of_ok _ ended]

private theorem perform_look (next : World → Course α) :
    (look next).perform = (get : Run World) >>= fun world => (next world).perform := rfl

end Course

theorem spares_finish (step : Step) (result : Value) : Spares (step.finish result) := by
  unfold Step.finish
  rcases step.binding with _ | name
  · exact keepsTo_tell result
  · have naming : Spares (modify fun world : World =>
        { world with bindings := (name, result) :: world.bindings } : Run PUnit) :=
      spares_modify fun _ => rfl
    exact naming.bind fun _ _ => keepsTo_tell result

/-- What has a payload has the function run on it; what has none does with every function what it
does with one that does nothing. -/
theorem call_eq (f : Value → Run Unit) (basic : Value) :
    Members.call f basic = match basic.payload? with
      | some v => f v
      | none => Members.call (fun _ => pure ()) basic := by
  cases basic with
  | option o => cases o <;> rfl
  | either e => cases e <;> rfl
  | managed d =>
      obtain ⟨_, basic⟩ := d
      exact call_eq f basic
  | scalar s =>
      cases s with
      | handle h =>
          obtain ⟨sort, number⟩ := h
          cases sort <;> rfl
      | _ => rfl
  | _ => rfl
termination_by structural basic

private theorem spares_call_nothing (basic : Value) :
    Spares (Members.call (fun _ => pure ()) basic) := by
  fun_induction Members.call (fun _ => pure ()) basic with
  | case1 o => cases o <;> exact .done
  | case2 e => cases e <;> exact .done
  | case3 holder basic inductionHypothesis => exact inductionHypothesis
  | _ => exact .fail _

/-- The kinds of clients and of holders. -/
def makers : List Kind := [.client, .managed, .closable, .clientHolder]

private theorem spares_construct {kind : Kind} (makes : kind ∈ makers) (arguments : List Value) :
    Spares (construct kind arguments) := by
  simp only [makers, List.mem_cons, List.not_mem_nil, or_false] at makes
  rcases makes with rfl | rfl | rfl | rfl
  case inl =>
    rcases arguments with _ | ⟨v, _ | ⟨w, _ | ⟨u, rest⟩⟩⟩
    · exact .fail _
    · exact keepsTo_newClient v (.bool false)
    · exact keepsTo_newClient v w
    · exact .fail _
  all_goals
    rcases arguments with _ | ⟨v, _ | ⟨w, rest⟩⟩
    · exact .done
    · exact .done
    · exact .fail _

/-! ## Courses of a session -/

namespace Course

section Calling

variable (call : Caller) (course : Value → List Value → Course Value)

/-- What was opened is put into what is given for a holder. -/
def ofWrapping (wrap : Value) (o : Optional Value Value) : Course Value :=
  match wrap with
  | .null => .act (keep (.managed ⟨.closable, .option o⟩)) (keepsTo_keep _)
  | wrap => (course wrap [.option o]).bind fun v => .act (keep v) (keepsTo_keep v)

/-- A dependency is opened, unless its source is a zero, and put into a holder. -/
def ofOpening (source opener wrap : Value) : Course Value :=
  (Course.act (observe source) (keepsTo_observe source)).bind fun seen =>
    match Optional.unlessZero seen with
    | .ok _ => (course opener [source]).bind fun v => ofWrapping course wrap (.ok v)
    | .notOk _ => ofWrapping course wrap (.notOk .null)

/-- A function is run on the payload of a wrapper, if it has one. -/
def ofRunning (d : Managed Value) (f : Value) : Course Value :=
  match d.basic.payload? with
  | some v => (course f [v]).bind fun _ => .act (keep .null) (keepsTo_keep _)
  | none => (Course.act (Members.call (fun _ => pure ()) d.basic) (spares_call_nothing _)).bind
      fun _ => .act (keep .null) (keepsTo_keep _)

/-- An operation whose functions have courses. -/
def ofOperation (operation : Operation) (arguments : List Value) (keywords : Keywords) :
    Course Value :=
  match operation, arguments, keywords with
  | .managed .close, [.managed d], [] =>
      (Course.close d).bind fun _ => .act (keep .null) (keepsTo_keep _)
  | .managed .bracket, [.managed d, body], [] =>
      (within d (course body [.managed d])).bind fun v => .act (keep v) (keepsTo_keep v)
  | .managed .openWith, [source, opener], [] => ofOpening course source opener .null
  | .managed .openWith, [source, opener, wrap], [] => ofOpening course source opener wrap
  | .managed .call, [.managed d, f], [] => ofRunning course d f
  | .managed operation, arguments, keywords =>
      if asks : operation ∈ asking then
        .act (Session.perform call (.managed operation) arguments keywords)
          (spares_perform asks call arguments keywords)
      else .other (Session.perform call (.managed operation) arguments keywords)
  | operation, arguments, keywords => .other (Session.perform call operation arguments keywords)

/-- Functions one after the other, each on what the one before gives. -/
def ofFunctions : List Literal → Value → Course Value
  | [], v => .act (pure v) .done
  | f :: rest, v =>
      (Course.act f.build (keepsTo_build f)).bind fun f => (course f [v]).bind (ofFunctions rest)

/-- A function that is given by a literal. -/
def ofLiteral (literal : Literal) (arguments : List Value) : Course Value :=
  match literal with
  | .const v => .act v.build (keepsTo_build v)
  | .fail kind argument =>
      .act (do Run.fail (.thrown (← newThrown kind [← argument.build])))
        ((keepsTo_build argument).bind fun v _ =>
          (keepsTo_newThrown kind [v]).bind fun _ _ => .fail _)
  | .compose (f :: rest) =>
      (Course.act f.build (keepsTo_build f)).bind fun f =>
        (course f arguments).bind (ofFunctions course rest)
  | .choose condition yes no =>
      (Course.act condition.build (keepsTo_build condition)).bind fun condition =>
        (course condition arguments).bind fun answer =>
          (Course.act (truth answer) (keepsTo_truth answer)).bind fun holds =>
            (Course.act (if holds then yes else no).build (keepsTo_build _)).bind fun f =>
              course f arguments
  | .operation operation rest =>
      (Course.act (Literal.buildItems rest) (keepsTo_buildItems rest)).bind fun rest =>
        ofOperation call course operation (arguments ++ rest) []
  | literal => .other (applyGiven call literal arguments)

def ofFunction (function : Function) (arguments : List Value) : Course Value :=
  match function with
  | .given literal => ofLiteral call course literal arguments
  | .traced place f =>
      (Course.act (do noteCall place (← arguments.mapM tell))
        ((KeepsTo.mapM keepsTo_tell arguments).bind fun _ _ =>
          keepsTo_get.bind fun _ _ => spares_modify fun _ => rfl)).bind fun _ => course f arguments
  | function => .other (apply call function arguments)

end Calling

/-- A call, with calls nested to some depth at most. -/
def ofCall : (depth : Nat) → Value → List Value → Course Value
  | 0, _, _ => .act (Run.fail .tooDeep) (.fail _)
  | depth + 1, f, arguments =>
      match f with
      | .handle .function number =>
          look fun world =>
            match world.store.functions[number]? with
            | some function => ofFunction (callTo depth) (ofCall depth) function arguments
            | none => .act (Run.fail .badInput) (.fail _)
      | .ofKind kind =>
          if makes : kind ∈ makers then
            .act (do keep (← construct kind arguments))
              ((spares_construct makes arguments).bind fun v _ => keepsTo_keep v)
          else .other (callTo (depth + 1) (.ofKind kind) arguments)
      | f => .other (callTo (depth + 1) f arguments)

def ofStep (step : Step) : Course Value :=
  match step.operation with
  | none => .act (Run.fail .badInput) (.fail _)
  | some operation =>
      (Course.act step.made (keepsTo_made step)).bind fun made =>
        (ofOperation Session.call (ofCall depthLimit) operation made.1 made.2).bind fun result =>
          .act (step.finish result) (spares_finish step result)

/-! ## Courses as what a session does -/

section Calling

variable {call : Caller} {course : Value → List Value → Course Value}
  (same : ∀ f arguments, (course f arguments).perform = call f arguments)

include same

private theorem perform_ofWrapping (wrap : Value) (o : Optional Value Value) :
    (ofWrapping course wrap o).perform = (match wrap with
      | .null => pure (.managed ⟨.closable, .option o⟩)
      | wrap => call wrap [.option o]) >>= keep := by
  unfold ofWrapping
  split
  · rw [pure_bind]
    rfl
  · rw [perform_bind, same]
    rfl

private theorem perform_ofOpening (source opener wrap : Value) :
    (ofOpening course source opener wrap).perform =
      openInto call source opener wrap >>= keep := by
  rw [ofOpening, perform_bind, openInto, openOption]
  simp only [bind_assoc]
  refine bind_congr fun seen => ?_
  rw [openWith]
  cases Optional.unlessZero seen with
  | ok _ =>
      simp only [perform_bind, same, Optional.map, bind_assoc, pure_bind]
      exact bind_congr fun opened => perform_ofWrapping same wrap (.ok opened)
  | notOk _ =>
      simp only [Optional.map, pure_bind]
      exact perform_ofWrapping same wrap (.notOk .null)

private theorem perform_ofRunning (d : Managed Value) (f : Value) :
    (ofRunning course d f).perform =
      Session.perform call (.managed .call) [.managed d, f] [] := by
  have performed : Session.perform call (.managed .call) [.managed d, f] [] =
      (Members.call (effect call f) d.basic >>= fun _ => pure .null) >>= keep := rfl
  rw [performed, call_eq, ofRunning]
  cases d.basic.payload? with
  | some v =>
      rw [perform_bind, same]
      simp only [effect, bind_assoc, pure_bind]
      rfl
  | none =>
      rw [perform_bind, bind_assoc]
      rfl

theorem perform_ofOperation (operation : Operation) (arguments : List Value)
    (keywords : Keywords) :
    (ofOperation call course operation arguments keywords).perform =
      Session.perform call operation arguments keywords := by
  unfold ofOperation
  split
  · next d =>
      rw [perform_bind]
      exact (bind_assoc (Members.close (.managed d)) (fun _ => pure Value.null) keep).symm
  · next d body =>
      have entered : (within d (course body [.managed d])).perform =
          Session.bracket call (.managed d) body := by
        rw [perform, same]
        rfl
      rw [perform_bind, entered]
      rfl
  · next source opener => exact perform_ofOpening same source opener .null
  · next source opener wrap => exact perform_ofOpening same source opener wrap
  · next d f => exact perform_ofRunning same d f
  · split <;> rfl
  · rfl

private theorem perform_ofFunctions (functions : List Literal) (v : Value) :
    (ofFunctions course functions v).perform =
      functions.foldlM (fun sofar g => do call (← g.build) [sofar]) v := by
  induction functions generalizing v with
  | nil => rfl
  | cons f rest inductionHypothesis =>
      rw [ofFunctions, perform_bind, List.foldlM_cons, bind_assoc]
      refine bind_congr fun f => ?_
      rw [perform_bind, same]
      exact bind_congr fun result => inductionHypothesis result

private theorem perform_ofLiteral (literal : Literal) (arguments : List Value) :
    (ofLiteral call course literal arguments).perform = applyGiven call literal arguments := by
  unfold ofLiteral
  split
  · rfl
  · rfl
  · next f rest =>
      rw [perform_bind]
      refine bind_congr fun f => ?_
      rw [perform_bind, same]
      exact bind_congr fun result => perform_ofFunctions same rest result
  · next condition yes no =>
      rw [perform_bind]
      refine bind_congr fun f => ?_
      rw [perform_bind, same]
      refine bind_congr fun answer => ?_
      rw [perform_bind]
      refine bind_congr fun holds => ?_
      rw [perform_bind]
      simp only [same]
      cases holds <;> rfl
  · next operation rest =>
      rw [perform_bind]
      exact bind_congr fun rest => perform_ofOperation same operation _ _
  · rfl

private theorem perform_ofFunction (function : Function) (arguments : List Value) :
    (ofFunction call course function arguments).perform = apply call function arguments := by
  unfold ofFunction
  split
  · next literal => exact perform_ofLiteral same literal arguments
  · next place f =>
      rw [perform_bind, same]
      show (arguments.mapM tell >>= fun told => noteCall place told) >>= _ = _
      rw [bind_assoc]
      rfl
  · rfl

end Calling

private theorem perform_ofCall (depth : Nat) (f : Value) (arguments : List Value) :
    (ofCall depth f arguments).perform = callTo depth f arguments := by
  induction depth generalizing f arguments with
  | zero => rfl
  | succ depth inductionHypothesis =>
      unfold ofCall
      split
      · next number =>
          rw [perform_look]
          refine (bind_congr fun world => ?_).trans (b := get >>= fun world : World =>
            match world.store.functions[number]? with
            | some function => apply (callTo depth) function arguments
            | none => Run.fail .badInput) rfl
          split
          · next function _ => exact perform_ofFunction inductionHypothesis function arguments
          · rfl
      · split <;> rfl
      · rfl

theorem perform_ofStep (step : Step) : (ofStep step).perform = performStep step := by
  unfold ofStep
  split
  · next none =>
      unfold performStep
      rw [none]
      rfl
  · next operation isOperation =>
      have same : ∀ f arguments, (ofCall depthLimit f arguments).perform =
          Session.call f arguments := perform_ofCall depthLimit
      rw [perform_bind, performStep_eq isOperation]
      refine bind_congr fun made => ?_
      rw [perform_bind, perform_ofOperation same]
      rfl

/-- Steps one after the other, whatever comes of each. -/
def ofSteps : List Step → Course Unit
  | [] => .act (pure ()) .done
  | step :: rest =>
      .proceed (.act (modify World.fresh) (spares_modify fun _ => rfl)) fun _ _ =>
        .proceed (ofStep step) fun _ _ => ofSteps rest

/-- The course of steps leads to the world that the steps lead to. -/
theorem runFrom_ofSteps (steps : List Step) (world : World) :
    (ofSteps steps).perform.runFrom world = (.ok (), (runSteps steps world).2) := by
  induction steps generalizing world with
  | nil => rfl
  | cons step rest inductionHypothesis =>
      rcases performed : (performStep step).runFrom world.fresh with ⟨outcome, after⟩
      have ended : (ofStep step).perform.runFrom world.fresh = (outcome, after) := by
        rw [perform_ofStep, performed]
      have refreshed : (Course.act (modify World.fresh : Run PUnit)
          (spares_modify fun _ => rfl)).perform.runFrom world = (.ok ⟨⟩, world.fresh) := rfl
      rw [ofSteps, runFrom_proceed refreshed, runFrom_proceed ended, inductionHypothesis,
        runSteps_cons, runStep_of_performStep performed]

/-- A run passes the worlds between its steps, each after the wrappers that were closed before. -/
theorem passes_ofSteps (front back : List Step) (world : World) :
    Passes (ofSteps (front ++ back)) world ((ofSteps front).closed world)
      (runSteps front world).2 := by
  induction front generalizing world with
  | nil => exact .begins _ world
  | cons step rest inductionHypothesis =>
      rcases performed : (performStep step).runFrom world.fresh with ⟨outcome, after⟩
      have ended : (ofStep step).perform.runFrom world.fresh = (outcome, after) := by
        rw [perform_ofStep, performed]
      have refreshed : (Course.act (modify World.fresh : Run PUnit)
          (spares_modify fun _ => rfl)).perform.runFrom world = (.ok ⟨⟩, world.fresh) := rfl
      rw [List.cons_append, ofSteps, ofSteps, closed_proceed refreshed, closed_proceed ended,
        runSteps_cons, runStep_of_performStep performed]
      exact .inNext refreshed (.inNext ended (inductionHypothesis after))

end Course

/-! ## Counters -/

/-- At every point of a run the counter of each client says how often wrappers around this very
client were closed since the begin, by being closed or by leaving a block on them, whatever came of
the closing. What the run does besides may be anything that closes nothing. A wrapper that is not ok
closes nothing and does not fail; a new client has a number of its own, and closing it leaves all
others as they are, whatever their users are. -/
theorem closings_of_run {steps : List Step} {start : World}
    (harmless : (ofSteps steps).Harmless start) :
    (ofSteps steps).perform.runFrom start = (.ok (), (runSteps steps start).2) ∧
    (∀ step, (ofStep step).perform = performStep step) ∧
    (∀ front back, steps = front ++ back →
      Passes (ofSteps steps) start ((ofSteps front).closed start) (runSteps front start).2) ∧
    (∀ closings point, Passes (ofSteps steps) start closings point →
      start.store.closings.size ≤ point.store.closings.size ∧
        ∀ number, point.store.closingsOf number =
          start.store.closingsOf number + closingsAmong closings number) ∧
    (∀ (d : Managed Value) (world after : World), d.holder.canClose = true →
      (Members.isOk d.basic).runFrom world = (.ok false, after) →
        Members.close (.managed d) = pure ()) ∧
    (∀ (d : Managed Value) (number : Nat) (users failing : Value),
      d.basic.payload? = some (.client ⟨number, users, failing⟩) →
        ∀ (world : World) (other : Nat), other ≠ number →
          ((Members.close (.managed d)).runFrom world).2.store.closingsOf other =
            world.store.closingsOf other) ∧
    ∀ (users failing : Value) (world : World), ∃ after,
      (newClient users failing).runFrom world =
        (.ok (.client ⟨world.store.closings.size, users, failing⟩), after) ∧
      after.store.closings.size = world.store.closings.size + 1 ∧
      ∀ number, after.store.closingsOf number = world.store.closingsOf number := by
  refine ⟨runFrom_ofSteps steps start, perform_ofStep, ?_, ?_, ?_, ?_, ?_⟩
  · rintro front back rfl
    exact passes_ofSteps front back start
  · intro closings point passes
    have counts := counts_passes passes harmless
    exact ⟨counts.more, counts.counts⟩
  · intro d world after canClose notOk
    exact close_of_isOk_false canClose notOk
  · intro d number users failing holds world other differ
    exact closingsOf_close_client holds world differ
  · intro users failing world
    exact ⟨_, runFrom_newClient users failing world, Array.size_push ..,
      (Store.Spares.push _).counts⟩

/-- Two clients with the same users, the first of which fails to be closed and is in two wrappers,
and a wrapper around nothing. The first wrapper is gone through by two blocks, one inside the other,
and closed inside both. -/
def sharedClient : List Step :=
  [⟨some (.managed .closable), [.some (.client (.scalar (.text "u")) true)], [], some "first"⟩,
    ⟨some (.managed .mustGet), [.variable "first"], [], some "client"⟩,
    ⟨some (.managed .closable), [.some (.variable "client")], [], some "second"⟩,
    ⟨some (.managed .openWith), [.scalar (.text "u"), .scalar (.kind .client)], [], some "other"⟩,
    ⟨some (.managed .closable), [], [], some "absent"⟩,
    ⟨some (.managed .bracket), [.variable "first",
      .operation (.managed .bracket) [.operation (.managed .close) []]], [], none⟩,
    ⟨some (.managed .close), [.variable "absent"], [], none⟩,
    ⟨some (.managed .close), [.variable "second"], [], none⟩]

/-- The first client was closed inside the blocks, by leaving each of them, and in its other
wrapper. -/
theorem closings_of_run_sharedClient :
    (ofSteps sharedClient).Harmless (.start ⟨[]⟩ ⟨2024, 2, 29, 1, 2, 3, 0⟩) ∧
    (runSteps sharedClient (.start ⟨[]⟩ ⟨2024, 2, 29, 1, 2, 3, 0⟩)).2.store.closingsOf 0 = 4 ∧
    (runSteps sharedClient (.start ⟨[]⟩ ⟨2024, 2, 29, 1, 2, 3, 0⟩)).2.store.closingsOf 1 = 0 := by
  have known : (ofSteps sharedClient).isKnown (.start ⟨[]⟩ ⟨2024, 2, 29, 1, 2, 3, 0⟩) = true := by
    decide +kernel
  have harmless := harmless_of_isKnown known
  obtain ⟨-, -, between, counts, -⟩ := closings_of_run harmless
  have final := (counts _ _ (between sharedClient [] (List.append_nil _).symm)).2
  refine ⟨harmless, (final 0).trans ?_, (final 1).trans ?_⟩ <;> decide +kernel

end Presence.Managed
