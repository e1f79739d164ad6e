import Presence.Proofs.Session.Keeping
import Presence.Session.Step

/-!
Contract: the life of a dependency that is opened, used and closed.

Owns: `lifecycle`, opening a dependency and running a body on it until it is closed; `Lives`, which
calls are made for it and what comes of them (`runFrom_lifecycle`); that what a session opens and
goes through with a body is a lifecycle (`perform_eq_lifecycle`).

Does not own: what closing does (`Presence.Session.Members`).

A dependency that was opened is closed once, after its body, however the body has ended; a
dependency that was not opened is not closed. A fault of the closing takes the place of the outcome.
-/

namespace Presence.Managed

open Calls Session

variable {m : Type → Type} [Monad m] {σ α : Type}

/-! ## Lifecycles -/

/-- What a function is called for: to open a dependency, to use it, or to close what was opened. -/
inductive Occasion where
  | opening
  | body
  | closing
deriving DecidableEq

/-- What a body is run on: an option in its holder. -/
def wrapper (holder : Holder) (o : Optional Value Value) : Value := .managed ⟨holder, .option o⟩

/-- Opens a dependency of a source, runs the body on it and closes it. -/
def lifecycle (holder : Holder) (f : Occasion × Value → Attempt m Value) (source : Value) :
    Attempt m Value := do
  let d ← openWith holder source fun v => f (.opening, v)
  d.bracket (fun o => o.call fun v => do let _ ← f (.closing, v))
    (f (.body, wrapper holder d.basic))

/-- From some state on, all calls that are made for a dependency, in their order, the outcome, and
the state after them.

A source that is a zero has only its body called, on an absent payload. An opener that fails is all
that is called. Otherwise the body is called on what the opener gave, and then the closing on the
same, whatever came of the body; the outcome is that of the body unless the closing fails. -/
inductive Lives (holder : Holder) (f : Occasion × Value → Attempt (StateM σ) Value)
    (source : Value) : (before : σ) → List (Entry (Occasion × Value) Value) →
    Except Fault Value → (after : σ) → Prop
  | absent {before after : σ} {outcome : Except Fault Value}
      (isZero : isZero source = true)
      (ran : (f (.body, wrapper holder (.notOk .null))).runFrom before = (outcome, after)) :
      Lives holder f source before [⟨(.body, wrapper holder (.notOk .null)), outcome⟩] outcome after
  | unopened {before after : σ} {fault : Fault}
      (notZero : isZero source = false)
      (fails : (f (.opening, source)).runFrom before = (.error fault, after)) :
      Lives holder f source before [⟨(.opening, source), .error fault⟩] (.error fault) after
  | closed {before opened ended after : σ} {v answer : Value} {outcome : Except Fault Value}
      (notZero : isZero source = false)
      (opens : (f (.opening, source)).runFrom before = (.ok v, opened))
      (ran : (f (.body, wrapper holder (.ok v))).runFrom opened = (outcome, ended))
      (closes : (f (.closing, v)).runFrom ended = (.ok answer, after)) :
      Lives holder f source before
        [⟨(.opening, source), .ok v⟩, ⟨(.body, wrapper holder (.ok v)), outcome⟩,
          ⟨(.closing, v), .ok answer⟩] outcome after
  | unclosed {before opened ended after : σ} {v : Value} {outcome : Except Fault Value}
      {fault : Fault} (notZero : isZero source = false)
      (opens : (f (.opening, source)).runFrom before = (.ok v, opened))
      (ran : (f (.body, wrapper holder (.ok v))).runFrom opened = (outcome, ended))
      (fails : (f (.closing, v)).runFrom ended = (.error fault, after)) :
      Lives holder f source before
        [⟨(.opening, source), .ok v⟩, ⟨(.body, wrapper holder (.ok v)), outcome⟩,
          ⟨(.closing, v), .error fault⟩] (.error fault) after

/-- A closing computation runs from the state in which the body has ended. -/
theorem runFrom_closing {body : Attempt (StateM σ) α} {before ended : σ} {outcome : Except Fault α}
    (ran : body.runFrom before = (outcome, ended)) (close : Attempt (StateM σ) Unit) :
    (Attempt.closing body close).runFrom before = match close.runFrom ended with
      | (.error fault, after) => (.error fault, after)
      | (.ok (), after) => (outcome, after) := by
  have opened : (Attempt.closing body close).runFrom before =
      match close.runFrom (body.runFrom before).2 with
      | (.error fault, after) => (.error fault, after)
      | (.ok (), after) => ((body.runFrom before).1, after) := by
    unfold Attempt.closing Attempt.runFrom
    rw [ExceptT.run_mk, StateT.run_bind]
    generalize body.run.run before = ran
    obtain ⟨outcome, ended⟩ := ran
    show StateT.run (close.run >>= _) ended = _
    rw [StateT.run_bind]
    generalize close.run.run ended = closed
    obtain ⟨answer, after⟩ := closed
    cases answer <;> rfl
  rw [opened, ran]

section Lifecycle

variable [LawfulMonad m] (holder : Holder) (f : Occasion × Value → Attempt m Value)
  {source : Value}

private theorem lifecycle_of_isZero (zero : isZero source = true) :
    lifecycle holder f source =
      Attempt.closing (f (.body, wrapper holder (.notOk .null))) (pure ()) := by
  have notOpened : Optional.unlessZero source = .notOk source.kindLeft := by
    rw [Optional.unlessZero, Optional.guarded, zero]
    rfl
  rw [lifecycle, openWith, notOpened, Optional.map, pure_bind, pure_bind]
  rfl

private theorem lifecycle_of_not_isZero (notZero : isZero source = false) :
    lifecycle holder f source = (do
      let v ← f (.opening, source)
      Attempt.closing (f (.body, wrapper holder (.ok v))) (do let _ ← f (.closing, v))) := by
  have wanted : Optional.unlessZero source = .ok source := by
    rw [Optional.unlessZero, Optional.guarded, notZero]
    rfl
  rw [lifecycle, openWith, wanted, Optional.map, bind_assoc, bind_assoc]
  refine bind_congr fun v => ?_
  rw [pure_bind, pure_bind]
  rfl

end Lifecycle

/-- The calls of a lifecycle that are put on record are those that are made for the dependency;
putting them on record changes nothing else. -/
theorem runFrom_lifecycle (holder : Holder) (f : Occasion × Value → Attempt (StateM σ) Value)
    (source : Value) (before : σ) :
    ∃ calls outcome after,
      (lifecycle holder (recorded f) source).runFrom ⟨before, []⟩ = (outcome, ⟨after, calls⟩) ∧
        (lifecycle holder f source).runFrom before = (outcome, after) ∧
        Lives holder f source before calls outcome after := by
  cases zero : isZero source with
  | true =>
      rcases ran : (f (.body, wrapper holder (.notOk .null))).runFrom before with ⟨outcome, after⟩
      refine ⟨_, outcome, after, ?_, ?_, .absent zero ran⟩
      · rw [lifecycle_of_isZero holder _ zero, runFrom_closing (runFrom_recorded ran []),
          Attempt.runFrom_pure]
        rfl
      · rw [lifecycle_of_isZero holder _ zero, runFrom_closing ran, Attempt.runFrom_pure]
  | false =>
      rw [lifecycle_of_not_isZero holder _ zero, lifecycle_of_not_isZero holder _ zero]
      rcases opens : (f (.opening, source)).runFrom before with ⟨fault | v, opened⟩
      · exact ⟨_, _, opened, Attempt.runFrom_bind_of_error _ (runFrom_recorded opens []),
          Attempt.runFrom_bind_of_error _ opens, .unopened zero opens⟩
      -- Whatever the outcome of the body is, the closing runs from where the body has ended.
      · rcases ran : (f (.body, wrapper holder (.ok v))).runFrom opened with ⟨outcome, ended⟩
        rw [Attempt.runFrom_bind_of_ok _ (runFrom_recorded opens []),
          runFrom_closing (runFrom_recorded ran _), Attempt.runFrom_bind_of_ok _ opens,
          runFrom_closing ran]
        rcases closes : (f (.closing, v)).runFrom ended with ⟨fault | answer, after⟩
        · rw [Attempt.runFrom_bind_of_error _ (runFrom_recorded closes _),
            Attempt.runFrom_bind_of_error _ closes]
          exact ⟨_, _, after, rfl, rfl, .unclosed zero opens ran closes⟩
        · rw [Attempt.runFrom_bind_of_ok _ (runFrom_recorded closes _), Attempt.runFrom_pure,
            Attempt.runFrom_bind_of_ok _ closes, Attempt.runFrom_pure]
          exact ⟨_, _, after, rfl, rfl, .closed zero opens ran closes⟩

/-! ## Lifecycles in a session -/

section Sessions

variable {call : Caller} {source opener body : Value} {holder : Holder} {arguments : List Value}

/-- The calls of a session for a dependency. What an opener gives is kept before it is used. -/
def inSession (call : Caller) (source opener body : Value) : Occasion × Value → Run Value
  | (.opening, _) => do Run.keep (← call opener [source])
  | (.body, w) => call body [w]
  | (.closing, v) => do
      Members.close v
      return .null

/-- Arguments that open a dependency for a holder that can close it, which is the closable one if no
kind is given. -/
inductive Asks (source opener : Value) : Holder → List Value → Prop
  | closable : Asks source opener .closable [source, opener]
  | ofKind (holder : Holder) (canClose : holder.canClose = true) :
      Asks source opener holder [source, opener, .ofKind holder.kind]

private theorem keep_wrapper (holder : Holder) (o : Optional Value Value) :
    Run.keep (wrapper holder o) = match o with
      | .ok v => do return wrapper holder (.ok (← Run.keep v))
      | .notOk kind => do return wrapper holder (.notOk (← Run.keep kind)) := by
  cases o <;> simp only [wrapper, Run.keep, rebuild, bind_assoc, pure_bind]

/-- A dependency is put into its holder, by name or by the kind of the holder. -/
private theorem perform_openWith (depth : Nat) (asks : Asks source opener holder arguments) :
    perform (callTo (depth + 1)) (.managed .openWith) arguments [] =
      openOption (callTo (depth + 1)) source opener >>= fun o => Run.keep (wrapper holder o) := by
  cases asks with
  | closable => exact bind_assoc _ _ _
  | ofKind _ canClose =>
      have made (o : Optional Value Value) :
          callTo (depth + 1) (.ofKind holder.kind) [.option o] = Run.keep (wrapper holder o) := by
        cases holder with
        | plain => cases canClose
        | closable => rfl
        | clients => rfl
      -- The kind that is called keeps what it makes; the session does so again for nothing.
      show ((openOption (callTo (depth + 1)) source opener >>= fun o =>
        callTo (depth + 1) (.ofKind holder.kind) [.option o]) >>= Run.keep) = _
      rw [bind_assoc]
      refine bind_congr fun o => ?_
      rw [made]
      exact keep_keep _

/-- The option that is opened, with what the opener gave kept. -/
private theorem openOption_keep (call : Caller) (source opener : Value) (holder : Holder) :
    (openOption call source opener >>= fun o => Run.keep (wrapper holder o)) = (do
      let d ← openWith holder (← Run.observe source) fun _ => do Run.keep (← call opener [source])
      return wrapper holder d.basic) := by
  rw [openOption, bind_assoc]
  refine bind_congr fun seen => ?_
  rw [openWith, openWith, bind_assoc, bind_assoc, bind_assoc]
  cases Optional.unlessZero seen with
  | ok v =>
      simp only [Optional.map, bind_assoc, pure_bind, keep_wrapper]
  | notOk kind =>
      simp only [Optional.map, pure_bind]
      rfl

/-- A session goes through a wrapper with a body, and then closes what is in it. -/
private theorem perform_bracket (canClose : holder.canClose = true) (o : Optional Value Value) :
    perform call (.managed .bracket) [wrapper holder o, body] [] = (do
      let d : Managed (Optional Value Value) := ⟨holder, o⟩
      Run.keep (← d.bracket (fun o => o.call Members.close) (call body [wrapper holder o]))) := by
  have closes : Members.closeInside (.option o) = o.call Members.close := by
    cases o <;> rfl
  have entered : Session.bracket call (wrapper holder o) body =
      Attempt.closing (call body [wrapper holder o]) (o.call Members.close) := by
    rw [← closes]
    exact if_pos canClose
  show (Session.bracket call (wrapper holder o) body >>= Run.keep) = _
  rw [entered]
  rfl

/-- What a session opens and goes through with a body lives and is closed as one dependency. -/
theorem perform_eq_lifecycle (depth : Nat) (asks : Asks source opener holder arguments)
    (body : Value) :
    (do
      let w ← perform (callTo (depth + 1)) (.managed .openWith) arguments []
      perform (callTo (depth + 1)) (.managed .bracket) [w, body] []) = (do
      let answer ← lifecycle holder (inSession (callTo (depth + 1)) source opener body)
        (← Run.observe source)
      Run.keep answer) := by
  have canClose : holder.canClose = true := by
    cases asks with
    | closable => rfl
    | ofKind _ canClose => exact canClose
  have closing :
      (fun v => do let _ ← inSession (callTo (depth + 1)) source opener body (.closing, v)) =
        Members.close := by
    funext v
    show ((Members.close v >>= fun _ => pure Value.null) >>= fun _ => pure ()) = _
    rw [bind_assoc]
    simp
  rw [perform_openWith depth asks, openOption_keep, bind_assoc]
  refine bind_congr fun seen => ?_
  rw [lifecycle, closing, bind_assoc, bind_assoc]
  refine bind_congr fun d => ?_
  rw [pure_bind, perform_bracket canClose]
  rfl

/-- What is neither a client nor a stream nor in a holder that can close it has nothing to close. -/
theorem close_of_not_isClosable {v : Value} (notClosable : Members.isClosable v.kindOf = false)
    (notKind : ∀ kind, v = .ofKind kind → Members.isClosable kind = false) :
    Members.close v = Run.fail .noMember := by
  cases v with
  | scalar s =>
      cases s with
      | kind kind => exact congrArg Members.ofKind (notKind kind rfl)
      | handle h =>
          obtain ⟨sort, number⟩ := h
          cases sort with
          | stream => cases notClosable
          | _ => rfl
      | _ => rfl
  | managed d =>
      obtain ⟨holder, basic⟩ := d
      cases holder with
      | plain => rfl
      | closable => cases notClosable
      | clients => cases notClosable
  | client c => cases notClosable
  | _ => rfl

end Sessions

/-! ## All dependencies -/

/-- A dependency lives as `Lives` says, whatever its opener, its body and its closing do: the calls
on record are these, in their order and each made once. What a session opens and goes through with a
body lives so, for each holder that can close; the body is run on a wrapper that has what the opener
gave as its payload, or none. What has nothing to close fails to be closed for that reason. -/
theorem dependency_lives :
    (∀ (σ : Type) (holder : Holder) (f : Occasion × Value → Attempt (StateM σ) Value)
      (source : Value) (before : σ), ∃ calls outcome after,
        (lifecycle holder (recorded f) source).runFrom ⟨before, []⟩ = (outcome, ⟨after, calls⟩) ∧
          (lifecycle holder f source).runFrom before = (outcome, after) ∧
          Lives holder f source before calls outcome after) ∧
    (∀ (depth : Nat) (source opener body : Value) (holder : Holder) (arguments : List Value),
      Asks source opener holder arguments →
        (do
          let w ← perform (callTo (depth + 1)) (.managed .openWith) arguments []
          perform (callTo (depth + 1)) (.managed .bracket) [w, body] []) = (do
          let answer ← lifecycle holder (inSession (callTo (depth + 1)) source opener body)
            (← Run.observe source)
          Run.keep answer)) ∧
    (∀ (holder : Holder) (o : Optional Value Value) (v : Value),
      Members.isOk (wrapper holder o) = pure o.isOk ∧
        Members.mustGet (wrapper holder (.ok v)) = pure v) ∧
    ∀ v : Value, Members.isClosable v.kindOf = false →
      (∀ kind, v = .ofKind kind → Members.isClosable kind = false) →
        Members.close v = Run.fail .noMember ∧ Fault.noMember.kind = .member :=
  ⟨fun _ => runFrom_lifecycle,
    fun depth _ _ body _ _ asks => perform_eq_lifecycle depth asks body,
    fun _ _ _ => ⟨rfl, rfl⟩,
    fun _ notClosable notKind => ⟨close_of_not_isClosable notClosable notKind, rfl⟩⟩

/-- A client is opened for a holder of clients, has its wrapper looked at, and is closed once. -/
theorem dependency_lives_client :
    Asks (.int 3) (.ofKind .client) .clients [.int 3, .ofKind .client, .ofKind .clientHolder] ∧
    ((do
      let w ← perform (callTo 1) (.managed .openWith)
        [.int 3, .ofKind .client, .ofKind .clientHolder] []
      perform (callTo 1) (.managed .bracket) [w, .ofKind .type] [] : Run Value).runFrom
        (.start ⟨[]⟩ ⟨2024, 2, 29, 1, 2, 3, 0⟩)).1 = .ok (.ofKind .clientHolder) := by
  have asks : Asks (.int 3) (.ofKind .client) .clients
      [.int 3, .ofKind .client, .ofKind .clientHolder] := .ofKind .clients rfl
  obtain ⟨-, performed, -⟩ := dependency_lives
  refine ⟨asks, ?_⟩
  rw [performed 0 (.int 3) (.ofKind .client) (.ofKind .type) .clients _ asks]
  rfl

end Presence.Managed
