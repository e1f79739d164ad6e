import Presence.Proofs.Calls.TwoRuns
import Presence.Proofs.Optional.Pipeline
import Presence.Session.Sides

/-!
Contract: either side goes through stages as the option of its right payload does.

Owns: `Stage` and `pipeline` for sides, and `Stage.onOptions`, the stage of an option that belongs
to each; `Agrees`, a side and an option with the same payload or without one, and `ReadsAlike`, what
the two then answer alike; `performAll` and `performAllOnOption`, the stages as operations of a
session; that the two pipelines make the same calls and end in agreement, or in the same fault
(`pipeline_agrees`).

Does not own: what a single stage does (`Presence.Either`, `Presence.Optional`), and pipelines of
options by themselves (`Presence.Proofs.Optional.Pipeline`).

The functions give values; which side a value is, is read off it by a `Reading`, which may look at
the state and may fail. An option forgets what a left side keeps, its error as well as its kind, so
that the two can only agree on payloads.
-/

namespace Presence.Either

open Attempt Calls Session

variable {m : Type → Type} [Monad m] {κ κ' ε α σ : Type}

/-- What a stage does with the answer of its function. -/
inductive StageSort where
  | map
  | flatMap

structure Stage (m : Type → Type) where
  sort : StageSort
  callback : Value → Attempt m Value

/-- How the answer of a function is read as one of two sides. -/
abbrev Reading (m : Type → Type) : Type := Value → Attempt m (Either Value Value Value)

def Stage.run (read : Reading m) (stage : Stage m) (e : Either Value Value Value) :
    Attempt m (Either Value Value Value) :=
  match stage.sort with
  | .map => e.map stage.callback
  | .flatMap => e.flatMap fun x => do read (← stage.callback x)

def pipeline (read : Reading m) (stages : List (Stage m)) (e : Either Value Value Value) :
    Attempt m (Either Value Value Value) :=
  stages.foldlM (fun e stage => stage.run read e) e

/-- The stage of an option that belongs to a stage of sides: where the function gives a side, the
option of that side takes its place. -/
def Stage.onOptions (read : Reading m) (stage : Stage m) : Optional.Stage m :=
  match stage.sort with
  | .map => ⟨.map .null, stage.callback⟩
  | .flatMap => ⟨.flatMap, fun x => do return .option (← read (← stage.callback x)).toOption⟩

/-! ## Agreement -/

/-- A right side with the payload of an option, or a left side where an option has none. -/
inductive Agrees : Either κ ε α → Optional κ' α → Prop
  | present (v : α) (kind : κ) : Agrees (.right v kind) (.ok v)
  | absent (error : ε) (kind : κ) (left : κ') : Agrees (.left error kind) (.notOk left)

theorem agrees_toOption (e : Either κ ε α) : Agrees e e.toOption := by
  cases e with
  | left error kind => exact .absent error kind kind
  | right v kind => exact .present v kind

namespace Agrees

variable {e : Either κ ε α} {o : Optional κ' α}

private theorem getOrElse (agrees : Agrees e o) (fallback : α) :
    e.getOrElse fallback = o.orElse fallback := by
  cases agrees <;> rfl

/-- A payload that is there is demanded of both alike. -/
private theorem mustGet_ok (agrees : Agrees e o) (v : α) :
    e.mustGet = .ok v ↔ o.mustGet = .ok v := by
  cases agrees with
  | present => exact Iff.rfl
  | absent => exact ⟨nofun, nofun⟩

/-- What is not there is a fault of the side and a fault of the option, each in its own way. -/
private theorem mustGet_error (agrees : Agrees e o) :
    e.mustGet = .error .isLeft ↔ o.mustGet = .error .notOk := by
  cases agrees with
  | present => exact ⟨nofun, nofun⟩
  | absent => exact ⟨fun _ => rfl, fun _ => rfl⟩

private theorem samePayload {e : Either Value Value Value} {o : Optional Value Value}
    (agrees : Agrees e o) : Optional.SamePayload e.toOption o := by
  cases agrees <;> exact Optional.samePayload_of_eq rfl

/-- What is asked of a side and of an option for their payload, with the same answer. -/
structure ReadsAlike (e : Either Value Value Value) (o : Optional Value Value) : Prop where
  option : Optional.SamePayload e.toOption o
  getOrElse : ∀ fallback, e.getOrElse fallback = o.orElse fallback
  mustGet_ok : ∀ v, e.mustGet = .ok v ↔ o.mustGet = .ok v
  mustGet_error : e.mustGet = .error .isLeft ↔ o.mustGet = .error .notOk

private theorem readsAlike {e : Either Value Value Value} {o : Optional Value Value}
    (agrees : Agrees e o) : ReadsAlike e o where
  option := agrees.samePayload
  getOrElse := agrees.getOrElse
  mustGet_ok := agrees.mustGet_ok
  mustGet_error := agrees.mustGet_error

end Agrees

/-! ## Stages -/

theorem run_absent (read : Reading m) (stage : Stage m) (error kind : Value) :
    stage.run read (.left error kind) = pure (.left error kind) := by
  obtain ⟨sort, callback⟩ := stage
  cases sort <;> rfl

section Pipelines

variable (options : Optional.Reading (StateM σ)) (read : Reading (StateM σ))
  {e : Either Value Value Value} {o : Optional Value Value}

/-- A stage and the one that belongs to it keep agreement, and call their function alike. -/
private theorem alike_run (stage : Stage (StateM σ)) (agrees : Agrees e o) (start : σ) :
    Alike start (fun _ => Agrees) (stage.run read e) ((stage.onOptions read).run options o) := by
  cases agrees with
  | absent error kind left =>
      obtain ⟨other, stops⟩ := Optional.run_notOk options (stage.onOptions read) left
      rw [run_absent, stops]
      exact .pure (.absent error kind other)
  | present x kind =>
      obtain ⟨sort, callback⟩ := stage
      have called : Alike start (fun _ a b => a = b) (callback x) (callback x) :=
        .refl fun _ _ _ => rfl
      rw [Optional.run_ok]
      cases sort with
      | map =>
          refine called.bind ?_
          rintro _ answer _ rfl
          exact .pure (.present answer kind)
      | flatMap =>
          show Alike start (fun _ => Agrees) (callback x >>= read)
            ((callback x >>= fun answer => read answer >>= fun side =>
              pure (Value.option side.toOption)) >>= options.option)
          rw [bind_assoc]
          refine called.bind ?_
          rintro middle answer _ rfl
          simp only [bind_assoc, pure_bind, options.option_option]
          -- The side is read on either way, and its option agrees with it.
          have isRead : Alike middle (fun _ a b => a = b) (read answer) (read answer) :=
            .refl fun _ _ _ => rfl
          rw [← bind_pure (read answer), bind_assoc]
          refine isRead.bind ?_
          rintro _ side _ rfl
          exact .pure (agrees_toOption side)

private theorem alike_pipeline (stages : List (Stage (StateM σ))) (agrees : Agrees e o)
    (start : σ) :
    Alike start (fun _ => Agrees) (pipeline read stages e)
      (Optional.pipeline options (stages.map (Stage.onOptions read)) o) := by
  induction stages generalizing e o start with
  | nil => exact .pure agrees
  | cons stage stages inductionHypothesis =>
      rw [pipeline, List.foldlM_cons, List.map_cons, Optional.pipeline_cons]
      exact (alike_run options read stage agrees start).bind fun middle _ _ agrees =>
        inductionHypothesis agrees middle

end Pipelines

/-! ## Calls on record -/

/-- Stages of some sorts, whose functions are told apart by the places of the stages. -/
def stagesFrom (callback : Nat × Value → Attempt m Value) (place : Nat) :
    List StageSort → List (Stage m)
  | [] => []
  | sort :: sorts => ⟨sort, fun x => callback (place, x)⟩ :: stagesFrom callback (place + 1) sorts

/-! ## Stages in a session -/

/-- The operation of a stage in a session. -/
def StageSort.perform (call : Caller) (sort : StageSort) (v f : Value) : Run Value :=
  match sort with
  | .map => performEither call .map [v, f]
  | .flatMap => performEither call .flatMap [v, f]

/-- Calls of functions, with the option of the side that each gives. -/
def optionAfter (call : Caller) : Caller := fun f arguments => do
  performEither call .toOption [← call f arguments]

/-- The operation that belongs to a stage when the session has an option in the place of the
side. -/
def StageSort.performOnOption (call : Caller) (sort : StageSort) (v f : Value) : Run Value :=
  match sort with
  | .map => performOption call .map [v, f]
  | .flatMap => performOption (optionAfter call) .flatMap [v, f]

private theorem perform_eq_run (call : Caller) (sort : StageSort) (v f : Value) :
    (sort.perform call v f >>= eitherOf) =
      (eitherOf v >>= Stage.run eitherOf ⟨sort, fun x => call f [x]⟩) := by
  cases sort with
  | map =>
      simp only [StageSort.perform, performEither, bind_assoc, pure_bind]
      exact bind_congr fun e => bind_pure _
  | flatMap =>
      -- The answer of a function is read as a side, which a left one is already.
      simp only [StageSort.perform, performEither, bind_assoc]
      apply bind_congr
      intro e
      cases e with
      | left error kind => rfl
      | right x kind => rfl

private theorem performOnOption_eq_run (call : Caller) (sort : StageSort) (v f : Value) :
    (sort.performOnOption call v f >>= optionOf) =
      (optionOf v >>= Optional.Stage.run Optional.inSession
        (Stage.onOptions eitherOf ⟨sort, fun x => call f [x]⟩)) := by
  cases sort with
  | map => exact Optional.perform_eq_run call (.map .null) v f
  | flatMap => exact Optional.perform_eq_run (optionAfter call) .flatMap v f

/-- Stages that a session performs one after the other, from some value on. -/
def performAll (call : Caller) (stages : List (StageSort × Value)) (v : Value) : Run Value :=
  stages.foldlM (fun v stage => stage.1.perform call v stage.2) v

/-- The same stages, performed on the option of a side. -/
def performAllOnOption (call : Caller) (stages : List (StageSort × Value)) (v : Value) :
    Run Value := do
  stages.foldlM (fun o stage => stage.1.performOnOption call o stage.2)
    (← performEither call .toOption [v])

/-- The stages of a session, with what they make of the functions given by value. -/
def stagesOf (call : Caller) (stages : List (StageSort × Value)) : List (Stage (StateM World)) :=
  stages.map fun stage => ⟨stage.1, fun x => call stage.2 [x]⟩

private theorem performAll_eq_pipeline (call : Caller) (stages : List (StageSort × Value))
    (v : Value) :
    (performAll call stages v >>= eitherOf) =
      (eitherOf v >>= pipeline eitherOf (stagesOf call stages)) := by
  rw [performAll, Optional.foldlM_read _ _ _ _ fun v stage => perform_eq_run call stage.1 v stage.2]
  apply bind_congr
  intro e
  rw [pipeline, stagesOf, List.foldlM_map]

private theorem performAllOnOption_eq_pipeline (call : Caller) (stages : List (StageSort × Value))
    (v : Value) :
    (performAllOnOption call stages v >>= optionOf) =
      (eitherOf v >>= fun e => Optional.pipeline Optional.inSession
        ((stagesOf call stages).map (Stage.onOptions eitherOf)) e.toOption) := by
  have reads := Optional.foldlM_read _ _ _ stages fun v stage =>
    performOnOption_eq_run call stage.1 v stage.2
  simp only [performAllOnOption, performEither, bind_assoc, pure_bind, reads,
    Optional.optionOf_option, Optional.pipeline, stagesOf, List.foldlM_map]

/-! ## All pipelines -/

/-- A pipeline of a side and the one that belongs to it of its option make the same calls with the
same outcomes, from whatever state they start and whatever the functions do, and come to one state;
they end in the same fault, or with a side and an option that agree: the option of the side has the
payload of the option, and equals it unless the payload is not even equal to itself, and what is
asked of the side for its payload is answered as the option answers it. A session goes through
either pipeline with one operation after the other. -/
theorem pipeline_agrees (options : Optional.Reading (StateM σ)) (read : Reading (StateM σ))
    (f : Nat × Value → Attempt (StateM σ) Value) (sorts : List StageSort)
    (e : Either Value Value Value) (start : σ) :
    Alike ⟨start, []⟩ (fun _ => Agrees.ReadsAlike)
      (pipeline (fun v => aside (read v)) (stagesFrom (recorded f) 0 sorts) e)
      (Optional.pipeline options.beside
        ((stagesFrom (recorded f) 0 sorts).map (Stage.onOptions fun v => aside (read v)))
        e.toOption) ∧
    ∀ (call : Caller) (stages : List (StageSort × Value)) (v : Value) (world : World),
      Alike world (fun _ => Agrees.ReadsAlike) (performAll call stages v >>= eitherOf)
        (performAllOnOption call stages v >>= optionOf) := by
  constructor
  · have ends := alike_pipeline options.beside (fun v => aside (read v))
      (stagesFrom (recorded f) 0 sorts) (agrees_toOption e) ⟨start, []⟩
    exact ends.mono fun _ _ _ agrees => agrees.readsAlike
  · intro call stages v world
    rw [performAll_eq_pipeline, performAllOnOption_eq_pipeline]
    have isRead : Alike world (fun _ a b => a = b) (eitherOf v) (eitherOf v) :=
      .refl fun _ _ _ => rfl
    refine isRead.bind ?_
    rintro middle side _ rfl
    have ends := alike_pipeline Optional.inSession eitherOf (stagesOf call stages)
      (agrees_toOption side) middle
    exact ends.mono fun _ _ _ agrees => agrees.readsAlike

/-- What is left of the infinite when as much is taken away is no number, and is not equal to
itself: a side whose option is taken in the end and one whose option is taken at the start, from one
state, come to options that are not equal. -/
theorem toOption_infinite_ne :
    ¬ ∀ (options : Optional.Reading (StateM World)) (read : Reading (StateM World))
        (f : Nat × Value → Attempt (StateM World) Value) (sorts : List StageSort)
        (e : Either Value Value Value) (start : World),
      Alike ⟨start, []⟩ (fun _ e o => (Value.option e.toOption == .option o) = true)
        (pipeline (fun v => aside (read v)) (stagesFrom (recorded f) 0 sorts) e)
        (Optional.pipeline options.beside
          ((stagesFrom (recorded f) 0 sorts).map (Stage.onOptions fun v => aside (read v)))
          e.toOption) := by
  intro equal
  cases equal Optional.inSession eitherOf Optional.lessInfinite [.map]
      (.right (.float (.infinite false)) .null) (.start ⟨[]⟩ ⟨2024, 2, 29, 1, 2, 3, 0⟩) with
  | ok ended ended' relates =>
      cases ended
      cases ended'
      cases relates
  | error ended _ => cases ended

end Presence.Either
