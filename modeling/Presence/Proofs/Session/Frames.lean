import Presence.Proofs.Calls.Schedule
import Presence.Session.Build

/-!
Contract: what making values, and going through them, leaves as it was.

Owns: what the primitive computations of a session do to a world; `Store.Holds`, open streams that
stand at their ends; `Store.Spares`, stores between which no client was closed; `Frame`, relations
of worlds that hold whatever is made or gone through, and `KeepsTo`, computations that keep to such
a relation, closed under sequence and under going through feeds; that the values of literals are
made, and values are kept and told, within every frame; `Quiet`, the frame of the worlds that differ
in nothing that is observed of loggers.

Does not own: the operations on loggers (`Presence.Proofs.Logger.Operations`) and on clients
(`Presence.Proofs.Managed.Clients`).

A stream may be gone through while a value is made, which moves its position. One that stands at its
end has no line left, so that nothing of it is passed over.
-/

namespace Presence.Session

open Attempt Run

/-! ## Primitive computations -/

section Primitives

variable {α : Type} (world : World)

@[simp] theorem runFrom_fail (fault : Fault) :
    (fail fault : Run α).runFrom world = (.error fault, world) := rfl

@[simp] theorem runFrom_lift (result : Except Fault α) :
    (lift result).runFrom world = (result, world) := rfl

@[simp] theorem runFrom_get : (get : Run World).runFrom world = (.ok world, world) := rfl

@[simp] theorem runFrom_modify (change : World → World) :
    (modify change : Run PUnit).runFrom world = (.ok ⟨⟩, change world) := rfl

@[simp] theorem runFrom_store : Run.store.runFrom world = (.ok world.store, world) := rfl

@[simp] theorem runFrom_setStore (store : Store) :
    (setStore store).runFrom world = (.ok (), { world with store := store }) := rfl

end Primitives

/-! ## Streams at their ends -/

/-- Every stream is open, has a name of its own, and holds what was said under its name, with its
position at the end. -/
structure Store.Holds (store : Store) (said : String → List Char) : Prop where
  each : ∀ (number : Nat) stream, store.streams[number]? = some stream →
    ∃ name, stream = ⟨some name, said name, (said name).length, false⟩
  distinct : ∀ (i j : Nat) first second, store.streams[i]? = some first →
    store.streams[j]? = some second → first.name = second.name → i = j
  silent : ∀ name, (∀ (number : Nat) stream, store.streams[number]? = some stream →
    stream.name ≠ some name) → said name = []

theorem Store.holds_empty : Store.empty.Holds fun _ => [] := by
  refine ⟨?_, ?_, fun _ _ => rfl⟩
  · intro number stream found
    cases found
  · intro i j first second found
    cases found

/-- A store with the same streams holds the same. -/
theorem Store.Holds.of_streams_eq {before after : Store} {said : String → List Char}
    (holds : before.Holds said) (same : after.streams = before.streams) : after.Holds said := by
  refine ⟨?_, ?_, ?_⟩ <;> rw [same]
  · exact holds.each
  · exact holds.distinct
  · exact holds.silent

theorem getElem?_push_of_found {α : Type} {cells : Array α} {number : Nat} {cell : α}
    (found : cells[number]? = some cell) (new : α) : (cells.push new)[number]? = some cell := by
  obtain ⟨inside, same⟩ := Array.getElem?_eq_some_iff.mp found
  rw [Array.getElem?_push_lt inside, same]

/-- A stream under a new name holds nothing. -/
private theorem Store.Holds.push {store : Store} {said : String → List Char}
    (holds : store.Holds said) {name : String}
    (fresh : ∀ (number : Nat) stream, store.streams[number]? = some stream →
      stream.name ≠ some name) :
    { store with streams := store.streams.push (.ofText (some name) []) }.Holds said := by
  have nothing := holds.silent name fresh
  have found : ∀ {number : Nat} {stream : TextStream},
      (store.streams.push (.ofText (some name) []))[number]? = some stream →
        store.streams[number]? = some stream ∨
          (number = store.streams.size ∧ stream = .ofText (some name) []) := by
    intro number stream there
    rw [Array.getElem?_push] at there
    split at there
    · next last => exact .inr ⟨last, (Option.some.inj there).symm⟩
    · exact .inl there
  refine ⟨?_, ?_, ?_⟩
  · intro number stream there
    rcases found there with old | ⟨_, rfl⟩
    · exact holds.each number stream old
    · refine ⟨name, ?_⟩
      rw [nothing]
      rfl
  · intro i j first second thereFirst thereSecond same
    rcases found thereFirst with oldFirst | ⟨lastFirst, rfl⟩ <;>
      rcases found thereSecond with oldSecond | ⟨lastSecond, rfl⟩
    · exact holds.distinct i j first second oldFirst oldSecond same
    · exact absurd same (fresh i first oldFirst)
    · exact absurd same.symm (fresh j second oldSecond)
    · rw [lastFirst, lastSecond]
  · intro other unnamed
    apply holds.silent other
    intro number stream old
    exact unnamed number stream (getElem?_push_of_found old _)

/-- The stream at a place, which holds nothing where there is none. -/
def Store.streamAt (store : Store) (number : Nat) : TextStream :=
  (store.streams[number]?).getD (.ofText none [])

/-- A stream that stands at its end has no line left. -/
private theorem Store.Holds.nextLine? {store : Store} {said : String → List Char}
    (holds : store.Holds said) (number : Nat) : (store.streamAt number).nextLine? = none := by
  unfold Store.streamAt
  rcases there : store.streams[number]? with _ | stream
  · rfl
  · obtain ⟨name, rfl⟩ := holds.each number stream there
    simp [TextStream.nextLine?]

/-! ## Counters of clients -/

/-- How often a client was closed; what was never made was never closed. -/
def Store.closingsOf (store : Store) (number : Nat) : Nat := (store.closings[number]?).getD 0

/-- No client is closed, but clients may be made. -/
structure Store.Spares (before after : Store) : Prop where
  counts : ∀ number, after.closingsOf number = before.closingsOf number
  more : before.closings.size ≤ after.closings.size

namespace Store.Spares

theorem of_closings_eq {before after : Store} (same : after.closings = before.closings) :
    before.Spares after := by
  refine ⟨fun number => ?_, Nat.le_of_eq (congrArg Array.size same.symm)⟩
  rw [closingsOf, same]
  rfl

theorem trans {before between after : Store} (first : before.Spares between)
    (second : between.Spares after) : before.Spares after :=
  ⟨fun number => (second.counts number).trans (first.counts number),
    Nat.le_trans first.more second.more⟩

/-- A new client was never closed, as it was before it was made. -/
theorem push (store : Store) :
    store.Spares { store with closings := store.closings.push 0 } := by
  refine ⟨fun number => ?_, ?_⟩
  · simp only [closingsOf, Array.getElem?_push]
    split
    · next isNew =>
        rw [isNew, Array.getElem?_eq_none (Nat.le_refl _)]
        rfl
    · rfl
  · rw [Array.size_push]
    exact Nat.le_succ _

end Store.Spares

/-! ## Frames -/

/-- What is left of a world by whatever makes values and goes through them: it may change lists,
functions, iterators and objects, make clients and streams, and read streams. -/
class Frame (R : World → World → Prop) : Prop where
  refl (world : World) : R world world
  trans {before between after : World} : R before between → R between after → R before after
  change (world : World) {store : Store} (loggers : store.loggers = world.store.loggers)
    (streams : store.streams = world.store.streams) (spares : world.store.Spares store) :
    R world { world with store := store }
  named (world : World) {name : String}
    (fresh : ∀ (number : Nat) stream, world.store.streams[number]? = some stream →
      stream.name ≠ some name) :
    R world { world with store :=
      { world.store with streams := world.store.streams.push (.ofText (some name) []) } }
  read (world : World) {number : Nat} {line : List Char} {stream : TextStream}
    (next : (world.store.streamAt number).nextLine? = some (line, stream)) :
    R world { world with store :=
      { world.store with streams := world.store.streams.setIfInBounds number stream } }

/-- From every world a computation leads to a related one, and its result is as it should be. -/
def KeepsTo {α : Type} (R : World → World → Prop) (body : Run α) (fine : α → Prop) : Prop :=
  ∀ world, R world (body.runFrom world).2 ∧
    ∀ result, (body.runFrom world).1 = .ok result → fine result

/-- Any result. -/
abbrev AnyResult {α : Type} : α → Prop := fun _ => True

namespace KeepsTo

variable {R : World → World → Prop} {α β : Type} {fine : α → Prop} {well : β → Prop}

theorem leadsTo {body : Run α} (keeps : KeepsTo R body fine) {before after : World}
    {outcome : Except Fault α} (ended : body.runFrom before = (outcome, after)) :
    R before after := by
  have related := (keeps before).1
  rw [ended] at related
  exact related

variable [Frame R]

theorem pure {result : α} (isFine : fine result) : KeepsTo R (pure result) fine := by
  intro world
  refine ⟨Frame.refl world, ?_⟩
  intro _ ended
  cases ended
  exact isFine

theorem bind {first : Run α} {next : α → Run β} (begins : KeepsTo R first fine)
    (goesOn : ∀ result, fine result → KeepsTo R (next result) well) :
    KeepsTo R (first >>= next) well := by
  intro world
  obtain ⟨kept, isFine⟩ := begins world
  rw [runFrom_bind]
  rcases ended : first.runFrom world with ⟨fault | result, between⟩ <;> rw [ended] at kept isFine
  · refine ⟨kept, ?_⟩
    intro result impossible
    cases impossible
  · obtain ⟨keptAfter, isWell⟩ := goesOn result (isFine result rfl) between
    exact ⟨Frame.trans kept keptAfter, isWell⟩

theorem done {result : α} : KeepsTo R (Pure.pure result) AnyResult := pure trivial

theorem fail (fault : Fault) : KeepsTo R (Run.fail fault) fine := by
  intro world
  refine ⟨Frame.refl world, ?_⟩
  intro result impossible
  cases impossible

theorem ofExcept (result : Except Fault α) : KeepsTo R (Attempt.ofExcept result) AnyResult :=
  fun world => ⟨Frame.refl world, fun _ _ => trivial⟩

theorem ofOption (result : Option α) : KeepsTo R (Attempt.ofOption result) AnyResult := by
  cases result with
  | none => exact fail .wrongType
  | some a => exact done

/-- The store may change in whatever is neither a logger nor a stream nor a counter. -/
theorem ofStore {body : Run α}
    (ends : ∀ world, ∃ outcome store,
      body.runFrom world = (outcome, { world with store := store }) ∧
      store.loggers = world.store.loggers ∧ store.streams = world.store.streams ∧
      world.store.Spares store) :
    KeepsTo R body AnyResult := by
  intro world
  obtain ⟨outcome, store, ended, loggers, streams, spares⟩ := ends world
  rw [ended]
  exact ⟨Frame.change world loggers streams spares, fun _ _ => trivial⟩

theorem mapM {f : α → Run β} (each : ∀ item, KeepsTo R (f item) AnyResult) (items : List α) :
    KeepsTo R (items.mapM f) AnyResult := by
  induction items with
  | nil => exact done
  | cons item rest inductionHypothesis =>
      rw [List.mapM_cons]
      exact (each item).bind fun _ _ => inductionHypothesis.bind fun _ _ => done

end KeepsTo

variable {R : World → World → Prop} [Frame R]

/-! ## Making what is kept -/

theorem keepsTo_get : KeepsTo R (get : Run World) AnyResult :=
  .ofStore fun _ => ⟨_, _, rfl, rfl, rfl, .of_closings_eq rfl⟩

theorem keepsTo_newList (items : List Value) : KeepsTo R (newList items) AnyResult :=
  .ofStore fun _ => ⟨_, _, rfl, rfl, rfl, .of_closings_eq rfl⟩

theorem keepsTo_newFunction (function : Function) : KeepsTo R (newFunction function) AnyResult :=
  .ofStore fun _ => ⟨_, _, rfl, rfl, rfl, .of_closings_eq rfl⟩

private theorem keepsTo_newIterator (items : List Value) :
    KeepsTo R (newIterator items) AnyResult :=
  .ofStore fun _ => ⟨_, _, rfl, rfl, rfl, .of_closings_eq rfl⟩

theorem keepsTo_newClient (users failing : Value) : KeepsTo R (newClient users failing) AnyResult :=
  .ofStore fun world => ⟨_, _, rfl, rfl, rfl, .push world.store⟩

theorem keepsTo_newNumber : KeepsTo R newNumber AnyResult :=
  .ofStore fun _ => ⟨_, _, rfl, rfl, rfl, .of_closings_eq rfl⟩

theorem keepsTo_observe (v : Value) : KeepsTo R (observe v) AnyResult :=
  .ofStore fun _ => ⟨_, _, rfl, rfl, rfl, .of_closings_eq rfl⟩

theorem keepsTo_listAt (number : Nat) : KeepsTo R (listAt number) AnyResult :=
  .ofStore fun _ => ⟨_, _, rfl, rfl, rfl, .of_closings_eq rfl⟩

private theorem keepsTo_iteratorAt (number : Nat) : KeepsTo R (iteratorAt number) AnyResult :=
  .ofStore fun _ => ⟨_, _, rfl, rfl, rfl, .of_closings_eq rfl⟩

private theorem keepsTo_look (v : Value) : KeepsTo R (look v) AnyResult := by
  fun_induction look v with
  | case1 number => exact (keepsTo_listAt number).bind fun _ _ => .done
  | case2 items inductionHypothesis => exact inductionHypothesis.bind fun _ _ => .done
  | case3 v _ _ => exact .done

theorem keepsTo_truth (v : Value) : KeepsTo R (truth v) AnyResult :=
  (keepsTo_look v).bind fun _ _ => .ofOption _

private theorem keepsTo_setIterator (number : Nat) (items : List Value) :
    KeepsTo R (setIterator number items) AnyResult :=
  .ofStore fun _ => ⟨_, _, rfl, rfl, rfl, .of_closings_eq rfl⟩

/-- A name has the stream that it had, or one that holds nothing yet. -/
private theorem keepsTo_streamOf (name : String) : KeepsTo R (streamOf name) AnyResult := by
  intro world
  refine ⟨?_, fun _ _ => trivial⟩
  unfold streamOf
  rw [runFrom_bind_of_ok _ (runFrom_store world)]
  split
  · exact Frame.refl world
  · next absent =>
      apply Frame.named world
      intro number stream found named
      have passedBy := Array.findIdx?_eq_none_iff.mp absent stream (Array.mem_of_getElem? found)
      simp [named] at passedBy

/-! ## Going through parts -/

/-- A feed each item of which leads to a related world. -/
def FeedKeepsTo {α : Type} (R : World → World → Prop) (feed : Feed (StateM World) α) : Prop :=
  ∀ place, KeepsTo R (feed.next place) AnyResult

section Feeds

variable {α β σ : Type} {feed : Feed (StateM World) α}

private theorem keepsTo_goFrom (next : FeedKeepsTo R feed) {body : α → σ → Run (ForInStep σ)}
    (each : ∀ item sofar, KeepsTo R (body item sofar) AnyResult) (steps place : Nat) (sofar : σ) :
    KeepsTo R (feed.goFrom body steps place sofar) AnyResult := by
  induction steps generalizing place sofar with
  | zero => exact .done
  | succ steps inductionHypothesis =>
      refine (next place).bind fun item _ => ?_
      cases item with
      | none => exact .done
      | some item =>
          refine (each item sofar).bind fun step _ => ?_
          cases step with
          | done final => exact .done
          | yield sofar => exact inductionHypothesis (place + 1) sofar

theorem keepsTo_fold (next : FeedKeepsTo R feed) {f : β → α → Run β}
    (each : ∀ sofar item, KeepsTo R (f sofar item) AnyResult) (initial : β) :
    KeepsTo R (feed.fold initial f) AnyResult :=
  keepsTo_goFrom next (fun item sofar => (each sofar item).bind fun _ _ => .done) _ _ _

private theorem keepsTo_toList (next : FeedKeepsTo R feed) : KeepsTo R feed.toList AnyResult :=
  (keepsTo_fold next (fun _ _ => KeepsTo.done.bind fun _ _ => .done) _).bind fun _ _ => .done

theorem runFrom_openStreamAt (number : Nat) (use : StreamUse) (world : World) :
    (openStreamAt number use).runFrom world =
      if (world.store.streamAt number).isClosed then (.error (.closedStream use), world)
      else (.ok (world.store.streamAt number), world) := by
  have there : (Run.streamAt number).runFrom world = (.ok (world.store.streamAt number), world) :=
    rfl
  unfold openStreamAt
  rw [runFrom_bind_of_ok _ there]
  split <;> rfl

private theorem keepsTo_openStreamAt (number : Nat) (use : StreamUse) :
    KeepsTo R (openStreamAt number use) AnyResult :=
  .ofStore fun world => by
    rw [runFrom_openStreamAt]
    split <;> exact ⟨_, _, rfl, rfl, rfl, .of_closings_eq rfl⟩

private theorem feedKeepsTo_streamFeed (number : Nat) : FeedKeepsTo R (streamFeed number) := by
  intro place world
  refine ⟨?_, fun _ _ => trivial⟩
  have opened := runFrom_openStreamAt number .transfer world
  simp only [streamFeed]
  split at opened
  · rw [runFrom_bind_of_error _ opened]
    exact Frame.refl world
  · rw [runFrom_bind_of_ok _ opened]
    rcases next : (world.store.streamAt number).nextLine? with _ | ⟨line, stream⟩
    · exact Frame.refl world
    · exact Frame.read world next

private theorem feedKeepsTo_listFeed (number : Nat) : FeedKeepsTo R (listFeed number) :=
  fun _ => .ofStore fun _ => ⟨_, _, rfl, rfl, rfl, .of_closings_eq rfl⟩

private theorem feedKeepsTo_iteratorFeed (number : Nat) : FeedKeepsTo R (iteratorFeed number) := by
  intro place
  refine (keepsTo_iteratorAt number).bind fun items _ => ?_
  cases items with
  | nil => exact .done
  | cons item rest => exact (keepsTo_setIterator number rest).bind fun _ _ => .done

private theorem feedKeepsTo_ofList (items : List α) :
    FeedKeepsTo R (.ofList items) := fun _ => .done

theorem keepsTo_feedOf (v : Value) : KeepsTo R (feedOf v) (FeedKeepsTo R) := by
  fun_induction feedOf v with
  | case1 number => exact .pure (feedKeepsTo_listFeed number)
  | case2 number => exact .pure (feedKeepsTo_iteratorFeed number)
  | case3 number =>
      exact (keepsTo_openStreamAt number .start).bind fun _ _ =>
        .pure (feedKeepsTo_streamFeed number)
  | case4 items inductionHypothesis => exact inductionHypothesis
  | case5 v _ _ _ _ =>
      exact (KeepsTo.ofOption v.parts?).bind fun items _ => .pure (feedKeepsTo_ofList items)

theorem keepsTo_parts (v : Value) : KeepsTo R (parts v) AnyResult :=
  (keepsTo_feedOf v).bind fun _ next => keepsTo_toList next

theorem keepsTo_entriesOf (v : Value) : KeepsTo R (entriesOf v) AnyResult := by
  unfold entriesOf
  split
  · exact .done
  · refine (keepsTo_feedOf v).bind fun feed next => ?_
    refine (keepsTo_fold next ?_ _).bind fun _ _ => .done
    intro sofar entry
    refine (keepsTo_parts entry).bind fun items _ => ?_
    exact (KeepsTo.ofExcept _).bind fun _ _ => .done

end Feeds

/-! ## Literals -/

private theorem keepsTo_requirePlace (arguments : List Value) :
    KeepsTo R (requirePlace arguments) AnyResult := by
  unfold requirePlace
  split
  · refine (keepsTo_parts _).bind fun details _ => ?_
    dsimp only
    split
    · exact .fail _
    · exact .done
  · exact .done

theorem keepsTo_newThrown (kind : FaultKind) (arguments : List Value) :
    KeepsTo R (newThrown kind arguments) AnyResult := by
  unfold newThrown
  split
  · refine (keepsTo_observe _).bind fun error _ => (KeepsTo.ofExcept _).bind fun text _ => ?_
    exact keepsTo_newNumber.bind fun _ _ => .done
  -- Errors of devices, and then all kinds that take any arguments; the rest refuse theirs.
  case h_9 => exact keepsTo_newNumber.bind fun _ _ => .done
  case h_10 =>
    have numbered : KeepsTo R (do return (⟨← newNumber, kind, arguments, none⟩ : Thrown Value))
        AnyResult := keepsTo_newNumber.bind fun _ _ => .done
    split
    · exact (keepsTo_requirePlace arguments).bind fun _ _ => numbered
    · exact numbered
  all_goals exact .fail _

mutual

/-- The value of a literal is made within every frame. -/
theorem keepsTo_build : (literal : Literal) → KeepsTo R literal.build AnyResult
  | .scalar s => .done
  | .list items => (keepsTo_buildItems items).bind fun _ _ => keepsTo_newList _
  | .tuple items => (keepsTo_buildItems items).bind fun _ _ => .done
  | .set items =>
      (keepsTo_buildItems items).bind fun _ _ => (KeepsTo.ofExcept _).bind fun _ _ => .done
  | .frozenSet items =>
      (keepsTo_buildItems items).bind fun _ _ => (KeepsTo.ofExcept _).bind fun _ _ => .done
  | .dictionary entries =>
      (keepsTo_buildEntries entries).bind fun _ _ => (KeepsTo.ofExcept _).bind fun _ _ => .done
  | .some v => (keepsTo_build v).bind fun _ _ => .done
  | .notOk kind => .done
  | .left v kind => (keepsTo_build v).bind fun _ _ => .done
  | .right v kind => (keepsTo_build v).bind fun _ _ => .done
  | .pair v w => (keepsTo_build v).bind fun _ _ => (keepsTo_build w).bind fun _ _ => .done
  | .sequence items => (keepsTo_buildItems items).bind fun _ _ => .done
  | .managed holder basic => (keepsTo_build basic).bind fun _ _ => .done
  | .thrown kind argument =>
      (keepsTo_build argument).bind fun _ _ => (keepsTo_newThrown kind _).bind fun _ _ => .done
  | .client users failing => (keepsTo_build users).bind fun _ _ => keepsTo_newClient _ _
  | .bareOption => keepsTo_newNumber.bind fun _ _ => .done
  | .bareEither => keepsTo_newNumber.bind fun _ _ => .done
  | .variable name => by
      refine keepsTo_get.bind fun world _ => ?_
      split
      · exact .done
      · exact .fail _
  | .iterator items => (keepsTo_buildItems items).bind fun _ _ => keepsTo_newIterator _
  | .stream name => keepsTo_streamOf name
  | .malformed => .fail _
  | .const v => keepsTo_newFunction _
  | .fail kind argument => keepsTo_newFunction _
  | .first => keepsTo_newFunction _
  | .second => keepsTo_newFunction _
  | .unary rule => keepsTo_newFunction _
  | .binary rule fixed => keepsTo_newFunction _
  | .compose functions => keepsTo_newFunction _
  | .choose condition yes no => keepsTo_newFunction _
  | .operation named rest => keepsTo_newFunction _

theorem keepsTo_buildItems : (items : List Literal) → KeepsTo R (Literal.buildItems items) AnyResult
  | [] => .done
  | item :: rest =>
      (keepsTo_build item).bind fun _ _ => (keepsTo_buildItems rest).bind fun _ _ => .done

theorem keepsTo_buildEntries : (entries : List (Literal × Literal)) →
    KeepsTo R (Literal.buildEntries entries) AnyResult
  | [] => .done
  | (key, v) :: rest =>
      (keepsTo_build key).bind fun _ _ => (keepsTo_build v).bind fun _ _ =>
        (keepsTo_buildEntries rest).bind fun _ _ => .done

end

theorem keepsTo_buildArgument (literal : Literal) (place : Nat) :
    KeepsTo R (literal.buildArgument place) AnyResult := by
  refine (keepsTo_build literal).bind fun v _ => ?_
  split
  · exact keepsTo_newFunction _
  · exact .done

/-! ## Values rebuilt -/

/-- Rules for lists that keep to a frame. -/
structure ListRule.KeepsTo (R : World → World → Prop) (rule : ListRule (Attempt (StateM World))) :
    Prop where
  onHandle : ∀ number, Session.KeepsTo R (rule.onHandle number) AnyResult
  onList : ∀ items, Session.KeepsTo R (rule.onList items) AnyResult
  onContainer : ∀ items, Session.KeepsTo R (rule.onContainer items) AnyResult

section Rebuild

variable {rule : ListRule (Attempt (StateM World))}

mutual

theorem keepsTo_rebuild (keeps : rule.KeepsTo R) :
    (v : Value) → KeepsTo R (rebuild rule v) AnyResult
  | .scalar s => by
      cases s with
      | handle h =>
          obtain ⟨sort, number⟩ := h
          cases sort with
          | growing => exact keeps.onHandle number
          | _ => exact .done
      | _ => exact .done
  | .list items => (keepsTo_rebuildItems keeps items).bind fun rebuilt _ => keeps.onList rebuilt
  | .tuple items => (keepsTo_rebuildItems keeps items).bind fun _ _ => .done
  | .set items => (keepsTo_rebuildItems keeps items).bind fun _ _ => .done
  | .frozenSet items => (keepsTo_rebuildItems keeps items).bind fun _ _ => .done
  | .dictionary entries => (keepsTo_rebuildEntries keeps entries).bind fun _ _ => .done
  | .option (.ok v) => (keepsTo_rebuild keeps v).bind fun _ _ => .done
  | .option (.notOk kind) => (keepsTo_rebuild keeps kind).bind fun _ _ => .done
  | .either (.left v kind) =>
      (keepsTo_rebuild keeps v).bind fun _ _ => (keepsTo_rebuild keeps kind).bind fun _ _ => .done
  | .either (.right v kind) =>
      (keepsTo_rebuild keeps v).bind fun _ _ => (keepsTo_rebuild keeps kind).bind fun _ _ => .done
  | .pair ⟨v, w⟩ =>
      (keepsTo_rebuild keeps v).bind fun _ _ => (keepsTo_rebuild keeps w).bind fun _ _ => .done
  | .sequence ⟨items⟩ => (keepsTo_rebuild keeps items).bind fun rebuilt _ =>
      (keeps.onContainer rebuilt).bind fun _ _ => .done
  | .managed ⟨_, basic⟩ => (keepsTo_rebuild keeps basic).bind fun _ _ => .done
  | .guarded ⟨v⟩ => (keepsTo_rebuild keeps v).bind fun _ _ => .done
  | .deferred ⟨f⟩ => (keepsTo_rebuild keeps f).bind fun _ _ => .done
  | .ternary ⟨condition, v, none⟩ =>
      (keepsTo_rebuild keeps condition).bind fun _ _ =>
        (keepsTo_rebuild keeps v).bind fun _ _ => .done
  | .ternary ⟨condition, v, some f⟩ =>
      (keepsTo_rebuild keeps condition).bind fun _ _ => (keepsTo_rebuild keeps v).bind fun _ _ =>
        (keepsTo_rebuild keeps f).bind fun _ _ => .done
  | .parseError ⟨input, reason, fallback⟩ =>
      (keepsTo_rebuild keeps input).bind fun _ _ => (keepsTo_rebuild keeps reason).bind fun _ _ =>
        (keepsTo_rebuild keeps fallback).bind fun _ _ => .done
  | .thrown ⟨_, _, arguments, none⟩ => (keepsTo_rebuildItems keeps arguments).bind fun _ _ => .done
  | .thrown ⟨_, _, arguments, some v⟩ =>
      (keepsTo_rebuildItems keeps arguments).bind fun _ _ =>
        (keepsTo_rebuild keeps v).bind fun _ _ => .done
  | .client ⟨_, users, failing⟩ =>
      (keepsTo_rebuild keeps users).bind fun _ _ =>
        (keepsTo_rebuild keeps failing).bind fun _ _ => .done

theorem keepsTo_rebuildItems (keeps : rule.KeepsTo R) : (items : List Value) →
    KeepsTo R (rebuildItems rule items) AnyResult
  | [] => .done
  | item :: rest =>
      (keepsTo_rebuild keeps item).bind fun _ _ =>
        (keepsTo_rebuildItems keeps rest).bind fun _ _ => .done

theorem keepsTo_rebuildEntries (keeps : rule.KeepsTo R) :
    (entries : List (Value × Value)) → KeepsTo R (rebuildEntries rule entries) AnyResult
  | [] => .done
  | (key, v) :: rest =>
      (keepsTo_rebuild keeps key).bind fun _ _ => (keepsTo_rebuild keeps v).bind fun _ _ =>
        (keepsTo_rebuildEntries keeps rest).bind fun _ _ => .done

end

end Rebuild

theorem keepsTo_keep (v : Value) : KeepsTo R (keep v) AnyResult :=
  keepsTo_rebuild ⟨fun _ => .done, keepsTo_newList, fun _ => .done⟩ v

private theorem keepsTo_tellTo (depth : Nat) (around : List Nat) (v : Value) :
    KeepsTo R (tellTo depth around v) AnyResult := by
  induction depth generalizing around v with
  | zero => exact .fail .tooDeep
  | succ depth inductionHypothesis =>
      refine keepsTo_rebuild ⟨fun number => ?_, fun _ => .done, fun items => ?_⟩ v
      · dsimp only
        split
        · exact .fail .tooDeep
        · exact (keepsTo_listAt number).bind fun items _ =>
            (KeepsTo.mapM (inductionHypothesis _) items).bind fun _ _ => .done
      · dsimp only
        split
        · exact .done
        · exact (keepsTo_parts items).bind fun parts _ =>
            (KeepsTo.mapM (inductionHypothesis _) parts).bind fun _ _ => .done

theorem keepsTo_tell (v : Value) : KeepsTo R (tell v) AnyResult :=
  keepsTo_get.bind fun _ _ => (keepsTo_tellTo _ _ v).bind fun _ _ =>
    (KeepsTo.ofExcept _).bind fun _ _ => .done

/-! ## Quiet computations -/

/-- The loggers, the surroundings and the console are the same, and the streams hold what they
held. -/
structure Quiet (before after : World) : Prop where
  loggers : after.store.loggers = before.store.loggers
  environment : after.environment = before.environment
  now : after.now = before.now
  console : after.console = before.console
  streams : ∀ said, before.store.Holds said → after.store.Holds said

theorem Quiet.refl (world : World) : Quiet world world := ⟨rfl, rfl, rfl, rfl, fun _ holds => holds⟩

/-- No line is left in streams that stand at their ends, so that none is read. -/
instance : Frame Quiet where
  refl := Quiet.refl
  trans first second := ⟨second.loggers.trans first.loggers,
    second.environment.trans first.environment, second.now.trans first.now,
    second.console.trans first.console,
    fun said holds => second.streams said (first.streams said holds)⟩
  change _ _ loggers streams _ :=
    ⟨loggers, rfl, rfl, rfl, fun _ holds => holds.of_streams_eq streams⟩
  named _ _ fresh := ⟨rfl, rfl, rfl, rfl, fun _ holds => holds.push fresh⟩
  read _ _ _ _ next := ⟨rfl, rfl, rfl, rfl, fun _ holds => by
    rw [holds.nextLine?] at next
    cases next⟩

/-- From every world a computation leads to a quiet one, and its result is as it should be. -/
abbrev Quietly {α : Type} (body : Run α) (fine : α → Prop) : Prop := KeepsTo Quiet body fine

end Presence.Session
