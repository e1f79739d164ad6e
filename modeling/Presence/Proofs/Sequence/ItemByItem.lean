import Mathlib.Data.List.Forall2
import Presence.Proofs.Sequence.Pipeline

/-!
Contract: what a pipeline of functions gives whose answers depend on nothing but their arguments.

Owns: `Answers`, computations that have the same answer from every state; that a pipeline gives for
all items together what it gives for each of them by itself (`chain_eq_sweep`,
`pipeline_item_by_item`), which makes stages fuse, pipelines distribute over longer sequences, and
folds of the result folds of the items.

Does not own: the order of the calls (`Presence.Proofs.Sequence.Pipeline`), which is another one:
all items go through a stage before any goes through the next one.
-/

namespace Presence

open Calls Session

variable {σ α β γ : Type}

/-! ## Answers -/

/-- The answer of a computation, if it has one. -/
def Attempt.answer? (body : Attempt (StateM σ) α) (start : σ) : Option α :=
  (body.runFrom start).1.toOption

/-- A computation has the same answer from every state, or none from any. -/
def Answers (body : Attempt (StateM σ) α) (answer : Option α) : Prop :=
  ∀ start, body.answer? start = answer

namespace Answers

theorem pure (a : α) : Answers (pure a : Attempt (StateM σ) α) (some a) := fun _ => rfl

theorem bind {first : Attempt (StateM σ) α} {next : α → Attempt (StateM σ) β}
    {answer : Option α} {later : α → Option β} (begins : Answers first answer)
    (goesOn : ∀ a, Answers (next a) (later a)) : Answers (first >>= next) (answer >>= later) := by
  intro start
  have began := begins start
  unfold Attempt.answer? at began ⊢
  rcases ended : first.runFrom start with ⟨fault | a, middle⟩
  · rw [ended] at began
    rw [Attempt.runFrom_bind_of_error _ ended, ← began]
    rfl
  · rw [ended] at began
    rw [Attempt.runFrom_bind_of_ok _ ended, ← began]
    exact goesOn a middle

private theorem mapM {f : α → Attempt (StateM σ) β} {answer : α → Option β}
    (each : ∀ item, Answers (f item) (answer item)) (items : List α) :
    Answers (items.mapM f) (items.mapM answer) := by
  induction items with
  | nil => exact .pure []
  | cons item rest inductionHypothesis =>
      rw [List.mapM_cons, List.mapM_cons]
      exact (each item).bind fun _ => inductionHypothesis.bind fun _ => .pure _

theorem sweep {gives : α → Attempt (StateM σ) (List β)} {answer : α → Option (List β)}
    (each : ∀ item, Answers (gives item) (answer item)) (items : List α) :
    Answers (sweep gives items) (sweep answer items) :=
  (mapM each items).bind fun passed => .pure passed.flatten

private theorem foldlM {step : β → α → Attempt (StateM σ) β} {answer : β → α → Option β}
    (each : ∀ sofar item, Answers (step sofar item) (answer sofar item)) (items : List α)
    (initial : β) : Answers (items.foldlM step initial) (items.foldlM answer initial) := by
  induction items generalizing initial with
  | nil => exact .pure initial
  | cons item rest inductionHypothesis =>
      rw [List.foldlM_cons, List.foldlM_cons]
      exact (each initial item).bind fun _ => inductionHypothesis _

end Answers

/-! ## Sweeps of answers -/

/-- What is passed on for all items goes through another sweep as it would item by item. -/
theorem sweep_sweep (first : α → Option (List β)) (second : β → Option (List γ)) (items : List α) :
    (sweep first items >>= sweep second) =
      sweep (fun item => first item >>= sweep second) items := by
  induction items with
  | nil => rfl
  | cons item rest inductionHypothesis =>
      rw [sweep_cons, sweep_cons, ← inductionHypothesis]
      cases first item with
      | none => rfl
      | some passed =>
          cases sweep first rest with
          | none => cases some passed >>= sweep second <;> rfl
          | some others => exact sweep_append second passed others

/-- Folding what is passed on for all items is folding, for each item, what is passed on for it. -/
private theorem foldl_sweep (gives : α → Option (List β)) (step : γ → β → γ) (items : List α)
    (initial : γ) :
    (sweep gives items).map (List.foldl step initial) =
      items.foldlM (fun sofar item => (gives item).map (List.foldl step sofar)) initial := by
  induction items generalizing initial with
  | nil => rfl
  | cons item rest inductionHypothesis =>
      rw [sweep_cons, List.foldlM_cons]
      cases gives item with
      | none => rfl
      | some passed =>
          show _ = List.foldlM _ (passed.foldl step initial) rest
          rw [← inductionHypothesis]
          cases sweep gives rest with
          | none => rfl
          | some others => exact congrArg some List.foldl_append

namespace Sequence

/-! ## Chains of answers -/

/-- The items that are left after some stages, by what each stage passes on for an item. -/
def chain (outcomes : List (Value → Option (List Value))) (items : List Value) :
    Option (List Value) :=
  outcomes.foldlM (fun items outcome => sweep outcome items) items

private theorem sweep_some_single (items : List α) :
    sweep (fun item => some [item]) items = some items := by
  induction items with
  | nil => rfl
  | cons item rest inductionHypothesis =>
      rw [sweep_cons, inductionHypothesis]
      rfl

/-- The stages are gone through by all items together; what is left of them is what is left of each
of them by itself. -/
theorem chain_eq_sweep (outcomes : List (Value → Option (List Value))) (items : List Value) :
    chain outcomes items = sweep (fun x => chain outcomes [x]) items := by
  induction outcomes generalizing items with
  | nil => exact (sweep_some_single items).symm
  -- The later stages go item by item through what the first one passes on.
  | cons outcome outcomes inductionHypothesis =>
      have whole (items : List Value) :
          chain (outcome :: outcomes) items = sweep outcome items >>= chain outcomes := rfl
      have later : chain outcomes = sweep fun x => chain outcomes [x] :=
        funext inductionHypothesis
      have alone (x : Value) : sweep outcome [x] = outcome x := by
        cases given : outcome x <;> simp [sweep, given]
      simp only [whole, alone]
      rw [later, sweep_sweep]

private theorem chain_append (outcomes : List (Value → Option (List Value)))
    (front back : List Value) :
    chain outcomes (front ++ back) = do
      let first ← chain outcomes front
      let others ← chain outcomes back
      return first ++ others := by
  rw [chain_eq_sweep, chain_eq_sweep outcomes front, chain_eq_sweep outcomes back, sweep_append]

/-! ## Stages whose answers depend on the item alone -/

/-- What a stage passes on for an item depends on the item alone, and so does whether it fails. -/
def Stage.Determined (read : Reading (StateM σ)) (stage : Stage (StateM σ)) : Prop :=
  ∃ outcome : Value → Option (List Value), ∀ x, Answers (stage.gives read x) (outcome x)

private theorem answers_leaving (sort : StageSort) {body : Attempt (StateM σ) α} {answer : Option α}
    (answers : Answers body answer) : Answers (sort.leaving body) answer := by
  intro start
  have answered := answers start
  unfold Attempt.answer? at answered ⊢
  rcases ended : body.runFrom start with ⟨outcome, after⟩
  rw [ended] at answered
  rw [runFrom_leaving sort ended, ← answered]
  cases outcome <;> rfl

private theorem answers_run {read : Reading (StateM σ)} {stage : Stage (StateM σ)}
    {outcome : Value → Option (List Value)}
    (given : ∀ x, Answers (stage.gives read x) (outcome x)) (s : Sequence (List Value)) :
    Answers (stage.run read s) (Sequence.mk <$> sweep outcome s.items) := by
  rw [run_eq, ← bind_pure_comp]
  exact (answers_leaving stage.sort (.sweep given s.items)).bind fun _ => .pure _

/-- What stages give that are determined is what the chain of their outcomes gives. -/
def Gives (read : Reading (StateM σ)) (stages : List (Stage (StateM σ)))
    (outcomes : List (Value → Option (List Value))) : Prop :=
  List.Forall₂ (fun stage outcome => ∀ x, Answers (stage.gives read x) (outcome x)) stages outcomes

theorem exists_gives {read : Reading (StateM σ)} {stages : List (Stage (StateM σ))}
    (determined : ∀ stage ∈ stages, stage.Determined read) :
    ∃ outcomes, Gives read stages outcomes := by
  induction stages with
  | nil => exact ⟨[], .nil⟩
  | cons stage stages inductionHypothesis =>
      rw [List.forall_mem_cons] at determined
      obtain ⟨outcome, given⟩ := determined.1
      obtain ⟨outcomes, gives⟩ := inductionHypothesis determined.2
      exact ⟨outcome :: outcomes, .cons given gives⟩

theorem Gives.answers {read : Reading (StateM σ)} {stages : List (Stage (StateM σ))}
    {outcomes : List (Value → Option (List Value))} (gives : Gives read stages outcomes)
    (s : Sequence (List Value)) :
    Answers (pipeline read stages s) (Sequence.mk <$> chain outcomes s.items) := by
  induction gives generalizing s with
  | nil => exact .pure s
  | @cons stage outcome stages outcomes given _ inductionHypothesis =>
      rw [pipeline_cons]
      have whole : Sequence.mk <$> chain (outcome :: outcomes) s.items =
          (Sequence.mk <$> sweep outcome s.items) >>= fun passed =>
            Sequence.mk <$> chain outcomes passed.items := by
        show Sequence.mk <$> (sweep outcome s.items >>= chain outcomes) = _
        cases sweep outcome s.items <;> rfl
      rw [whole]
      exact (answers_run given s).bind inductionHypothesis

section Determined

variable {read : Reading (StateM σ)} {stages : List (Stage (StateM σ))}
  (determined : ∀ stage ∈ stages, stage.Determined read) (s : Sequence (List Value))

include determined

/-- What a pipeline gives is what it gives for the items one by one, put together. -/
theorem answer?_pipeline (start : σ) (apart : Value → σ) :
    (pipeline read stages s).answer? start = do
      let passed ← s.items.mapM fun x =>
        Sequence.items <$> (pipeline read stages ⟨[x]⟩).answer? (apart x)
      return ⟨passed.flatten⟩ := by
  obtain ⟨outcomes, gives⟩ := exists_gives determined
  have alone (x : Value) : Sequence.items <$> (pipeline read stages ⟨[x]⟩).answer? (apart x) =
      chain outcomes [x] := by
    rw [gives.answers ⟨[x]⟩]
    cases chain outcomes [x] <;> rfl
  simp only [gives.answers s start, alone]
  rw [chain_eq_sweep, sweep]
  cases s.items.mapM fun x => chain outcomes [x] <;> rfl

/-- What a pipeline gives for a longer sequence is what it gives for its two parts. -/
theorem answer?_pipeline_extend (others : List Value) (start first second : σ) :
    (pipeline read stages (s.extend others)).answer? start = do
      let front ← (pipeline read stages s).answer? first
      let back ← (pipeline read stages ⟨others⟩).answer? second
      return front.extend back.items := by
  obtain ⟨outcomes, gives⟩ := exists_gives determined
  rw [gives.answers, gives.answers, gives.answers, extend, chain_append]
  cases chain outcomes s.items <;> cases chain outcomes others <;> rfl

/-- Folding what a pipeline gives is folding over the items what it gives for each. -/
theorem answer?_pipeline_fold {g : β → Value → Attempt (StateM σ) β} {step : β → Value → β}
    (steps : ∀ sofar x, Answers (g sofar x) (some (step sofar x))) (initial : β)
    (start other : σ) :
    (pipeline read stages s >>= fun passed => passed.fold initial g).answer? start =
      (s.fold initial fun sofar x => do
        (← pipeline read stages ⟨[x]⟩).fold sofar g).answer? other := by
  obtain ⟨outcomes, gives⟩ := exists_gives determined
  have folded (t : Sequence (List Value)) (sofar : β) :
      Answers (t.fold sofar g) (some (t.items.foldl step sofar)) := by
    have once := Answers.foldlM steps t.items sofar
    have total : t.items.foldlM (fun sofar x => some (step sofar x)) sofar =
        some (t.items.foldl step sofar) := List.foldlM_pure
    rw [total] at once
    rw [fold, feed, Feed.fold_ofList]
    exact once
  have whole : Answers (pipeline read stages s >>= fun passed => passed.fold initial g)
      ((chain outcomes s.items).map (List.foldl step initial)) := by
    have both := (gives.answers s).bind fun passed => folded passed initial
    cases left : chain outcomes s.items <;> rw [left] at both <;> exact both
  have each (sofar : β) (x : Value) :
      Answers (do (← pipeline read stages ⟨[x]⟩).fold sofar g)
        ((chain outcomes [x]).map (List.foldl step sofar)) := by
    have both := (gives.answers ⟨[x]⟩).bind fun passed => folded passed sofar
    cases left : chain outcomes [x] <;> rw [left] at both <;> exact both
  -- On the other side the pipeline is run anew inside each step, on one item.
  have apart := Answers.foldlM each s.items initial
  rw [← Feed.fold_ofList] at apart
  rw [whole start, chain_eq_sweep, foldl_sweep]
  exact (apart other).symm

end Determined

/-! ## Stages that fuse -/

/-- Two functions that are mapped one after the other may be mapped as one. -/
theorem answer?_pipeline_fused {read : Reading (StateM σ)}
    {before after : List (Stage (StateM σ))} {f g : Value → Attempt (StateM σ) Value}
    (determined : ∀ stage ∈ before ++ ⟨.map, f⟩ :: ⟨.map, g⟩ :: after, stage.Determined read)
    (s : Sequence (List Value)) (start other : σ) :
    (pipeline read (before ++ ⟨.map, f⟩ :: ⟨.map, g⟩ :: after) s).answer? start =
      (pipeline read (before ++ ⟨.map, fun x => do g (← f x)⟩ :: after) s).answer? other := by
  simp only [List.forall_mem_append, List.forall_mem_cons] at determined
  obtain ⟨isBefore, ⟨first, givenFirst⟩, ⟨second, givenSecond⟩, isAfter⟩ := determined
  obtain ⟨front, givesFront⟩ := exists_gives isBefore
  obtain ⟨back, givesBack⟩ := exists_gives isAfter
  have givenBoth (x : Value) : Answers (Stage.gives read ⟨.map, fun x => do g (← f x)⟩ x)
      (first x >>= sweep second) := by
    have inTurn : Stage.gives read ⟨.map, fun x => do g (← f x)⟩ x =
        (do sweep (Stage.gives read ⟨.map, g⟩) (← Stage.gives read ⟨.map, f⟩ x)) := by
      simp [Stage.gives, StageSort.passesOn, sweep]
    rw [inTurn]
    exact (givenFirst x).bind (.sweep givenSecond)
  have apart : Gives read (before ++ ⟨.map, f⟩ :: ⟨.map, g⟩ :: after)
      (front ++ first :: second :: back) :=
    List.rel_append givesFront (.cons givenFirst (.cons givenSecond givesBack))
  have fused : Gives read (before ++ ⟨.map, fun x => do g (← f x)⟩ :: after)
      (front ++ (fun x => first x >>= sweep second) :: back) :=
    List.rel_append givesFront (.cons givenBoth givesBack)
  have sameChain : chain (front ++ first :: second :: back) s.items =
      chain (front ++ (fun x => first x >>= sweep second) :: back) s.items := by
    unfold chain
    rw [List.foldlM_append, List.foldlM_append]
    refine bind_congr fun items => ?_
    rw [List.foldlM_cons, List.foldlM_cons, ← sweep_sweep, bind_assoc]
    rfl
  rw [apart.answers s start, fused.answers s other, sameChain]

/-! ## All pipelines -/

/-- Whatever the functions of the stages are, a pipeline makes the calls that unfold from the items:
all calls of a stage, in the order of the items, before any of the next stage. A call that fails is
the last one, and its fault is the outcome unless it is the end of an iteration.

If what each stage passes on for an item depends on the item alone, the pipeline gives for all items
what it gives for each of them by itself, put together, and nothing if it gives nothing for one of
them. Hence it gives for a longer sequence what it gives for its parts, two functions that are
mapped one after the other may be mapped as one, and folding the result is folding the items with
what the pipeline gives for each. What a session does to a sequence with one operation after the
other is a pipeline. -/
theorem pipeline_item_by_item (read : Reading (StateM σ)) :
    (∀ (f : Nat × Value → Attempt (StateM σ) Value) (sorts : List StageSort)
      (s : Sequence (List Value)) (start : σ), ∃ calls outcome after,
      (pipeline read.beside (stagesFrom (recorded f) 0 sorts) s).runFrom ⟨start, []⟩ =
          (outcome, ⟨after, calls⟩) ∧
        (pipeline read (stagesFrom f 0 sorts) s).runFrom start = (outcome, after) ∧
        Unfolds read f 0 sorts s.items start calls (outcome.map Sequence.items) after ∧
        (calls.Pairwise fun call next => call.argument.1 ≤ next.argument.1) ∧
        ∀ call ∈ calls, ∀ fault, call.outcome = .error fault →
          calls.getLast? = some call ∧
            (fault.kind ≠ .stopIteration → outcome = .error fault)) ∧
    (∀ stages : List (Stage (StateM σ)), (∀ stage ∈ stages, stage.Determined read) →
      ∀ (s : Sequence (List Value)) (start : σ),
        (∀ apart : Value → σ, (pipeline read stages s).answer? start = do
          let passed ← s.items.mapM fun x =>
            Sequence.items <$> (pipeline read stages ⟨[x]⟩).answer? (apart x)
          return ⟨passed.flatten⟩) ∧
        (∀ (others : List Value) (first second : σ),
          (pipeline read stages (s.extend others)).answer? start = do
            let front ← (pipeline read stages s).answer? first
            let back ← (pipeline read stages ⟨others⟩).answer? second
            return front.extend back.items) ∧
        (∀ (before after : List (Stage (StateM σ))) (f g : Value → Attempt (StateM σ) Value),
          stages = before ++ ⟨.map, f⟩ :: ⟨.map, g⟩ :: after → ∀ other,
            (pipeline read stages s).answer? start =
              (pipeline read (before ++ ⟨.map, fun x => do g (← f x)⟩ :: after) s).answer? other) ∧
        ∀ (β : Type) (g : β → Value → Attempt (StateM σ) β) (step : β → Value → β),
          (∀ sofar x, Answers (g sofar x) (some (step sofar x))) → ∀ (initial : β) (other : σ),
            (pipeline read stages s >>= fun passed => passed.fold initial g).answer? start =
              (s.fold initial fun sofar x => do
                (← pipeline read stages ⟨[x]⟩).fold sofar g).answer? other) ∧
    ∀ (call : Caller) (stages : List (StageSort × Value)) (s : Sequence (List Value)),
      performAll call stages (.ofSequence s) = (do
        return .ofSequence (← pipeline inSession
          (stages.map fun stage => ⟨stage.1, fun x => call stage.2 [x]⟩) s)) := by
  refine ⟨?_, ?_, performAll_eq⟩
  · intro f sorts s start
    obtain ⟨calls, outcome, after, ran, plain, unfolds⟩ :=
      runFrom_pipeline read f sorts 0 s start []
    rw [List.nil_append] at ran
    refine ⟨calls, outcome, after, ran, plain, unfolds, unfolds.ordered.2, ?_⟩
    intro call member fault fails
    obtain ⟨isLast, ended⟩ := unfolds.failed call member fault fails
    refine ⟨isLast, fun goesOn => ?_⟩
    have isFault := ended goesOn
    cases outcome with
    | error other => exact congrArg Except.error (Except.error.inj isFault)
    | ok s => cases isFault
  · intro stages determined s start
    refine ⟨fun apart => answer?_pipeline determined s start apart,
      fun others first second => answer?_pipeline_extend determined s others start first second,
      ?_, fun β g step steps initial other =>
        answer?_pipeline_fold determined s steps initial start other⟩
    rintro before after f g rfl other
    exact answer?_pipeline_fused determined s start other

/-- Values as they are read that no session keeps. -/
def Reading.plain : Reading (StateM Unit) where
  truth v := Attempt.ofOption v.truthy?
  parts v := Attempt.ofOption v.parts?

/-- Each item twice, and then only those that count as true. -/
def doubledTrue : List (Stage (StateM Unit)) :=
  [⟨.flatMap, fun x => pure (.list [x, x])⟩, ⟨.keepIf, pure⟩]

/-- Going through the stages together is going through them item by item. -/
theorem pipeline_item_by_item_doubled :
    (∀ stage ∈ doubledTrue, stage.Determined Reading.plain) ∧
    (pipeline Reading.plain doubledTrue ⟨[.int 1, .int 0, .text "a"]⟩).answer? () =
      some ⟨[.int 1, .int 1, .text "a", .text "a"]⟩ := by
  have determined : ∀ stage ∈ doubledTrue, stage.Determined Reading.plain := by
    intro stage member
    rcases List.mem_pair.mp member with rfl | rfl
    · exact ⟨fun x => some [x, x], fun x start => rfl⟩
    · refine ⟨fun x => x.truthy?.map fun passes => if passes then [x] else [], fun x start => ?_⟩
      show ((do return if ← Attempt.ofOption x.truthy? then [x] else [] :
        Attempt (StateM Unit) (List Value)).runFrom start).1.toOption =
          x.truthy?.map fun passes => if passes then [x] else []
      cases x.truthy? <;> rfl
  refine ⟨determined, ?_⟩
  obtain ⟨-, itemByItem, -⟩ := pipeline_item_by_item Reading.plain
  rw [(itemByItem doubledTrue determined ⟨[.int 1, .int 0, .text "a"]⟩ ()).1 fun _ => ()]
  rfl

end Sequence

end Presence
