import Presence.Proofs.Logger.Steps

/-!
Contract: what loggers write in a run of steps.

Owns: `World.record?`, the channel and the line of a call; `recordOf?` and `recordsOf`, those of a
step and of a run; `textOn`, the text of records on a channel; `text_of_run`.

Does not own: the levels of loggers in a run (`Presence.Proofs.Logger.Levels`).

A run is followed by what each stream has been told under its name (`Store.Holds`) and by thresholds
that are numbers of levels (`Levelled`).
-/

namespace Presence.Session

open Attempt Run

/-! ## Calls -/

/-- Whether a level reaches the threshold of a logger, where that is a whole number. -/
def reaches (level : Level) (l : Logger) : Bool :=
  match l.threshold with
  | .int n => n ≤ level.number
  | _ => false

private theorem lessOrSame_ofInt (a b : Int) :
    (Extended.ofInt a).lessOrSame (Extended.ofInt b) = decide (a ≤ b) := by
  have less : Rat.blt (a : Rat) (b : Rat) = true ↔ a < b := by
    rw [← Rat.intCast_lt_intCast]
    rfl
  have same : ((a : Rat) == (b : Rat)) = true ↔ a = b := by rw [beq_iff_eq, Rat.intCast_inj]
  rw [Bool.eq_iff_iff, Extended.lessOrSame, Bool.or_eq_true, decide_eq_true_eq]
  show Rat.blt (a : Rat) (b : Rat) = true ∨ ((a : Rat) == (b : Rat)) = true ↔ _
  rw [less, same]
  omega

theorem passes_of_int {l : Logger} {n : Int} (isInt : l.threshold = .int n) (level : Level) :
    l.passes level = .ok (decide (n ≤ level.number)) := by
  unfold Logger.passes
  rw [isInt]
  simp only [Value.compare?, Scalar.compare?, Scalar.real?, Comparison.reals, lessOrSame_ofInt]

/-- The channel and the line of a call that writes a message: the level must reach the threshold,
the message must have a line, and the sink must lead somewhere. -/
def World.record? (world : World) (level : Level) (arguments : List Value)
    (keywords : Keywords) : Option (Channel × List Char) :=
  match world.asked? arguments keywords with
  | some (l, message, fields) =>
      if reaches level l then
        match world.lineOf l level message fields, world.store.channelOf? l.sink with
        | .ok line, some channel => some (channel, line)
        | _, _ => none
      else none
  | none => none

/-- The text of records on a channel: the lines of that channel, in their order. -/
def textOn (channel : Channel) (records : List (Channel × List Char)) : List Char :=
  records.flatMap fun record => if channel = record.1 then record.2 ++ ['\n'] else []

/-- What a call leaves: what it writes is its record, and the surroundings are the same. -/
structure Leaves (before after : World) (record : Option (Channel × List Char)) : Prop where
  console : ∀ channel, after.console.on channel =
    before.console.on channel ++ textOn channel record.toList
  streams : ∀ said, before.store.Holds said →
    after.store.Holds fun name => said name ++ textOn (.named name) record.toList

theorem Leaves.of_quiet {before after : World} (quiet : Quiet before after) :
    Leaves before after none := by
  refine ⟨?_, ?_⟩
  · intro channel
    rw [quiet.console]
    exact (List.append_nil _).symm
  · intro said holds
    simpa [textOn] using quiet.streams said holds

private theorem leaves_written {world : World} {sink : Value} {channel : Channel}
    (leads : world.store.channelOf? sink = some channel) (line : List Char) :
    Leaves world (world.written sink channel line) (some (channel, line)) := by
  refine ⟨?_, ?_⟩
  · intro other
    simpa [textOn, World.written] using Console.on_writeLine world.console channel other line
  · intro said holds
    simpa [textOn, World.written] using holds.received leads line

/-- A call that writes a message, in a world in which thresholds are numbers of levels. -/
private theorem leaves_write {operation : LoggerOperation} {level : Level}
    (writes : operation.level? = some level) {world : World} (levelled : Levelled world)
    {said : String → List Char} (holds : world.store.Holds said) (arguments : List Value)
    (keywords : Keywords) :
    Leaves world ((performLogger operation arguments keywords).runFrom world).2
      (world.record? level arguments keywords) := by
  have same : Leaves world world none := .of_quiet (.refl world)
  rcases asked : world.asked? arguments keywords with _ | ⟨l, message, fields⟩
  · obtain ⟨fault, failed⟩ := runFrom_write_of_none writes asked
    rw [failed, World.record?, asked]
    exact same
  · obtain ⟨number, rest, rfl, found, _⟩ := asked?_eq_some asked
    obtain ⟨threshold, isInt⟩ := levelled l (Array.mem_of_getElem? found)
    rw [runFrom_write writes asked, passes_of_int isInt, World.record?, asked]
    simp only [reaches, isInt]
    by_cases passes : threshold.number ≤ level.number
    · simp only [passes, decide_true, if_true]
      rcases world.lineOf l level message fields with fault | line
      · exact same
      · rcases leads : world.store.channelOf? l.sink with _ | channel
        · simp only [snd_writeTo_return]
          exact .of_quiet (quiet_writeTo holds leads line)
        · simp only [runFrom_bind_of_ok _ (runFrom_writeTo leads line)]
          exact leaves_written leads line
    · simp only [passes, decide_false]
      exact same

private theorem leaves_withLoggers {before ready : World} (quiet : Quiet before ready)
    (loggers : Array Logger) : Leaves before (ready.withLoggers loggers) none := by
  obtain ⟨console, streams⟩ := Leaves.of_quiet quiet
  exact ⟨console, fun said holds => (streams said holds).of_streams_eq rfl⟩

/-- An operation that writes no message leaves no record. -/
private theorem leaves_of_alters {world after : World} {operation : LoggerOperation}
    {arguments : List Value} {keywords : Keywords} {outcome : Except Fault Value}
    (alters : Alters world arguments keywords operation (outcome, after)) :
    Leaves world after none := by
  cases alters with
  | fails fault quiet unset => exact .of_quiet quiet
  | tells asks plain => exact .of_quiet (.refl world)
  | makes quiet given known => exact leaves_withLoggers quiet _
  | binds alone found fields => exact leaves_withLoggers (.refl world) _
  | sets asked found => exact leaves_withLoggers (.refl world) _

private theorem Leaves.of_quiet_first {before ready after : World}
    {record : Option (Channel × List Char)}
    (quiet : Quiet before ready) (leaves : Leaves ready after record) :
    Leaves before after record := by
  refine ⟨?_, fun said holds => leaves.streams said (quiet.streams said holds)⟩
  intro channel
  rw [leaves.console, quiet.console]

/-! ## Runs -/

/-- The channel and the line of a step. -/
def recordOf? (step : Step) (world : World) : Option (Channel × List Char) :=
  match step.operation, step.made.runFrom world.fresh with
  | some (.logger operation), (.ok (arguments, keywords), ready) =>
      operation.level?.bind fun level => ready.record? level arguments keywords
  | _, _ => none

/-- The channels and the lines of steps, in the order of the steps. -/
def recordsOf : List Step → World → List (Channel × List Char)
  | [], _ => []
  | step :: rest, world =>
      (recordOf? step world).toList ++ recordsOf rest (runStep step world).2

/-- A step on loggers leaves its record. -/
private theorem leaves_runStep {step : Step} (isLogging : step.IsLogging) {world : World}
    (levelled : Levelled world) {said : String → List Char} (holds : world.store.Holds said) :
    Leaves world.fresh (runStep step world).2 (recordOf? step world) ∧
      (runStep step world).1.console = (runStep step world).2.console := by
  have isLevelled : Levelled world.fresh := levelled
  have comes := comesTo_runStep isLogging world
  generalize runStep step world = ended at comes
  cases comes with
  | stops isOperation made quiet =>
      rw [recordOf?, isOperation, made]
      exact ⟨.of_quiet quiet, rfl⟩
  | @performs operation arguments keywords ready after _ _ isOperation assignsNothing made quiet
      performed =>
      have leaves : Leaves ready after
          (operation.level?.bind fun level => ready.record? level arguments keywords) := by
        rcases writes : operation.level? with _ | level
        · have alters := alters_performLogger writes assignsNothing ready arguments keywords
          rw [performed] at alters
          exact leaves_of_alters alters
        · have written := leaves_write writes (isLevelled.of_quiet quiet)
            (quiet.streams said holds) arguments keywords
          rw [performed] at written
          exact written
      obtain ⟨console, streams⟩ := leaves.of_quiet_first quiet
      rw [recordOf?, isOperation, made]
      exact ⟨⟨console, streams⟩, rfl⟩

private theorem textOn_append (channel : Channel) (front back : List (Channel × List Char)) :
    textOn channel (front ++ back) = textOn channel front ++ textOn channel back :=
  List.flatMap_append

private theorem on_fresh (world : World) (channel : Channel) :
    world.fresh.console.on channel = [] := by
  cases channel <;> rfl

/-- The text of a run on each channel is that of its records, and each stream holds what it held
and the text under its name. -/
theorem text_runSteps {steps : List Step} (each : ∀ step ∈ steps, step.IsLogging) {world : World}
    (levelled : Levelled world) {said : String → List Char} (holds : world.store.Holds said) :
    (∀ channel, (runSteps steps world).1.flatMap (fun outcome => outcome.console.on channel) =
      textOn channel (recordsOf steps world)) ∧
    (runSteps steps world).2.store.Holds
      (fun name => said name ++ textOn (.named name) (recordsOf steps world)) ∧
    Levelled (runSteps steps world).2 := by
  -- The world of each step must be levelled, and its streams at their ends, for the step to leave
  -- its record; so both go through the induction, with what has been said so far.
  induction steps generalizing world said with
  | nil => exact ⟨fun _ => rfl, by simpa [textOn, recordsOf, runSteps] using holds, levelled⟩
  | cons step rest inductionHypothesis =>
      obtain ⟨isLogging, others⟩ := List.forall_mem_cons.mp each
      obtain ⟨leaves, console⟩ := leaves_runStep isLogging levelled holds
      obtain ⟨texts, holdsAll, levelledAll⟩ := inductionHypothesis others
        (levelled_runStep isLogging levelled) (leaves.streams said holds)
      refine ⟨?_, ?_, runSteps_cons step rest world ▸ levelledAll⟩
      · intro channel
        rw [recordsOf, textOn_append, ← texts channel, runSteps_cons, List.flatMap_cons, console,
          leaves.console, on_fresh, List.nil_append]
      · rw [recordsOf, runSteps_cons]
        simpa [textOn_append] using holdsAll

/-! ## Calls in runs -/

/-- A step asks a logger to write a message at a level, in the world in which its arguments have
been made. -/
def Asks (step : Step) (world ready : World) (level : Level) (l : Logger) (message : Value)
    (fields : Keywords) : Prop :=
  ∃ operation arguments keywords, step.operation = some (.logger operation) ∧
    operation.level? = some level ∧
    step.made.runFrom world.fresh = (.ok (arguments, keywords), ready) ∧
    ready.asked? arguments keywords = some (l, message, fields)

/-- What comes of a step that asks for a message to be written: nothing below the threshold, the
fault of a line that cannot be made, and else the line. The loggers stay as they are. -/
theorem runStep_of_asks {step : Step} {world ready : World} {level : Level} {l : Logger}
    {message : Value} {fields : Keywords} (asks : Asks step world ready level l message fields)
    {threshold : Level} (isLevel : l.threshold = .int threshold.number) :
    (runStep step world).2.store.loggers = world.store.loggers ∧
    (level.number < threshold.number →
      (runStep step world).1.result = .ok .null ∧ (runStep step world).1.console = .blank ∧
        recordOf? step world = none) ∧
    (threshold.number ≤ level.number → ∀ fault,
      ready.lineOf l level message fields = .error fault →
      (runStep step world).1.result =
          .error ((runStep step world).2.store.settledFault fault) ∧
        (runStep step world).1.console = .blank ∧ recordOf? step world = none) ∧
    (threshold.number ≤ level.number → ∀ line channel,
      ready.lineOf l level message fields = .ok line →
      ready.store.channelOf? l.sink = some channel →
      (runStep step world).1.result = .ok .null ∧
        (runStep step world).1.console = Console.blank.writeLine channel line ∧
        recordOf? step world = some (channel, line)) := by
  obtain ⟨operation, arguments, keywords, isOperation, writes, made, asked⟩ := asks
  have assignsNothing : operation ≠ .assignLevel := by
    rintro rfl
    cases writes
  have quiet : Quiet _ _ := (keepsTo_made step).leadsTo made
  have blank : ready.console = .blank := quiet.console
  have kept := loggers_write writes ready arguments keywords
  have law := runFrom_write writes asked
  rw [passes_of_int isLevel] at law
  rcases performed : (performLogger operation arguments keywords).runFrom ready with
    ⟨outcome, after⟩
  obtain ⟨bindings, ended⟩ := runStep_of_ok isOperation assignsNothing made performed
  rw [performed] at kept law
  have reached : reaches level l = decide (threshold.number ≤ level.number) := by
    rw [reaches, isLevel]
  have record : recordOf? step world = if reaches level l then
      match ready.lineOf l level message fields, ready.store.channelOf? l.sink with
      | .ok line, some channel => some (channel, line)
      | _, _ => none
    else none := by
    simp only [recordOf?, isOperation, made, writes, Option.bind_some, World.record?, asked]
  rw [record, reached, ended]
  refine ⟨kept.trans quiet.loggers, ?_, ?_, ?_⟩
  · intro below
    have fails : ¬threshold.number ≤ level.number := by omega
    rw [decide_eq_false fails] at law ⊢
    cases law
    exact ⟨rfl, blank, rfl⟩
  · intro passes fault noLine
    rw [decide_eq_true passes, noLine] at law
    rw [decide_eq_true passes, noLine]
    cases law
    exact ⟨rfl, blank, rfl⟩
  · intro passes line channel hasLine leads
    rw [decide_eq_true passes, hasLine] at law
    rw [decide_eq_true passes, hasLine, leads]
    dsimp only at law
    rw [runFrom_bind_of_ok _ (runFrom_writeTo leads line)] at law
    cases law
    exact ⟨rfl, congrArg (fun console => console.writeLine channel line) blank, rfl⟩

theorem levelled_start (environment : Environment) (now : Moment) :
    Levelled (.start environment now) := by
  intro l member
  cases member
  contradiction

/-- In a run of steps on loggers that assigns no level, the text on each channel, and in each
stream, is that of the lines which the calls have written, in the order of the calls. A call below
the threshold of its logger writes nothing and does not fail; one whose line cannot be made fails
with that fault and writes nothing; any other one writes its line where its logger leads to. None of
them changes a logger. -/
theorem text_of_run (environment : Environment) (now : Moment) {steps : List Step}
    (each : ∀ step ∈ steps, step.IsLogging) :
    (∀ channel, (runSteps steps (.start environment now)).1.flatMap
        (fun outcome => outcome.console.on channel) =
      textOn channel (recordsOf steps (.start environment now))) ∧
    (∀ (number : Nat) stream,
      (runSteps steps (.start environment now)).2.store.streams[number]? = some stream →
        ∃ name, stream.name = some name ∧
          stream.content = textOn (.named name) (recordsOf steps (.start environment now))) ∧
    ∀ front step back, steps = front ++ step :: back →
      ∃ before outcome after,
        before = (runSteps front (.start environment now)).2 ∧
        (runSteps steps (.start environment now)).1[front.length]? = some outcome ∧
        runStep step before = (outcome, after) ∧
        ∀ ready level l message fields, Asks step before ready level l message fields →
          ∃ threshold : Level, l.threshold = .int threshold.number ∧
            after.store.loggers = before.store.loggers ∧
            (level.number < threshold.number →
              outcome.result = .ok .null ∧ outcome.console = .blank ∧
                recordOf? step before = none) ∧
            (threshold.number ≤ level.number → ∀ fault,
              ready.lineOf l level message fields = .error fault →
              outcome.result = .error (after.store.settledFault fault) ∧
                outcome.console = .blank ∧ recordOf? step before = none) ∧
            (threshold.number ≤ level.number → ∀ line channel,
              ready.lineOf l level message fields = .ok line →
              ready.store.channelOf? l.sink = some channel →
              outcome.result = .ok .null ∧
                outcome.console = Console.blank.writeLine channel line ∧
                recordOf? step before = some (channel, line)) := by
  have levelled := levelled_start environment now
  have holds : (World.start environment now).store.Holds fun _ => [] := Store.holds_empty
  obtain ⟨texts, holdsAll, _⟩ := text_runSteps each levelled holds
  refine ⟨texts, ?_, ?_⟩
  · intro number stream found
    obtain ⟨name, rfl⟩ := holdsAll.each number stream found
    exact ⟨name, rfl, rfl⟩
  · rintro front step back rfl
    have fronts : ∀ step ∈ front, step.IsLogging := fun step member =>
      each step (List.mem_append_left _ member)
    obtain ⟨_, _, levelledBefore⟩ := text_runSteps fronts levelled holds
    refine ⟨_, _, _, rfl, getElem?_runSteps front step back _, rfl, ?_⟩
    intro ready level l message fields asks
    obtain ⟨operation, arguments, keywords, _, _, made, asked⟩ := id asks
    have quiet : Quiet _ _ := (keepsTo_made step).leadsTo made
    obtain ⟨number, _, _, found, _⟩ := asked?_eq_some asked
    have isLevelled : Levelled (runSteps front (.start environment now)).2.fresh := levelledBefore
    obtain ⟨threshold, isLevel⟩ := isLevelled.of_quiet quiet l (Array.mem_of_getElem? found)
    exact ⟨threshold, isLevel, runStep_of_asks asks isLevel⟩

/-- Two loggers on one stream, the first in document form. A logger bound to it has a field without
a document, and fails only where its level passes. -/
def sharedSteps : List Step :=
  [⟨some (.logger .make), [.scalar (.text "a"), .scalar (.text "warn"), .scalar (.bool true),
      .scalar .null, .stream "s"], [], some "a"⟩,
    ⟨some (.logger .make), [.scalar (.text "b")], [("stream", .stream "s")], some "b"⟩,
    ⟨some (.logger .bind), [.variable "a"], [("k", .set [])], some "c"⟩,
    ⟨some (.logger .info), [.variable "c", .scalar (.text "low")], [], none⟩,
    ⟨some (.logger .error), [.variable "c", .scalar (.text "bad")], [], none⟩,
    ⟨some (.logger .warn), [.variable "b", .scalar (.text "y")], [("n", .scalar (.int 1))], none⟩,
    ⟨some (.logger .setLevel), [.variable "a", .scalar (.text "Debug")], [], none⟩,
    ⟨some (.logger .debug), [.variable "a", .scalar (.text "x")], [], none⟩]

theorem text_of_run_shared :
    (∀ step ∈ sharedSteps, step.IsLogging) ∧
      (runSteps sharedSteps (.start ⟨[]⟩ ⟨2024, 2, 29, 1, 2, 3, 0⟩)).1.flatMap
        (fun outcome => outcome.console.on (.named "s")) =
          "[2024-02-29T01:02:03+00:00] b WARN: y n=1\n".toList ++
          "\x7b\"ts\":\"2024-02-29T01:02:03+00:00\",\"name\":\"a\",\"level\":\"DEBUG\",".toList ++
          "\"msg\":\"x\"\x7d\n".toList := by
  have each : ∀ step ∈ sharedSteps, step.IsLogging := by
    simp [sharedSteps, Step.IsLogging]
  refine ⟨each, ?_⟩
  rw [(text_of_run ⟨[]⟩ ⟨2024, 2, 29, 1, 2, 3, 0⟩ each).1]
  decide +kernel

end Presence.Session
