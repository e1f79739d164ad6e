import Presence.Proofs.Logger.Sinks

/-!
Contract: what each operation on loggers does to a world.

Owns: `matched` and `told`, the arguments of a call as plain results; `World.lineOf`, the line of a
message in a world; `runFrom_write`, the law of the operations that write messages; `Alters`, what
the other operations can do.

Does not own: where lines go (`Presence.Proofs.Logger.Sinks`), and the steps and runs of a session
(`Presence.Proofs.Logger.Runs`, `Presence.Proofs.Logger.Levels`).
-/

namespace Presence.Session

open Attempt Run

/-! ## Arguments -/

/-- The argument of each parameter. -/
def matched (parameters : List String) (arguments : List Value) (keywords : Keywords) :
    Except Fault (List (Option Value)) :=
  let named := parameters.drop arguments.length
  if parameters.length < arguments.length || keywords.any fun k => !named.contains k.1 then
    .error .wrongType
  else .ok (arguments.map some ++ named.map fun name => keywords.lookup name)

theorem runFrom_argumentsOf (parameters : List String) (arguments : List Value)
    (keywords : Keywords) (world : World) :
    (argumentsOf parameters arguments keywords).runFrom world =
      (matched parameters arguments keywords, world) := by
  unfold argumentsOf matched
  dsimp only
  split <;> rfl

/-- The message and the fields of a call. -/
def told (arguments : List Value) (keywords : Keywords) : Except Fault (Value × Keywords) :=
  if keywords.any fun k => k.1 == "self" || k.1 == "level" then .error .wrongType
  else
    let fields := keywords.filter fun k => k.1 != "msg"
    match arguments, keywords.lookup "msg" with
    | [message], none => .ok (message, fields)
    | [], some message => .ok (message, fields)
    | _, _ => .error .wrongType

theorem runFrom_messageOf (arguments : List Value) (keywords : Keywords) (world : World) :
    (messageOf arguments keywords).runFrom world = (told arguments keywords, world) := by
  unfold messageOf told
  dsimp only
  split
  · rfl
  · generalize keywords.lookup "msg" = named
    rcases arguments with _ | ⟨message, _ | ⟨second, rest⟩⟩ <;> cases named <;> rfl

theorem runFrom_loggerAt {world : World} {number : Nat} {l : Logger}
    (found : world.store.loggers[number]? = some l) :
    (loggerAt number).runFrom world = (.ok l, world) := by
  unfold loggerAt
  rw [runFrom_bind_of_ok _ (runFrom_store world), found]
  rfl

/-- Whatever does not make a logger is done on one that is there, or fails. -/
theorem runFrom_performLogger {operation : LoggerOperation}
    (isOther : operation ≠ .make ∧ operation ≠ .ofEnvironment) (world : World)
    (arguments : List Value) (keywords : Keywords) :
    (∃ number rest l, arguments = .handle .logger number :: rest ∧
      world.store.loggers[number]? = some l ∧
      (performLogger operation arguments keywords).runFrom world =
        (performOnLogger operation number rest keywords).runFrom world) ∨
    (∀ number rest, arguments = .handle .logger number :: rest →
      world.store.loggers[number]? = none) ∧
      ∃ fault,
        (performLogger operation arguments keywords).runFrom world = (.error fault, world) := by
  rcases arguments with _ | ⟨v, rest⟩
  · exact .inr ⟨nofun, .wrongType, by cases operation <;> first | rfl | simp at isOther⟩
  · have opens : performLogger operation (v :: rest) keywords = (do
        performOnLogger operation (← loggerNumber v) rest keywords) := by
      cases operation <;> first | rfl | simp at isOther
    rw [opens]
    unfold loggerNumber
    split
    · next number =>
        rcases found : world.store.loggers[number]? with _ | l
        · right
          refine ⟨?_, .badInput, ?_⟩
          · intro _ _ same
            cases same
            exact found
          · show (performOnLogger operation number rest keywords).runFrom world = _
            have absent : (loggerAt number).runFrom world = (.error .badInput, world) := by
              unfold loggerAt
              rw [runFrom_bind_of_ok _ (runFrom_store world), found]
              rfl
            unfold performOnLogger
            exact runFrom_bind_of_error _ absent
        · exact .inl ⟨number, rest, l, rfl, found, rfl⟩
    · next other =>
        right
        refine ⟨?_, .badInput, rfl⟩
        intro number _ same
        cases same
        exact absurd rfl (other number)

/-! ## Writing -/

/-- The level of the messages that an operation writes. -/
def LoggerOperation.level? : LoggerOperation → Option Level
  | .debug => some .debug
  | .info => some .info
  | .warn => some .warn
  | .error => some .error
  | _ => none

/-- A logger with its lists read back. -/
def Store.observed (store : Store) (l : Logger) : Logger :=
  { l with
    name := store.settled l.name
    asDocument := store.settled l.asDocument
    context := l.context.map fun field => (store.settled field.1, store.settled field.2) }

/-- The line of a message in a world. -/
def World.lineOf (world : World) (l : Logger) (level : Level) (message : Value)
    (fields : Keywords) : Except Fault (List Char) :=
  (world.store.observed l).line world.now level (world.store.settled message)
    (fields.map fun field => (.text field.1, world.store.settled field.2))

/-- What a call asks for that writes a message: the logger, the message and the fields. -/
def World.asked? (world : World) (arguments : List Value) (keywords : Keywords) :
    Option (Logger × Value × Keywords) :=
  match arguments with
  | .handle .logger number :: rest =>
      match world.store.loggers[number]?, told rest keywords with
      | some l, .ok (message, fields) => some (l, message, fields)
      | _, _ => none
  | _ => none

/-- A message with fields under other names than those of the parameters is asked for as it is. -/
theorem asked?_of_names {world : World} {number : Nat} {l : Logger}
    (found : world.store.loggers[number]? = some l) (message : Value) {fields : Keywords}
    (allowed : ∀ field ∈ fields, field.1 ∉ ["self", "msg", "level"]) :
    world.asked? [.handle .logger number, message] fields = some (l, message, fields) := by
  simp only [List.mem_cons, List.not_mem_nil, or_false, not_or] at allowed
  have noParameter : (fields.any fun k => k.1 == "self" || k.1 == "level") = false := by
    rw [List.any_eq_false]
    intro field member
    simp [(allowed field member).1, (allowed field member).2.2]
  have noMessage : fields.lookup "msg" = none := by
    rw [List.lookup_eq_none_iff]
    intro field member
    simpa using Ne.symm (allowed field member).2.1
  have all : (fields.filter fun k => k.1 != "msg") = fields := by
    rw [List.filter_eq_self]
    intro field member
    simpa using (allowed field member).2.1
  have given : told [message] fields = .ok (message, fields) := by
    unfold told
    rw [noParameter, noMessage, all]
    rfl
  rw [World.asked?, found, given]

private theorem runFrom_observeLogger (l : Logger) (world : World) :
    (observeLogger l).runFrom world = (.ok (world.store.observed l), world) := by
  have context := runFrom_mapM world
    (f := fun field : Value × Value => do return (← observe field.1, ← observe field.2))
    (g := fun field => (world.store.settled field.1, world.store.settled field.2))
    (fun _ => rfl) l.context
  unfold observeLogger
  rw [runFrom_bind_of_ok _ (show (observe l.name).runFrom world = _ from rfl),
    runFrom_bind_of_ok _ (show (observe l.asDocument).runFrom world = _ from rfl),
    runFrom_bind_of_ok _ context]
  rfl

/-- The level is looked at before the line is made, and the line is made before it is written. -/
theorem runFrom_log {world : World} {number : Nat} {l : Logger}
    (found : world.store.loggers[number]? = some l) (level : Level) (message : Value)
    (fields : Keywords) :
    (log number level message fields).runFrom world =
      match l.passes level with
      | .error fault => (.error fault, world)
      | .ok false => (.ok (), world)
      | .ok true =>
          match world.lineOf l level message fields with
          | .error fault => (.error fault, world)
          | .ok line => (writeTo l.sink line).runFrom world := by
  have seen := runFrom_mapM world
    (f := fun field : String × Value => do return (Value.text field.1, ← observe field.2))
    (g := fun field => (.text field.1, world.store.settled field.2)) (fun _ => rfl) fields
  unfold log
  rw [runFrom_bind_of_ok _ (runFrom_loggerAt found)]
  rcases l.passes level with fault | _ | _
  · rfl
  · rfl
  · rw [runFrom_bind_of_ok _ (runFrom_lift world (.ok true)), if_pos rfl,
      runFrom_bind_of_ok _ (runFrom_observeLogger l world),
      runFrom_bind_of_ok _ (show (observe message).runFrom world = _ from rfl),
      runFrom_bind_of_ok _ seen, runFrom_bind_of_ok _ (runFrom_get world)]
    show (lift (world.lineOf l level message fields) >>= _).runFrom world = _
    rcases world.lineOf l level message fields with fault | line <;> rfl

theorem performOnLogger_of_level {operation : LoggerOperation} {level : Level}
    (writes : operation.level? = some level) (number : Nat) (arguments : List Value)
    (keywords : Keywords) :
    performOnLogger operation number arguments keywords = (do
      let _ ← loggerAt number
      let (message, fields) ← messageOf arguments keywords
      log number level message fields
      return .null) := by
  cases operation <;> cases writes <;> rfl

theorem ne_make_of_level {operation : LoggerOperation} {level : Level}
    (writes : operation.level? = some level) :
    operation ≠ .make ∧ operation ≠ .ofEnvironment := by
  constructor <;> rintro rfl <;> cases writes

/-- A call that asks for nothing fails, and leaves the world as it is. -/
theorem runFrom_write_of_none {operation : LoggerOperation} {level : Level}
    (writes : operation.level? = some level) {world : World} {arguments : List Value}
    {keywords : Keywords} (nothing : world.asked? arguments keywords = none) :
    ∃ fault,
      (performLogger operation arguments keywords).runFrom world = (.error fault, world) := by
  rcases runFrom_performLogger (ne_make_of_level writes) world arguments keywords with
    ⟨number, rest, l, rfl, found, same⟩ | ⟨_, failed⟩
  · rw [same, performOnLogger_of_level writes, runFrom_bind_of_ok _ (runFrom_loggerAt found),
      runFrom_bind, runFrom_messageOf]
    rcases given : told rest keywords with fault | ⟨message, fields⟩
    · exact ⟨fault, rfl⟩
    · simp [World.asked?, found, given] at nothing
  · exact failed

theorem asked?_eq_some {world : World} {arguments : List Value} {keywords : Keywords} {l : Logger}
    {message : Value} {fields : Keywords}
    (asked : world.asked? arguments keywords = some (l, message, fields)) :
    ∃ number rest, arguments = .handle .logger number :: rest ∧
      world.store.loggers[number]? = some l ∧ told rest keywords = .ok (message, fields) := by
  unfold World.asked? at asked
  split at asked
  · next number rest =>
      split at asked
      · next found given =>
          cases asked
          exact ⟨number, rest, rfl, found, given⟩
      · cases asked
  · cases asked

/-- A call that asks for a message to be written writes its line, if the level passes and there is
such a line. -/
theorem runFrom_write {operation : LoggerOperation} {level : Level}
    (writes : operation.level? = some level) {world : World} {arguments : List Value}
    {keywords : Keywords} {l : Logger} {message : Value} {fields : Keywords}
    (asked : world.asked? arguments keywords = some (l, message, fields)) :
    (performLogger operation arguments keywords).runFrom world =
      match l.passes level with
      | .error fault => (.error fault, world)
      | .ok false => (.ok .null, world)
      | .ok true =>
          match world.lineOf l level message fields with
          | .error fault => (.error fault, world)
          | .ok line => (do
              writeTo l.sink line
              return Value.null : Run Value).runFrom world := by
  obtain ⟨number, rest, rfl, found, given⟩ := asked?_eq_some asked
  have logged := runFrom_log found level message fields
  rcases runFrom_performLogger (ne_make_of_level writes) world (.handle .logger number :: rest)
    keywords with ⟨_, _, _, same, _, performed⟩ | ⟨nowhere, _⟩
  · cases same
    rw [performed, performOnLogger_of_level writes, runFrom_bind_of_ok _ (runFrom_loggerAt found),
      runFrom_bind, runFrom_messageOf, given]
    show (log number level message fields >>= _).runFrom world = _
    rw [runFrom_bind, logged]
    rcases l.passes level with fault | _ | _
    · rfl
    · rfl
    · rcases world.lineOf l level message fields with fault | line
      · rfl
      · exact (runFrom_bind _ _ _).symm
  · cases found.symm.trans (nowhere number rest rfl)

/-! ## The other operations -/

/-- The level that a value names, if it names one. -/
def named? (v : Value) : Option Level :=
  match Level.ofValue? v with
  | .ok found => found
  | .error _ => none

/-- The value that a new logger has its level from. -/
def levelGiven? (environment : Environment) (arguments : List Value) (keywords : Keywords) :
    LoggerOperation → Option Value
  | .make =>
      match matched ["name", "level", "json_output", "context", "stream"] arguments keywords with
      | .ok [_, level, _, _, _] => some (level.getD (.text Level.info.name))
      | _ => none
  | .ofEnvironment =>
      match matched ["name", "var", "json_output"] arguments keywords with
      | .ok [_, variableName, _] =>
          match variableName.getD (.text Logger.defaultVariable) with
          | .text name => some ((environment.find name).orElse (.text Level.info.name))
          | _ => none
      | _ => none
  | _ => none

/-- The logger whose level is to be set, and the value that it is to be set to. -/
def setting? (arguments : List Value) (keywords : Keywords) : Option (Nat × Value) :=
  match arguments with
  | .handle .logger number :: rest =>
      match matched ["level"] rest keywords with
      | .ok [some level] => some (number, level)
      | _ => none
  | _ => none

theorem setting?_eq_some {arguments : List Value} {keywords : Keywords} {number : Nat} {v : Value} :
    setting? arguments keywords = some (number, v) ↔
      ∃ rest, arguments = .handle .logger number :: rest ∧
        matched ["level"] rest keywords = .ok [some v] := by
  constructor
  · intro asked
    unfold setting? at asked
    split at asked
    · next rest =>
        split at asked
        · next given =>
            cases asked
            exact ⟨rest, rfl, given⟩
        · cases asked
    · cases asked
  · rintro ⟨rest, rfl, given⟩
    rw [setting?, given]

/-- A logger at the level that a value names, if it names one. -/
def setTo (l : Logger) (v : Value) : Logger :=
  match named? v with
  | some level => { l with threshold := .int level.number }
  | none => l

/-- A world with other loggers. -/
def World.withLoggers (world : World) (loggers : Array Logger) : World :=
  { world with store := { world.store with loggers := loggers } }

/-- What an operation that writes no message can do. -/
inductive Alters (world : World) (arguments : List Value) (keywords : Keywords) :
    LoggerOperation → Except Fault Value × World → Prop where
  | fails {operation : LoggerOperation} (fault : Fault) {ready : World} (quiet : Quiet world ready)
      (unset : operation = .setLevel → ∀ number v, setting? arguments keywords = some (number, v) →
        world.store.loggers[number]? ≠ none → named? v = none) :
      Alters world arguments keywords operation (.error fault, ready)
  | tells {operation : LoggerOperation} {s : Scalar}
      (asks : operation = .enabled ∨ operation = .levelName)
      (plain : s = .null ∨ (∃ b, s = .bool b) ∨ ∃ t, s = .text t) :
      Alters world arguments keywords operation (.ok (.scalar s), world)
  | makes {operation : LoggerOperation} {l : Logger} {ready : World} {v : Value}
      (quiet : Quiet world ready)
      (given : levelGiven? world.environment arguments keywords operation = some v)
      (known : l.threshold = Logger.thresholdOf (named? v)) :
      Alters world arguments keywords operation
        (.ok (.handle .logger ready.store.loggers.size),
          ready.withLoggers (ready.store.loggers.push l))
  | binds {number : Nat} {l : Logger} (alone : arguments = [.handle .logger number])
      (found : world.store.loggers[number]? = some l)
      (fields : keywords.all (fun field => field.1 != "self") = true) :
      Alters world arguments keywords .bind
        (.ok (.handle .logger world.store.loggers.size),
          world.withLoggers (world.store.loggers.push
            (l.bind (keywords.map fun field => (.text field.1, field.2)))))
  | sets {number : Nat} {l : Logger} {v : Value}
      (asked : setting? arguments keywords = some (number, v))
      (found : world.store.loggers[number]? = some l) :
      Alters world arguments keywords .setLevel
        (.ok .null, world.withLoggers (world.store.loggers.setIfInBounds number (setTo l v)))

private theorem quietly_contextOf (v : Value) : Quietly (contextOf v) AnyResult := by
  refine (keepsTo_truth v).bind fun counts _ => ?_
  split
  · exact keepsTo_entriesOf v
  · exact .done

/-- A logger is made at the level of a value, with the entries of another value. -/
private theorem alters_makeLogger {world : World} {arguments : List Value} {keywords : Keywords}
    {level : Option Value}
    (given : levelGiven? world.environment arguments keywords .make =
      some (level.getD (.text Level.info.name)))
    (name asDocument context sink : Option Value) :
    Alters world arguments keywords .make
      ((makeLogger name level asDocument context sink).runFrom world) := by
  unfold makeLogger Logger.ofLevel
  rcases known : Level.ofValue? (level.getD (.text Level.info.name)) with fault | found
  · exact .fails fault (.refl world) nofun
  · show Alters world arguments keywords .make
      ((contextOf (context.getD .null) >>= fun entries => newLogger _).runFrom world)
    rcases made : (contextOf (context.getD .null)).runFrom world with ⟨outcome, ready⟩
    have quiet := (quietly_contextOf _).leadsTo made
    rcases outcome with fault | entries
    · rw [runFrom_bind_of_error _ made]
      exact .fails fault quiet nofun
    · rw [runFrom_bind_of_ok _ made]
      refine .makes quiet given ?_
      rw [named?, known]

private theorem alters_make (world : World) (arguments : List Value) (keywords : Keywords) :
    Alters world arguments keywords .make
      ((performLogger .make arguments keywords).runFrom world) := by
  show Alters world arguments keywords .make ((loggerOf arguments keywords).runFrom world)
  unfold loggerOf
  rw [runFrom_bind, runFrom_argumentsOf]
  rcases given : matched ["name", "level", "json_output", "context", "stream"] arguments keywords
    with fault | found
  · exact .fails fault (.refl world) nofun
  · dsimp only
    split
    · next name level asDocument context sink =>
        refine alters_makeLogger ?_ name asDocument context sink
        rw [levelGiven?, given]
    · exact .fails .wrongType (.refl world) nofun

private theorem alters_ofEnvironment (world : World) (arguments : List Value)
    (keywords : Keywords) :
    Alters world arguments keywords .ofEnvironment
      ((performLogger .ofEnvironment arguments keywords).runFrom world) := by
  have fails : ∀ fault, Alters world arguments keywords .ofEnvironment (.error fault, world) :=
    fun fault => .fails fault (.refl world) nofun
  show Alters world arguments keywords .ofEnvironment
    ((argumentsOf ["name", "var", "json_output"] arguments keywords >>= _).runFrom world)
  rw [runFrom_bind, runFrom_argumentsOf]
  rcases given : matched ["name", "var", "json_output"] arguments keywords with fault | found
  · exact fails fault
  · dsimp only
    split
    · next name variableName asDocument =>
        unfold loggerOfEnvironment
        split
        · next variableName isText =>
            rw [runFrom_bind_of_ok _ (runFrom_get world)]
            unfold Logger.ofEnvironment Logger.ofLevel
            rcases known : Level.ofValue? ((world.environment.find variableName).orElse
              (.text Level.info.name)) with fault | level
            · exact fails fault
            · have hasLevel : levelGiven? world.environment arguments keywords .ofEnvironment =
                  some ((world.environment.find variableName).orElse (.text Level.info.name)) := by
                simp only [levelGiven?, given, isText]
              refine .makes (.refl world) hasLevel ?_
              rw [named?, known]
        · exact fails .wrongType
    · exact fails .wrongType

/-- Setting the level of a logger that is there. -/
private theorem alters_setLevel_of_found {world : World} {number : Nat} {l : Logger}
    (found : world.store.loggers[number]? = some l) (rest : List Value) (keywords : Keywords) :
    Alters world (.handle .logger number :: rest) keywords .setLevel
      ((performOnLogger .setLevel number rest keywords).runFrom world) := by
  show Alters _ _ _ _ ((loggerAt number >>= fun _ => argumentsOf ["level"] rest keywords >>=
    _).runFrom world)
  rw [runFrom_bind_of_ok _ (runFrom_loggerAt found), runFrom_bind, runFrom_argumentsOf]
  rcases given : matched ["level"] rest keywords with fault | values
  · refine .fails fault (.refl world) ?_
    intro _ k v asked _
    obtain ⟨_, same, isGiven⟩ := setting?_eq_some.mp asked
    cases same
    cases given.symm.trans isGiven
  · dsimp only
    split
    · next level =>
        have asked : setting? (.handle .logger number :: rest) keywords = some (number, level) :=
          setting?_eq_some.mpr ⟨rest, rfl, given⟩
        have moved := Alters.sets asked found
        unfold Logger.setLevel
        rcases known : Level.ofValue? level with fault | _ | isLevel <;>
          simp only [setTo, named?, known] at moved
        · refine .fails fault (.refl world) ?_
          intro _ k v again _
          cases asked.symm.trans again
          rw [named?, known]
        · exact moved
        · exact moved
    · next other =>
        refine .fails .wrongType (.refl world) ?_
        intro _ k v asked _
        obtain ⟨_, same, isGiven⟩ := setting?_eq_some.mp asked
        cases same
        cases given.symm.trans isGiven
        exact absurd rfl (other v)

private theorem alters_bind_of_found {world : World} {number : Nat} {l : Logger}
    (found : world.store.loggers[number]? = some l) (rest : List Value) (keywords : Keywords) :
    Alters world (.handle .logger number :: rest) keywords .bind
      ((performOnLogger .bind number rest keywords).runFrom world) := by
  show Alters _ _ _ _ ((loggerAt number >>= _).runFrom world)
  rw [runFrom_bind_of_ok _ (runFrom_loggerAt found)]
  dsimp only
  split
  · exact .fails .wrongType (.refl world) nofun
  · next allowed =>
      simp only [Bool.or_eq_true, not_or, Bool.not_eq_true, Bool.not_eq_false'] at allowed
      obtain ⟨isEmpty, names⟩ := allowed
      cases List.isEmpty_iff.mp isEmpty
      exact .binds rfl found (by simpa using names)

private theorem alters_enabled_of_found {world : World} {number : Nat} {l : Logger}
    (found : world.store.loggers[number]? = some l) (rest : List Value) (keywords : Keywords) :
    Alters world (.handle .logger number :: rest) keywords .enabled
      ((performOnLogger .enabled number rest keywords).runFrom world) := by
  have fails : ∀ fault, Alters world (.handle .logger number :: rest) keywords .enabled
      (.error fault, world) := fun fault => .fails fault (.refl world) nofun
  show Alters _ _ _ _ ((loggerAt number >>= fun _ => argumentsOf ["level"] rest keywords >>=
    _).runFrom world)
  rw [runFrom_bind_of_ok _ (runFrom_loggerAt found), runFrom_bind, runFrom_argumentsOf]
  rcases matched ["level"] rest keywords with fault | values
  · exact fails fault
  · dsimp only
    split
    · next level =>
        unfold Logger.enabled
        rcases Level.ofValue? level with fault | _ | isLevel
        · exact fails fault
        · exact .tells (.inl rfl) (.inl rfl)
        · show Alters _ _ _ _ ((lift (l.passes isLevel >>= fun passes =>
            pure (Value.bool passes))).runFrom world)
          rcases l.passes isLevel with fault | passes
          · exact fails fault
          · exact .tells (.inl rfl) (.inr (.inl ⟨passes, rfl⟩))
    · exact fails .wrongType

private theorem alters_levelName_of_found {world : World} {number : Nat} {l : Logger}
    (found : world.store.loggers[number]? = some l) (rest : List Value) (keywords : Keywords) :
    Alters world (.handle .logger number :: rest) keywords .levelName
      ((performOnLogger .levelName number rest keywords).runFrom world) := by
  show Alters _ _ _ _ ((loggerAt number >>= fun _ => argumentsOf [] rest keywords >>=
    _).runFrom world)
  rw [runFrom_bind_of_ok _ (runFrom_loggerAt found), runFrom_bind, runFrom_argumentsOf]
  rcases matched [] rest keywords with fault | values
  · exact .fails fault (.refl world) nofun
  · exact .tells (.inr rfl) (.inr (.inr ⟨_, rfl⟩))

/-- What an operation can do that writes no message and assigns no level. -/
theorem alters_performLogger {operation : LoggerOperation} (writesNothing : operation.level? = none)
    (assignsNothing : operation ≠ .assignLevel) (world : World) (arguments : List Value)
    (keywords : Keywords) :
    Alters world arguments keywords operation
      ((performLogger operation arguments keywords).runFrom world) := by
  by_cases makes : operation ≠ .make ∧ operation ≠ .ofEnvironment
  · rcases runFrom_performLogger makes world arguments keywords with
      ⟨number, rest, l, rfl, found, performed⟩ | ⟨nowhere, fault, failed⟩
    · rw [performed]
      cases operation with
      | setLevel => exact alters_setLevel_of_found found rest keywords
      | bind => exact alters_bind_of_found found rest keywords
      | enabled => exact alters_enabled_of_found found rest keywords
      | levelName => exact alters_levelName_of_found found rest keywords
      | assignLevel => exact absurd rfl assignsNothing
      | make => exact absurd rfl makes.1
      | ofEnvironment => exact absurd rfl makes.2
      | _ => cases writesNothing
    · rw [failed]
      refine .fails fault (.refl world) ?_
      intro _ k v asked present
      obtain ⟨rest, rfl, _⟩ := setting?_eq_some.mp asked
      exact absurd (nowhere k rest rfl) present
  · cases operation with
    | make => exact alters_make world arguments keywords
    | ofEnvironment => exact alters_ofEnvironment world arguments keywords
    | _ => simp at makes

end Presence.Session
