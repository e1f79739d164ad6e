import Presence.Proofs.Logger.Runs
import Presence.Proofs.Logger.TextLines
import Presence.Proofs.Value.LineBreaks

/-!
Contract: how many lines the text of a record takes.

Owns: `Smooth`, that no part of a line in text form has a line break; that the line has none just in
this case (`unbroken_spelledLine`), and no document has one; `Heard`, the calls of a run that are
written on a channel; `breaks_of_run`.

Does not own: the texts of values (`Presence.Proofs.Value.LineBreaks`).

A record ends with a line break. A line break inside it makes two lines of one record, and the
second of them can be any text at all.
-/

namespace Presence

/-! ## Lines -/

private theorem Moment.unbroken_digits (width n : Nat) : Unbroken (digits width n) := by
  have digit : ∀ m : Fin 10, Nat.digitChar m ≠ '\n' := by decide
  induction width generalizing n with
  | zero => exact List.not_mem_nil
  | succ width inductionHypothesis =>
      have last := digit ⟨n % 10, Nat.mod_lt n (by decide)⟩
      exact unbroken_append.mpr
        ⟨inductionHypothesis (n / 10), unbroken_cons.mpr ⟨last, List.not_mem_nil⟩⟩

private theorem Moment.unbroken_text (moment : Moment) : Unbroken moment.text := by
  have fraction : Unbroken (fraction moment.microsecond) := by
    unfold Moment.fraction
    split
    · exact List.not_mem_nil
    · exact unbroken_cons.mpr ⟨by decide, unbroken_digits 6 _⟩
  simp only [text, unbroken_append, unbroken_cons, unbroken_digits, fraction]
  decide

private theorem Level.unbroken_name (level : Level) : Unbroken level.name.toList := by
  cases level <;> decide

namespace Logger

/-- No part of a line in text form has a line break: neither the name of the logger nor the message,
nor the name or the text of a field. -/
structure Smooth (name message : String) (names : List String) (texts : String → String) :
    Prop where
  ofName : Unbroken name.toList
  ofMessage : Unbroken message.toList
  ofFields : ∀ field ∈ names, Unbroken field.toList ∧ Unbroken (texts field).toList

theorem unbroken_spelledLine {moment : Moment} {level : Level} {name message : String}
    {names : List String} {texts : String → String} :
    Unbroken (spelledLine moment level name message names texts) ↔
      Smooth name message names texts := by
  have fields : Unbroken (names.flatMap (spelledField texts)) ↔
      ∀ field ∈ names, Unbroken field.toList ∧ Unbroken (texts field).toList := by
    rw [unbroken_flatMap]
    refine forall₂_congr fun field _ => ?_
    simp [spelledField, unbroken_cons, unbroken_append]
  simp only [spelledLine, unbroken_cons, unbroken_append, moment.unbroken_text,
    level.unbroken_name, fields, ne_eq, Char.reduceEq, not_false_eq_true, true_and]
  constructor
  · rintro ⟨isName, isMessage, each⟩
    exact ⟨isName, isMessage, each⟩
  · intro smooth
    exact ⟨smooth.ofName, smooth.ofMessage, smooth.ofFields⟩

end Logger

end Presence

namespace Presence.Session

open Attempt Run Logger
open Json (entriesOf)

variable {world : World} {l : Logger} {message : Value} {fields : Keywords} {level : Level}

/-! ## Calls -/

/-- A line in document form has no line break. -/
theorem unbroken_lineOf_document
    (inDocuments : (world.store.settled l.asDocument).truthy? = some true) :
    Yields Unbroken (world.lineOf l level message fields) := by
  have isDocument : (world.store.observed l).asDocument.truthy? = some true := inDocuments
  intro line written
  unfold World.lineOf Logger.line at written
  rw [isDocument] at written
  exact unbroken_of_graphic (Json.graphic_write Json.isGraphic_compact _ line written)

/-! ## Runs -/

/-- The lines of records on a channel. -/
def linesOn (channel : Channel) (records : List (Channel × List Char)) : List (List Char) :=
  (records.filter fun record => channel = record.1).map Prod.snd

private theorem textOn_eq_flatMap (channel : Channel) (records : List (Channel × List Char)) :
    textOn channel records = (linesOn channel records).flatMap fun line => line ++ ['\n'] := by
  induction records with
  | nil => rfl
  | cons record rest inductionHypothesis =>
      rw [textOn, List.flatMap_cons, linesOn, List.filter_cons]
      by_cases isHere : channel = record.1
      · rw [if_pos isHere, if_pos (decide_eq_true isHere), List.map_cons, List.flatMap_cons]
        exact congrArg (_ ++ ·) inductionHypothesis
      · rw [if_neg isHere, if_neg (by simpa using isHere), List.nil_append]
        exact inductionHypothesis

/-- As many line breaks as lines, or more if a line has one inside it. -/
private theorem count_flatMap_lines (lines : List (List Char)) :
    lines.length ≤ (lines.flatMap fun line => line ++ ['\n']).count '\n' ∧
      ((lines.flatMap fun line => line ++ ['\n']).count '\n' = lines.length ↔
        ∀ line ∈ lines, Unbroken line) := by
  induction lines with
  | nil => simp
  | cons line rest inductionHypothesis =>
      obtain ⟨atLeast, same⟩ := inductionHypothesis
      have first : line.count '\n' = 0 ↔ Unbroken line := List.count_eq_zero
      rw [List.flatMap_cons, List.count_append, List.count_append, List.count_singleton_self,
        List.length_cons, List.forall_mem_cons, ← same, ← first]
      omega

/-- Records are those of the steps. -/
private theorem mem_recordsOf {steps : List Step} {record : Channel × List Char} :
    record ∈ recordsOf steps world ↔ ∃ front step back, steps = front ++ step :: back ∧
      recordOf? step (runSteps front world).2 = some record := by
  induction steps generalizing world with
  | nil => simp [recordsOf]
  | cons first rest inductionHypothesis =>
      rw [recordsOf, List.mem_append, inductionHypothesis, Option.mem_toList]
      constructor
      · rintro (isFirst | ⟨front, step, back, rfl, isRecord⟩)
        · exact ⟨[], first, rest, rfl, isFirst⟩
        · exact ⟨first :: front, step, back, rfl, isRecord⟩
      · rintro ⟨_ | ⟨head, front⟩, step, back, same, isRecord⟩
        · cases same
          exact .inl isRecord
        · cases same
          exact .inr ⟨front, step, back, rfl, isRecord⟩

/-- A step has a record if it asks for a line that can be made, at a level that reaches the
threshold, of a logger whose sink leads to the channel. -/
private theorem recordOf?_eq_some_iff {step : Step} {channel : Channel} {line : List Char} :
    recordOf? step world = some (channel, line) ↔
      ∃ ready level l message fields, Asks step world ready level l message fields ∧
        reaches level l = true ∧ ready.store.channelOf? l.sink = some channel ∧
        ready.lineOf l level message fields = .ok line := by
  constructor
  · intro isRecord
    unfold recordOf? at isRecord
    split at isRecord
    · next operation arguments keywords ready isOperation made =>
        obtain ⟨level, writes, isRecord⟩ := Option.bind_eq_some_iff.mp isRecord
        unfold World.record? at isRecord
        split at isRecord
        · next l message fields asked =>
            split at isRecord
            · next reached =>
                split at isRecord
                · next written leads =>
                    cases isRecord
                    exact ⟨ready, level, l, message, fields,
                      ⟨operation, arguments, keywords, isOperation, writes, made, asked⟩,
                      reached, leads, written⟩
                · cases isRecord
            · cases isRecord
        · cases isRecord
    · cases isRecord
  · rintro ⟨ready, level, l, message, fields, asks, reached, leads, written⟩
    obtain ⟨operation, arguments, keywords, isOperation, writes, made, asked⟩ := asks
    simp only [recordOf?, isOperation, made, writes, Option.bind_some, World.record?, asked,
      reached, if_true, written, leads]

/-- A call of a run that is written on a channel if it has a line: its level reaches the threshold
of its logger, and the sink of the logger leads there. -/
def Heard (channel : Channel) (steps : List Step) (world ready : World) (level : Level)
    (l : Logger) (message : Value) (fields : Keywords) : Prop :=
  ∃ front step back, steps = front ++ step :: back ∧
    Asks step (runSteps front world).2 ready level l message fields ∧
    reaches level l = true ∧ ready.store.channelOf? l.sink = some channel

private theorem mem_linesOn {channel : Channel} {steps : List Step} {line : List Char} :
    line ∈ linesOn channel (recordsOf steps world) ↔
      ∃ ready level l message fields, Heard channel steps world ready level l message fields ∧
        ready.lineOf l level message fields = .ok line := by
  have isRecord : line ∈ linesOn channel (recordsOf steps world) ↔
      (channel, line) ∈ recordsOf steps world := by
    simp [linesOn]
  rw [isRecord, mem_recordsOf]
  constructor
  · rintro ⟨front, step, back, same, recorded⟩
    obtain ⟨ready, level, l, message, fields, asks, reached, leads, written⟩ :=
      recordOf?_eq_some_iff.mp recorded
    exact ⟨ready, level, l, message, fields,
      ⟨front, step, back, same, asks, reached, leads⟩, written⟩
  · rintro ⟨ready, level, l, message, fields,
      ⟨front, step, back, same, asks, reached, leads⟩, written⟩
    exact ⟨front, step, back, same, recordOf?_eq_some_iff.mpr
      ⟨ready, level, l, message, fields, asks, reached, leads, written⟩⟩

/-- The text of a run on a channel. -/
def saidOn (channel : Channel) (steps : List Step) (world : World) : List Char :=
  (runSteps steps world).1.flatMap fun outcome => outcome.console.on channel

/-- A run leaves as many line breaks on a channel as lines, or more if a line has one inside it. -/
theorem count_saidOn (environment : Environment) (now : Moment) {steps : List Step}
    (each : ∀ step ∈ steps, step.IsLogging) (channel : Channel) {lines : List (List Char)}
    (areLines : linesOn channel (recordsOf steps (.start environment now)) = lines) :
    lines.length ≤ (saidOn channel steps (.start environment now)).count '\n' ∧
      ((saidOn channel steps (.start environment now)).count '\n' = lines.length ↔
        ∀ line ∈ lines, Unbroken line) := by
  obtain ⟨texts, _⟩ := text_runSteps each (levelled_start environment now) Store.holds_empty
  rw [saidOn, texts channel, textOn_eq_flatMap, areLines]
  exact count_flatMap_lines lines

/-- A call of a logger in text form, whose level passes and whose values have texts, writes one
record, which is on one line just if neither the name of the logger nor the message nor the name or
the text of a field has a line break; such a value is a text or a fault. In a run, a channel has as
many lines as records if this holds of every call in text form that is written there, and more lines
than records if it fails of one. -/
theorem breaks_of_run (environment : Environment) (now : Moment) {start : World}
    (starts : start = .start environment now) {steps : List Step}
    (each : ∀ step ∈ steps, step.IsLogging) (channel : Channel) :
    (∀ {world : World} {operation : LoggerOperation} {level : Level} {arguments : List Value}
        {keywords : Keywords} {l : Logger} {message : Value} {fields : Keywords}
        {context : List (String × Value)} {name said : String} {texts : String → String},
      operation.level? = some level →
      world.asked? arguments keywords = some (l, message, fields) →
      world.Spells l message fields context name said texts →
      l.passes level = .ok true →
      world.store.channelOf? l.sink = some channel →
      ∃ line,
        (performLogger operation arguments keywords).runFrom world =
          (.ok .null, world.written l.sink channel line) ∧
        (∀ other, (world.written l.sink channel line).console.on other =
          world.console.on other ++ if other = channel then line ++ ['\n'] else []) ∧
        (Unbroken line ↔ Smooth name said (namesOf context fields) texts) ∧
        ∀ key v, valueUnder? context fields key = some v → ¬Unbroken (texts key).toList →
          (∃ s, world.store.settled v = .text s ∧ ¬Unbroken s.toList) ∨
            ∃ t, world.store.settled v = .thrown t) ∧
    ((∀ ready level l message fields,
        Heard channel steps start ready level l message fields →
          (ready.store.settled l.asDocument).truthy? = some true ∨
          ∃ context name said texts, ready.Spells l message fields context name said texts ∧
            Smooth name said (namesOf context fields) texts) →
      (saidOn channel steps start).count '\n' =
        (linesOn channel (recordsOf steps start)).length) ∧
    ∀ ready level l message fields context name said texts,
      Heard channel steps start ready level l message fields →
      ready.Spells l message fields context name said texts →
      ¬Smooth name said (namesOf context fields) texts →
      (linesOn channel (recordsOf steps start)).length <
        (saidOn channel steps start).count '\n' := by
  subst starts
  obtain ⟨atLeast, same⟩ := count_saidOn environment now each channel rfl
  refine ⟨?_, ?_, ?_⟩
  · intro world operation level arguments keywords l message fields context name said texts
      writes asked spells passes leads
    exact ⟨_, spells.runFrom_write writes asked passes leads,
      fun other => Console.on_writeLine _ _ _ _, unbroken_spelledLine,
      fun key v isUnder broken => Value.broken_plain (spells.shown key v isUnder) broken⟩
  · intro smooth
    refine same.mpr fun line isLine => ?_
    obtain ⟨ready, level, l, message, fields, heard, written⟩ := mem_linesOn.mp isLine
    rcases smooth ready level l message fields heard with inDocuments |
      ⟨context, name, said, texts, spells, isSmooth⟩
    · exact unbroken_lineOf_document inDocuments line written
    · rw [spells.lineOf_eq] at written
      cases written
      exact unbroken_spelledLine.mpr isSmooth
  · intro ready level l message fields context name said texts heard spells broken
    -- As many line breaks as records would leave none for the inside of a line.
    refine lt_of_le_of_ne atLeast fun equal => broken ?_
    have isLine := mem_linesOn.mpr
      ⟨ready, level, l, message, fields, heard, spells.lineOf_eq level⟩
    exact unbroken_spelledLine.mp (same.mp equal.symm _ isLine)

/-- A step asks for one message only. -/
theorem Asks.unique {step : Step} {ready other : World} {level another : Level} {l k : Logger}
    {message said : Value} {fields given : Keywords}
    (asks : Asks step world ready level l message fields)
    (asksToo : Asks step world other another k said given) :
    other = ready ∧ another = level ∧ k = l ∧ said = message ∧ given = fields := by
  obtain ⟨_, _, _, isOperation, writes, made, asked⟩ := asks
  obtain ⟨_, _, _, isOperationToo, writesToo, madeToo, askedToo⟩ := asksToo
  cases isOperation.symm.trans isOperationToo
  cases writes.symm.trans writesToo
  cases made.symm.trans madeToo
  cases asked.symm.trans askedToo
  exact ⟨rfl, rfl, rfl, rfl, rfl⟩

/-- The world before any step. -/
def notingStart : World := .start ⟨[]⟩ ⟨2024, 2, 29, 1, 2, 3, 0⟩

/-- Makes a logger in text form. -/
def makingStep : Step := ⟨some (.logger .make), [.scalar (.text "n")], [], some "a"⟩

/-- Lets it write a message, with a field that holds a line break. -/
def notingStep (message : String) : Step :=
  ⟨some (.logger .info), [.variable "a", .scalar (.text message)],
    [("k", .some (.scalar (.text "p\nq")))], none⟩

/-- The world in which the logger is asked to write. -/
def notingWorld : World :=
  ⟨{ Store.empty with loggers := #[⟨.text "n", .int 20, .bool false, [], .null⟩] },
    ⟨[]⟩, ⟨2024, 2, 29, 1, 2, 3, 0⟩, [("a", .handle .logger 0)], .blank, []⟩

private theorem asks_notingStep (message : String) :
    Asks (notingStep message) (runSteps [makingStep] notingStart).2 notingWorld .info
      ⟨.text "n", .int 20, .bool false, [], .null⟩ (.text message)
      [("k", .option (.ok (.text "p\nq")))] := by
  refine ⟨.info, [.handle .logger 0, .text message], _, rfl, rfl, rfl, ?_⟩
  exact asked?_of_names rfl _ (by simp)

private theorem spells_notingStep (message : String) :
    notingWorld.Spells ⟨.text "n", .int 20, .bool false, [], .null⟩ (.text message)
      [("k", .option (.ok (.text "p\nq")))] [] "n" message fun _ => "Some('p\\nq')" := by
  refine ⟨rfl, rfl, plain_text message, rfl, .nil, by decide, ?_⟩
  intro key v isUnder
  obtain ⟨-, rfl⟩ := valueUnder?_single.mp isUnder
  rfl

/-- A line break in the text of an option does no harm, one in a message makes a second line. -/
theorem breaks_of_run_noted :
    (∃ line,
      (performLogger .info [.handle .logger 0, .text "x"]
        [("k", .option (.ok (.text "p\nq")))]).runFrom notingWorld =
          (.ok .null, notingWorld.written .null .errors line) ∧ Unbroken line) ∧
    (saidOn .errors [makingStep, notingStep "x"] notingStart).count '\n' = 1 ∧
    1 < (saidOn .errors [makingStep, notingStep "x\ny"] notingStart).count '\n' := by
  have each : ∀ message, ∀ step ∈ [makingStep, notingStep message], step.IsLogging := by
    intro message
    simp [makingStep, notingStep, Step.IsLogging]
  have smooth : Smooth "n" "x" (namesOf [] [("k", .option (.ok (.text "p\nq")))])
      fun _ => "Some('p\\nq')" := by
    refine ⟨by decide, by decide, fun field member => ?_⟩
    obtain rfl : field = "k" := by simpa [namesOf] using member
    decide
  have writes : LoggerOperation.info.level? = some .info := rfl
  have asked : notingWorld.asked? [.handle .logger 0, .text "x"]
      [("k", .option (.ok (.text "p\nq")))] = some (_, .text "x", _) :=
    asked?_of_names rfl _ (by simp)
  obtain ⟨single, smoothRun, -⟩ :=
    breaks_of_run ⟨[]⟩ ⟨2024, 2, 29, 1, 2, 3, 0⟩ rfl (each "x") .errors
  obtain ⟨-, -, brokenRun⟩ :=
    breaks_of_run ⟨[]⟩ ⟨2024, 2, 29, 1, 2, 3, 0⟩ rfl (each "x\ny") .errors
  obtain ⟨line, performed, -, unbroken, -⟩ :=
    single writes asked (spells_notingStep "x") rfl rfl
  have records : (linesOn .errors (recordsOf [makingStep, notingStep "x"] notingStart)).length =
      1 := by decide +kernel
  have recordsToo : (linesOn .errors (recordsOf [makingStep, notingStep "x\ny"]
      notingStart)).length = 1 := by decide +kernel
  refine ⟨⟨line, performed, unbroken.mpr smooth⟩, ?_, ?_⟩
  · refine (smoothRun ?_).trans records
    rintro ready level l message fields ⟨front, step, back, same, asks, -, -⟩
    rcases front with _ | ⟨_, _ | ⟨_, _ | ⟨_, front⟩⟩⟩
    · cases same
      obtain ⟨_, _, _, isOperation, writes, -, -⟩ := asks
      cases isOperation
      cases writes
    · cases same
      obtain ⟨rfl, rfl, rfl, rfl, rfl⟩ := (asks_notingStep "x").unique asks
      exact .inr ⟨_, _, _, _, spells_notingStep "x", smooth⟩
    · cases same
    · cases same
  · have heard : Heard .errors [makingStep, notingStep "x\ny"] _ _ _ _ _ _ :=
      ⟨[makingStep], _, [], rfl, asks_notingStep "x\ny", rfl, rfl⟩
    refine recordsToo.symm.trans_lt
      (brokenRun _ _ _ _ _ _ _ _ _ heard (spells_notingStep "x\ny") ?_)
    exact fun broken => absurd broken.ofMessage (by decide)

/-- A message with a line break makes two lines of one record, the second one any line at all. -/
theorem runFrom_write_forged :
    (performLogger .info [.handle .logger 0,
        .text "x\n[2024-02-29T01:02:03+00:00] n ERROR: y"] []).runFrom notingWorld =
      (.ok .null, notingWorld.written .null .errors
        ("[2024-02-29T01:02:03+00:00] n INFO: x\n".toList
          ++ "[2024-02-29T01:02:03+00:00] n ERROR: y".toList)) ∧
      ¬Unbroken ("[2024-02-29T01:02:03+00:00] n INFO: x\n".toList
        ++ "[2024-02-29T01:02:03+00:00] n ERROR: y".toList) :=
  ⟨rfl, by decide⟩

end Presence.Session
