import Presence.Proofs.Logger.Binding
import Presence.Proofs.Logger.TextLines
import Presence.Proofs.Value.OwnText

/-!
Contract: fields that are options, in the two forms of a line.

Owns: `Store.openedEntries`, fields with their options replaced by what they hold; that a line in
document form shows these only (`lineOf_of_opened`), and a line in text form never does
(`spelledLine_ne`); `runFrom_write_options`.

Does not own: erasure (`Presence.Proofs.Json.Erasure`) and the texts of options
(`Presence.Proofs.Value.OwnText`).
-/

namespace Presence.Logger

open Value

/-! ## Documents -/

private theorem erasedEntries_putStored (key v : Value) (entries : List (Value × Value)) :
    erasedEntries (putStored key v entries) = putStored key v.erased (erasedEntries entries) := by
  induction entries with
  | nil => rfl
  | cons entry rest inductionHypothesis =>
      obtain ⟨first, held⟩ := entry
      rw [putStored, erasedEntries, putStored]
      split
      · rfl
      · rw [erasedEntries, inductionHypothesis]

/-- Options are replaced before or after fields are merged. -/
private theorem erasedEntries_merge (fields others : List (Value × Value)) :
    erasedEntries (merge fields others) = merge (erasedEntries fields) (erasedEntries others) := by
  induction others generalizing fields with
  | nil => rfl
  | cons other rest inductionHypothesis =>
      obtain ⟨key, v⟩ := other
      have first := erasedEntries_putStored key v fields
      show erasedEntries (merge (putStored key v fields) rest) =
        merge (putStored key v.erased (erasedEntries fields)) (erasedEntries rest)
      rw [inductionHypothesis, first]

/-- What is left of the document of a line depends on what is left of its fields. -/
private theorem erased_recordOf (l : Logger) (moment : Moment) (level : Level) (message : Value)
    {fields others : List (Value × Value)} (same : erasedEntries fields = erasedEntries others) :
    (l.recordOf moment level message fields).erased =
      (l.recordOf moment level message others).erased := by
  cases fields with
  | nil =>
      cases others with
      | nil => rfl
      | cons other rest => cases same
  | cons field rest =>
      cases others with
      | nil => cases same
      | cons other behind =>
          show Value.dictionary (_ :: _ :: _ :: _ :: [(.text "fields",
            .dictionary (erasedEntries (field :: rest)))]) = _
          rw [same]
          rfl

/-- The document of a line shows what is left of its fields. -/
private theorem write_recordOf (l : Logger) (moment : Moment) (level : Level) (message : Value)
    {fields others : List (Value × Value)} (same : erasedEntries fields = erasedEntries others) :
    Json.write .compact (l.recordOf moment level message fields) =
      Json.write .compact (l.recordOf moment level message others) := by
  have opens : Json.Style.compact.opensOptions = true := rfl
  rw [← Json.write_of_erased opens, erased_recordOf l moment level message same,
    Json.write_of_erased opens]

/-! ## Texts -/

/-- Two lines that differ in the text of one field differ. -/
theorem spelledLine_ne {moment : Moment} {level : Level} {name message : String}
    {names : List String} {texts others : String → String} {key : String}
    (distinct : names.Nodup) (member : key ∈ names)
    (same : ∀ other ∈ names, other ≠ key → others other = texts other)
    (differ : others key ≠ texts key) :
    spelledLine moment level name message names others ≠
      spelledLine moment level name message names texts := by
  obtain ⟨front, back, rfl⟩ := List.append_of_mem member
  obtain ⟨_, distinctBack, apart⟩ := List.nodup_append.mp distinct
  -- Before the field and behind it the lines are the same, so its text must tell them apart.
  have spelled : ∀ other ∈ front ++ key :: back, other ≠ key →
      spelledField others other = spelledField texts other := by
    intro other isName isOther
    rw [spelledField, same other isName isOther, spelledField]
  have before : front.flatMap (spelledField others) = front.flatMap (spelledField texts) :=
    List.flatMap_congr fun other isFront => spelled other (List.mem_append_left _ isFront)
      (apart other isFront key List.mem_cons_self)
  have behind : back.flatMap (spelledField others) = back.flatMap (spelledField texts) := by
    refine List.flatMap_congr fun other isBack => spelled other ?_ ?_
    · exact List.mem_append_right _ (List.mem_cons_of_mem _ isBack)
    · rintro rfl
      exact (List.nodup_cons.mp distinctBack).1 isBack
  intro equal
  simp only [spelledLine, List.flatMap_append, List.flatMap_cons, before, behind, spelledField,
    List.cons.injEq, List.cons_append, List.append_assoc, List.append_cancel_left_eq,
    List.append_cancel_right_eq, String.toList_inj, true_and] at equal
  exact differ equal

end Presence.Logger

namespace Presence.Session

open Attempt Run Logger
open Json (entriesOf)

/-- Entries as they are observed, with their options replaced by what they hold, or by nothing. -/
def Store.openedEntries (store : Store) (entries : List (Value × Value)) : List (Value × Value) :=
  Value.erasedEntries (store.settledEntries entries)

/-- An option is replaced by its payload. -/
theorem openedEntries_some (store : Store) (key v : Value) (rest : List (Value × Value)) :
    store.openedEntries ((key, .option (.ok v)) :: rest) = store.openedEntries ((key, v) :: rest) :=
  rfl

/-- An absent option is replaced by nothing. -/
theorem openedEntries_notOk (store : Store) (key kind : Value) (rest : List (Value × Value)) :
    store.openedEntries ((key, .option (.notOk kind)) :: rest) =
      store.openedEntries ((key, .null) :: rest) := rfl

variable {world : World} {l : Logger} {message : Value} {fields others : Keywords}

/-- A line in document form is that of the fields with their options replaced by what they hold. -/
theorem lineOf_of_opened (inDocuments : (world.store.settled l.asDocument).truthy? = some true)
    {another : List (Value × Value)}
    (sameContext : world.store.openedEntries another = world.store.openedEntries l.context)
    (sameFields : world.store.openedEntries (entriesFor others) =
      world.store.openedEntries (entriesFor fields)) (level : Level) (message : Value) :
    world.lineOf { l with context := another } level message others =
      world.lineOf l level message fields := by
  have isDocument : ∀ context,
      (world.store.observed { l with context := context }).asDocument.truthy? = some true :=
    fun _ => inDocuments
  have merged : Value.erasedEntries (merge (world.store.settledEntries another)
      (world.store.settledEntries (entriesFor others))) =
        Value.erasedEntries (merge (world.store.settledEntries l.context)
          (world.store.settledEntries (entriesFor fields))) := by
    rw [erasedEntries_merge, erasedEntries_merge]
    exact congrArg₂ merge sameContext sameFields
  unfold World.lineOf Logger.line
  rw [settledEntries_entriesFor, settledEntries_entriesFor, isDocument another,
    isDocument l.context]
  exact write_recordOf (world.store.observed l) world.now level (world.store.settled message) merged

/-- The text of an option is its own in a line in text form, whatever it holds. -/
theorem World.Spells.text_option {context : List (String × Value)} {name said : String}
    {texts : String → String} (spells : world.Spells l message fields context name said texts)
    {key : String} {v : Value} (isUnder : valueUnder? context fields key = some v) :
    (∀ payload, world.store.settled v = .option (.ok payload) →
      ∃ inner, payload.shown = .ok inner ∧
        (texts key).toList = Value.inside "Some(" ")" inner.toList) ∧
    ∀ kind, world.store.settled v = .option (.notOk kind) → texts key = "NotOk()" := by
  have shown := spells.shown key v isUnder
  constructor
  · intro payload isOption
    rw [isOption] at shown
    exact Value.plain_some shown
  · intro kind isOption
    rw [isOption, Value.plain_notOk] at shown
    exact (Except.ok.inj shown).symm

/-- Lines in text form that have an option and what it holds under the same name differ. -/
theorem World.Spells.line_ne {context another : List (String × Value)} {name said : String}
    {texts otherTexts : String → String} {k : Logger}
    (spells : world.Spells l message fields context name said texts)
    (spellsToo : world.Spells k message others another name said otherTexts)
    {key : String} {v w : Value} {o : Optional Value Value}
    (isUnder : valueUnder? context fields key = some v)
    (isOption : world.store.settled v = .option o)
    (replaces : ∀ other, valueUnder? another others other =
      if other = key then some w else valueUnder? context fields other)
    (isHeld : world.store.settled w = o.toNullable) (level : Level) :
    spelledLine world.now level name said (namesOf another others) otherTexts ≠
      spelledLine world.now level name said (namesOf context fields) texts := by
  have names : namesOf another others = namesOf context fields := by
    refine (pairwise_namesOf another others).eq_of_mem_iff (pairwise_namesOf context fields) ?_
    intro other
    rw [mem_namesOf, mem_namesOf, replaces]
    split
    · next same =>
        subst same
        simp [isUnder]
    · rfl
  have present : key ∈ namesOf context fields := mem_namesOf.mpr ⟨v, isUnder⟩
  rw [names]
  apply spelledLine_ne ((pairwise_namesOf context fields).imp ne_of_lt) present
  · intro other isName isOther
    obtain ⟨u, isThere⟩ := mem_namesOf.mp isName
    have isThereToo : valueUnder? another others other = some u := by
      rw [replaces, if_neg isOther, isThere]
    have told := spells.shown other u isThere
    rw [spellsToo.shown other u isThereToo] at told
    exact Except.ok.inj told
  · have told := spells.shown key v isUnder
    have toldToo := spellsToo.shown key w (by rw [replaces, if_pos rfl])
    rw [isOption] at told
    rw [isHeld] at toldToo
    exact (Value.plain_option_ne o told toldToo).symm

/-- Two calls whose fields are the same but for options in the place of what they hold: In document
form they do the same, so that an option is shown as its payload, or as nothing where there is none,
whether it is bound or given, and however deep it lies. In text form they never write the same line:
an option is shown there by its own text. -/
theorem runFrom_write_options {operation : LoggerOperation} {level : Level}
    (writes : operation.level? = some level) {arguments arguments' : List Value}
    {keywords keywords' : Keywords} {another : List (Value × Value)}
    (asked : world.asked? arguments keywords = some (l, message, fields))
    (askedToo : world.asked? arguments' keywords' =
      some ({ l with context := another }, message, others)) :
    ((world.store.settled l.asDocument).truthy? = some true →
      world.store.openedEntries another = world.store.openedEntries l.context →
      world.store.openedEntries (entriesFor others) =
        world.store.openedEntries (entriesFor fields) →
      (performLogger operation arguments' keywords').runFrom world =
        (performLogger operation arguments keywords).runFrom world) ∧
    ∀ {context context' : List (String × Value)} {name said : String}
      {texts texts' : String → String} {key : String} {v w : Value} {o : Optional Value Value}
      {channel : Channel},
      world.Spells l message fields context name said texts →
      world.Spells { l with context := another } message others context' name said texts' →
      valueUnder? context fields key = some v → world.store.settled v = .option o →
      (∀ other, valueUnder? context' others other =
        if other = key then some w else valueUnder? context fields other) →
      world.store.settled w = o.toNullable →
      l.passes level = .ok true → world.store.channelOf? l.sink = some channel →
      (∀ payload, o = .ok payload → ∃ inner, payload.shown = .ok inner ∧
        (texts key).toList = Value.inside "Some(" ")" inner.toList) ∧
      (∀ kind, o = .notOk kind → texts key = "NotOk()") ∧
      ∃ line line',
        (performLogger operation arguments keywords).runFrom world =
          (.ok .null, world.written l.sink channel line) ∧
        (performLogger operation arguments' keywords').runFrom world =
          (.ok .null, world.written l.sink channel line') ∧
        line' ≠ line := by
  constructor
  · intro inDocuments sameContext sameFields
    have sameLine := lineOf_of_opened inDocuments sameContext sameFields level message
    rw [runFrom_write writes asked, runFrom_write writes askedToo, sameLine]
    rfl
  · intro context context' name said texts texts' key v w o channel spells spellsToo isUnder
      isOption replaces isHeld passes leads
    obtain ⟨ofSome, ofNotOk⟩ := spells.text_option isUnder
    refine ⟨fun payload same => ofSome payload (same ▸ isOption),
      fun kind same => ofNotOk kind (same ▸ isOption), _, _,
      spells.runFrom_write writes asked passes leads,
      spellsToo.runFrom_write writes askedToo passes leads, ?_⟩
    exact spells.line_ne spellsToo isUnder isOption replaces isHeld level

/-- A logger of either form that writes to the stream of errors. -/
def optionLogger (asDocument : Bool) (context : List (String × Value)) : Logger :=
  ⟨.text "n", .int 20, .bool asDocument, entriesOf context, .null⟩

/-- A world with two such loggers in document form, one with an absent option and one with nothing
in its place, and one in text form. -/
def optionWorld : World :=
  ⟨{ Store.empty with
      loggers := #[optionLogger true [("miss", .option (.notOk .null))],
        optionLogger true [("miss", .null)], optionLogger false []] },
    ⟨[]⟩, ⟨2024, 2, 29, 1, 2, 3, 0⟩, [], .blank, []⟩

theorem spells_optionLogger {v : Value} {text : String}
    (told : (optionWorld.store.settled v).plain = .ok text) :
    optionWorld.Spells (optionLogger false []) (.text "m") [("hit", v)] [] "n" "m"
      fun _ => text := by
  refine ⟨rfl, rfl, rfl, rfl, .nil, List.nodup_singleton _, ?_⟩
  intro key held isUnder
  obtain ⟨-, rfl⟩ := valueUnder?_single.mp isUnder
  exact told

theorem asked_optionLogger (number : Nat) {l : Logger}
    (found : optionWorld.store.loggers[number]? = some l) (v : Value) :
    optionWorld.asked? [.handle .logger number, .text "m"] [("hit", v)] =
      some (l, .text "m", [("hit", v)]) :=
  asked?_of_names found _ (by simp)

/-- An option inside an option and an absent one that is bound are opened in document form; in text
form a single option is not. -/
theorem runFrom_write_options_nested :
    (performLogger .info [.handle .logger 1, .text "m"] [("hit", .int 1)]).runFrom optionWorld =
      (performLogger .info [.handle .logger 0, .text "m"]
        [("hit", .option (.ok (.option (.ok (.int 1)))))]).runFrom optionWorld ∧
    ∃ line line',
      (performLogger .info [.handle .logger 2, .text "m"]
        [("hit", .option (.ok (.text "x")))]).runFrom optionWorld =
          (.ok .null, optionWorld.written .null .errors line) ∧
      (performLogger .info [.handle .logger 2, .text "m"] [("hit", .text "x")]).runFrom
        optionWorld = (.ok .null, optionWorld.written .null .errors line') ∧
      line' ≠ line := by
  have writes : LoggerOperation.info.level? = some .info := rfl
  constructor
  · have first := asked_optionLogger 0 rfl (.option (.ok (.option (.ok (.int 1)))))
    have second := asked_optionLogger 1 rfl (.int 1)
    have sameContext := openedEntries_notOk optionWorld.store (.text "miss") .null []
    have sameFields := openedEntries_some optionWorld.store (.text "hit") (.int 1) []
    have opened := openedEntries_some optionWorld.store (.text "hit") (.option (.ok (.int 1))) []
    exact (runFrom_write_options writes first second).1 rfl sameContext.symm
      (opened.trans sameFields).symm
  · have first := asked_optionLogger 2 rfl (.option (.ok (.text "x")))
    have second := asked_optionLogger 2 rfl (.text "x")
    have toldFirst : (optionWorld.store.settled (.option (.ok (.text "x")))).plain =
      .ok "Some('x')" := rfl
    have toldSecond : (optionWorld.store.settled (.text "x")).plain = .ok "x" := rfl
    have isOption : optionWorld.store.settled (.option (.ok (.text "x"))) =
      .option (.ok (.text "x")) := rfl
    have replaces : ∀ other, valueUnder? [] [("hit", .text "x")] other =
        if other = "hit" then some (.text "x")
        else valueUnder? [] [("hit", .option (.ok (.text "x")))] other := by
      intro other
      simp only [valueUnder?, lookup_single]
      split <;> rfl
    exact ((runFrom_write_options writes first second).2 (spells_optionLogger toldFirst)
      (spells_optionLogger toldSecond) rfl isOption replaces rfl rfl rfl).2.2

private theorem runFrom_optionLogger {v : Value} {text : String}
    (told : (optionWorld.store.settled v).plain = .ok text) :
    (performLogger .info [.handle .logger 2, .text "m"] [("hit", v)]).runFrom optionWorld =
      (.ok .null, optionWorld.written .null .errors
        ("[2024-02-29T01:02:03+00:00] n INFO: m hit=".toList ++ text.toList)) := by
  have writes : LoggerOperation.info.level? = some .info := rfl
  have asked := asked_optionLogger 2 rfl v
  have names : namesOf [] [("hit", v)] = ["hit"] := by simp [namesOf]
  have performed := (spells_optionLogger told).runFrom_write writes asked rfl rfl
  rw [names] at performed
  rw [performed]
  simp only [spelledLine, List.flatMap_singleton, spelledField]
  rfl

/-- In text form an option is not shown as its payload. -/
theorem runFrom_write_unopened :
    (performLogger .info [.handle .logger 2, .text "m"]
      [("hit", .option (.ok (.int 1)))]).runFrom optionWorld =
        (.ok .null, optionWorld.written .null .errors
          ("[2024-02-29T01:02:03+00:00] n INFO: m hit=".toList ++ "Some(1)".toList)) ∧
    (performLogger .info [.handle .logger 2, .text "m"] [("hit", .int 1)]).runFrom optionWorld =
      (.ok .null, optionWorld.written .null .errors
        ("[2024-02-29T01:02:03+00:00] n INFO: m hit=".toList ++ "1".toList)) ∧
    "[2024-02-29T01:02:03+00:00] n INFO: m hit=".toList ++ "Some(1)".toList ≠
      "[2024-02-29T01:02:03+00:00] n INFO: m hit=".toList ++ "1".toList :=
  ⟨runFrom_optionLogger rfl, runFrom_optionLogger rfl, by decide⟩

end Presence.Session
