import Presence.Proofs.Kinds.GoingThrough
import Presence.Proofs.Logger.Documents
import Presence.Proofs.Logger.Levels
import Presence.Proofs.Value.Named

/-!
Contract: fields that are bound are fields that are passed.

Owns: merging fields one after the other and together (`merge_overlaid`); the line of a bound logger
(`lineOf_bind`); that writing does not look at other loggers (`writeTo_cases`); `bind_is_passing`.

Does not own: what one operation does (`Presence.Proofs.Logger.Operations`).

The bound fields of a logger may stand under any keys. The fields that come later stand under names,
and a name is never found under another key.
-/

namespace Presence.Logger

open Json (entriesOf)

variable {context : List (Value × Value)} {fields others : List (String × Value)} {name : String}

/-- A value under a name that is there and not among the fields is put before or behind them. -/
private theorem putStored_merge (present : .text name ∈ context.map Prod.fst)
    (fresh : name ∉ fields.map Prod.fst) (v : Value) :
    Value.putStored (.text name) v (merge context (entriesOf fields)) =
      merge (Value.putStored (.text name) v context) (entriesOf fields) := by
  induction fields generalizing context with
  | nil => rfl
  | cons field rest inductionHypothesis =>
      simp only [List.map_cons, List.mem_cons, not_or] at fresh
      have stays : .text name ∈ (Value.putStored (.text field.1) field.2 context).map Prod.fst :=
        (Value.mem_keys_putStored field.2).mpr (.inl present)
      show Value.putStored _ v (merge (Value.putStored (.text field.1) field.2 context)
        (entriesOf rest)) = merge (Value.putStored (.text field.1) field.2 _) (entriesOf rest)
      rw [inductionHypothesis stays fresh.2, Value.putStored_comm (Ne.symm fresh.1) present]

/-- A field that is put among others is put behind them as well. -/
private theorem merge_putStored (distinct : (fields.map Prod.fst).Nodup) (name : String)
    (v : Value) :
    merge context (Value.putStored (.text name) v (entriesOf fields)) =
      Value.putStored (.text name) v (merge context (entriesOf fields)) := by
  induction fields generalizing context with
  | nil => rfl
  | cons field rest inductionHypothesis =>
      obtain ⟨first, held⟩ := field
      obtain ⟨fresh, others⟩ := List.nodup_cons.mp distinct
      have behind : merge context (entriesOf ((first, held) :: rest)) =
          merge (Value.putStored (.text first) held context) (entriesOf rest) := rfl
      rw [putStored_cons, behind]
      by_cases isFirst : first = name
      · subst isFirst
        have present : .text first ∈ (Value.putStored (.text first) held context).map Prod.fst :=
          (Value.mem_keys_putStored held).mpr (.inr rfl)
        rw [if_pos rfl, putStored_merge present fresh, Value.putStored_again]
        rfl
      · rw [if_neg isFirst]
        exact inductionHypothesis others

/-- Fields that are merged one after the other are merged with the later ones over the earlier. -/
theorem merge_overlaid (context : List (Value × Value)) (distinct : (fields.map Prod.fst).Nodup)
    (distinctOthers : (others.map Prod.fst).Nodup) :
    merge context (entriesOf (overlaid fields others)) =
      merge (merge context (entriesOf fields)) (entriesOf others) := by
  induction others using List.reverseRecOn with
  | nil => simp [merge, overlaid, entriesOf]
  | append_singleton front last inductionHypothesis =>
      obtain ⟨name, v⟩ := last
      rw [List.map_append, List.nodup_append] at distinctOthers
      have fresh : name ∉ front.map Prod.fst := by
        intro member
        exact distinctOthers.2.2 name member name (by simp) rfl
      have merged := nodup_overlaid distinct distinctOthers.1
      rw [← overlaid_concat fields front v fresh, ← putStored_eq_overlaid name v merged,
        merge_putStored merged, inductionHypothesis distinctOthers.1]
      simp [merge, entriesOf]

/-- What holds of all names still does when fields are put over others. -/
theorem names_overlaid {P : String → Prop} (each : ∀ field ∈ fields ++ others, P field.1) :
    ∀ field ∈ overlaid fields others, P field.1 := by
  intro field member
  have named : field.1 ∈ (fields ++ others).map Prod.fst := by
    have present := List.mem_map_of_mem (f := Prod.fst) member
    rw [map_fst_overlaid, List.mem_append, List.mem_filter] at present
    rw [List.map_append, List.mem_append]
    exact present.imp_right And.left
  obtain ⟨other, isOther, same⟩ := List.mem_map.mp named
  exact same ▸ each other isOther

end Presence.Logger

namespace Presence.Session

open Attempt Run Logger

/-! ## Lines -/

/-- Entries with their lists read back. -/
def Store.settledEntries (store : Store) (entries : List (Value × Value)) : List (Value × Value) :=
  entries.map fun entry => (store.settled entry.1, store.settled entry.2)

private theorem settledEntries_putStored (store : Store) (name : String) (v : Value)
    (entries : List (Value × Value)) :
    store.settledEntries (Value.putStored (.text name) v entries) =
      Value.putStored (.text name) (store.settled v) (store.settledEntries entries) := by
  induction entries with
  | nil => rfl
  | cons entry rest inductionHypothesis =>
      obtain ⟨key, held⟩ := entry
      by_cases isHere : key = .text name
      · subst isHere
        rw [Value.putStored_here]
        exact (Value.putStored_here _ _).symm
      · have isOther : store.settled key ≠ .text name := mt eq_scalar_of_settled isHere
        rw [Value.putStored_behind isHere]
        refine Eq.trans ?_ (Value.putStored_behind isOther _).symm
        exact congrArg (List.cons _) inductionHypothesis

/-- Fields under names are read back before or after they are merged. -/
private theorem settledEntries_merge (store : Store) (context : List (Value × Value))
    (fields : Keywords) :
    store.settledEntries (merge context (entriesFor fields)) =
      merge (store.settledEntries context) (store.settledEntries (entriesFor fields)) := by
  induction fields generalizing context with
  | nil => rfl
  | cons field rest inductionHypothesis =>
      have step := settledEntries_putStored store field.1 field.2 context
      show store.settledEntries (merge (Value.putStored (.text field.1) field.2 context)
        (entriesFor rest)) = merge (Value.putStored (.text field.1) (store.settled field.2)
          (store.settledEntries context)) (store.settledEntries (entriesFor rest))
      rw [inductionHypothesis, step]

/-- The fields of a call are read back as entries. -/
theorem settledEntries_entriesFor (store : Store) (keywords : Keywords) :
    keywords.map (fun field => (Value.text field.1, store.settled field.2)) =
      store.settledEntries (entriesFor keywords) := by
  rw [Store.settledEntries, entriesFor, List.map_map]
  rfl

/-- The line of a logger shows its merged fields, whichever of them are bound. -/
theorem lineOf_bind (world : World) (l : Logger) (level : Level) (message : Value)
    {fields others : Keywords} (distinct : (fields.map Prod.fst).Nodup)
    (distinctOthers : (others.map Prod.fst).Nodup) :
    world.lineOf (l.bind (entriesFor fields)) level message others =
      world.lineOf l level message (overlaid fields others) := by
  have merged : merge (world.store.observed (l.bind (entriesFor fields))).context
      (world.store.settledEntries (entriesFor others)) =
        merge (world.store.observed l).context
          (world.store.settledEntries (entriesFor (overlaid fields others))) := by
    show merge (world.store.settledEntries (merge l.context (entriesFor fields))) _ =
      merge (world.store.settledEntries l.context) _
    rw [← settledEntries_merge, ← settledEntries_merge]
    exact congrArg _ (merge_overlaid l.context distinct distinctOthers).symm
  unfold World.lineOf Logger.line
  simp only [settledEntries_entriesFor, merged]
  rfl

/-- The line of a message does not depend on the loggers that there are. -/
private theorem lineOf_withLoggers (world : World) (loggers : Array Logger) (l : Logger)
    (level : Level) (message : Value) (fields : Keywords) :
    (world.withLoggers loggers).lineOf l level message fields =
      world.lineOf l level message fields := by
  have same : (world.withLoggers loggers).store.lists = world.store.lists := rfl
  unfold World.lineOf Store.observed
  simp only [settled_of_lists same]
  rfl

/-- A line is written, or refused with the world left as it is, whatever loggers there are. -/
theorem writeTo_cases (sink : Value) (line : List Char) (world : World) :
    (∃ fault, ∀ loggers, (writeTo sink line).runFrom (world.withLoggers loggers) =
      (.error fault, world.withLoggers loggers)) ∨
    ∃ after, ∀ loggers, (writeTo sink line).runFrom (world.withLoggers loggers) =
      (.ok (), World.withLoggers after loggers) := by
  unfold writeTo
  split
  · exact .inr ⟨{ world with console := world.console.writeLine .errors line }, fun _ => rfl⟩
  · next number =>
      have opened := fun loggers => runFrom_openStreamAt number .transfer
        (world.withLoggers loggers)
      have there : ∀ loggers, (world.withLoggers loggers).store.streamAt number =
        world.store.streamAt number := fun _ => rfl
      simp only [there] at opened
      unfold writeToStream
      by_cases isClosed : (world.store.streamAt number).isClosed = true
      · simp only [if_pos isClosed] at opened
        exact .inl ⟨_, fun loggers => runFrom_bind_of_error _ (opened loggers)⟩
      · simp only [if_neg isClosed] at opened
        right
        let written : Store := { world.store with
          streams := world.store.streams.setIfInBounds number
            ((world.store.streamAt number).write (line ++ ['\n'])) }
        cases named : (world.store.streamAt number).name with
        | none =>
            refine ⟨{ world with store := written }, fun loggers => ?_⟩
            rw [runFrom_bind_of_ok _ (opened loggers), named]
            rfl
        | some name =>
            refine ⟨{ world with
              store := written
              console := world.console.writeLine (.named name) line }, fun loggers => ?_⟩
            rw [runFrom_bind_of_ok _ (opened loggers), named]
            rfl
  · exact .inl ⟨_, fun _ => rfl⟩
  · exact .inl ⟨_, fun _ => rfl⟩

/-! ## Binding and passing -/

/-- A call of a bound logger is the call of the logger that it was bound to, with the bound fields
under those of the call: it comes to the same, and writes the same or nothing. -/
theorem runFrom_write_bind {operation : LoggerOperation} {importance : Level}
    (writes : operation.level? = some importance) {world : World} {number child : Nat}
    {l : Logger} (found : world.store.loggers[number]? = some l) {level : Level}
    (isLevel : l.threshold = .int level.number) {fields others : Keywords}
    (distinct : (fields.map Prod.fst).Nodup) (distinctOthers : (others.map Prod.fst).Nodup)
    (allowed : ∀ field ∈ fields ++ others, field.1 ∉ ["self", "msg", "level"])
    (loggers : Array Logger)
    (isChild : loggers[child]? = some (l.bind (entriesFor fields))) (message : Value) :
    ∃ outcome after,
      (performLogger operation [.handle .logger number, message]
        (overlaid fields others)).runFrom world = (outcome, after) ∧
      (performLogger operation [.handle .logger child, message] others).runFrom
        (world.withLoggers loggers) = (outcome, after.withLoggers loggers) ∧
      ∀ fault, outcome = .error fault → after = world := by
  have asked := asked?_of_names found message
    (names_overlaid (P := fun name => name ∉ ["self", "msg", "level"]) allowed)
  have askedChild : (world.withLoggers loggers).asked? [.handle .logger child, message] others =
      some (l.bind (entriesFor fields), message, others) :=
    asked?_of_names isChild message fun field member =>
      allowed field (List.mem_append_right _ member)
  have passes : (l.bind (entriesFor fields)).passes importance = l.passes importance := by
    rw [bind_of_threshold isLevel]
    rfl
  rw [runFrom_write writes asked, runFrom_write writes askedChild, passes, lineOf_withLoggers,
    lineOf_bind world l importance message distinct distinctOthers]
  rcases l.passes importance with fault | _ | _
  · exact ⟨.error fault, world, rfl, rfl, fun _ _ => rfl⟩
  · exact ⟨.ok .null, world, rfl, rfl, nofun⟩
  · dsimp only
    rcases world.lineOf l importance message (overlaid fields others) with fault | line
    · exact ⟨.error fault, world, rfl, rfl, fun _ _ => rfl⟩
    · rcases writeTo_cases l.sink line world with ⟨fault, refused⟩ | ⟨after, written⟩
      · exact ⟨.error fault, world, runFrom_bind_of_error _ (refused world.store.loggers),
          runFrom_bind_of_error _ (refused loggers), fun _ _ => rfl⟩
      · exact ⟨.ok .null, after.withLoggers world.store.loggers,
          runFrom_bind_of_ok _ (written world.store.loggers),
          runFrom_bind_of_ok _ (written loggers), nofun⟩

/-- Fields that are bound one after the other are bound together, the later ones over the earlier;
everything but its fields a bound logger has from the first. Fields that are bound are passed: a
message with other fields comes to the same as the message of the first logger with these fields
over the bound ones. The world is left the same but for the loggers that there are, and as it was
if the message fails. -/
theorem bind_is_passing {world : World} {number : Nat} {l : Logger}
    (found : world.store.loggers[number]? = some l) {level : Level}
    (isLevel : l.threshold = .int level.number) {fields others : Keywords}
    (distinct : (fields.map Prod.fst).Nodup) (distinctOthers : (others.map Prod.fst).Nodup)
    (allowed : ∀ field ∈ fields ++ others, field.1 ≠ "self") :
    ∃ (bound : Logger) (one two both : World),
      bound = { l with context := merge l.context (entriesFor (overlaid fields others)) } ∧
      (performLogger .bind [.handle .logger number] fields).runFrom world =
        (.ok (.handle .logger world.store.loggers.size), one) ∧
      (performLogger .bind [.handle .logger world.store.loggers.size] others).runFrom one =
        (.ok (.handle .logger one.store.loggers.size), two) ∧
      two.store.loggers[one.store.loggers.size]? = some bound ∧
      (performLogger .bind [.handle .logger number] (overlaid fields others)).runFrom world =
        (.ok (.handle .logger world.store.loggers.size), both) ∧
      both.store.loggers[world.store.loggers.size]? = some bound ∧
      ((∀ field ∈ fields ++ others, field.1 ∉ ["self", "msg", "level"]) →
        ∀ operation importance message, operation.level? = some importance →
          ∃ outcome after,
            (performLogger operation [.handle .logger number, message]
              (overlaid fields others)).runFrom world = (outcome, after) ∧
            (performLogger operation [.handle .logger world.store.loggers.size, message]
              others).runFrom one = (outcome, after.withLoggers one.store.loggers) ∧
            ∀ fault, outcome = .error fault → after = world) := by
  have isChild : (world.store.loggers.push (l.bind (entriesFor fields)))[
      world.store.loggers.size]? = some (l.bind (entriesFor fields)) := Array.getElem?_push_size
  have childLevel : (l.bind (entriesFor fields)).threshold = .int level.number := by
    rw [bind_of_threshold isLevel]
    exact isLevel
  refine ⟨_, _, _, _, rfl, runFrom_bindLogger found fun field member =>
    allowed field (List.mem_append_left _ member), runFrom_bindLogger isChild fun field member =>
    allowed field (List.mem_append_right _ member), ?_,
    runFrom_bindLogger found (names_overlaid (P := fun name => name ≠ "self") allowed), ?_, ?_⟩
  · refine Array.getElem?_push_size.trans (congrArg some ?_)
    rw [bind_of_threshold childLevel, bind_of_threshold isLevel]
    exact congrArg (fun context => { l with context := context })
      (merge_overlaid l.context distinct distinctOthers).symm
  · refine Array.getElem?_push_size.trans (congrArg some ?_)
    exact bind_of_threshold isLevel _
  · intro names operation importance message writes
    exact runFrom_write_bind writes found isLevel distinct distinctOthers names _ isChild message

/-- Names are in the context, among the bound fields and among those of the call. -/
theorem bind_is_passing_overlapping :
    ∃ one : World,
      (performLogger .bind [.handle .logger 0] [("k", .int 1), ("n", .null)]).runFrom
        documentWorld = (.ok (.handle .logger 1), one) ∧
      ∃ outcome after,
        (performLogger .warn [.handle .logger 0, .text "m"]
          [("k", .int 2), ("n", .text "é"), ("z", .bool false)]).runFrom documentWorld =
            (outcome, after) ∧
        (performLogger .warn [.handle .logger 1, .text "m"]
          [("n", .text "é"), ("z", .bool false), ("k", .int 2)]).runFrom one =
            (outcome, after.withLoggers one.store.loggers) ∧
        ∀ fault, outcome = .error fault → after = documentWorld := by
  have together : overlaid [("k", .int 1), ("n", .null)]
      [("n", .text "é"), ("z", .bool false), ("k", .int 2)] =
        [("k", .int 2), ("n", .text "é"), ("z", .bool false)] := by
    simp [overlaid, List.lookup_cons]
  have found : documentWorld.store.loggers[0]? = some documentLogger := rfl
  have isLevel : documentLogger.threshold = .int Level.debug.number := rfl
  have distinct : (([("k", .int 1), ("n", .null)] : Keywords).map Prod.fst).Nodup := by decide
  have distinctOthers :
      (([("n", .text "é"), ("z", .bool false), ("k", .int 2)] : Keywords).map
        Prod.fst).Nodup := by decide
  obtain ⟨_, one, _, _, _, binds, _, _, _, _, passes⟩ :=
    bind_is_passing found isLevel distinct distinctOthers (by simp)
  rw [together] at passes
  exact ⟨one, binds, passes (by simp) .warn .warn (.text "m") rfl⟩

end Presence.Session
