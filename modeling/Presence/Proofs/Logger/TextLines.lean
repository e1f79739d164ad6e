import Mathlib.Data.Finset.Sort
import Mathlib.Data.String.Basic
import Presence.Proofs.Logger.Documents
import Presence.Proofs.Sort.Levels

/-!
Contract: a line in text form shows each field once, in the order of the names, and looks at no
value but for its text.

Owns: `valueUnder?`, the value of a field by its name, and `namesOf`, the names in their order; that
fields under names are sorted by these alone (`sortedFields_entriesOf`); `spelledLine`, a line by
its parts, and `World.Spells`, the texts that they have; `runFrom_write_text`.

Does not own: merging (`Presence.Proofs.Logger.Documents`) and sorting
(`Presence.Proofs.Sort.Levels`).

Fields are sorted as pairs. Two names that are there differ, so that the values of two fields are
never compared, whether they have an order or not.
-/

namespace Presence.Logger

open Json (entriesOf)

variable {fields others bound given : List (String × Value)} {name : String}

/-! ## Fields by their names -/

/-- The value under a name: that of the call, or else the bound one. -/
def valueUnder? (bound given : List (String × Value)) (name : String) : Option Value :=
  (given.lookup name).or (bound.lookup name)

/-- The names of bound fields and of those of a call, each once, in their order. -/
def namesOf (bound given : List (String × Value)) : List String :=
  ((bound ++ given).map Prod.fst).toFinset.sort

theorem valueUnder?_single {first : String} {v held : Value} :
    valueUnder? [] [(first, v)] name = some held ↔ name = first ∧ v = held := by
  rw [valueUnder?, lookup_single, List.lookup_nil, Option.or_none]
  by_cases same : name = first <;> simp [same]

theorem lookup_eq_some_iff (distinct : (fields.map Prod.fst).Nodup) {v : Value} :
    fields.lookup name = some v ↔ (name, v) ∈ fields := by
  induction fields with
  | nil => simp
  | cons field rest inductionHypothesis =>
      obtain ⟨first, held⟩ := field
      rw [List.map_cons, List.nodup_cons] at distinct
      by_cases isFirst : name = first
      · subst isFirst
        have notBehind : (name, v) ∉ rest := by
          intro member
          exact distinct.1 (List.mem_map.mpr ⟨(name, v), member, rfl⟩)
        rw [List.lookup_cons_self, List.mem_cons, Option.some_inj, Prod.mk_inj]
        simp only [true_and, notBehind, or_false, eq_comm]
      · rw [List.lookup_cons, beq_false_of_ne isFirst, inductionHypothesis distinct.2,
          List.mem_cons, Prod.mk_inj]
        simp only [isFirst, false_and, false_or]

/-- Fields in another order have the same values under their names. -/
private theorem lookup_perm (distinct : (fields.map Prod.fst).Nodup) (perm : others.Perm fields)
    (name : String) : others.lookup name = fields.lookup name := by
  have distinctOthers : (others.map Prod.fst).Nodup := (perm.map Prod.fst).nodup_iff.mpr distinct
  ext v
  rw [lookup_eq_some_iff distinct, lookup_eq_some_iff distinctOthers, perm.mem_iff]

theorem lookup_map (change : String → Value → Value) (fields : List (String × Value))
    (name : String) :
    (fields.map fun field => (field.1, change field.1 field.2)).lookup name =
      (fields.lookup name).map (change name) := by
  induction fields with
  | nil => rfl
  | cons field rest inductionHypothesis =>
      rw [List.map_cons, List.lookup_cons, List.lookup_cons, inductionHypothesis]
      split
      · next same => rw [beq_iff_eq.mp same, Option.map_some]
      · rfl

private theorem lookup_filter (keeps : String → Bool) (fields : List (String × Value))
    (name : String) :
    (fields.filter fun field => keeps field.1).lookup name =
      if keeps name then fields.lookup name else none := by
  induction fields with
  | nil => simp
  | cons field rest inductionHypothesis =>
      obtain ⟨first, held⟩ := field
      by_cases isFirst : name = first
      · subst isFirst
        by_cases isKept : keeps name = true
        · simp [isKept]
        · simp [isKept, inductionHypothesis]
      · have passed := beq_false_of_ne isFirst
        by_cases isKept : keeps first = true
        · simp [isKept, List.lookup_cons, passed, inductionHypothesis]
        · simp [isKept, List.lookup_cons, passed, inductionHypothesis]

private theorem lookup_overlaid (fields others : List (String × Value)) (name : String) :
    (overlaid fields others).lookup name = valueUnder? fields others name := by
  have inPlace := lookup_map (fun name v => (others.lookup name).getD v) fields name
  have behind := lookup_filter (fun name => !(fields.map Prod.fst).contains name) others name
  rw [overlaid, List.lookup_append, inPlace, behind, valueUnder?]
  rcases there : fields.lookup name with _ | v
  · have isNew : name ∉ fields.map Prod.fst := by
      intro member
      obtain ⟨field, isField, rfl⟩ := List.mem_map.mp member
      exact absurd (List.lookup_eq_none_iff.mp there field isField) (by simp)
    rw [if_pos (by simpa using isNew), Option.map_none, Option.none_or, Option.or_none]
  · rw [Option.map_some, Option.some_or]
    cases others.lookup name <;> rfl

theorem mem_namesOf : name ∈ namesOf bound given ↔ ∃ v, valueUnder? bound given name = some v := by
  have among : ∀ fields : List (String × Value),
      name ∈ fields.map Prod.fst ↔ ∃ v, fields.lookup name = some v := by
    intro fields
    rw [← Option.ne_none_iff_exists', Ne, List.lookup_eq_none_iff, List.mem_map]
    simp
  rw [namesOf, Finset.mem_sort, List.mem_toFinset, List.map_append, List.mem_append, among, among,
    valueUnder?]
  rcases given.lookup name with _ | v <;> simp

theorem pairwise_namesOf (bound given : List (String × Value)) :
    (namesOf bound given).Pairwise (· < ·) := (Finset.sortedLT_sort _).pairwise

/-! ## Sorting -/

/-- A field as it is sorted. -/
def cellOf (field : String × Value) : Sort.Keyed Value (Value × Value) :=
  ⟨.tuple [.text field.1, field.2], (.text field.1, field.2)⟩

/-- Two fields under different names are compared by the names. -/
private theorem compare?_cellOf {one two : String × Value} (different : one.1 ≠ two.1) :
    Value.compare? .less (cellOf one).key (cellOf two).key =
      Value.compare? .less (.text one.1) (.text two.1) := by
  have apart : (Value.text one.1 == .text two.1) = false := by
    rw [Value.beq_def]
    simpa [Value.same, Scalar.same, Scalar.number?, Scalar.octets?] using different
  show Value.compareItems? .less [.text one.1, one.2] [.text two.1, two.2] = _
  rw [Value.compareItems?, apart]
  rfl

/-- How many of some names are before a name. -/
def placeAmong (names : List String) (name : Value) : Int :=
  Sort.heightAmong (Value.compare? .less) (names.map Value.text) name

/-- Names that are there are in the order of their places. -/
theorem lt_iff_placeAmong {names : List String} {a b : String} (isA : a ∈ names) (isB : b ∈ names) :
    a < b ↔ placeAmong names (.text a) < placeAmong names (.text b) := by
  have order : Sort.StrictWeakOrder (Value.compare? .less) (names.map Value.text) :=
    .of_lt (fun _ _ => rfl) (fun _ _ => decide_eq_true_iff) names
  have compared : Value.compare? .less (.text a) (.text b) = some true ↔ a < b := by
    show some (decide (a < b)) = some true ↔ _
    rw [Option.some_inj, decide_eq_true_iff]
  rw [← compared, order.before_iff (List.mem_map_of_mem isA) (List.mem_map_of_mem isB)]
  exact Int.ofNat_lt.symm

private theorem allCompare_cellOf (distinct : (fields.map Prod.fst).Nodup) :
    Sort.AllCompare (Sort.Before.ofKeys (Value.compare? .less))
      (fun cell => placeAmong (fields.map Prod.fst) cell.item.1) (fields.map cellOf) := by
  have apart : fields.Pairwise fun one two => one.1 ≠ two.1 := List.pairwise_map.mp distinct
  refine List.pairwise_map.mpr (apart.imp_of_mem ?_)
  intro one two isOne isTwo different
  have isName {field} (isField : field ∈ fields) : field.1 ∈ fields.map Prod.fst :=
    List.mem_map_of_mem isField
  have there := lt_iff_placeAmong (isName isOne) (isName isTwo)
  have back := lt_iff_placeAmong (isName isTwo) (isName isOne)
  constructor
  · exact (compare?_cellOf different).trans (congrArg some (decide_eq_decide.mpr there))
  · exact (compare?_cellOf different.symm).trans (congrArg some (decide_eq_decide.mpr back))

/-- Fields under names that all differ are sorted by them. -/
theorem sortedFields_entriesOf (distinct : (fields.map Prod.fst).Nodup) :
    ∃ sorted, sortedFields (entriesOf fields) = .ok (entriesOf sorted) ∧ sorted.Perm fields ∧
      (sorted.map Prod.fst).Pairwise (· < ·) := by
  obtain ⟨cells, ended, arranges⟩ := Sort.sortItems_spec (allCompare_cellOf distinct)
  -- The sorted cells are those of the fields in another order.
  have cellwise : List.Forall₂ (fun cell field => cell = cellOf field) (fields.map cellOf) fields :=
    List.forall₂_map_left_iff.mpr (List.forall₂_same.mpr fun _ _ => rfl)
  obtain ⟨sorted, same, perm⟩ := List.perm_comp_forall₂ arranges.keeps.perm.symm cellwise
  obtain rfl : cells = sorted.map cellOf := by
    rw [← List.forall₂_eq_eq_eq, List.forall₂_map_right_iff]
    exact same
  refine ⟨sorted, ?_, perm, ?_⟩
  · have isInput : (entriesOf fields).map (fun field => ⟨.tuple [field.1, field.2], field⟩) =
        fields.map cellOf := by
      rw [entriesOf, List.map_map]
      rfl
    unfold sortedFields Sort.sort
    rw [isInput, ended]
    show Except.ok ((sorted.map cellOf).map Sort.Keyed.item) = _
    rw [List.map_map]
    rfl
  · have distinctSorted : (sorted.map Prod.fst).Nodup := (perm.map Prod.fst).nodup_iff.mpr distinct
    have rises := List.pairwise_map.mp arranges.rises
    refine List.pairwise_map.mpr ((rises.and (List.pairwise_map.mp distinctSorted)).imp_of_mem ?_)
    rintro one two isOne isTwo ⟨notAbove, different⟩
    have isName {field} (isField : field ∈ sorted) : field.1 ∈ fields.map Prod.fst :=
      List.mem_map_of_mem (perm.subset isField)
    have back := lt_iff_placeAmong (isName isTwo) (isName isOne)
    -- A name that is not above the next one, and not the same, is below it.
    refine (lt_or_gt_of_ne different).resolve_right fun isBelow => ?_
    exact absurd (back.mp isBelow) (Int.not_lt.mpr notAbove)

/-! ## Lines -/

/-- A field by its name and its text. -/
def spelledField (texts : String → String) (field : String) : List Char :=
  ' ' :: (field.toList ++ '=' :: (texts field).toList)

/-- A line by its parts: the moment, the name of the logger, the level, the message, and the fields,
each by its name and its text. -/
def spelledLine (moment : Moment) (level : Level) (name message : String) (names : List String)
    (texts : String → String) : List Char :=
  '[' :: (moment.text ++ ']' :: ' ' :: (name.toList ++ ' ' :: (level.name.toList
    ++ ':' :: ' ' :: (message.toList
    ++ names.flatMap (spelledField texts)))))

theorem plain_text (s : String) : (Value.text s).plain = .ok s := by
  show Except.ok (String.ofList s.toList) = _
  rw [String.ofList_toList]

private theorem mapM_fieldText {texts : String → String}
    (shown : ∀ field ∈ fields, field.2.plain = .ok (texts field.1)) :
    (entriesOf fields).mapM fieldText =
      .ok (fields.map fun field => spelledField texts field.1) := by
  induction fields with
  | nil => rfl
  | cons field rest inductionHypothesis =>
      obtain ⟨first, others⟩ := List.forall_mem_cons.mp shown
      have spelled : fieldText (.text field.1, field.2) = .ok (spelledField texts field.1) := by
        rw [fieldText, plain_text, first]
        rfl
      show (List.mapM fieldText ((.text field.1, field.2) :: entriesOf rest)) = _
      rw [List.mapM_cons, spelled, inductionHypothesis others]
      rfl

private theorem textLine_entriesOf {l : Logger} {message : Value} {name said : String}
    (named : l.name.plain = .ok name) (told : message.plain = .ok said)
    (distinct : (fields.map Prod.fst).Nodup) {texts : String → String}
    (shown : ∀ field ∈ fields, field.2.plain = .ok (texts field.1)) (moment : Moment)
    (level : Level) :
    l.textLine moment level message (entriesOf fields) =
      .ok (spelledLine moment level name said (fields.map Prod.fst).toFinset.sort texts) := by
  obtain ⟨sorted, isSorted, perm, rises⟩ := sortedFields_entriesOf distinct
  have shownSorted : ∀ field ∈ sorted, field.2.plain = .ok (texts field.1) :=
    fun field member => shown field (perm.subset member)
  have spelled := mapM_fieldText shownSorted
  have names : (fields.map Prod.fst).toFinset.sort = sorted.map Prod.fst := by
    rw [← List.toFinset_eq_of_perm _ _ (perm.map Prod.fst)]
    exact (List.toFinset_sort _ (rises.imp ne_of_lt)).mpr (rises.imp le_of_lt)
  rw [textLine, isSorted, names, spelledLine, List.flatMap_map]
  show (((entriesOf sorted).mapM fieldText) >>= _) = _
  rw [spelled, named, told]
  rfl

end Presence.Logger

namespace Presence.Session

open Attempt Logger
open Json (entriesOf)

section Lines

variable {world : World} {l : Logger} {message : Value} {context : List (String × Value)}
  {fields : Keywords}

private theorem valueUnder?_settledFields (store : Store) (bound given : List (String × Value))
    (name : String) :
    valueUnder? (store.settledFields bound) (store.settledFields given) name =
      (valueUnder? bound given name).map store.settled := by
  have settled := lookup_map (fun _ v => store.settled v)
  unfold valueUnder? Store.settledFields
  rw [settled, settled]
  cases given.lookup name <;> rfl

/-- The names of fields are the same when they are merged. -/
private theorem toFinset_overlaid (bound given : List (String × Value)) :
    ((overlaid bound given).map Prod.fst).toFinset = ((bound ++ given).map Prod.fst).toFinset := by
  ext name
  rw [map_fst_overlaid, List.map_append, List.toFinset_append, List.toFinset_append,
    Finset.mem_union, Finset.mem_union, List.mem_toFinset, List.mem_toFinset, List.mem_toFinset,
    List.mem_filter]
  by_cases present : name ∈ bound.map Prod.fst <;> simp [present]

/-- The texts that make up the line of a message in text form: those of the name of the logger, of
the message and of the value under each name. -/
structure World.Spells (world : World) (l : Logger) (message : Value) (fields : Keywords)
    (context : List (String × Value)) (name said : String) (texts : String → String) : Prop where
  inText : (world.store.settled l.asDocument).truthy? = some false
  named : (world.store.settled l.name).plain = .ok name
  told : (world.store.settled message).plain = .ok said
  bound : l.context = entriesOf context
  distinctContext : (context.map Prod.fst).Nodup
  distinct : (fields.map Prod.fst).Nodup
  shown : ∀ key v, valueUnder? context fields key = some v →
    (world.store.settled v).plain = .ok (texts key)

namespace World.Spells

variable {name said : String} {texts : String → String}

/-- A line in text form is spelled by its texts. -/
theorem lineOf_eq (spells : world.Spells l message fields context name said texts)
    (level : Level) :
    world.lineOf l level message fields =
      .ok (spelledLine world.now level name said (namesOf context fields) texts) := by
  have isText : (world.store.observed l).asDocument.truthy? = some false := spells.inText
  have distinctMerged : ((overlaid (world.store.settledFields context)
      (world.store.settledFields fields)).map Prod.fst).Nodup := by
    apply nodup_overlaid <;> rw [map_fst_settledFields]
    · exact spells.distinctContext
    · exact spells.distinct
  have shownMerged : ∀ field ∈ overlaid (world.store.settledFields context)
      (world.store.settledFields fields), field.2.plain = .ok (texts field.1) := by
    intro field member
    have found := (lookup_eq_some_iff distinctMerged).mpr member
    rw [lookup_overlaid, valueUnder?_settledFields, Option.map_eq_some_iff] at found
    obtain ⟨v, isUnder, same⟩ := found
    rw [← same]
    exact spells.shown field.1 v isUnder
  have names : ((overlaid (world.store.settledFields context)
      (world.store.settledFields fields)).map Prod.fst).toFinset.sort =
        namesOf context fields := by
    rw [toFinset_overlaid, namesOf, List.map_append, List.map_append, map_fst_settledFields,
      map_fst_settledFields]
  unfold World.lineOf line
  rw [merge_observed spells.bound spells.distinctContext spells.distinct, isText, ← names]
  exact textLine_entriesOf spells.named spells.told distinctMerged shownMerged world.now level

/-- Fields in another order are spelled by the same texts. -/
theorem perm (spells : world.Spells l message fields context name said texts)
    {others : Keywords} {another : List (String × Value)} (sameContext : another.Perm context)
    (sameFields : others.Perm fields) :
    world.Spells { l with context := entriesOf another } message others another name said
      texts := by
  refine ⟨spells.inText, spells.named, spells.told, rfl,
    (sameContext.map Prod.fst).nodup_iff.mpr spells.distinctContext,
    (sameFields.map Prod.fst).nodup_iff.mpr spells.distinct, ?_⟩
  intro key v isUnder
  rw [valueUnder?, lookup_perm spells.distinctContext sameContext,
    lookup_perm spells.distinct sameFields] at isUnder
  exact spells.shown key v isUnder

/-- A call whose level passes writes this line. -/
theorem runFrom_write (spells : world.Spells l message fields context name said texts)
    {operation : LoggerOperation} {level : Level} (writes : operation.level? = some level)
    {arguments : List Value} {keywords : Keywords}
    (asked : world.asked? arguments keywords = some (l, message, fields))
    (passes : l.passes level = .ok true) {channel : Channel}
    (leads : world.store.channelOf? l.sink = some channel) :
    (performLogger operation arguments keywords).runFrom world =
      (.ok .null, world.written l.sink channel
        (spelledLine world.now level name said (namesOf context fields) texts)) := by
  rw [Session.runFrom_write writes asked, passes, spells.lineOf_eq]
  exact runFrom_bind_of_ok _ (runFrom_writeTo leads _)

end World.Spells

private theorem namesOf_perm {others another : List (String × Value)}
    (sameContext : another.Perm context)
    (sameFields : others.Perm fields) : namesOf another others = namesOf context fields := by
  have sameNames := (sameContext.append sameFields).map Prod.fst
  rw [namesOf, namesOf, List.toFinset_eq_of_perm _ _ sameNames]

/-- A call of a logger in text form, whose level passes and whose values have texts, writes one
record: the fields of both the logger and the call by their names, each once and in their order,
with the text of the value that stands there, which is that of the call where there are two. Values
need not have an order. The fields may be bound and given in any order. -/
theorem runFrom_write_text {operation : LoggerOperation} {level : Level}
    (writes : operation.level? = some level) {arguments : List Value} {keywords : Keywords}
    (asked : world.asked? arguments keywords = some (l, message, fields)) {name said : String}
    {texts : String → String}
    (spells : world.Spells l message fields context name said texts)
    (passes : l.passes level = .ok true) {channel : Channel}
    (leads : world.store.channelOf? l.sink = some channel) :
    ∃ names line,
      names.Pairwise (· < ·) ∧
      (∀ key, key ∈ names ↔ ∃ v, valueUnder? context fields key = some v) ∧
      line = spelledLine world.now level name said names texts ∧
      (performLogger operation arguments keywords).runFrom world =
        (.ok .null, world.written l.sink channel line) ∧
      (∀ other, (world.written l.sink channel line).console.on other =
        world.console.on other ++ if other = channel then line ++ ['\n'] else []) ∧
      ∀ another others arguments' keywords', another.Perm context → others.Perm fields →
        world.asked? arguments' keywords' =
          some ({ l with context := entriesOf another }, message, others) →
        (performLogger operation arguments' keywords').runFrom world =
          (.ok .null, world.written l.sink channel line) := by
  refine ⟨namesOf context fields, _, pairwise_namesOf context fields, fun _ => mem_namesOf, rfl,
    spells.runFrom_write writes asked passes leads, fun other => Console.on_writeLine _ _ _ _, ?_⟩
  intro another others arguments' keywords' sameContext sameFields asked'
  rw [← namesOf_perm sameContext sameFields]
  exact (spells.perm sameContext sameFields).runFrom_write writes asked' passes leads

end Lines

/-- A logger that writes texts to the stream of errors. -/
def textLogger (context : List (String × Value)) : Logger :=
  ⟨.text "n", .int 20, .bool false, entriesOf context, .null⟩

/-- A world with two such loggers, which have the same fields in different orders. -/
def textWorld : World :=
  ⟨{ Store.empty with
      loggers := #[textLogger [("b", .dictionary []), ("a", .option (.ok (.float .nan)))],
        textLogger [("a", .option (.ok (.float .nan))), ("b", .dictionary [])]] },
    ⟨[]⟩, ⟨2024, 2, 29, 1, 2, 3, 0⟩, [], .blank, []⟩

/-- Dictionaries and sets have no order between them, and a bound field is replaced. -/
theorem runFrom_write_text_unordered :
    (performLogger .info [.handle .logger 0, .text "m"]
        [("a", .dictionary [(.int 1, .null)]), ("Z", .set [])]).runFrom textWorld =
      (.ok .null, textWorld.written .null .errors
        "[2024-02-29T01:02:03+00:00] n INFO: m Z=set() a=\x7b1: None\x7d b=\x7b\x7d".toList) ∧
    (performLogger .info [.handle .logger 1, .text "m"]
        [("Z", .set []), ("a", .dictionary [(.int 1, .null)])]).runFrom textWorld =
      (.ok .null, textWorld.written .null .errors
        "[2024-02-29T01:02:03+00:00] n INFO: m Z=set() a=\x7b1: None\x7d b=\x7b\x7d".toList) := by
  have writes : LoggerOperation.info.level? = some .info := rfl
  have asked : textWorld.asked? [.handle .logger 0, .text "m"]
      [("a", .dictionary [(.int 1, .null)]), ("Z", .set [])] = some (_, .text "m", _) :=
    asked?_of_names rfl _ (by simp)
  have shown : ∀ key v, valueUnder? [("b", .dictionary []), ("a", .option (.ok (.float .nan)))]
      [("a", .dictionary [(.int 1, .null)]), ("Z", .set [])] key = some v →
      (textWorld.store.settled v).plain = .ok (if key = "Z" then "set()"
        else if key = "a" then "\x7b1: None\x7d" else "\x7b\x7d") := by
    intro key v under
    rcases Option.or_eq_some_iff.mp under with called | ⟨uncalled, kept⟩
    · rw [lookup_eq_some_iff (by decide)] at called
      simp only [List.mem_cons, Prod.mk_inj, List.not_mem_nil, or_false] at called
      rcases called with ⟨rfl, rfl⟩ | ⟨rfl, rfl⟩ <;> rfl
    · rw [lookup_eq_some_iff (by decide)] at kept
      simp only [List.mem_cons, Prod.mk_inj, List.not_mem_nil, or_false] at kept
      rcases kept with ⟨rfl, rfl⟩ | ⟨rfl, rfl⟩
      · rfl
      · cases uncalled
  have spells : textWorld.Spells
      (textLogger [("b", .dictionary []), ("a", .option (.ok (.float .nan)))]) (.text "m") _ _
      "n" "m" _ := ⟨rfl, rfl, rfl, rfl, by decide, by decide, shown⟩
  obtain ⟨names, line, sorted, members, spelled, performed, _, anyOrder⟩ :=
    runFrom_write_text writes asked spells rfl rfl
  obtain rfl : names = ["Z", "a", "b"] := by
    refine sorted.eq_of_mem_iff (by decide) fun key => ?_
    rw [members, ← mem_namesOf, namesOf, Finset.mem_sort]
    simp [or_comm, or_left_comm]
  subst spelled
  have other : textWorld.asked? [.handle .logger 1, .text "m"]
      [("Z", .set []), ("a", .dictionary [(.int 1, .null)])] = some (_, .text "m", _) :=
    asked?_of_names rfl _ (by simp)
  exact ⟨performed, anyOrder _ _ _ _ (.swap _ _ _) (.swap _ _ _) other⟩

end Presence.Session
