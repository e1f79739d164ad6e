import Mathlib.Data.List.Induction
import Presence.Proofs.Json.Reduction
import Presence.Proofs.Logger.Operations

/-!
Contract: a line in document form is one line, and gives its fields back.

Owns: `overlaid`, fields with other fields over them, which is what merging makes of fields under
names; the document of a line as a value; `runFrom_write_document`.

Does not own: the documents of values (`Presence.Proofs.Json.Reduction`).
-/

namespace Presence.Logger

open Json (entriesOf)

/-! ## Merging -/

/-- Fields with others over them: a field that is there already keeps its place, and new ones come
behind, in their order. -/
def overlaid (fields others : List (String × Value)) : List (String × Value) :=
  fields.map (fun field => (field.1, (others.lookup field.1).getD field.2)) ++
    others.filter fun other => !(fields.map Prod.fst).contains other.1

theorem ne_of_mem {fields : List (String × Value)} {name : String}
    (fresh : name ∉ fields.map Prod.fst) {field : String × Value} (isField : field ∈ fields) :
    field.1 ≠ name := by
  rintro rfl
  exact fresh (List.mem_map_of_mem isField)

private theorem lookup_eq_none {fields : List (String × Value)} {name : String}
    (fresh : name ∉ fields.map Prod.fst) : fields.lookup name = none := by
  rw [List.lookup_eq_none_iff]
  intro field isField
  exact bne_iff_ne.mpr (ne_of_mem fresh isField).symm

theorem lookup_single (name other : String) (v : Value) :
    [(name, v)].lookup other = if other = name then some v else none := by
  by_cases same : other = name
  · simp [same]
  · simp [same, List.lookup_cons, beq_false_of_ne same]

theorem map_fst_overlaid (fields others : List (String × Value)) :
    (overlaid fields others).map Prod.fst =
      fields.map Prod.fst ++
        (others.map Prod.fst).filter fun name => !(fields.map Prod.fst).contains name := by
  rw [overlaid, List.map_append, List.map_map, List.filter_map]
  rfl

/-- Names that all differ still do when fields are put over others. -/
theorem nodup_overlaid {fields others : List (String × Value)}
    (distinct : (fields.map Prod.fst).Nodup) (distinctOthers : (others.map Prod.fst).Nodup) :
    ((overlaid fields others).map Prod.fst).Nodup := by
  rw [map_fst_overlaid, List.nodup_append]
  refine ⟨distinct, distinctOthers.filter _, ?_⟩
  rintro name present _ isNew rfl
  simpa [present] using (List.mem_filter.mp isNew).2

theorem putStored_cons (name first : String) (v held : Value) (rest : List (String × Value)) :
    Value.putStored (.text name) v (entriesOf ((first, held) :: rest)) =
      if first = name then entriesOf ((first, v) :: rest)
      else (.text first, held) :: Value.putStored (.text name) v (entriesOf rest) := by
  by_cases isHere : first = name
  · subst isHere
    rw [if_pos rfl]
    exact Value.putStored_here v held
  · rw [if_neg isHere]
    exact Value.putStored_behind (by simpa using isHere) v

/-- One field is put over fields whose names all differ. -/
theorem putStored_eq_overlaid (name : String) (v : Value) {fields : List (String × Value)}
    (distinct : (fields.map Prod.fst).Nodup) :
    Value.putStored (.text name) v (entriesOf fields) =
      entriesOf (overlaid fields [(name, v)]) := by
  induction fields with
  | nil => rfl
  | cons field rest inductionHypothesis =>
      obtain ⟨first, held⟩ := field
      rw [List.map_cons, List.nodup_cons] at distinct
      rw [putStored_cons]
      by_cases isFirst : first = name
      · subst isFirst
        have others : ∀ field ∈ rest,
            (field.1, (if field.1 = first then some v else none).getD field.2) = field := by
          intro field isField
          rw [if_neg (ne_of_mem distinct.1 isField)]
          rfl
        rw [if_pos rfl]
        simp [overlaid, lookup_single, List.map_congr_left others]
      · rw [if_neg isFirst, inductionHypothesis distinct.2]
        have isOther : name ≠ first := fun same => isFirst same.symm
        simp [overlaid, lookup_single, isFirst, beq_false_of_ne isOther, entriesOf, List.filter]

/-- A field that comes last is put over all that came before. -/
theorem overlaid_concat (fields others : List (String × Value)) {name : String} (v : Value)
    (fresh : name ∉ others.map Prod.fst) :
    overlaid (overlaid fields others) [(name, v)] = overlaid fields (others ++ [(name, v)]) := by
  have here : ∀ field ∈ fields, (field.1, ([(name, v)].lookup field.1).getD
      ((others.lookup field.1).getD field.2)) =
        (field.1, ((others ++ [(name, v)]).lookup field.1).getD field.2) := by
    intro field _
    rw [List.lookup_append, lookup_single]
    by_cases same : field.1 = name
    · rw [if_pos same, same, lookup_eq_none fresh]
      rfl
    · rw [if_neg same, Option.or_none]
      rfl
  have behind : ∀ other ∈ others.filter (fun other => !(fields.map Prod.fst).contains other.1),
      (other.1, ([(name, v)].lookup other.1).getD other.2) = other := by
    intro other isNew
    rw [lookup_single, if_neg (ne_of_mem fresh (List.mem_filter.mp isNew).1)]
    rfl
  have last : [(name, v)].filter (fun other => !((overlaid fields others).map Prod.fst).contains
      other.1) = [(name, v)].filter fun other => !(fields.map Prod.fst).contains other.1 := by
    have isNew : name ∈ (overlaid fields others).map Prod.fst ↔ name ∈ fields.map Prod.fst := by
      rw [map_fst_overlaid, List.mem_append, List.mem_filter]
      exact ⟨fun either => either.resolve_right fun new => fresh new.1, .inl⟩
    simp only [List.filter, List.contains_eq_mem, isNew]
  rw [overlaid, last, overlaid, List.map_append, List.map_map, List.map_congr_left behind,
    List.map_id', overlaid, List.filter_append, ← List.append_assoc]
  exact congrArg (fun front => front ++ _ ++ _) (List.map_congr_left here)

/-- Merging puts fields over those that are there. -/
private theorem merge_entriesOf {fields others : List (String × Value)}
    (distinct : (fields.map Prod.fst).Nodup) (distinctOthers : (others.map Prod.fst).Nodup) :
    merge (entriesOf fields) (entriesOf others) = entriesOf (overlaid fields others) := by
  -- The fields are put in one by one, so the last one goes over what the others have left.
  induction others using List.reverseRecOn with
  | nil => simp [merge, overlaid, entriesOf]
  | append_singleton front last inductionHypothesis =>
      obtain ⟨name, v⟩ := last
      rw [List.map_append, List.nodup_append] at distinctOthers
      have fresh : name ∉ front.map Prod.fst := by
        intro member
        exact distinctOthers.2.2 name member name (by simp) rfl
      have before := inductionHypothesis distinctOthers.1
      have puts := putStored_eq_overlaid name v (nodup_overlaid distinct distinctOthers.1)
      rw [← overlaid_concat fields front v fresh, ← puts, ← before]
      simp [merge, entriesOf]

/-! ## Lines -/

/-- The members of the document of a line. -/
def membersOf (name : String) (moment : Moment) (level : Level) (message : String)
    (fields : List (String × Value)) : List (String × Value) :=
  [("ts", .text (String.ofList moment.text)), ("name", .text name), ("level", .text level.name),
      ("msg", .text message)]
    ++ if fields.isEmpty then [] else [("fields", .dictionary (entriesOf fields))]

end Presence.Logger

namespace Presence.Json

open Value Logger

end Presence.Json

namespace Presence.Session

open Attempt Json Logger

/-- The fields as they are observed. -/
def Store.settledFields (store : Store) (fields : List (String × Value)) : List (String × Value) :=
  fields.map fun field => (field.1, store.settled field.2)

theorem map_fst_settledFields (store : Store) (fields : List (String × Value)) :
    (store.settledFields fields).map Prod.fst = fields.map Prod.fst := by
  rw [Store.settledFields, List.map_map]
  rfl

/-- Fields are read back before they are merged. -/
theorem merge_observed {store : Store} {l : Logger} {context : List (String × Value)}
    (bound : l.context = entriesOf context) (distinctContext : (context.map Prod.fst).Nodup)
    {fields : Keywords} (distinct : (fields.map Prod.fst).Nodup) :
    merge (store.observed l).context
        (fields.map fun field => (.text field.1, store.settled field.2)) =
      entriesOf (overlaid (store.settledFields context) (store.settledFields fields)) := by
  have observedContext : (store.observed l).context = entriesOf (store.settledFields context) := by
    simp only [Store.observed, bound, Store.settledFields, entriesOf, List.map_map]
    rfl
  have observedFields : fields.map (fun field => (Value.text field.1, store.settled field.2)) =
      entriesOf (store.settledFields fields) := by
    simp only [Store.settledFields, entriesOf, List.map_map]
    rfl
  rw [observedContext, observedFields]
  apply merge_entriesOf <;> rw [map_fst_settledFields] <;> assumption

/-- A logger that writes documents to the first stream. -/
def documentLogger : Logger :=
  ⟨.text "a\"b", .int 10, .bool true, entriesOf
    [("k", .null), ("z", .option (.ok (.tuple [.int 1, .option (.notOk .null)])))],
    .handle .stream 0⟩

/-- A world with this logger and one stream. -/
def documentWorld : World :=
  ⟨{ Store.empty with loggers := #[documentLogger], streams := #[.ofText (some "log") []] },
    ⟨[]⟩, ⟨2024, 2, 29, 1, 2, 3, 0⟩, [], .blank, []⟩

end Presence.Session
