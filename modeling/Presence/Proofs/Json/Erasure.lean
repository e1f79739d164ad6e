import Presence.Json.Optional

/-!
Contract: writing a value with its options opened is writing what is left of it without them.

Owns: `Value.erased`, a value with its options replaced by what they hold; `Value.holdsBare`,
whether an option without a payload and without its absence stands where erasure looks;
`Style.closed`, the same layout for documents that know no options; that a value and what is left of
it have the same document where options are opened (`write_of_erased`); `write_eq_erased`.

Does not own: reading documents back (`Presence.Proofs.Json.RoundTrip`).

Erasure goes into lists, tuples and the values of dictionaries, as writing does, and into nothing
else: the keys of a dictionary and the parts of all other values are left as they are.
-/

namespace Presence

namespace Value

mutual

/-- A value with each option replaced by its payload, or by nothing where there is none. -/
def erased : Value → Value
  | .list items => .list (erasedItems items)
  | .tuple items => .tuple (erasedItems items)
  | .dictionary entries => .dictionary (erasedEntries entries)
  | .option (.ok v) => erased v
  | .option (.notOk _) => .null
  | v => v
termination_by structural v => v

def erasedItems : List Value → List Value
  | [] => []
  | item :: rest => erased item :: erasedItems rest
termination_by structural items => items

def erasedEntries : List (Value × Value) → List (Value × Value)
  | [] => []
  | (key, v) :: rest => (key, erased v) :: erasedEntries rest
termination_by structural entries => entries

end

mutual

/-- Whether an option that is neither a payload nor an absence stands where erasure looks. -/
def holdsBare : Value → Bool
  | .handle .bareOption _ => true
  | .list items => anyHoldsBare items
  | .tuple items => anyHoldsBare items
  | .dictionary entries => anyEntryHoldsBare entries
  | .option (.ok v) => holdsBare v
  | _ => false
termination_by structural v => v

def anyHoldsBare : List Value → Bool
  | [] => false
  | item :: rest => holdsBare item || anyHoldsBare rest
termination_by structural items => items

def anyEntryHoldsBare : List (Value × Value) → Bool
  | [] => false
  | (_, v) :: rest => holdsBare v || anyEntryHoldsBare rest
termination_by structural entries => entries

end

end Value

namespace Json

open Value

/-- The layout of documents that know no options. -/
def Style.closed (style : Style) : Style := { style with opensOptions := false }

@[simp] theorem itemSeparator_closed (style : Style) :
    style.closed.itemSeparator = style.itemSeparator := rfl

@[simp] theorem nameSeparator_closed (style : Style) :
    style.closed.nameSeparator = style.nameSeparator := rfl

section Erasure

variable {style : Style}

private theorem writeScalar_closed {s : Scalar} (whole : holdsBare (.scalar s) = false) :
    writeScalar style s = writeScalar style.closed s := by
  cases s with
  | handle h =>
      obtain ⟨sort, number⟩ := h
      cases sort with
      | bareOption => exact absurd whole (by simp [holdsBare])
      | _ => rfl
  | _ => rfl

mutual

theorem write_erased (opens : style.opensOptions = true) : (v : Value) → holdsBare v = false →
    write style v = write style.closed (erased v)
  | .scalar s, whole => by
      show writeScalar style s = writeScalar style.closed s
      exact writeScalar_closed whole
  | .list items, whole => by
      rw [holdsBare] at whole
      rw [write, erased, write, writeItems_erased opens items whole, itemSeparator_closed]
  | .tuple items, whole => by
      rw [holdsBare] at whole
      rw [write, erased, write, writeItems_erased opens items whole, itemSeparator_closed]
  | .dictionary entries, whole => by
      rw [holdsBare] at whole
      rw [write, erased, write, writeMembers_erased opens entries whole, itemSeparator_closed]
  | .option (.ok v), whole => by
      rw [holdsBare] at whole
      rw [write, erased, if_pos opens, write_erased opens v whole]
  | .option (.notOk _), _ => by
      rw [write, erased, if_pos opens]
      rfl
  | .set _, _ => rfl
  | .frozenSet _, _ => rfl
  | .either _, _ => rfl
  | .pair _, _ => rfl
  | .sequence _, _ => rfl
  | .managed _, _ => rfl
  | .guarded _, _ => rfl
  | .deferred _, _ => rfl
  | .ternary _, _ => rfl
  | .parseError _, _ => rfl
  | .thrown _, _ => rfl
  | .client _, _ => rfl

theorem writeItems_erased (opens : style.opensOptions = true) : (items : List Value) →
    anyHoldsBare items = false →
      writeItems style items = writeItems style.closed (erasedItems items)
  | [], _ => rfl
  | item :: rest, whole => by
      rw [anyHoldsBare, Bool.or_eq_false_iff] at whole
      rw [writeItems, erasedItems, writeItems, write_erased opens item whole.1,
        writeItems_erased opens rest whole.2]

theorem writeMembers_erased (opens : style.opensOptions = true) :
    (entries : List (Value × Value)) → anyEntryHoldsBare entries = false →
      writeMembers style entries = writeMembers style.closed (erasedEntries entries)
  | [], _ => rfl
  | (key, v) :: rest, whole => by
      rw [anyEntryHoldsBare, Bool.or_eq_false_iff] at whole
      rw [writeMembers, erasedEntries, writeMembers, write_erased opens v whole.1,
        writeMembers_erased opens rest whole.2, nameSeparator_closed]

end

mutual

/-- Where options are opened, a value and what is left of it have the same document. -/
theorem write_of_erased (opens : style.opensOptions = true) : (v : Value) →
    write style (erased v) = write style v
  | .scalar _ => rfl
  | .list items => by rw [erased, write, write, writeItems_of_erased opens items]
  | .tuple items => by rw [erased, write, write, writeItems_of_erased opens items]
  | .dictionary entries => by rw [erased, write, write, writeMembers_of_erased opens entries]
  | .option (.ok v) => by rw [erased, write_of_erased opens v, write, if_pos opens]
  | .option (.notOk kind) => by
      have opened : write style (.option (.notOk kind)) = .ok "null".toList := by
        rw [write, if_pos opens]
      exact opened.symm
  | .set _ => rfl
  | .frozenSet _ => rfl
  | .either _ => rfl
  | .pair _ => rfl
  | .sequence _ => rfl
  | .managed _ => rfl
  | .guarded _ => rfl
  | .deferred _ => rfl
  | .ternary _ => rfl
  | .parseError _ => rfl
  | .thrown _ => rfl
  | .client _ => rfl

theorem writeItems_of_erased (opens : style.opensOptions = true) : (items : List Value) →
    writeItems style (erasedItems items) = writeItems style items
  | [] => rfl
  | item :: rest => by
      rw [erasedItems, writeItems, writeItems, write_of_erased opens item,
        writeItems_of_erased opens rest]

theorem writeMembers_of_erased (opens : style.opensOptions = true) :
    (entries : List (Value × Value)) →
      writeMembers style (erasedEntries entries) = writeMembers style entries
  | [] => rfl
  | (key, v) :: rest => by
      rw [erasedEntries, writeMembers, writeMembers, write_of_erased opens v,
        writeMembers_of_erased opens rest]

end

end Erasure

/-- Documents of values, of either layout and of options alone, are those of what erasure leaves,
as are the faults of values that have none. -/
theorem write_eq_erased {v : Value} (whole : v.holdsBare = false) :
    write .spaced v = write Style.spaced.closed v.erased ∧
      write .compact v = write Style.compact.closed v.erased ∧
      ∀ o : Optional Value Value, v = .option o →
        o.toDocument = write Style.spaced.closed v.erased := by
  refine ⟨write_erased rfl v whole, write_erased rfl v whole, ?_⟩
  rintro o rfl
  rw [← write_erased rfl _ whole]
  cases o with
  | ok payload => rfl
  | notOk kind => rfl

/-- Options inside options and tuples are erased; one that is a key is not, and is refused. -/
theorem write_eq_erased_refused :
    (Value.list [.option (.ok (.tuple [.option (.notOk .null), .int 1])),
      .dictionary [(.option (.ok (.int 1)), .null)]]).holdsBare = false ∧
    write .compact (.list [.option (.ok (.tuple [.option (.notOk .null), .int 1])),
      .dictionary [(.option (.ok (.int 1)), .null)]]) =
        write Style.compact.closed (.list [.tuple [.null, .int 1],
          .dictionary [(.option (.ok (.int 1)), .null)]]) :=
  ⟨rfl, (write_eq_erased rfl).2.1⟩

end Json

end Presence
