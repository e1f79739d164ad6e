import Mathlib.Algebra.Group.Nat.Defs
import Presence.Proofs.Json.Grammar

/-!
Contract: writing what was read gives a document that reads and writes back to itself.

Owns: `HoldsFloat`; whatever is read without floats is a value that documents bring back
(`isDocument_of_spellsValue`); the same of options (`ofDocument_canonical`).

Does not own: the round trip of such values (`Presence.Proofs.Json.RoundTrip`), and what spells a
value (`Presence.Proofs.Json.Grammar`).

A value that stands under a name that comes again is dropped, so that a float there does no harm:
the induction over the grammar asks for values without floats only where they are kept.
-/

namespace Presence.Json

/-- A float stands somewhere in a value that is read. -/
inductive HoldsFloat : Value → Prop where
  | float (x : Binary64) : HoldsFloat (.float x)
  | item {items : List Value} {item : Value} (isItem : item ∈ items) (holds : HoldsFloat item) :
      HoldsFloat (.list items)
  | entry {entries : List (Value × Value)} {entry : Value × Value} (isEntry : entry ∈ entries)
      (holds : HoldsFloat entry.2) : HoldsFloat (.dictionary entries)

/-! ## Whole numbers -/

private theorem ofDigitChars_lt {digits : List Char} (isDigits : ∀ c ∈ digits, c.isDigit = true) :
    Nat.ofDigitChars 10 digits 0 < 10 ^ digits.length := by
  induction digits with
  | nil => simp
  | cons c rest inductionHypothesis =>
      obtain ⟨isDigit, others⟩ := List.forall_mem_cons.mp isDigits
      have small : c.toNat ≤ '9'.toNat := by
        simp only [Char.isDigit, Bool.and_eq_true, decide_eq_true_eq] at isDigit
        exact isDigit.2
      have digit : c.toNat - '0'.toNat ≤ 9 := Nat.sub_le_of_le_add small
      have front := Nat.mul_le_mul_left (10 ^ rest.length) digit
      have behind := inductionHypothesis others
      rw [Nat.ofDigitChars_cons, Nat.ofDigitChars_eq_ofDigitChars_zero, List.length_cons,
        Nat.pow_succ, Nat.mul_zero, Nat.zero_add]
      omega

/-- A number is not written in more digits than it was read from. -/
private theorem length_toDigits_le {digits : List Char} (nonempty : digits ≠ [])
    (isDigits : ∀ c ∈ digits, c.isDigit = true) :
    (Nat.toDigits 10 (Nat.ofDigitChars 10 digits 0)).length ≤ digits.length :=
  (Nat.length_toDigits_le_iff (by decide) (List.length_pos_iff.mpr nonempty)).mpr
    (ofDigitChars_lt isDigits)

/-! ## Values -/

theorem isDocument_of_spellsPlain {text : List Char} {v : Value} (spells : SpellsPlain text v)
    (noFloat : ¬ HoldsFloat v) : IsDocument v := by
  cases spells with
  | word isWord =>
      simp only [words, List.mem_cons, Prod.mk.injEq, List.not_mem_nil, or_false] at isWord
      rcases isWord with ⟨_, rfl⟩ | ⟨_, rfl⟩ | ⟨_, rfl⟩ | ⟨_, rfl⟩ | ⟨_, rfl⟩ | ⟨_, rfl⟩
      · exact .null
      · exact .bool true
      · exact .bool false
      all_goals exact absurd (.float _) noFloat
  | @whole negative digits nonempty isDigits short =>
      have size : Int.natAbs (if negative then -(Nat.ofDigitChars 10 digits 0 : Int)
          else Nat.ofDigitChars 10 digits 0) = Nat.ofDigitChars 10 digits 0 := by
        cases negative <;> simp
      refine .int _ ?_
      rw [size]
      exact (length_toDigits_le nonempty isDigits).trans short
  | real _ _ x => exact absurd (.float x) noFloat

theorem mem_entriesOf {members : List (String × Value)} {member : String × Value}
    (isMember : member ∈ members) : (.text member.1, member.2) ∈ entriesOf members :=
  List.mem_map_of_mem isMember

mutual

/-- A value that is read is one that documents bring back, unless it holds a float. -/
theorem isDocument_of_spellsValue {text rest : List Char} {v : Value} :
    SpellsValue text v rest → ¬ HoldsFloat v → IsDocument v
  | .text _, _ => .text _
  | .emptyList _, _ => .list [] (List.forall_mem_nil _)
  | .list spells, noFloat => .list _ fun item isItem =>
      isDocument_of_spellsItems spells item isItem fun holds => noFloat (.item isItem holds)
  | .emptyDictionary _, _ => .dictionary [] List.nodup_nil (List.forall_mem_nil _)
  | .dictionary spells, noFloat => .dictionary _ (nodup_kept _) fun member isKept =>
      isDocument_of_spellsMembers spells member (mem_of_mem_kept isKept) fun holds =>
        noFloat (.entry (mem_entriesOf isKept) holds)
  | .plain spells, noFloat => isDocument_of_spellsPlain spells noFloat

theorem isDocument_of_spellsItems {text rest : List Char} {items : List Value} :
    SpellsItems text items rest → ∀ item ∈ items, ¬ HoldsFloat item → IsDocument item
  | .last spells _ => List.forall_mem_singleton.mpr (isDocument_of_spellsValue spells)
  | .cons spells _ follow => List.forall_mem_cons.mpr
      ⟨isDocument_of_spellsValue spells, isDocument_of_spellsItems follow⟩

theorem isDocument_of_spellsMembers {text rest : List Char} {members : List (String × Value)} :
    SpellsMembers text members rest →
      ∀ member ∈ members, ¬ HoldsFloat member.2 → IsDocument member.2
  | .last _ _ spells _ => List.forall_mem_singleton.mpr (isDocument_of_spellsValue spells)
  | .cons _ _ spells _ follow => List.forall_mem_cons.mpr
      ⟨isDocument_of_spellsValue spells, isDocument_of_spellsMembers follow⟩

end

/-- A document without floats is a value that documents bring back, as its grammar says. -/
theorem isDocument_of_load {s : String} {v : Value} (loaded : load (.text s) = .ok v)
    (noFloat : ¬ HoldsFloat v) : IsDocument v := by
  obtain ⟨rest, spells, _⟩ := spellsValue_of_readWhole (load_text_eq_ok_iff.mp loaded)
  exact isDocument_of_spellsValue spells noFloat

end Presence.Json

/-! ## Options -/

namespace Presence.Optional

open Json

variable {m : Type → Type} [Monad m] [LawfulMonad m]

/-- Absence is written as nothing is. -/
theorem toDocument_ofNullable (v kind : Value) :
    (ofNullable v kind).toDocument = write .spaced v := by
  unfold ofNullable Value.isNull
  split
  · rfl
  · rfl

/-- The option of any document without floats is written as a document that gives the same option,
and the same document again. However its text spells the value, by blanks, escapes or names that
come again, its grammar says which value that is. -/
theorem ofDocument_canonical {s : String} {v : Value} (loaded : load (.text s) = .ok v)
    (noFloat : ¬ HoldsFloat v) (kind : Value) :
    (∃ rest, SpellsValue (skipBlanks s.toList) v rest ∧ skipBlanks rest = []) ∧
    ∃ first second written,
      (ofDocument (.text s) pure kind : Attempt m (Optional Value Value)) = pure first ∧
      first = ofNullable v kind ∧
      first.toDocument = .ok written ∧
      (ofDocument (.text (String.ofList written)) pure kind :
        Attempt m (Optional Value Value)) = pure second ∧
      second = first ∧ second.toDocument = .ok written := by
  obtain ⟨written, isWritten, reads⟩ :=
    readsAs_write isReadable_spaced (isDocument_of_load loaded noFloat)
  have document := (toDocument_ofNullable v kind).trans isWritten
  exact ⟨spellsValue_of_readWhole (load_text_eq_ok_iff.mp loaded), ofNullable v kind,
    ofNullable v kind, written, ofDocument_of_load loaded kind, rfl, document,
    ofDocument_of_load (load_of_readsAs reads) kind, rfl, document⟩

section Winding

-- The text of a name has no hash that computes, so that putting is not opened but put together.
attribute [local irreducible] Value.putStored

/-- A text with blanks of all kinds, a name that comes again, an escaped name, an escape that
writing does not use, and nought with a sign. -/
def winding : String :=
  "\t\x7b\"b\":1,\r\n\"\\u0061\":[-0,\"\\/\"], \"b\":true\x7d"

private theorem load_winding : load (.text winding) =
    .ok (.dictionary (entriesOf [("b", .bool true), ("a", .list [.int 0, .text "/"])])) := by
  have characters : winding.toList = ['\t', '\x7b', '"', 'b', '"', ':', '1', ',', '\r', '\n', '"',
      '\\', 'u', '0', '0', '6', '1', '"', ':', '[', '-', '0', ',', '"', '\\', '/', '"', ']', ',',
      ' ', '"', 'b', '"', ':', 't', 'r', 'u', 'e', '\x7d'] := rfl
  have read : readWhole winding.toList = .ok (.dictionary (Value.putStored (.text "b") (.bool true)
      (Value.putStored (.text "a") (.list [.int 0, .text "/"])
        (Value.putStored (.text "b") (.int 1) [])))) := by
    rw [characters]
    rfl
  have none : [] = entriesOf (kept []) := rfl
  rw [load_text_eq_ok_iff.mpr read, none, putStored_kept, putStored_kept, putStored_kept]
  simp [kept, List.eraseDups_cons, List.lookup_cons]

end Winding

/-- The name that comes again stands in its first place with its last value. -/
theorem ofDocument_canonical_winding :
    load (.text winding) = .ok (.dictionary (entriesOf [("b", .bool true),
      ("a", .list [.int 0, .text "/"])])) ∧
    ¬ HoldsFloat (.dictionary (entriesOf [("b", .bool true),
      ("a", .list [.int 0, .text "/"])])) ∧
    ∃ first second written,
      (ofDocument (.text winding) pure .null : Attempt Id (Optional Value Value)) = pure first ∧
      first = .ok (.dictionary (entriesOf [("b", .bool true),
        ("a", .list [.int 0, .text "/"])])) ∧
      first.toDocument = .ok written ∧
      (ofDocument (.text (String.ofList written)) pure .null :
        Attempt Id (Optional Value Value)) = pure second ∧
      second = first ∧ second.toDocument = .ok written := by
  have noFloat : ¬ HoldsFloat (.dictionary (entriesOf [("b", .bool true),
      ("a", .list [.int 0, .text "/"])])) := by
    intro holds
    cases holds with
    | entry isEntry holds =>
        simp only [entriesOf, List.map_cons, List.map_nil, List.mem_cons, List.not_mem_nil,
          or_false] at isEntry
        rcases isEntry with rfl | rfl
        · cases holds
        · cases holds with
          | item isItem holds =>
              simp only [List.mem_cons, List.not_mem_nil, or_false] at isItem
              rcases isItem with rfl | rfl <;> cases holds
  exact ⟨load_winding, noFloat, (ofDocument_canonical load_winding noFloat .null).2⟩

end Presence.Optional
