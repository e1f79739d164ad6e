import Mathlib.Tactic.SplitIfs
import Presence.Proofs.Json.Numerals
import Presence.Proofs.Value.Equality

/-!
Contract: documents are made of the graphic characters of the first block, from the space to the
tilde, whatever they are documents of.

Owns: `Graphic`; that each part of a document is graphic; `graphic_write`.

Does not own: the text of values outside documents (`Presence.Value.Text`).
-/

namespace Presence.Json

def Graphic (text : List Char) : Prop := ∀ c ∈ text, ' ' ≤ c ∧ c ≤ '~'

instance (text : List Char) : Decidable (Graphic text) :=
  List.decidableBAll (fun c => ' ' ≤ c ∧ c ≤ '~') text

theorem graphic_nil : Graphic [] := List.forall_mem_nil _

theorem graphic_cons {c : Char} {text : List Char} :
    Graphic (c :: text) ↔ (' ' ≤ c ∧ c ≤ '~') ∧ Graphic text := List.forall_mem_cons

theorem graphic_append {front back : List Char} :
    Graphic (front ++ back) ↔ Graphic front ∧ Graphic back := List.forall_mem_append

private theorem Graphic.of_subset {part text : List Char} (graphic : Graphic text)
    (within : part ⊆ text) :
    Graphic part := by
  intro c member
  exact graphic c (within member)

private theorem graphic_replicate (count : Nat) {c : Char} (graphic : ' ' ≤ c ∧ c ≤ '~') :
    Graphic (List.replicate count c) := by
  intro d member
  rw [List.eq_of_mem_replicate member]
  exact graphic

/-! ## Digits -/

theorem graphic_of_isDigit {text : List Char} (digits : ∀ c ∈ text, c.isDigit = true) :
    Graphic text := by
  intro c member
  have range := digits c member
  simp only [Char.isDigit, Bool.and_eq_true, decide_eq_true_eq] at range
  have low : ' '.val ≤ c.val := UInt32.le_trans (by decide) range.1
  have high : c.val ≤ '~'.val := UInt32.le_trans range.2 (by decide)
  exact ⟨low, high⟩

theorem graphic_toDigits (n : Nat) : Graphic (Nat.toDigits 10 n) :=
  graphic_of_isDigit fun _ => isDigit_of_mem_toDigits

theorem graphic_hex (width n : Nat) : Graphic (Text.hex width n) := by
  have digit : ∀ m : Fin 16, ' ' ≤ Nat.digitChar m ∧ Nat.digitChar m ≤ '~' := by decide
  induction width generalizing n with
  | zero => exact graphic_nil
  | succ width inductionHypothesis =>
      have last := digit ⟨n % 16, Nat.mod_lt n (by decide)⟩
      exact graphic_append.mpr
        ⟨inductionHypothesis (n / 16), graphic_cons.mpr ⟨last, graphic_nil⟩⟩

theorem graphic_decimal (n : Int) : Graphic (decimal n) := by
  cases n with
  | ofNat size => exact graphic_toDigits size
  | negSucc size => exact graphic_cons.mpr ⟨by decide, graphic_toDigits (size + 1)⟩

private theorem graphic_exponentText (exponent : Int) :
    Graphic (Binary64.exponentText exponent) := by
  have digits := graphic_toDigits exponent.natAbs
  unfold Binary64.exponentText
  refine graphic_cons.mpr ⟨by decide, graphic_cons.mpr ⟨?_, ?_⟩⟩
  · split <;> decide
  · split
    · exact graphic_cons.mpr ⟨by decide, digits⟩
    · exact digits

private theorem graphic_layOut (layout : Binary64.Layout) (digits : Binary64.Digits) :
    Graphic (Binary64.layOut layout digits) := by
  have text := graphic_toDigits digits.coefficient
  have zeros := fun count => graphic_replicate count (show ' ' ≤ '0' ∧ '0' ≤ '~' by decide)
  unfold Binary64.layOut
  generalize Nat.toDigits 10 digits.coefficient = coefficient at text
  simp only
  split
  · -- With an exponent: at most one point stands behind the first digit.
    refine graphic_append.mpr ⟨?_, graphic_exponentText _⟩
    split
    · exact graphic_nil
    · exact text
    · obtain ⟨first, rest⟩ := graphic_cons.mp text
      exact graphic_cons.mpr ⟨first, graphic_cons.mpr ⟨by decide, rest⟩⟩
  · split
    · exact graphic_cons.mpr ⟨by decide, graphic_cons.mpr ⟨by decide,
        graphic_append.mpr ⟨zeros _, text⟩⟩⟩
    · split
      · refine graphic_append.mpr ⟨graphic_append.mpr ⟨text, zeros _⟩, ?_⟩
        split <;> decide
      · exact graphic_append.mpr ⟨text.of_subset (List.take_subset _ _),
          graphic_cons.mpr ⟨by decide, text.of_subset (List.drop_subset _ _)⟩⟩

theorem graphic_textWith (layout : Binary64.Layout) (x : Binary64) :
    Graphic (Binary64.textWith layout x) := by
  cases x with
  | nan => exact (by decide : Graphic "nan".toList)
  | infinite negative =>
      show Graphic (if negative then "-inf".toList else "inf".toList)
      split <;> decide
  | negativeZero => exact graphic_cons.mpr ⟨by decide, graphic_layOut _ _⟩
  | finite q =>
      simp only [Binary64.textWith]
      split_ifs
      · exact graphic_layOut _ _
      · exact graphic_append.mpr ⟨by decide, graphic_layOut _ _⟩
      · exact graphic_append.mpr ⟨by decide, graphic_layOut _ _⟩

private theorem graphic_floatText (x : Binary64) : Graphic (floatText x) := by
  cases x with
  | nan => decide
  | infinite negative => cases negative <;> decide
  | negativeZero => exact graphic_textWith Binary64.plain .negativeZero
  | finite q => exact graphic_textWith Binary64.plain (.finite q)

/-! ## Texts -/

private theorem graphic_codeEscape (code : Nat) : Graphic (codeEscape code) :=
  graphic_cons.mpr ⟨by decide, graphic_cons.mpr ⟨by decide, graphic_hex 4 code⟩⟩

private theorem graphic_escapeChar (c : Char) : Graphic (escapeChar c) := by
  unfold escapeChar
  split_ifs with quoting backspace formFeed newLine carriageReturn tab graphic small
  · have isQuoting : c = '"' ∨ c = '\\' := by simpa using quoting
    rcases isQuoting with rfl | rfl <;> decide
  · decide
  · decide
  · decide
  · decide
  · decide
  · have range : ' ' ≤ c ∧ c ≤ '~' := by simpa using graphic
    exact graphic_cons.mpr ⟨range, graphic_nil⟩
  · exact graphic_codeEscape c.toNat
  · exact graphic_append.mpr ⟨graphic_codeEscape _, graphic_codeEscape _⟩

theorem graphic_quoted (text : List Char) : Graphic (quoted text) := by
  refine graphic_cons.mpr ⟨by decide, graphic_append.mpr ⟨?_, by decide⟩⟩
  intro c member
  obtain ⟨d, _, inside⟩ := List.mem_flatMap.mp member
  exact graphic_escapeChar d c inside

/-! ## Values -/

private theorem graphic_plainText? {s : Scalar} {text : List Char}
    (written : plainText? s = .ok (some text)) : Graphic text := by
  cases s with
  | null =>
      cases written
      decide
  | bool b =>
      cases written
      cases b <;> decide
  | int n =>
      simp only [plainText?, numberText] at written
      split_ifs at written
      · cases written
      · cases written
        exact graphic_decimal n
  | float x =>
      cases written
      exact graphic_floatText x
  | _ => cases written

private theorem graphic_keyText {key : Value} {text : List Char}
    (written : keyText key = .ok text) :
    Graphic text := by
  unfold keyText at written
  split at written
  · cases written
    exact graphic_quoted _
  · obtain ⟨shown, _, named⟩ := Value.bind_eq_ok written
    cases shown with
    | none => cases named
    | some characters =>
        cases named
        exact graphic_quoted _
  · cases written

private theorem graphic_writeScalar {style : Style} {s : Scalar} {text : List Char}
    (written : writeScalar style s = .ok text) : Graphic text := by
  unfold writeScalar at written
  split at written
  · cases written
    exact graphic_quoted _
  · cases written
  · cases written
  · obtain ⟨shown, plain, chosen⟩ := Value.bind_eq_ok written
    cases shown with
    | none => cases chosen
    | some characters =>
        cases chosen
        exact graphic_plainText? plain

private theorem graphic_separated {separator : List Char} (graphic : Graphic separator)
    {texts : List (List Char)} (each : ∀ text ∈ texts, Graphic text) :
    Graphic (separated separator texts) := by
  induction texts with
  | nil => exact graphic_nil
  | cons first rest inductionHypothesis =>
      obtain ⟨firstGraphic, others⟩ := List.forall_mem_cons.mp each
      cases rest with
      | nil => exact firstGraphic
      | cons second rest =>
          exact graphic_append.mpr
            ⟨graphic_append.mpr ⟨firstGraphic, graphic⟩, inductionHypothesis others⟩

/-- The separators of a layout are graphic. -/
structure Style.IsGraphic (style : Style) : Prop where
  item : Graphic style.itemSeparator
  name : Graphic style.nameSeparator

theorem isGraphic_compact : Style.compact.IsGraphic := ⟨by decide, by decide⟩

section Write

variable {style : Style}

/-- Brackets around parts with separators between them. -/
private theorem graphic_bracketed {opening closing : Char} {separator : List Char}
    (brackets : Graphic [opening, closing]) (graphic : Graphic separator)
    {texts : List (List Char)} (each : ∀ text ∈ texts, Graphic text) :
    Graphic (opening :: (separated separator texts ++ [closing])) := by
  obtain ⟨isOpening, rest⟩ := graphic_cons.mp brackets
  exact graphic_cons.mpr ⟨isOpening, graphic_append.mpr ⟨graphic_separated graphic each, rest⟩⟩

mutual

/-- A document has graphic characters only. -/
theorem graphic_write (graphic : style.IsGraphic) : (v : Value) → (text : List Char) →
    write style v = .ok text → Graphic text
  | .scalar s, text, written => by
      rw [write] at written
      exact graphic_writeScalar written
  | .list items, text, written => by
      rw [write] at written
      obtain ⟨texts, inner, bracketed⟩ := Value.bind_eq_ok written
      cases bracketed
      exact graphic_bracketed (by decide) graphic.item
        (graphic_writeItems graphic items texts inner)
  | .tuple items, text, written => by
      rw [write] at written
      obtain ⟨texts, inner, bracketed⟩ := Value.bind_eq_ok written
      cases bracketed
      exact graphic_bracketed (by decide) graphic.item
        (graphic_writeItems graphic items texts inner)
  | .dictionary entries, text, written => by
      rw [write] at written
      obtain ⟨texts, inner, bracketed⟩ := Value.bind_eq_ok written
      cases bracketed
      exact graphic_bracketed (by decide) graphic.item
        (graphic_writeMembers graphic entries texts inner)
  | .option (.ok v), text, written => by
      rw [write] at written
      split at written
      · exact graphic_write graphic v text written
      · cases written
  | .option (.notOk _), text, written => by
      rw [write] at written
      split at written
      · cases written
        decide
      · cases written
  | .set _, _, written => by cases written
  | .frozenSet _, _, written => by cases written
  | .either _, _, written => by cases written
  | .pair _, _, written => by cases written
  | .sequence _, _, written => by cases written
  | .managed _, _, written => by cases written
  | .guarded _, _, written => by cases written
  | .deferred _, _, written => by cases written
  | .ternary _, _, written => by cases written
  | .parseError _, _, written => by cases written
  | .thrown _, _, written => by cases written
  | .client _, _, written => by cases written

theorem graphic_writeItems (graphic : style.IsGraphic) : (items : List Value) →
    (texts : List (List Char)) → writeItems style items = .ok texts →
      ∀ text ∈ texts, Graphic text
  | [], texts, written => by
      cases written
      exact List.forall_mem_nil _
  | item :: rest, texts, written => by
      rw [writeItems] at written
      obtain ⟨front, first, written⟩ := Value.bind_eq_ok written
      obtain ⟨back, others, written⟩ := Value.bind_eq_ok written
      cases written
      exact List.forall_mem_cons.mpr ⟨graphic_write graphic item front first,
        graphic_writeItems graphic rest back others⟩

theorem graphic_writeMembers (graphic : style.IsGraphic) : (entries : List (Value × Value)) →
    (texts : List (List Char)) → writeMembers style entries = .ok texts →
      ∀ text ∈ texts, Graphic text
  | [], texts, written => by
      cases written
      exact List.forall_mem_nil _
  | (key, v) :: rest, texts, written => by
      rw [writeMembers] at written
      obtain ⟨name, named, written⟩ := Value.bind_eq_ok written
      obtain ⟨front, first, written⟩ := Value.bind_eq_ok written
      obtain ⟨back, others, written⟩ := Value.bind_eq_ok written
      cases written
      have entry : Graphic (name ++ style.nameSeparator ++ front) := graphic_append.mpr
        ⟨graphic_append.mpr ⟨graphic_keyText named, graphic.name⟩,
          graphic_write graphic v front first⟩
      exact List.forall_mem_cons.mpr ⟨entry, graphic_writeMembers graphic rest back others⟩

end

end Write

end Presence.Json
