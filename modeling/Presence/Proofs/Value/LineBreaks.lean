import Presence.Proofs.Json.Graphic
import Presence.Proofs.Value.OwnText

/-!
Contract: the text of a value among others is on one line, whatever the value is.

Owns: `Unbroken`, texts without a line break; `Yields`, what holds of a result if there is one; that
whatever is written between quotes is unbroken (`unbroken_write`), and that only texts and faults
have texts of their own with line breaks (`broken_plain`).

Does not own: the graphic characters of documents (`Presence.Proofs.Json.Graphic`).

A line break in a text is escaped where the text stands between quotes. A text by itself is written
as it is, and so is the only argument of a fault.
-/

namespace Presence

/-- A text without a line break. -/
def Unbroken (text : List Char) : Prop := '\n' ∉ text

instance (text : List Char) : Decidable (Unbroken text) :=
  inferInstanceAs (Decidable ('\n' ∉ text))

theorem unbroken_cons {c : Char} {text : List Char} :
    Unbroken (c :: text) ↔ c ≠ '\n' ∧ Unbroken text := by
  rw [Unbroken, List.mem_cons, not_or, ne_comm]
  rfl

theorem unbroken_append {front back : List Char} :
    Unbroken (front ++ back) ↔ Unbroken front ∧ Unbroken back := by
  rw [Unbroken, List.mem_append, not_or]
  rfl

theorem unbroken_flatMap {α : Type} {items : List α} {f : α → List Char} :
    Unbroken (items.flatMap f) ↔ ∀ item ∈ items, Unbroken (f item) := by
  simp [Unbroken]

theorem unbroken_of_graphic {text : List Char} (graphic : Json.Graphic text) : Unbroken text := by
  intro member
  exact absurd (graphic '\n' member).1 (by decide)

/-- What holds of a result, if there is one. -/
def Yields {α : Type} (fine : α → Prop) (result : Except Fault α) : Prop :=
  ∀ a, result = .ok a → fine a

namespace Yields

variable {α β : Type} {fine : α → Prop} {good : β → Prop}

theorem ok {a : α} (isFine : fine a) : Yields fine (.ok a) := by
  rintro _ ⟨⟩
  exact isFine

private theorem error (fault : Fault) : Yields fine (.error fault) := nofun

theorem bind {result : Except Fault α} {next : α → Except Fault β} (first : Yields fine result)
    (goesOn : ∀ a, fine a → Yields good (next a)) : Yields good (result >>= next) := by
  intro b ended
  obtain ⟨a, isFirst, isNext⟩ := Value.bind_eq_ok ended
  exact goesOn a (first a isFirst) b isNext

end Yields

/-! ## Names -/

theorem unbroken_nameOfFault (kind : FaultKind) : Unbroken kind.name.toList := by
  cases kind <;> decide

theorem unbroken_nameOfKind (kind : Kind) : Unbroken kind.name.toList := by
  cases kind with
  | fault kind => exact unbroken_nameOfFault kind
  | _ => decide

private theorem unbroken_join {front back : String} (isFront : Unbroken front.toList)
    (isBack : Unbroken back.toList) : Unbroken (front ++ back).toList := by
  rw [String.toList_append]
  exact unbroken_append.mpr ⟨isFront, isBack⟩

private theorem unbroken_qualifiedNameOfFault (kind : FaultKind) :
    Unbroken kind.qualifiedName.toList := by
  have name := unbroken_nameOfFault kind
  unfold FaultKind.qualifiedName
  split
  case h_6 => exact name
  all_goals exact unbroken_join (by decide) name

private theorem unbroken_qualifiedName (kind : Kind) : Unbroken kind.qualifiedName.toList := by
  cases kind with
  | fault kind => exact unbroken_qualifiedNameOfFault kind
  | _ => decide

/-! ## Quotes -/

namespace Text

theorem quoteFor_ne (text : List Char) : quoteFor text ≠ '\n' := by
  unfold quoteFor
  split <;> decide

private theorem unbroken_escapeCode (c : Char) : Unbroken (escapeCode c) := by
  have hex := fun width => unbroken_of_graphic (Json.graphic_hex width c.toNat)
  unfold escapeCode
  dsimp only
  split
  · exact unbroken_cons.mpr ⟨by decide, unbroken_cons.mpr ⟨by decide, hex 2⟩⟩
  · split
    · exact unbroken_cons.mpr ⟨by decide, unbroken_cons.mpr ⟨by decide, hex 4⟩⟩
    · exact unbroken_cons.mpr ⟨by decide, unbroken_cons.mpr ⟨by decide, hex 8⟩⟩

theorem unbroken_escapeChar {quote : Char} (isQuote : quote ≠ '\n') (c : Char) :
    Unbroken (escapeChar quote c) := by
  unfold escapeChar
  split_ifs with escaped tab newLine carriageReturn printable
  · have notBreak : c ≠ '\n' := by
      rintro rfl
      simp [isQuote.symm] at escaped
    exact unbroken_cons.mpr ⟨by decide, unbroken_cons.mpr ⟨notBreak, by decide⟩⟩
  · decide
  · decide
  · decide
  · exact unbroken_cons.mpr ⟨by simpa using newLine, by decide⟩
  · exact unbroken_escapeCode c

private theorem unbroken_quoted (text : List Char) : Unbroken (quoted text) := by
  have isQuote := quoteFor_ne text
  refine unbroken_cons.mpr ⟨isQuote, unbroken_append.mpr ⟨?_, ?_⟩⟩
  · exact unbroken_flatMap.mpr fun c _ => unbroken_escapeChar isQuote c
  · exact unbroken_cons.mpr ⟨isQuote, by decide⟩

private theorem unbroken_octetsBetween {quote mark : Char} (isQuote : quote ≠ '\n')
    (isMark : mark ≠ '\n') (octets : List UInt8) : Unbroken (octetsBetween quote mark octets) := by
  have each : ∀ octet ∈ octets, Unbroken (escapeOctet mark octet) := by
    intro octet _
    unfold escapeOctet
    dsimp only
    split
    · exact unbroken_escapeChar isMark _
    · exact unbroken_cons.mpr ⟨by decide, unbroken_cons.mpr
        ⟨by decide, unbroken_of_graphic (Json.graphic_hex 2 _)⟩⟩
  exact unbroken_cons.mpr ⟨by decide, unbroken_cons.mpr ⟨isQuote, unbroken_append.mpr
    ⟨unbroken_flatMap.mpr each, unbroken_cons.mpr ⟨isQuote, by decide⟩⟩⟩⟩

end Text

/-! ## Values -/

private theorem unbroken_numberText (n : Int) : Yields Unbroken (numberText n) := by
  unfold numberText
  split
  · exact .error _
  · exact .ok (unbroken_of_graphic (Json.graphic_decimal n))

private theorem unbroken_complexText (re im : Binary64) :
    Unbroken (Binary64.complexText re im) := by
  have imaginary := unbroken_of_graphic (Json.graphic_textWith Binary64.bare im)
  have real := unbroken_of_graphic (Json.graphic_textWith Binary64.bare re)
  unfold Binary64.complexText
  dsimp only
  split
  · exact unbroken_append.mpr ⟨imaginary, by decide⟩
  · refine unbroken_cons.mpr ⟨by decide, ?_⟩
    refine unbroken_append.mpr ⟨unbroken_append.mpr ⟨real, ?_⟩, by decide⟩
    split
    · exact imaginary
    · exact unbroken_cons.mpr ⟨by decide, imaginary⟩

private theorem unbroken_writeScalar (s : Scalar) : Yields Unbroken (s.write .quoted) := by
  cases s with
  | null => exact .ok (by decide)
  | bool b => cases b <;> exact .ok (by decide)
  | int n => exact unbroken_numberText n
  | float x => exact .ok (unbroken_of_graphic (Json.graphic_textWith Binary64.plain x))
  | complex re im => exact .ok (unbroken_complexText re im)
  | text s => exact .ok (Text.unbroken_quoted s.toList)
  | bytes octets =>
      exact .ok (Text.unbroken_octetsBetween (Text.quoteFor_ne _) (Text.quoteFor_ne _) octets)
  | byteArray octets =>
      have isMark : '\'' ≠ '\n' := by decide
      have between := Text.unbroken_octetsBetween
        (Text.quoteFor_ne (octets.map fun octet => Char.ofNat octet.toNat)) isMark octets
      exact .ok (unbroken_append.mpr ⟨unbroken_append.mpr ⟨by decide, between⟩, by decide⟩)
  | kind k =>
      exact .ok (unbroken_append.mpr
        ⟨unbroken_append.mpr ⟨by decide, unbroken_qualifiedName k⟩, by decide⟩)
  | handle h =>
      obtain ⟨sort, number⟩ := h
      have between : Unbroken ('<' :: (sort.kind.name.toList ++ ['>'])) := unbroken_cons.mpr
        ⟨by decide, unbroken_append.mpr ⟨unbroken_nameOfKind sort.kind, by decide⟩⟩
      cases sort with
      | growing => exact .ok (by decide)
      | _ => exact .ok between

namespace Value

theorem unbroken_inside {front back : String} {part : List Char}
    (isFront : Unbroken front.toList) (isBack : Unbroken back.toList) (isPart : Unbroken part) :
    Unbroken (inside front back part) :=
  unbroken_append.mpr ⟨unbroken_append.mpr ⟨isFront, isPart⟩, isBack⟩

private theorem unbroken_separated {separator : List Char} (isSeparator : Unbroken separator)
    {texts : List (List Char)} (each : ∀ text ∈ texts, Unbroken text) :
    Unbroken (separated separator texts) := by
  induction texts with
  | nil => exact List.not_mem_nil
  | cons first rest inductionHypothesis =>
      obtain ⟨isFirst, others⟩ := List.forall_mem_cons.mp each
      cases rest with
      | nil => exact isFirst
      | cons second rest =>
          exact unbroken_append.mpr
            ⟨unbroken_append.mpr ⟨isFirst, isSeparator⟩, inductionHypothesis others⟩

/-- A result between the two ends of a form. -/
private theorem yields_inside {front back : String} (isFront : Unbroken front.toList)
    (isBack : Unbroken back.toList) {result : Except Fault (List Char)}
    (isResult : Yields Unbroken result) :
    Yields Unbroken (result >>= fun part => pure (inside front back part)) :=
  isResult.bind fun _ isPart => .ok (unbroken_inside isFront isBack isPart)

/-- Parts one after the other, with separators between them, between the two ends of a form. -/
private theorem unbroken_list {front back : String} (isFront : Unbroken front.toList)
    (isBack : Unbroken back.toList) {texts : List (List Char)}
    (each : ∀ text ∈ texts, Unbroken text) :
    Unbroken (inside front back (separated [',', ' '] texts)) :=
  unbroken_inside isFront isBack (unbroken_separated (by decide) each)

mutual

/-- The text of a value among others has no line break. -/
theorem unbroken_write : (v : Value) → Yields Unbroken (write .quoted v)
  | .scalar s => unbroken_writeScalar s
  | .list items => by
      rw [write]
      exact (unbroken_writeItems items).bind fun _ each =>
        .ok (unbroken_list (by decide) (by decide) each)
  | .tuple items => by
      rw [write]
      refine (unbroken_writeItems items).bind fun texts each => ?_
      split
      · exact .ok (unbroken_inside (by decide) (by decide) (each _ (List.mem_singleton.mpr rfl)))
      · exact .ok (unbroken_list (by decide) (by decide) each)
  | .set items => by
      rw [write]
      refine (unbroken_writeItems items).bind fun texts each => ?_
      split
      · exact .ok (by decide)
      · exact .ok (unbroken_list (by decide) (by decide) each)
  | .frozenSet items => by
      rw [write]
      refine (unbroken_writeItems items).bind fun texts each => ?_
      split
      · exact .ok (by decide)
      · exact .ok (unbroken_list (by decide) (by decide) each)
  | .dictionary entries => by
      rw [write]
      exact (unbroken_writeEntries entries).bind fun _ each =>
        .ok (unbroken_list (by decide) (by decide) each)
  | .option (.ok v) => by
      rw [write]
      exact yields_inside (by decide) (by decide) (unbroken_write v)
  | .option (.notOk _) => .ok (by decide)
  | .either (.left v _) => by
      rw [write]
      exact yields_inside (by decide) (by decide) (unbroken_write v)
  | .either (.right v _) => by
      rw [write]
      exact yields_inside (by decide) (by decide) (unbroken_write v)
  | .pair ⟨first, second⟩ => by
      rw [write]
      refine (unbroken_write first).bind fun _ isOne => (unbroken_write second).bind fun _ isTwo =>
        .ok (unbroken_append.mpr ⟨?_, ?_⟩)
      · exact unbroken_inside (by decide) (by decide) isOne
      · exact unbroken_inside (by decide) (by decide) isTwo
  | .sequence ⟨items⟩ => by
      rw [write]
      exact yields_inside (by decide) (by decide) (unbroken_write items)
  | .managed ⟨holder, basic⟩ => by
      rw [write]
      refine (unbroken_write basic).bind fun _ isPart =>
        .ok (unbroken_append.mpr ⟨unbroken_nameOfKind _, ?_⟩)
      exact unbroken_inside (by decide) (by decide) isPart
  | .guarded ⟨v⟩ => by
      rw [write]
      exact yields_inside (by decide) (by decide) (unbroken_write v)
  | .deferred ⟨f⟩ => by
      rw [write]
      exact yields_inside (by decide) (by decide) (unbroken_write f)
  | .ternary ⟨condition, v, none⟩ => by
      rw [write]
      refine (unbroken_write condition).bind fun _ isOne => (unbroken_write v).bind fun _ isTwo =>
        .ok (unbroken_append.mpr ⟨?_, ?_⟩)
      · exact unbroken_inside (by decide) (by decide) isOne
      · exact unbroken_inside (by decide) (by decide) isTwo
  | .ternary ⟨condition, v, some f⟩ => by
      rw [write]
      refine (unbroken_write condition).bind fun _ isOne => (unbroken_write v).bind fun _ isTwo =>
        (unbroken_write f).bind fun _ isThree =>
          .ok (unbroken_append.mpr ⟨unbroken_append.mpr ⟨?_, ?_⟩, ?_⟩)
      · exact unbroken_inside (by decide) (by decide) isOne
      · exact unbroken_inside (by decide) (by decide) isTwo
      · exact unbroken_inside (by decide) (by decide) isThree
  | .parseError ⟨input, reason, fallback⟩ => by
      rw [write]
      refine (unbroken_write input).bind fun _ isOne => (unbroken_write reason).bind fun _ isTwo =>
        (unbroken_write fallback).bind fun _ isThree =>
          .ok (unbroken_append.mpr ⟨unbroken_append.mpr ⟨?_, ?_⟩, ?_⟩)
      · exact unbroken_inside (by decide) (by decide) isOne
      · exact unbroken_inside (by decide) (by decide) isTwo
      · exact unbroken_inside (by decide) (by decide) isThree
  | .thrown ⟨_, kind, [], _⟩ =>
      .ok (unbroken_append.mpr ⟨unbroken_nameOfFault kind, by decide⟩)
  | .thrown ⟨_, kind, [only], _⟩ => by
      rw [write]
      refine (unbroken_write only).bind fun _ isPart =>
        .ok (unbroken_append.mpr ⟨unbroken_nameOfFault kind, ?_⟩)
      exact unbroken_inside (by decide) (by decide) isPart
  | .thrown ⟨_, kind, first :: second :: rest, _⟩ => by
      rw [write]
      refine (unbroken_write first).bind fun one isOne => (unbroken_write second).bind
        fun two isTwo => (unbroken_writeItems rest).bind fun others each => .ok ?_
      refine unbroken_append.mpr ⟨unbroken_nameOfFault kind, ?_⟩
      apply unbroken_list (by decide) (by decide)
      split
      · simp [isOne, isTwo]
      · simpa [isOne, isTwo] using each
  | .client ⟨_, users, _⟩ => by
      rw [write]
      exact yields_inside (by decide) (by decide) (unbroken_write users)
termination_by structural v => v

theorem unbroken_writeItems : (items : List Value) →
    Yields (fun texts => ∀ text ∈ texts, Unbroken text) (writeItems items)
  | [] => .ok (List.forall_mem_nil _)
  | item :: rest => by
      rw [writeItems]
      exact (unbroken_write item).bind fun _ isFirst => (unbroken_writeItems rest).bind
        fun _ others => .ok (List.forall_mem_cons.mpr ⟨isFirst, others⟩)
termination_by structural items => items

theorem unbroken_writeEntries : (entries : List (Value × Value)) →
    Yields (fun texts => ∀ text ∈ texts, Unbroken text) (writeEntries entries)
  | [] => .ok (List.forall_mem_nil _)
  | (key, v) :: rest => by
      rw [writeEntries]
      refine (unbroken_write key).bind fun _ isKey => (unbroken_write v).bind fun _ isValue =>
        (unbroken_writeEntries rest).bind fun _ others =>
          .ok (List.forall_mem_cons.mpr ⟨?_, others⟩)
      exact unbroken_append.mpr ⟨unbroken_append.mpr ⟨isKey, by decide⟩, isValue⟩
termination_by structural entries => entries

end

/-- A value whose own text has a line break is a text with one or a fault. -/
theorem broken_plain {v : Value} {text : String} (told : v.plain = .ok text)
    (broken : ¬Unbroken text.toList) :
    (∃ s, v = .text s ∧ ¬Unbroken s.toList) ∨ ∃ t, v = .thrown t := by
  have written := write_eq_ok told
  rcases write_plain_cases v with ⟨s, rfl⟩ | isFault | same
  · have same : s.toList = text.toList := Except.ok.inj written
    exact .inl ⟨s, rfl, same ▸ broken⟩
  · exact .inr isFault
  · rw [same] at written
    exact absurd (unbroken_write v text.toList written) broken

end Value

end Presence
