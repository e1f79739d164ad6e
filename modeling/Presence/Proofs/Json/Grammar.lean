import Mathlib.Data.List.Induction
import Mathlib.Data.List.TakeWhile
import Presence.Proofs.Json.Graphic
import Presence.Proofs.Json.RoundTrip
import Presence.Proofs.Value.Named

/-!
Contract: what a text is that a value is read from.

Owns: `SpellsPlain` and `SpellsValue`, the grammar of documents without steps; `kept`, the members
of an object whose names may come more than once; `spellsValue_of_readValue`, that a value is read
only from what spells it; what a document starts with (`front_of_readWhole`).

Does not own: what is read back of written documents (`Presence.Proofs.Json.RoundTrip`).

The members that have been read before are what is kept of some members too, so the induction over
the reader of members goes on from any of them.
-/

namespace Presence.Json

/-! ## Digits -/

theorem spanDigits_eq {text digits rest : List Char}
    (span : Binary64.spanDigits text = (digits, rest)) :
    text = digits ++ rest ∧ ∀ c ∈ digits, c.isDigit = true := by
  unfold Binary64.spanDigits at span
  cases span
  exact ⟨List.takeWhile_append_dropWhile.symm, fun c => List.mem_takeWhile_imp⟩

private theorem spanWhole_eq_some {text digits rest : List Char}
    (span : spanWhole text = some (digits, rest)) :
    text = digits ++ rest ∧ digits ≠ [] ∧ ∀ c ∈ digits, c.isDigit = true := by
  unfold spanWhole at span
  split at span
  · cases span
    exact ⟨rfl, by simp, List.forall_mem_singleton.mpr rfl⟩
  · next c others _ =>
      split at span
      · next isDigit =>
          obtain ⟨shape, each⟩ := spanDigits_eq (Option.some.inj span)
          refine ⟨shape, ?_, each⟩
          rintro rfl
          simp [Binary64.spanDigits, isDigit] at span
      · cases span
  · cases span

private theorem spanFraction_eq_some {text digits rest : List Char}
    (span : spanFraction text = some (digits, rest)) :
    ∃ passed, text = passed ++ rest ∧ Graphic passed := by
  unfold spanFraction at span
  split at span
  · next others =>
      split at span
      · cases span
      · next spanned =>
          cases span
          obtain ⟨rfl, isDigits⟩ := spanDigits_eq spanned
          exact ⟨'.' :: digits, rfl, graphic_cons.mpr ⟨by decide, graphic_of_isDigit isDigits⟩⟩
  · cases span

private theorem spanExponent_eq_some {text rest : List Char} {exponent : Int}
    (span : spanExponent text = some (exponent, rest)) :
    ∃ passed, text = passed ++ rest ∧ Graphic passed := by
  unfold spanExponent at span
  split at span
  · next mark others =>
      split at span
      · next isMark =>
          have graphicMark : ' ' ≤ mark ∧ mark ≤ '~' := by
            rcases (by simpa using isMark : mark = 'e' ∨ mark = 'E') with rfl | rfl <;> decide
          dsimp only at span
          split at span
          · cases span
          · next digits left _ spanned =>
              cases span
              obtain ⟨body, isDigits⟩ := spanDigits_eq spanned
              have graphic : ∀ sign, Graphic sign → Graphic (mark :: (sign ++ digits)) :=
                fun _ graphicSign => graphic_cons.mpr ⟨graphicMark,
                  graphic_append.mpr ⟨graphicSign, graphic_of_isDigit isDigits⟩⟩
              -- A sign may stand between the mark and the digits.
              split at body
              · exact ⟨_, congrArg (mark :: '-' :: ·) body, graphic ['-'] (by decide)⟩
              · exact ⟨_, congrArg (mark :: '+' :: ·) body, graphic ['+'] (by decide)⟩
              · exact ⟨_, congrArg (mark :: ·) body, graphic [] (by decide)⟩
      · cases span
  · cases span

/-! ## Values without parts -/

/-- A sign in front of digits. -/
def signOf (negative : Bool) : List Char := if negative then ['-'] else []

/-- The texts of values without parts, other than texts: words, whole numbers within the limit, and
other numbers. -/
inductive SpellsPlain : List Char → Value → Prop where
  | word {word : List Char} {v : Value} (isWord : (word, v) ∈ words) : SpellsPlain word v
  | whole (negative : Bool) {digits : List Char} (nonempty : digits ≠ [])
      (isDigits : ∀ c ∈ digits, c.isDigit = true) (short : digits.length ≤ Text.digitLimit) :
      SpellsPlain (signOf negative ++ digits)
        (.int (if negative then -(Nat.ofDigitChars 10 digits 0 : Int)
          else Nat.ofDigitChars 10 digits 0))
  | real {text : List Char} (nonempty : text ≠ []) (graphic : Graphic text) (x : Binary64) :
      SpellsPlain text (.float x)

private theorem wholeNumber_eq_ok {negative : Bool} {digits : List Char} {v : Value}
    (read : wholeNumber negative digits = .ok v) :
    digits.length ≤ Text.digitLimit ∧
      v = .int (if negative then -(Nat.ofDigitChars 10 digits 0 : Int)
        else Nat.ofDigitChars 10 digits 0) := by
  unfold wholeNumber at read
  split at read
  · cases read
  · next short =>
      cases read
      exact ⟨Nat.le_of_not_lt short, rfl⟩

theorem graphic_signOf (negative : Bool) : Graphic (signOf negative) := by
  cases negative <;> decide

/-- Digits with a part behind them that is no digit make a number that is not whole. -/
private theorem spellsPlain_real (negative : Bool) {digits part : List Char}
    (nonempty : digits ≠ [])
    (isDigits : ∀ c ∈ digits, c.isDigit = true) (graphic : Graphic part) (x : Binary64) :
    SpellsPlain (signOf negative ++ (digits ++ part)) (.float x) := by
  refine .real ?_ (graphic_append.mpr ⟨graphic_signOf negative,
    graphic_append.mpr ⟨graphic_of_isDigit isDigits, graphic⟩⟩) x
  simp [nonempty]

private theorem spellsPlain_of_readUnsigned {negative : Bool} {text rest : List Char} {v : Value}
    (read : readUnsigned negative text = .ok (some (v, rest))) :
    ∃ passed, text = passed ++ rest ∧ SpellsPlain (signOf negative ++ passed) v := by
  unfold readUnsigned at read
  split at read
  · cases read
  · next digits others spanned =>
      obtain ⟨rfl, nonempty, isDigits⟩ := spanWhole_eq_some spanned
      split at read
      · obtain ⟨number, isNumber, found⟩ := Value.bind_eq_ok read
        cases found
        obtain ⟨short, rfl⟩ := wholeNumber_eq_ok isNumber
        exact ⟨digits, rfl, .whole negative nonempty isDigits short⟩
      · next noFraction isExponent =>
          cases read
          rw [noFraction, Option.elim_none] at isExponent
          obtain ⟨part, rfl, graphic⟩ := spanExponent_eq_some isExponent
          exact ⟨digits ++ part, by simp, spellsPlain_real negative nonempty isDigits graphic _⟩
      · next isFraction noExponent =>
          cases read
          obtain ⟨part, rfl, graphic⟩ := spanFraction_eq_some isFraction
          exact ⟨digits ++ part, by simp, spellsPlain_real negative nonempty isDigits graphic _⟩
      · next isFraction isExponent =>
          cases read
          rw [isFraction, Option.elim_some] at isExponent
          obtain ⟨part, rfl, graphic⟩ := spanFraction_eq_some isFraction
          obtain ⟨back, shape, graphicBack⟩ := spanExponent_eq_some isExponent
          dsimp only at shape
          subst shape
          exact ⟨digits ++ (part ++ back), by simp, spellsPlain_real negative nonempty isDigits
            (graphic_append.mpr ⟨graphic, graphicBack⟩) _⟩

private theorem dropWord?_eq_some {word text rest : List Char}
    (found : dropWord? word text = some rest) :
    text = word ++ rest := by
  unfold dropWord? at found
  split at found
  · next isPrefix =>
      cases found
      exact (List.prefix_iff_eq_append.mp (List.isPrefixOf_iff_prefix.mp isPrefix)).symm
  · cases found

/-- A value without parts is read only from a text of one. -/
private theorem spellsPlain_of_readPlain {text rest : List Char} {v : Value}
    (read : readPlain text = .ok (v, rest)) :
    ∃ passed, text = passed ++ rest ∧ SpellsPlain passed v := by
  unfold readPlain at read
  split at read
  · next found isFound =>
      cases read
      obtain ⟨word, isWord, isHere⟩ := List.exists_of_findSome?_eq_some isFound
      obtain ⟨left, dropped, same⟩ := Option.map_eq_some_iff.mp isHere
      cases same
      exact ⟨word.1, dropWord?_eq_some dropped, .word isWord⟩
  · dsimp only at read
    split at read
    · obtain ⟨_ | found, isNumber, chosen⟩ := Value.bind_eq_ok read
      · cases chosen
      · cases chosen
        obtain ⟨passed, rfl, spells⟩ := spellsPlain_of_readUnsigned isNumber
        exact ⟨'-' :: passed, rfl, spells⟩
    · obtain ⟨_ | found, isNumber, chosen⟩ := Value.bind_eq_ok read
      · cases chosen
      · cases chosen
        exact spellsPlain_of_readUnsigned isNumber

/-- The text of a value without parts is visible, and not empty. -/
theorem SpellsPlain.visible {text : List Char} {v : Value} (spells : SpellsPlain text v) :
    text ≠ [] ∧ Graphic text := by
  cases spells with
  | word isWord =>
      have each : ∀ word ∈ words, word.1 ≠ [] ∧ Graphic word.1 := by decide
      exact each _ isWord
  | whole negative nonempty isDigits _ =>
      exact ⟨by simp [nonempty], graphic_append.mpr
        ⟨graphic_signOf negative, graphic_of_isDigit isDigits⟩⟩
  | real nonempty graphic x => exact ⟨nonempty, graphic⟩

/-! ## Members under names -/

/-- Members under names that all differ: a name that comes again keeps its first place and takes its
last value. -/
def kept (members : List (String × Value)) : List (String × Value) :=
  (members.map Prod.fst).eraseDups.map fun name =>
    (name, (members.reverse.lookup name).getD .null)

theorem eraseDups_concat (names : List String) (name : String) :
    (names ++ [name]).eraseDups =
      if name ∈ names then names.eraseDups else names.eraseDups ++ [name] := by
  rw [List.eraseDups_append]
  split
  · next present => simp [List.removeAll, present]
  · next absent => simp [List.removeAll, absent, List.eraseDups_cons]

theorem nodup_eraseDups (names : List String) : names.eraseDups.Nodup := by
  induction names using List.reverseRecOn with
  | nil => simp
  | append_singleton front last inductionHypothesis =>
      rw [eraseDups_concat]
      split
      · exact inductionHypothesis
      · next absent =>
          rw [List.nodup_append]
          refine ⟨inductionHypothesis, by simp, ?_⟩
          rintro name present _ isLast rfl
          rw [List.mem_singleton.mp isLast] at present
          exact absent (List.mem_eraseDups.mp present)

private theorem map_fst_kept (members : List (String × Value)) :
    (kept members).map Prod.fst = (members.map Prod.fst).eraseDups := by
  rw [kept, List.map_map]
  exact List.map_id _

theorem nodup_kept (members : List (String × Value)) : ((kept members).map Prod.fst).Nodup := by
  rw [map_fst_kept]
  exact nodup_eraseDups _

/-- What is kept is one of the members. -/
theorem mem_of_mem_kept {members : List (String × Value)} {member : String × Value}
    (isKept : member ∈ kept members) : member ∈ members := by
  obtain ⟨name, present, rfl⟩ := List.mem_map.mp isKept
  obtain ⟨first, isMember, rfl⟩ := List.mem_map.mp (List.mem_eraseDups.mp present)
  rcases last : members.reverse.lookup first.1 with _ | v
  · rw [List.lookup_eq_none_iff] at last
    simpa using last first (List.mem_reverse.mpr isMember)
  · obtain ⟨before, after, shape, _⟩ := List.lookup_eq_some_iff.mp last
    rw [← List.mem_reverse, shape]
    simp

/-- A value is put under its name among others that all differ. -/
private theorem putStored_names (name : String) (v : Value) (valueOf : String → Value)
    {names : List String} (distinct : names.Nodup) :
    Value.putStored (.text name) v (names.map fun other => (.text other, valueOf other)) =
      (if name ∈ names then names else names ++ [name]).map fun other =>
        (.text other, if other = name then v else valueOf other) := by
  induction names with
  | nil => simp [Value.putStored]
  | cons first rest inductionHypothesis =>
      obtain ⟨isNew, others⟩ := List.nodup_cons.mp distinct
      rw [List.map_cons]
      by_cases isFirst : first = name
      · subst isFirst
        have unchanged : ∀ other ∈ rest, (Value.text other, if other = first then v else
            valueOf other) = (.text other, valueOf other) := by
          intro other member
          rw [if_neg (by rintro rfl; exact isNew member)]
        rw [Value.putStored_here, if_pos List.mem_cons_self, List.map_cons, if_pos rfl,
          List.map_congr_left unchanged]
      · have apart : Value.text first ≠ .text name := by simpa using isFirst
        rw [Value.putStored_behind apart, inductionHypothesis others]
        have present : name ∈ first :: rest ↔ name ∈ rest :=
          ⟨fun either => (List.mem_cons.mp either).resolve_left (Ne.symm isFirst),
            List.mem_cons_of_mem first⟩
        simp only [present]
        split <;> simp [isFirst]

private theorem entriesOf_kept (members : List (String × Value)) :
    entriesOf (kept members) = (members.map Prod.fst).eraseDups.map fun name =>
      (.text name, (members.reverse.lookup name).getD .null) := by
  rw [entriesOf, kept, List.map_map]
  rfl

/-- Putting a member is keeping it behind the others. -/
theorem putStored_kept (members : List (String × Value)) (name : String) (v : Value) :
    Value.putStored (.text name) v (entriesOf (kept members)) =
      entriesOf (kept (members ++ [(name, v)])) := by
  rw [entriesOf_kept, putStored_names name v _ (nodup_eraseDups _), entriesOf_kept, List.map_append,
    List.map_singleton, eraseDups_concat]
  simp only [List.mem_eraseDups, List.reverse_append, List.reverse_singleton, List.singleton_append,
    List.lookup_cons]
  refine List.map_congr_left fun other _ => ?_
  by_cases same : other = name
  · simp [same]
  · simp [same, beq_false_of_ne same]

/-! ## Values -/

mutual

/-- What a value is read from, and what is left behind it. -/
inductive SpellsValue : List Char → Value → List Char → Prop where
  | text {inner characters rest : List Char}
      (read : readText ('"' :: inner) 0 inner = .ok (characters, rest)) :
      SpellsValue ('"' :: inner) (.text (String.ofList characters)) rest
  | emptyList {inner rest : List Char} (closes : skipBlanks inner = ']' :: rest) :
      SpellsValue ('[' :: inner) (.list []) rest
  | list {inner rest : List Char} {items : List Value}
      (spells : SpellsItems (skipBlanks inner) items rest) :
      SpellsValue ('[' :: inner) (.list items) rest
  | emptyDictionary {inner rest : List Char} (closes : skipBlanks inner = '\x7d' :: rest) :
      SpellsValue ('\x7b' :: inner) (.dictionary []) rest
  | dictionary {inner rest : List Char} {members : List (String × Value)}
      (spells : SpellsMembers (skipBlanks inner) members rest) :
      SpellsValue ('\x7b' :: inner) (.dictionary (entriesOf (kept members))) rest
  | plain {passed rest : List Char} {v : Value} (spells : SpellsPlain passed v) :
      SpellsValue (passed ++ rest) v rest

/-- What the items of an array are read from, up to its end. -/
inductive SpellsItems : List Char → List Value → List Char → Prop where
  | last {text rest left : List Char} {item : Value} (spells : SpellsValue text item rest)
      (closes : skipBlanks rest = ']' :: left) : SpellsItems text [item] left
  | cons {text rest others left : List Char} {item : Value} {items : List Value}
      (spells : SpellsValue text item rest) (separates : skipBlanks rest = ',' :: others)
      (follow : SpellsItems (skipBlanks others) items left) : SpellsItems text (item :: items) left

/-- What the members of an object are read from, up to its end, in their order. A name may come more
than once. -/
inductive SpellsMembers : List Char → List (String × Value) → List Char → Prop where
  | last {inner name behind text rest left : List Char} {v : Value}
      (named : readText ('"' :: inner) 0 inner = .ok (name, behind))
      (separates : skipBlanks behind = ':' :: text)
      (spells : SpellsValue (skipBlanks text) v rest)
      (closes : skipBlanks rest = '\x7d' :: left) :
      SpellsMembers ('"' :: inner) [(String.ofList name, v)] left
  | cons {inner name behind text rest others left : List Char} {v : Value}
      {members : List (String × Value)}
      (named : readText ('"' :: inner) 0 inner = .ok (name, behind))
      (separates : skipBlanks behind = ':' :: text)
      (spells : SpellsValue (skipBlanks text) v rest)
      (continues : skipBlanks rest = ',' :: others)
      (follow : SpellsMembers (skipBlanks others) members left) :
      SpellsMembers ('"' :: inner) ((String.ofList name, v) :: members) left

end

mutual

/-- A value is read only from what spells it. -/
theorem spellsValue_of_readValue : (steps : Nat) → ∀ {text rest : List Char} {v : Value},
    readValue steps text = .ok (v, rest) → SpellsValue text v rest
  | 0, _, _, _, read => by cases read
  | steps + 1, text, rest, v, read => by
      rw [readValue.eq_def] at read
      dsimp only at read
      split at read
      · obtain ⟨found, isText, result⟩ := Value.bind_eq_ok read
        cases result
        exact .text isText
      · split at read
        · next closes =>
            cases read
            exact .emptyList closes
        · obtain ⟨found, isItems, result⟩ := Value.bind_eq_ok read
          cases result
          exact .list (spellsItems_of_readItems steps isItems)
      · split at read
        · next closes =>
            cases read
            exact .emptyDictionary closes
        · obtain ⟨found, isMembers, result⟩ := Value.bind_eq_ok read
          cases result
          obtain ⟨members, same, spells⟩ := spellsMembers_of_readMembers steps [] isMembers
          rw [same]
          exact .dictionary spells
      · obtain ⟨passed, rfl, spells⟩ := spellsPlain_of_readPlain read
        exact .plain spells

theorem spellsItems_of_readItems : (steps : Nat) → ∀ {text rest : List Char} {items : List Value},
    readItems steps text = .ok (items, rest) → SpellsItems text items rest
  | 0, _, _, _, read => by cases read
  | steps + 1, text, rest, items, read => by
      rw [readItems] at read
      obtain ⟨⟨item, left⟩, isItem, follows⟩ := Value.bind_eq_ok read
      have spells := spellsValue_of_readValue steps isItem
      dsimp only at follows
      split at follows
      · next closes =>
          cases follows
          exact .last spells closes
      · next separates =>
          obtain ⟨found, isItems, result⟩ := Value.bind_eq_ok follows
          cases result
          exact .cons spells separates (spellsItems_of_readItems steps isItems)
      · cases follows

/-- The members that are read go to those before. -/
theorem spellsMembers_of_readMembers : (steps : Nat) → (before : List (String × Value)) →
    ∀ {text rest : List Char} {entries : List (Value × Value)},
    readMembers steps (entriesOf (kept before)) text = .ok (entries, rest) →
      ∃ members, entries = entriesOf (kept (before ++ members)) ∧ SpellsMembers text members rest
  | 0, _, _, _, _, read => by cases read
  | steps + 1, before, text, rest, entries, read => by
      rw [readMembers.eq_def] at read
      dsimp only at read
      split at read
      · obtain ⟨⟨name, behind⟩, named, follows⟩ := Value.bind_eq_ok read
        dsimp only at follows
        split at follows
        · next separates =>
            obtain ⟨⟨v, left⟩, isValue, continues⟩ := Value.bind_eq_ok follows
            have spells := spellsValue_of_readValue steps isValue
            rw [putStored_kept] at continues
            dsimp only at continues
            split at continues
            · next closes =>
                cases continues
                exact ⟨_, rfl, .last named separates spells closes⟩
            · next goesOn =>
                obtain ⟨members, same, others⟩ :=
                  spellsMembers_of_readMembers steps (before ++ [(String.ofList name, v)]) continues
                rw [List.append_assoc, List.singleton_append] at same
                exact ⟨_, same, .cons named separates spells goesOn others⟩
            · cases continues
        · cases follows
      · cases read

end

/-- A whole text is read only if it spells the value with blanks around it. -/
theorem spellsValue_of_readWhole {text : List Char} {v : Value} (read : readWhole text = .ok v) :
    ∃ rest, SpellsValue (skipBlanks text) v rest ∧ skipBlanks rest = [] := by
  obtain ⟨⟨found, rest⟩, isValue, ends⟩ := Value.bind_eq_ok read
  dsimp only at ends
  split at ends
  · next isEnd =>
      cases ends
      exact ⟨rest, spellsValue_of_readValue _ isValue, isEnd⟩
  · cases ends

/-! ## The first two characters -/

/-- A character of the first block other than nought. -/
def InFirstBlock (c : Char) : Prop := 0 < c.toNat ∧ c.toNat < 0x80

instance (c : Char) : Decidable (InFirstBlock c) := inferInstanceAs (Decidable (_ ∧ _))

private theorem inFirstBlock_of_isBlank {c : Char} (blank : isBlank c = true) : InFirstBlock c := by
  have forms : ((c = ' ' ∨ c = '\t') ∨ c = '\n') ∨ c = '\r' := by simpa [isBlank] using blank
  rcases forms with ((rfl | rfl) | rfl) | rfl <;> decide

theorem inFirstBlock_of_graphic {c : Char} (graphic : ' ' ≤ c ∧ c ≤ '~') : InFirstBlock c := by
  have low : ' '.toNat ≤ c.toNat := graphic.1
  have high : c.toNat ≤ '~'.toNat := graphic.2
  exact ⟨Nat.lt_of_lt_of_le (by decide) low, Nat.lt_of_le_of_lt high (by decide)⟩

/-- What blanks may stand in front of starts as it does, or with a blank. -/
theorem inFirstBlock_of_skipBlanks {text : List Char}
    (behind : ∀ c ∈ (skipBlanks text).head?, InFirstBlock c) :
    ∀ c ∈ text.head?, InFirstBlock c := by
  cases text with
  | nil => simp
  | cons first rest =>
      by_cases blank : isBlank first = true
      · simpa using inFirstBlock_of_isBlank blank
      · rwa [skipBlanks_cons (by simpa using blank)] at behind

private theorem SpellsValue.ne_nil {text rest : List Char} {v : Value}
    (spells : SpellsValue text v rest) :
    text ≠ [] := by
  cases spells with
  | plain spells => exact List.append_ne_nil_of_left_ne_nil spells.visible.1 _
  | _ => exact List.cons_ne_nil _ _

/-- The text of a value starts in the first block. -/
theorem SpellsValue.starts {text rest : List Char} {v : Value} (spells : SpellsValue text v rest) :
    ∀ c ∈ text.head?, InFirstBlock c := by
  cases spells with
  | plain spells =>
      obtain ⟨nonempty, graphic⟩ := spells.visible
      obtain ⟨first, others, rfl⟩ := List.exists_cons_of_ne_nil nonempty
      simpa using inFirstBlock_of_graphic (graphic first List.mem_cons_self)
  | _ => simp; decide

theorem SpellsItems.starts {text rest : List Char} {items : List Value}
    (spells : SpellsItems text items rest) : ∀ c ∈ text.head?, InFirstBlock c := by
  cases spells with
  | last spells _ => exact spells.starts
  | cons spells _ _ => exact spells.starts

theorem SpellsMembers.starts {text rest : List Char} {members : List (String × Value)}
    (spells : SpellsMembers text members rest) : ∀ c ∈ text.head?, InFirstBlock c := by
  cases spells <;> simp <;> decide

/-- The character behind the opening quote of a text is not nought. -/
private theorem not_nought_of_readText {opening inner : List Char} {read : List Char × List Char}
    (isRead : readText opening 0 inner = .ok read) : ∀ c ∈ inner.head?, 0 < c.toNat := by
  cases inner with
  | nil => simp
  | cons first rest =>
      intro c isFirst
      cases isFirst
      refine Nat.pos_of_ne_zero fun nought => ?_
      have isNought : first = '\x00' := Char.toNat_inj.mp nought
      subst isNought
      cases isRead

/-- The text of a value does not go on with nought behind its first character, if blanks alone may
stand behind the whole of it. -/
private theorem SpellsValue.goesOn {first : Char} {others rest : List Char} {v : Value}
    (spells : SpellsValue (first :: others) v rest) (ends : skipBlanks rest = []) :
    ∀ c ∈ others.head?, 0 < c.toNat := by
  have positive : (∀ c ∈ (skipBlanks others).head?, InFirstBlock c) →
      ∀ c ∈ others.head?, 0 < c.toNat := fun behind c isHead =>
    (inFirstBlock_of_skipBlanks behind c isHead).1
  generalize shape : first :: others = text at spells
  cases spells with
  | text read =>
      cases shape
      exact not_nought_of_readText read
  | emptyList closes =>
      cases shape
      exact positive (by rw [closes]; simp; decide)
  | list spells =>
      cases shape
      exact positive spells.starts
  | emptyDictionary closes =>
      cases shape
      exact positive (by rw [closes]; simp; decide)
  | dictionary spells =>
      cases shape
      exact positive spells.starts
  | plain spells =>
      obtain ⟨nonempty, graphic⟩ := spells.visible
      obtain ⟨c, passed, rfl⟩ := List.exists_cons_of_ne_nil nonempty
      obtain ⟨rfl, rfl⟩ := List.cons.inj shape
      cases passed with
      | nil => exact positive (show ∀ c ∈ (skipBlanks rest).head?, _ by rw [ends]; simp)
      | cons second passed =>
          simpa using (inFirstBlock_of_graphic (graphic second (by simp))).1

/-- A document starts in the first block, and does not go on with nought. -/
theorem front_of_readWhole {text : List Char} {v : Value} (read : readWhole text = .ok v) :
    ∃ first others, text = first :: others ∧ InFirstBlock first ∧
      ∀ c ∈ others.head?, 0 < c.toNat := by
  obtain ⟨rest, spells, ends⟩ := spellsValue_of_readWhole read
  have starts := inFirstBlock_of_skipBlanks spells.starts
  cases text with
  | nil => exact absurd rfl spells.ne_nil
  | cons first others =>
      refine ⟨first, others, rfl, starts first rfl, ?_⟩
      by_cases blank : isBlank first = true
      · rw [skipBlanks, List.dropWhile_cons_of_pos blank] at spells
        intro c isHead
        exact (inFirstBlock_of_skipBlanks spells.starts c isHead).1
      · rw [skipBlanks_cons (by simpa using blank)] at spells
        exact spells.goesOn ends

/-! ## Loading -/

/-- A text is loaded as what is read from it: the mark of the octet order starts no document. -/
theorem load_text_eq_ok_iff {s : String} {v : Value} :
    load (.text s) = .ok v ↔ readWhole s.toList = .ok v := by
  have isRead : read s.toList = .ok v ↔ readWhole s.toList = .ok v := by
    unfold read
    cases readWhole s.toList with
    | error halt => exact ⟨nofun, nofun⟩
    | ok found => exact ⟨fun same => by cases same; rfl, fun same => by cases same; rfl⟩
  unfold load
  dsimp only
  split
  · next rest shape =>
      refine ⟨nofun, fun whole => ?_⟩
      obtain ⟨first, _, front, inside, _⟩ := front_of_readWhole whole
      rw [shape] at front
      cases front
      exact absurd inside (by decide)
  · exact isRead

end Presence.Json
