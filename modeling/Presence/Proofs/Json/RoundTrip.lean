import Presence.Json.Optional
import Presence.Proofs.Json.Escapes
import Presence.Proofs.Json.Numerals
import Presence.Proofs.Value.Named

/-!
Contract: reading a document undoes writing it.

Owns: `IsDocument`, the values that documents bring back as they are; `ReadsAs`, when a text is read
as a value in front of whatever may follow; `readsAs_write`, that what is written of such a value is
read as it; the round trip of options.

Does not own: texts and numbers inside documents (`Presence.Proofs.Json.Escapes`,
`Presence.Proofs.Json.Numerals`).

A reader takes at most two steps for each character that a value is written with, one less for a
value by itself, and the bound of `readWhole` leaves room for that.
-/

namespace Presence.Json

/-- The entries of a dictionary under texts. -/
def entriesOf (members : List (String × Value)) : List (Value × Value) :=
  members.map fun member => (.text member.1, member.2)

/-- The values that documents bring back as they are: nothing, truth values, whole numbers within
the limit, texts, lists, and dictionaries under texts that all differ. -/
inductive IsDocument : Value → Prop where
  | null : IsDocument .null
  | bool (b : Bool) : IsDocument (.bool b)
  | int (n : Int) (short : (Nat.toDigits 10 n.natAbs).length ≤ Text.digitLimit) :
      IsDocument (.int n)
  | text (s : String) : IsDocument (.text s)
  | list (items : List Value) (each : ∀ item ∈ items, IsDocument item) : IsDocument (.list items)
  | dictionary (members : List (String × Value)) (distinct : (members.map Prod.fst).Nodup)
      (each : ∀ member ∈ members, IsDocument member.2) :
      IsDocument (.dictionary (entriesOf members))

/-- The separators are a comma and a colon, with blanks after them. -/
structure Style.IsReadable (style : Style) : Prop where
  item : ∃ blanks, style.itemSeparator = ',' :: blanks ∧ ∀ c ∈ blanks, isBlank c = true
  name : ∃ blanks, style.nameSeparator = ':' :: blanks ∧ ∀ c ∈ blanks, isBlank c = true

theorem isReadable_spaced : Style.spaced.IsReadable :=
  ⟨⟨[' '], rfl, List.forall_mem_singleton.mpr rfl⟩, ⟨[' '], rfl, List.forall_mem_singleton.mpr rfl⟩⟩

/-- A character that a value may start with: no blank, no end of an array, and no mark of the octet
order. -/
def StartsValue (c : Char) : Prop := isBlank c = false ∧ c ≠ ']' ∧ c ≠ '\ufeff'

instance (c : Char) : Decidable (StartsValue c) := by
  unfold StartsValue
  infer_instance

private theorem startsValue_of_isDigit {c : Char} (isDigit : c.isDigit = true) : StartsValue c := by
  have other : ∀ d : Char, d.isDigit = false → c ≠ d := by
    rintro d notDigit rfl
    rw [isDigit] at notDigit
    exact absurd notDigit (by decide)
  refine ⟨?_, other ']' rfl, other '\ufeff' rfl⟩
  simp [isBlank, other ' ' rfl, other '\t' rfl, other '\n' rfl, other '\r' rfl]

theorem skipBlanks_cons {c : Char} (visible : isBlank c = false) (rest : List Char) :
    skipBlanks (c :: rest) = c :: rest := by
  rw [skipBlanks, List.dropWhile_cons_of_neg (by simp [visible])]

/-- Blanks are skipped as far as the text behind them. -/
theorem skipBlanks_append {blanks text : List Char} (blank : ∀ c ∈ blanks, isBlank c = true)
    {c : Char} {others : List Char} (shape : text = c :: others) (visible : isBlank c = false)
    (rest : List Char) : skipBlanks (blanks ++ (text ++ rest)) = text ++ rest := by
  subst shape
  rw [skipBlanks, List.dropWhile_append_of_pos blank]
  exact skipBlanks_cons visible (others ++ rest)

theorem endsNumber_comma (rest : List Char) : EndsNumber (',' :: rest) :=
  endsNumber_cons (by decide)

private theorem endsNumber_bracket (rest : List Char) : EndsNumber (']' :: rest) :=
  endsNumber_cons (by decide)

private theorem endsNumber_brace (rest : List Char) : EndsNumber ('\x7d' :: rest) :=
  endsNumber_cons (by decide)

/-! ## Values without parts -/

/-- A text is read as a value in front of whatever may follow, in about two steps for each
character. -/
structure ReadsAs (text : List Char) (v : Value) : Prop where
  starts : ∃ c others, text = c :: others ∧ StartsValue c
  reads : ∀ steps rest, 2 * text.length ≤ steps + 1 → EndsNumber rest →
    readValue steps (text ++ rest) = .ok (v, rest)

/-- What starts neither a text nor an array nor an object is a value without parts. -/
theorem readValue_plain (steps : Nat) {c : Char} (rest : List Char)
    (other : c ≠ '"' ∧ c ≠ '[' ∧ c ≠ '\x7b') :
    readValue (steps + 1) (c :: rest) = readPlain (c :: rest) := by
  rw [readValue]
  · rintro others ⟨rfl, _⟩
    exact other.1 rfl
  · rintro others ⟨rfl, _⟩
    exact other.2.1 rfl
  · rintro others ⟨rfl, _⟩
    exact other.2.2 rfl

theorem readsAs_plain {c : Char} {others : List Char} {v : Value} (starts : StartsValue c)
    (other : c ≠ '"' ∧ c ≠ '[' ∧ c ≠ '\x7b')
    (reads : ∀ rest, EndsNumber rest → readPlain (c :: others ++ rest) = .ok (v, rest)) :
    ReadsAs (c :: others) v := by
  refine ⟨⟨c, others, rfl, starts⟩, ?_⟩
  intro steps rest enough ends
  rw [List.length_cons] at enough
  obtain ⟨steps, rfl⟩ := Nat.exists_eq_add_one_of_ne_zero (show steps ≠ 0 by omega)
  rw [List.cons_append, readValue_plain steps _ other]
  exact reads rest ends

theorem readsAs_null : ReadsAs "null".toList .null :=
  readsAs_plain (by decide) (by decide) fun rest _ => readPlain_null rest

private theorem readsAs_bool (b : Bool) :
    ReadsAs (if b then "true" else "false").toList (.bool b) := by
  cases b
  · exact readsAs_plain (by decide) (by decide) fun rest _ => readPlain_bool false rest
  · exact readsAs_plain (by decide) (by decide) fun rest _ => readPlain_bool true rest

private theorem readsAs_decimal {n : Int}
    (short : (Nat.toDigits 10 n.natAbs).length ≤ Text.digitLimit) :
    ReadsAs (decimal n) (.int n) := by
  have reads : ∀ rest, EndsNumber rest → readPlain (decimal n ++ rest) = .ok (.int n, rest) :=
    fun rest ends => readPlain_decimal short ends
  cases n with
  | ofNat size =>
      obtain ⟨c, others, shape⟩ := List.exists_cons_of_ne_nil
        (Nat.toDigits_ne_nil (n := size) (b := 10))
      have isDigit : c.isDigit = true := isDigit_of_mem_toDigits (n := size) (by simp [shape])
      have notOpening : c ≠ '"' ∧ c ≠ '[' ∧ c ≠ '\x7b' := by
        refine ⟨?_, ?_, ?_⟩ <;> rintro rfl <;> exact absurd isDigit (by decide)
      simp only [decimal, shape] at reads ⊢
      exact readsAs_plain (startsValue_of_isDigit isDigit) notOpening reads
  | negSucc size => exact readsAs_plain (by decide) (by decide) reads

private theorem readsAs_quoted (s : String) : ReadsAs (quoted s.toList) (.text s) := by
  refine ⟨⟨'"', _, rfl, by decide⟩, ?_⟩
  intro steps rest enough _
  rw [quoted, List.length_cons] at enough
  obtain ⟨steps, rfl⟩ := Nat.exists_eq_add_one_of_ne_zero (show steps ≠ 0 by omega)
  have read := fun opening => readText_escaped opening s.toList rest
  simp only [quoted, List.cons_append, List.append_assoc, List.nil_append, readValue, read]
  simp [bind, Except.bind, pure, Except.pure]

/-! ## Lists -/

theorem separated_cons (separator first : List Char) {others : List (List Char)}
    (nonempty : others ≠ []) :
    separated separator (first :: others) = first ++ separator ++ separated separator others := by
  obtain ⟨second, rest, rfl⟩ := List.exists_cons_of_ne_nil nonempty
  rfl

/-- The items of an array that is written are read back up to its end. -/
structure ItemsReadAs (text : List Char) (items : List Value) : Prop where
  starts : ∃ c others, text = c :: others ∧ StartsValue c
  reads : ∀ steps rest, 2 * text.length ≤ steps →
    readItems steps (text ++ ']' :: rest) = .ok (items, rest)

private theorem itemsReadAs_last {text : List Char} {item : Value} (only : ReadsAs text item) :
    ItemsReadAs text [item] := by
  refine ⟨only.starts, ?_⟩
  intro steps rest enough
  obtain ⟨c, others, shape, _⟩ := only.starts
  have some_steps : steps ≠ 0 := by
    rw [shape, List.length_cons] at enough
    omega
  obtain ⟨steps, rfl⟩ := Nat.exists_eq_add_one_of_ne_zero some_steps
  have read := only.reads steps (']' :: rest) (by omega) (endsNumber_bracket rest)
  rw [readItems, read]
  simp only [bind, Except.bind, skipBlanks_cons (show isBlank ']' = false by decide)]
  rfl

private theorem itemsReadAs_cons {separator blanks text others : List Char} {item : Value}
    {items : List Value} (comma : separator = ',' :: blanks)
    (blank : ∀ c ∈ blanks, isBlank c = true) (first : ReadsAs text item)
    (follow : ItemsReadAs others items) :
    ItemsReadAs (text ++ separator ++ others) (item :: items) := by
  obtain ⟨c, front, shape, starts⟩ := first.starts
  refine ⟨⟨c, front ++ separator ++ others, by simp [shape], starts⟩, ?_⟩
  intro steps rest enough
  obtain ⟨d, back, backShape, backStarts⟩ := follow.starts
  simp only [List.length_append, comma, List.length_cons] at enough
  obtain ⟨steps, rfl⟩ := Nat.exists_eq_add_one_of_ne_zero (show steps ≠ 0 by omega)
  have read := first.reads steps (',' :: (blanks ++ (others ++ ']' :: rest))) (by omega)
    (endsNumber_comma _)
  have skipped := skipBlanks_append blank backShape backStarts.1 (']' :: rest)
  have readOthers := follow.reads steps rest (by omega)
  have layout : text ++ separator ++ others ++ ']' :: rest =
      text ++ ',' :: (blanks ++ (others ++ ']' :: rest)) := by simp [comma]
  rw [layout, readItems, read]
  simp only [bind, Except.bind, skipBlanks_cons (show isBlank ',' = false by decide), skipped,
    readOthers]
  rfl

/-- The text of an array of one item or more. -/
private theorem readsAs_list {text : List Char} {items : List Value}
    (inner : ItemsReadAs text items) :
    ReadsAs ('[' :: (text ++ [']'])) (.list items) := by
  refine ⟨⟨'[', _, rfl, by decide⟩, ?_⟩
  intro steps rest enough _
  obtain ⟨c, others, shape, visible, notEnd, _⟩ := inner.starts
  simp only [List.length_cons, List.length_append, List.length_nil] at enough
  obtain ⟨steps, rfl⟩ := Nat.exists_eq_add_one_of_ne_zero (show steps ≠ 0 by omega)
  have read := inner.reads steps rest (by omega)
  have layout : '[' :: (text ++ [']']) ++ rest = '[' :: (text ++ ']' :: rest) := by simp
  have skipped := skipBlanks_append (List.forall_mem_nil _) shape visible (']' :: rest)
  rw [List.nil_append] at skipped
  rw [layout, readValue, skipped]
  split
  · next equal =>
      rw [shape, List.cons_append] at equal
      exact absurd (List.cons.inj equal).1 notEnd
  · rw [read]
    rfl

private theorem readsAs_emptyList : ReadsAs ['[', ']'] (.list []) := by
  refine ⟨⟨'[', _, rfl, by decide⟩, ?_⟩
  intro steps rest enough _
  simp only [List.length_cons, List.length_nil] at enough
  obtain ⟨steps, rfl⟩ := Nat.exists_eq_add_one_of_ne_zero (show steps ≠ 0 by omega)
  rfl

/-! ## Dictionaries -/

/-- A name that has not come yet goes to the end. -/
private theorem putStored_entriesOf (name : String) (v : Value) {members : List (String × Value)}
    (fresh : name ∉ members.map Prod.fst) :
    Value.putStored (.text name) v (entriesOf members) = entriesOf (members ++ [(name, v)]) := by
  induction members with
  | nil => rfl
  | cons member rest inductionHypothesis =>
      simp only [List.map_cons, List.mem_cons, not_or] at fresh
      have different : Value.text member.1 ≠ .text name := by simpa using Ne.symm fresh.1
      exact (Value.putStored_behind different v).trans
        (congrArg (List.cons _) (inductionHypothesis fresh.2))

/-- The members of an object that is written are read back up to its end, behind those that have
been read before under other names. -/
structure MembersReadAs (text : List Char) (members : List (String × Value)) : Prop where
  starts : ∃ others, text = '"' :: others
  reads : ∀ steps before rest, 2 * text.length ≤ steps →
    ((before ++ members).map Prod.fst).Nodup →
    readMembers steps (entriesOf before) (text ++ '\x7d' :: rest) =
      .ok (entriesOf (before ++ members), rest)

/-- One member is read, and goes to the end of those before. -/
theorem readMembers_member {separator blanks text : List Char} {name : String} {v : Value}
    {steps : Nat} {before : List (String × Value)} {c : Char} {rest : List Char}
    (colon : separator = ':' :: blanks) (blank : ∀ c ∈ blanks, isBlank c = true)
    (value : ReadsAs text v) (enough : 2 * text.length ≤ steps + 1)
    (fresh : name ∉ before.map Prod.fst) (visible : isBlank c = false)
    (ends : EndsNumber (c :: rest)) :
    readMembers (steps + 1) (entriesOf before)
        (quoted name.toList ++ separator ++ text ++ c :: rest) =
      match c :: rest with
      | '\x7d' :: rest => .ok (entriesOf (before ++ [(name, v)]), rest)
      | ',' :: rest => readMembers steps (entriesOf (before ++ [(name, v)])) (skipBlanks rest)
      | rest => .error (.problem .missingComma rest) := by
  obtain ⟨d, front, shape, starts⟩ := value.starts
  have layout : quoted name.toList ++ separator ++ text ++ c :: rest =
      '"' :: (name.toList.flatMap escapeChar ++ '"' ::
        (':' :: (blanks ++ (text ++ c :: rest)))) := by simp [quoted, colon]
  have readName := fun opening => readText_escaped opening name.toList
    (':' :: (blanks ++ (text ++ c :: rest)))
  have skipped := skipBlanks_append blank shape starts.1 (c :: rest)
  have readValue := value.reads steps (c :: rest) enough ends
  rw [layout, readMembers, readName]
  simp only [bind, Except.bind, skipBlanks_cons (show isBlank ':' = false by decide), skipped,
    readValue, skipBlanks_cons visible, String.ofList_toList, putStored_entriesOf name v fresh]
  rfl

/-- The names before a member are other names. -/
theorem fresh_of_nodup {before after : List (String × Value)} {name : String} {v : Value}
    (distinct : ((before ++ (name, v) :: after).map Prod.fst).Nodup) :
    name ∉ before.map Prod.fst := by
  rw [List.map_append, List.map_cons, List.nodup_append] at distinct
  intro member
  exact distinct.2.2 name member name (by simp) rfl

private theorem membersReadAs_last {separator blanks text : List Char} {name : String} {v : Value}
    (colon : separator = ':' :: blanks) (blank : ∀ c ∈ blanks, isBlank c = true)
    (value : ReadsAs text v) :
    MembersReadAs (quoted name.toList ++ separator ++ text) [(name, v)] := by
  refine ⟨⟨_, rfl⟩, ?_⟩
  intro steps before rest enough distinct
  simp only [List.length_append, quoted, List.length_cons] at enough
  obtain ⟨steps, rfl⟩ := Nat.exists_eq_add_one_of_ne_zero (show steps ≠ 0 by omega)
  rw [readMembers_member colon blank value (by omega) (fresh_of_nodup distinct) (by decide)
    (endsNumber_brace rest)]
  rfl

private theorem membersReadAs_cons {comma blanks separator nameBlanks text others : List Char}
    {name : String} {v : Value} {members : List (String × Value)}
    (isComma : comma = ',' :: blanks) (blank : ∀ c ∈ blanks, isBlank c = true)
    (colon : separator = ':' :: nameBlanks) (nameBlank : ∀ c ∈ nameBlanks, isBlank c = true)
    (value : ReadsAs text v) (follow : MembersReadAs others members) :
    MembersReadAs (quoted name.toList ++ separator ++ text ++ comma ++ others)
      ((name, v) :: members) := by
  refine ⟨⟨_, rfl⟩, ?_⟩
  intro steps before rest enough distinct
  obtain ⟨back, backShape⟩ := follow.starts
  simp only [List.length_append, quoted, isComma, List.length_cons] at enough
  obtain ⟨steps, rfl⟩ := Nat.exists_eq_add_one_of_ne_zero (show steps ≠ 0 by omega)
  have skipped := skipBlanks_append blank backShape (by decide) ('\x7d' :: rest)
  have layout : quoted name.toList ++ separator ++ text ++ comma ++ others ++ '\x7d' :: rest =
      quoted name.toList ++ separator ++ text ++
        ',' :: (blanks ++ (others ++ '\x7d' :: rest)) := by simp [isComma]
  have regroup : before ++ (name, v) :: members = before ++ [(name, v)] ++ members := by simp
  have readOthers := follow.reads steps (before ++ [(name, v)]) rest (by omega)
    (regroup ▸ distinct)
  rw [layout, readMembers_member colon nameBlank value (by omega) (fresh_of_nodup distinct)
    (by decide) (endsNumber_comma _)]
  simp only [skipped, readOthers, regroup]

/-- The text of an object of one member or more. -/
private theorem readsAs_dictionary {text : List Char} {members : List (String × Value)}
    (distinct : (members.map Prod.fst).Nodup) (inner : MembersReadAs text members) :
    ReadsAs ('\x7b' :: (text ++ ['\x7d'])) (.dictionary (entriesOf members)) := by
  refine ⟨⟨'\x7b', _, rfl, by decide⟩, ?_⟩
  intro steps rest enough _
  obtain ⟨others, shape⟩ := inner.starts
  simp only [List.length_cons, List.length_append, List.length_nil] at enough
  obtain ⟨steps, rfl⟩ := Nat.exists_eq_add_one_of_ne_zero (show steps ≠ 0 by omega)
  have read := inner.reads steps [] rest (by omega) distinct
  have layout : '\x7b' :: (text ++ ['\x7d']) ++ rest = '\x7b' :: (text ++ '\x7d' :: rest) := by simp
  have skipped := skipBlanks_append (List.forall_mem_nil _) shape (by decide) ('\x7d' :: rest)
  rw [List.nil_append] at skipped
  rw [layout, readValue, skipped]
  split
  · next equal =>
      rw [shape, List.cons_append] at equal
      exact absurd (List.cons.inj equal).1 (by decide)
  · have start : entriesOf [] = [] := rfl
    rw [start, List.nil_append] at read
    rw [read]
    rfl

private theorem readsAs_emptyDictionary : ReadsAs ['\x7b', '\x7d'] (.dictionary []) := by
  refine ⟨⟨'\x7b', _, rfl, by decide⟩, ?_⟩
  intro steps rest enough _
  simp only [List.length_cons, List.length_nil] at enough
  obtain ⟨steps, rfl⟩ := Nat.exists_eq_add_one_of_ne_zero (show steps ≠ 0 by omega)
  rfl

/-! ## Written values -/

section Write

variable {style : Style}

private theorem itemsReadAs_write (readable : style.IsReadable) {items : List Value}
    (nonempty : items ≠ [])
    (each : ∀ item ∈ items, ∃ text, write style item = .ok text ∧ ReadsAs text item) :
    ∃ texts, writeItems style items = .ok texts ∧ texts ≠ [] ∧
      ItemsReadAs (separated style.itemSeparator texts) items := by
  obtain ⟨blanks, comma, blank⟩ := readable.item
  induction items with
  | nil => exact absurd rfl nonempty
  | cons item rest inductionHypothesis =>
      obtain ⟨text, written, reads⟩ := each item (by simp)
      by_cases isLast : rest = []
      · subst isLast
        refine ⟨[text], ?_, by simp, itemsReadAs_last reads⟩
        rw [writeItems, written]
        rfl
      · obtain ⟨texts, others, some, inner⟩ := inductionHypothesis isLast
          fun other member => each other (List.mem_cons_of_mem item member)
        refine ⟨text :: texts, ?_, by simp, ?_⟩
        · rw [writeItems, written, others]
          rfl
        · rw [separated_cons _ _ some]
          exact itemsReadAs_cons comma blank reads inner

private theorem membersReadAs_write (readable : style.IsReadable) {members : List (String × Value)}
    (nonempty : members ≠ [])
    (each : ∀ member ∈ members, ∃ text, write style member.2 = .ok text ∧ ReadsAs text member.2) :
    ∃ texts, writeMembers style (entriesOf members) = .ok texts ∧ texts ≠ [] ∧
      MembersReadAs (separated style.itemSeparator texts) members := by
  obtain ⟨blanks, comma, blank⟩ := readable.item
  obtain ⟨nameBlanks, colon, nameBlank⟩ := readable.name
  induction members with
  | nil => exact absurd rfl nonempty
  | cons member rest inductionHypothesis =>
      obtain ⟨text, written, reads⟩ := each member (by simp)
      by_cases isLast : rest = []
      · subst isLast
        refine ⟨[quoted member.1.toList ++ style.nameSeparator ++ text], ?_, by simp,
          membersReadAs_last colon nameBlank reads⟩
        simp only [entriesOf, List.map_cons, List.map_nil, writeMembers, keyText, written]
        rfl
      · obtain ⟨texts, others, some, inner⟩ := inductionHypothesis isLast
          fun other isMember => each other (List.mem_cons_of_mem member isMember)
        refine ⟨(quoted member.1.toList ++ style.nameSeparator ++ text) :: texts, ?_, by simp, ?_⟩
        · simp only [entriesOf] at others
          simp only [entriesOf, List.map_cons, writeMembers, keyText, written, others]
          rfl
        · rw [separated_cons _ _ some]
          exact membersReadAs_cons comma blank colon nameBlank reads inner

/-- What is written of a value that documents bring back is read as that value. -/
theorem readsAs_write (readable : style.IsReadable) {v : Value} (document : IsDocument v) :
    ∃ text, write style v = .ok text ∧ ReadsAs text v := by
  induction document with
  | null => exact ⟨_, rfl, readsAs_null⟩
  | bool b => exact ⟨_, rfl, readsAs_bool b⟩
  | int n short =>
      refine ⟨decimal n, ?_, readsAs_decimal short⟩
      simp only [write, writeScalar, plainText?, numberText]
      rw [if_neg (by omega)]
      rfl
  | text s => exact ⟨_, rfl, readsAs_quoted s⟩
  | list items _ inductionHypothesis =>
      by_cases isEmpty : items = []
      · subst isEmpty
        exact ⟨_, rfl, readsAs_emptyList⟩
      · obtain ⟨texts, written, _, inner⟩ := itemsReadAs_write readable isEmpty inductionHypothesis
        refine ⟨_, ?_, readsAs_list inner⟩
        rw [write, written]
        rfl
  | dictionary members distinct _ inductionHypothesis =>
      by_cases isEmpty : members = []
      · subst isEmpty
        exact ⟨_, rfl, readsAs_emptyDictionary⟩
      · obtain ⟨texts, written, _, inner⟩ :=
          membersReadAs_write readable isEmpty inductionHypothesis
        refine ⟨_, ?_, readsAs_dictionary distinct inner⟩
        rw [write, written]
        rfl

/-- The document of a value is read as that value. -/
private theorem read_of_readsAs {text : List Char} {v : Value} (reads : ReadsAs text v) :
    read text = .ok v := by
  obtain ⟨c, others, shape, starts⟩ := reads.starts
  have start : skipBlanks text = text := by
    rw [shape]
    exact skipBlanks_cons starts.1 others
  have whole := reads.reads (2 * text.length + 1) [] (by omega) endsNumber_nil
  rw [List.append_nil] at whole
  rw [read, readWhole, start, whole]
  rfl

/-- A value that holds the document of a value is loaded as it. -/
theorem load_of_readsAs {text : List Char} {v : Value} (reads : ReadsAs text v) :
    load (.text (String.ofList text)) = .ok v := by
  obtain ⟨c, others, shape, _, _, noMark⟩ := reads.starts
  unfold load
  simp only [String.toList_ofList]
  split
  · exact absurd (List.cons.inj shape).1.symm noMark
  · exact read_of_readsAs reads

end Write

end Presence.Json

/-! ## Options -/

namespace Presence.Optional

open Presence.Json

variable {m : Type → Type} [Monad m] [LawfulMonad m]

theorem ofDocument_of_load {source v : Value} (loaded : load source = .ok v) (kind : Value) :
    (ofDocument source pure kind : Attempt m (Optional Value Value)) =
      pure (ofNullable v kind) := by
  unfold ofDocument
  rw [loaded]
  cases isNull : v.isNull <;>
    simp [Attempt.ofExcept, ofNullable, isNull, convert, pure, ExceptT.pure, ExceptT.mk, bind,
      ExceptT.bind, ExceptT.bindCont]

/-- An option with a payload comes back from its document as it was, unless the payload is nothing;
that option, and one without a payload, come back as absence. -/
theorem ofDocument_toDocument {v : Value} (document : IsDocument v) (kind absent : Value) :
    (∃ text, (Optional.ok v : Optional Value Value).toDocument = .ok text ∧
      (ofDocument (.text (String.ofList text)) pure kind : Attempt m (Optional Value Value)) =
        pure (if v.isNull then .notOk kind else .ok v)) ∧
    ∃ text, (Optional.notOk absent : Optional Value Value).toDocument = .ok text ∧
      (ofDocument (.text (String.ofList text)) pure kind : Attempt m (Optional Value Value)) =
        pure (.notOk kind) := by
  constructor
  · obtain ⟨text, written, reads⟩ := readsAs_write isReadable_spaced document
    refine ⟨text, written, ?_⟩
    rw [ofDocument_of_load (load_of_readsAs reads)]
    rfl
  · refine ⟨"null".toList, rfl, ?_⟩
    rw [ofDocument_of_load (load_of_readsAs readsAs_null)]
    rfl

/-- Escapes, a pair of codes, a sign, nesting, and the order of names. -/
theorem ofDocument_toDocument_nested :
    IsDocument (.dictionary (entriesOf [("\"\n", .list [.int (-70), .bool true, .null]),
      ("", .text "\u2028😀")])) ∧
    ∃ text, (Optional.ok (.dictionary (entriesOf [("\"\n", .list [.int (-70), .bool true, .null]),
        ("", .text "\u2028😀")])) : Optional Value Value).toDocument = .ok text ∧
      (ofDocument (.text (String.ofList text)) pure .null : Attempt Id (Optional Value Value)) =
        pure (.ok (.dictionary (entriesOf [("\"\n", .list [.int (-70), .bool true, .null]),
          ("", .text "\u2028😀")]))) := by
  have document : IsDocument (.dictionary (entriesOf
      [("\"\n", .list [.int (-70), .bool true, .null]), ("", .text "\u2028😀")])) := by
    refine .dictionary _ (by decide) ?_
    simp only [List.forall_mem_cons]
    refine ⟨.list _ ?_, .text _, by simp⟩
    simp only [List.forall_mem_cons]
    exact ⟨.int _ (by decide), .bool true, .null, by simp⟩
  exact ⟨document, (ofDocument_toDocument document .null .null).1⟩

end Presence.Optional
