import Presence.Proofs.Json.Numerals
import Presence.Proofs.Session.ReadingBack
import Presence.Proofs.Text.Quoted
import Presence.Proofs.Value.Equivalence
import Presence.Proofs.Value.OwnText
import Presence.Proofs.Value.SimilarText
import Presence.Session.General

/-!
Contract: the text of a value among others shows its structure and all that it holds.

Owns: `Legible`, the values of which nothing is left out when they are written, numbers that are too
long, functions and what is kept elsewhere aside; that each of them has a text, whose first
characters tell its kind (`kindToldBy_write`); that two of them written at the start of one text are
similar and end at the same place (`Legible.toldApart`); what follows for values and for those of
sessions (`shown_unambiguous`).

Does not own: texts between quotes (`Presence.Proofs.Text.Quoted`), and the text of similar values
(`Presence.Proofs.Value.SimilarText`).

A text between quotes may hold whatever else stands between values, so that nothing is ever looked
for in a text: two texts are compared from left to right, as far as the shorter value goes.
-/

namespace Presence.Value

open Json (EndsNumber endsNumber_cons)

/-! ## Legible values -/

/-- The values that are written whole. -/
inductive Legible : Value → Prop where
  | null : Legible .null
  | bool (b : Bool) : Legible (.bool b)
  | int {n : Int} (short : (Nat.toDigits 10 n.natAbs).length ≤ Text.digitLimit) : Legible (.int n)
  | text (s : String) : Legible (.text s)
  | list {items : List Value} (each : ∀ item ∈ items, Legible item) : Legible (.list items)
  | tuple {items : List Value} (each : ∀ item ∈ items, Legible item) : Legible (.tuple items)
  | dictionary {entries : List (Value × Value)} (keys : ∀ entry ∈ entries, Legible entry.1)
      (each : ∀ entry ∈ entries, Legible entry.2) (members : Members (entries.map Prod.fst)) :
      Legible (.dictionary entries)
  | ok {v : Value} (payload : Legible v) : Legible (.option (.ok v))
  | notOk (kind : Value) : Legible (.option (.notOk kind))
  | left {v : Value} (kind : Value) (payload : Legible v) : Legible (.either (.left v kind))
  | right {v : Value} (kind : Value) (payload : Legible v) : Legible (.either (.right v kind))
  | pair {v w : Value} (first : Legible v) (second : Legible w) : Legible (.pair ⟨v, w⟩)
  | sequence {items : Value} (container : Legible items) : Legible (.sequence ⟨items⟩)

private theorem Legible.regular {v : Value} (legible : Legible v) : Regular v := by
  induction legible with
  | null | bool | int | text => exact .scalar rfl
  | list each eachRegular => exact .list eachRegular
  | tuple each eachRegular => exact .tuple eachRegular
  | dictionary keys each members keysRegular eachRegular =>
      exact .dictionary keysRegular eachRegular members
  | ok payload payloadRegular => exact .ok payloadRegular
  | notOk kind => exact .notOk kind
  | left kind payload payloadRegular => exact .left kind payloadRegular
  | right kind payload payloadRegular => exact .right kind payloadRegular
  | pair first second firstRegular secondRegular => exact .pair firstRegular secondRegular
  | sequence container containerRegular => exact .sequence containerRegular

/-- What is similar to a value that equals itself equals it. -/
theorem Legible.same_of_similar {v w : Value} (legible : Legible v) (similar : Similar false v w) :
    same v w = true := by
  rw [← same_similar v (Similar.refl v) similar]
  exact same_refl legible.regular

/-! ## Texts -/

/-- What a value is written as among others. -/
def Writes (v : Value) (text : List Char) : Prop := write .quoted v = .ok text

/-- What an entry of a dictionary is written as. -/
private def WritesEntry (entry : Value × Value) (text : List Char) : Prop :=
  ∃ key v, Writes entry.1 key ∧ Writes entry.2 v ∧ text = key ++ [':', ' '] ++ v

theorem forall₂_writes {items : List Value} {parts : List (List Char)}
    (written : writeItems items = .ok parts) : List.Forall₂ Writes items parts := by
  induction items generalizing parts with
  | nil =>
      cases written
      exact .nil
  | cons item items inductionHypothesis =>
      rw [writeItems] at written
      obtain ⟨first, isFirst, written⟩ := bind_eq_ok written
      obtain ⟨others, isOthers, written⟩ := bind_eq_ok written
      cases written
      exact .cons isFirst (inductionHypothesis isOthers)

private theorem forall₂_writesEntry {entries : List (Value × Value)} {parts : List (List Char)}
    (written : writeEntries entries = .ok parts) : List.Forall₂ WritesEntry entries parts := by
  induction entries generalizing parts with
  | nil =>
      cases written
      exact .nil
  | cons entry entries inductionHypothesis =>
      obtain ⟨key, v⟩ := entry
      rw [writeEntries] at written
      obtain ⟨first, isFirst, written⟩ := bind_eq_ok written
      obtain ⟨second, isSecond, written⟩ := bind_eq_ok written
      obtain ⟨others, isOthers, written⟩ := bind_eq_ok written
      cases written
      exact .cons ⟨first, second, isFirst, isSecond, rfl⟩ (inductionHypothesis isOthers)

/-- What a tuple ends with: one item alone has a comma behind it. -/
def tupleBack (count : Nat) : List Char := if count = 1 then [',', ')'] else [')']

theorem writes_tuple {items : List Value} {text : List Char}
    (written : Writes (.tuple items) text) : ∃ parts, List.Forall₂ Writes items parts ∧
      text = '(' :: (separated [',', ' '] parts ++ tupleBack items.length) := by
  rw [Writes, write] at written
  obtain ⟨parts, isParts, written⟩ := bind_eq_ok written
  have each := forall₂_writes isParts
  refine ⟨parts, each, ?_⟩
  rw [each.length_eq]
  split at written
  · cases written
    rfl
  · next several =>
      have notOne : parts.length ≠ 1 := by
        intro one
        obtain ⟨only, rfl⟩ := List.length_eq_one_iff.mp one
        exact several only rfl
      cases written
      rw [tupleBack, if_neg notOne]
      rfl

/-! ## Kinds -/

/-- The kind of the value whose text starts a text; that of objects if none does. -/
def kindToldBy : List Char → Kind
  | [] => .object
  | c :: rest =>
      if c.isDigit || c == '-' then .int
      else
        match c, rest with
        | 'N', 'o' :: 'n' :: _ => .none
        | 'N', _ => .notOk
        | 'T', _ | 'F', _ => .bool
        | '\'', _ | '"', _ => .text
        | '[', _ => .list
        | '(', _ => .tuple
        | '\x7b', _ => .dictionary
        | 'S', _ => .some
        | 'L', _ => .left
        | 'R', _ => .right
        | 'P', _ => .pair
        | 'M', _ => .sequence
        | _, _ => .object

private theorem kindToldBy_decimal (n : Int) (rest : List Char) :
    kindToldBy (decimal n ++ rest) = .int := by
  cases n with
  | negSucc size => rfl
  | ofNat size =>
      obtain ⟨c, others, shape⟩ :=
        List.exists_cons_of_ne_nil (Nat.toDigits_ne_nil (n := size) (b := 10))
      have isDigit : c.isDigit = true := Json.isDigit_of_mem_toDigits (n := size) (by simp [shape])
      rw [decimal, shape, List.cons_append]
      exact if_pos (by rw [isDigit, Bool.true_or])

private theorem kindToldBy_quoted (text rest : List Char) :
    kindToldBy (Text.quoted text ++ rest) = .text := by
  unfold Text.quoted
  rcases Text.isQuote_quoteFor text with isQuote | isQuote <;> rw [isQuote] <;> rfl

/-- The text of a whole number that is not too long. -/
theorem writes_int {n : Int} {text : List Char} (written : Writes (.int n) text) :
    text = decimal n := by
  have opens : numberText n = .ok text := written
  unfold numberText at opens
  split at opens
  · cases opens
  · exact (Except.ok.inj opens).symm

theorem kindToldBy_write {v : Value} {text : List Char} (legible : Legible v)
    (written : Writes v text) (rest : List Char) : kindToldBy (text ++ rest) = v.kindOf := by
  cases legible with
  | int short =>
      rw [writes_int written]
      exact kindToldBy_decimal _ rest
  | text s =>
      cases written
      exact kindToldBy_quoted _ rest
  | tuple each =>
      obtain ⟨parts, _, rfl⟩ := writes_tuple written
      rfl
  | null | notOk =>
      cases written
      rfl
  | bool b =>
      cases b <;> cases written <;> rfl
  | list | dictionary | ok | left | right | sequence =>
      rw [Writes, write] at written
      obtain ⟨inner, _, written⟩ := bind_eq_ok written
      cases written
      rfl
  | pair =>
      rw [Writes, write] at written
      obtain ⟨one, _, written⟩ := bind_eq_ok written
      obtain ⟨two, _, written⟩ := bind_eq_ok written
      cases written
      rfl

/-! ## Parts -/

/-- Texts of two parts, at the start of the same text, are of related parts and end at the same
place. -/
def ToldApart {α : Type} (writes : α → List Char → Prop) (R : α → α → Prop) (x y : α) : Prop :=
  ∀ {text text' rest rest' : List Char}, writes x text → writes y text' → EndsNumber rest →
    EndsNumber rest' → text ++ rest = text' ++ rest' → R x y ∧ rest = rest'

/-- The text of a part starts as that of a value does. -/
def Starts {α : Type} (writes : α → List Char → Prop) (x : α) : Prop :=
  ∀ {text : List Char}, writes x text → ∀ rest, kindToldBy (text ++ rest) ≠ .object

/-- A text that goes on with no further part. -/
structure Closes (back : List Char) : Prop where
  endsNumber : EndsNumber back
  noValue : kindToldBy back = .object
  noComma : ∀ more, back ≠ ',' :: ' ' :: more

private theorem closes_bracket (rest : List Char) : Closes (']' :: rest) :=
  ⟨endsNumber_cons (by decide), rfl, nofun⟩

private theorem closes_brace (rest : List Char) : Closes ('\x7d' :: rest) :=
  ⟨endsNumber_cons (by decide), rfl, nofun⟩

private theorem closes_tupleBack (count : Nat) (rest : List Char) :
    Closes (tupleBack count ++ rest) := by
  unfold tupleBack
  split
  · exact ⟨endsNumber_cons (by decide), rfl, by simp⟩
  · exact ⟨endsNumber_cons (by decide), rfl, by simp⟩

private theorem separated_cons (first : List Char) (rest : List (List Char)) :
    separated [',', ' '] (first :: rest) = first ++ rest.flatMap ([',', ' '] ++ ·) := by
  induction rest generalizing first with
  | nil => simp [separated]
  | cons second rest inductionHypothesis =>
      rw [separated, inductionHypothesis, List.flatMap_cons, List.append_assoc, List.append_assoc]
      intro same
      cases same

section Parts

variable {α : Type} {writes : α → List Char → Prop} {R : α → α → Prop} {xs ys : List α}
  {parts parts' : List (List Char)} {back back' : List Char}

/-- What is behind a part ends numbers. -/
theorem Closes.behind (closes : Closes back) (parts : List (List Char)) :
    EndsNumber (parts.flatMap ([',', ' '] ++ ·) ++ back) := by
  cases parts with
  | nil => exact closes.endsNumber
  | cons => exact endsNumber_cons (by decide)

/-- Parts with a separator in front of each are compared one by one. -/
private theorem forall₂_of_flatMap (each : ∀ x ∈ xs, ∀ y ∈ ys, ToldApart writes R x y)
    (written : List.Forall₂ writes xs parts) (written' : List.Forall₂ writes ys parts')
    (closes : Closes back) (closes' : Closes back')
    (same : parts.flatMap ([',', ' '] ++ ·) ++ back = parts'.flatMap ([',', ' '] ++ ·) ++ back') :
    List.Forall₂ R xs ys ∧ back = back' := by
  induction written generalizing ys parts' with
  | nil =>
      cases written' with
      | nil => exact ⟨.nil, same⟩
      | cons => exact absurd same (closes.noComma _)
  | cons first _ inductionHypothesis =>
      cases written' with
      | nil => exact absurd same.symm (closes'.noComma _)
      | cons first' rest' =>
          rw [List.flatMap_cons, List.flatMap_cons, List.append_assoc, List.append_assoc,
            List.append_assoc, List.append_assoc] at same
          obtain ⟨related, behind⟩ := each _ List.mem_cons_self _ List.mem_cons_self first first'
            (closes.behind _) (closes'.behind _) (List.append_cancel_left same)
          obtain ⟨others, ends⟩ := inductionHypothesis
            (fun x member y member' => each x (List.mem_cons_of_mem _ member) y
              (List.mem_cons_of_mem _ member')) rest' behind
          exact ⟨.cons related others, ends⟩

/-- Parts with separators between them are compared one by one, up to what closes them. -/
theorem forall₂_of_separated (each : ∀ x ∈ xs, ∀ y ∈ ys, ToldApart writes R x y)
    (starts : ∀ x ∈ xs, Starts writes x) (starts' : ∀ y ∈ ys, Starts writes y)
    (written : List.Forall₂ writes xs parts) (written' : List.Forall₂ writes ys parts')
    (closes : Closes back) (closes' : Closes back')
    (same : separated [',', ' '] parts ++ back = separated [',', ' '] parts' ++ back') :
    List.Forall₂ R xs ys ∧ back = back' := by
  cases written with
  | nil =>
      cases written' with
      | nil => exact ⟨.nil, same⟩
      | cons first rest =>
          rw [separated_cons, List.append_assoc] at same
          exact absurd ((congrArg kindToldBy same).symm.trans closes.noValue)
            (starts' _ List.mem_cons_self first _)
  | cons first rest =>
      cases written' with
      | nil =>
          rw [separated_cons, List.append_assoc] at same
          exact absurd ((congrArg kindToldBy same).trans closes'.noValue)
            (starts _ List.mem_cons_self first _)
      | cons first' rest' =>
          rw [separated_cons, separated_cons, List.append_assoc, List.append_assoc] at same
          obtain ⟨related, behind⟩ := each _ List.mem_cons_self _ List.mem_cons_self first first'
            (closes.behind _) (closes'.behind _) same
          obtain ⟨others, ends⟩ := forall₂_of_flatMap
            (fun x member y member' => each x (List.mem_cons_of_mem _ member) y
              (List.mem_cons_of_mem _ member')) rest rest' closes closes' behind
          exact ⟨.cons related others, ends⟩

end Parts

/-! ## Forms -/

private theorem Legible.kindOf_ne_object {v : Value} (legible : Legible v) :
    v.kindOf ≠ .object := by
  cases legible <;> exact nofun

theorem Legible.starts {v : Value} (legible : Legible v) : Starts Writes v := by
  intro text written rest isObject
  rw [kindToldBy_write legible written] at isObject
  exact legible.kindOf_ne_object isObject

private theorem starts_entry {entry : Value × Value} (legible : Legible entry.1) :
    Starts WritesEntry entry := by
  rintro _ ⟨key, v, isKey, -, rfl⟩ rest
  rw [List.append_assoc, List.append_assoc]
  exact legible.starts isKey _

private theorem toldApart_bool (b b' : Bool) :
    ToldApart Writes (Similar false) (.bool b) (.bool b') := by
  intro text text' rest rest' written written' _ _ same
  cases b <;> cases b' <;> cases written <;> cases written'
  · exact ⟨.scalar _, List.append_cancel_left same⟩
  · exact absurd (congrArg List.head? same) (by simp)
  · exact absurd (congrArg List.head? same) (by simp)
  · exact ⟨.scalar _, List.append_cancel_left same⟩

private theorem toldApart_int {n m : Int}
    (short : (Nat.toDigits 10 n.natAbs).length ≤ Text.digitLimit)
    (short' : (Nat.toDigits 10 m.natAbs).length ≤ Text.digitLimit) :
    ToldApart Writes (Similar false) (.int n) (.int m) := by
  intro text text' rest rest' written written' ends ends' same
  rw [writes_int written, writes_int written'] at same
  have read := Json.readPlain_decimal short ends
  rw [same, Json.readPlain_decimal short' ends'] at read
  obtain ⟨sameNumber, sameRest⟩ := Prod.mk.inj (Except.ok.inj read)
  cases sameNumber
  exact ⟨.scalar _, sameRest.symm⟩

private theorem toldApart_text (s s' : String) :
    ToldApart Writes (Similar false) (.text s) (.text s') := by
  intro text text' rest rest' written written' _ _ same
  cases written
  cases written'
  obtain ⟨sameText, sameRest⟩ := Text.quoted_append_inj same
  obtain rfl := String.toList_inj.mp sameText
  exact ⟨.scalar _, sameRest⟩

/-- Forms that are written alike whatever they carry. -/
private theorem toldApart_of_written {v w : Value} {form : List Char}
    (isForm : write .quoted v = .ok form)
    (isForm' : write .quoted w = .ok form) (similar : Similar false v w) :
    ToldApart Writes (Similar false) v w := by
  intro text text' rest rest' written written' _ _ same
  cases isForm.symm.trans written
  cases isForm'.symm.trans written'
  exact ⟨similar, List.append_cancel_left same⟩

section Containers

variable {items items' : List Value}

/-- Items are told apart where each of the first ones is. -/
theorem forall₂_similar_of_items {parts parts' : List (List Char)} {back back' : List Char}
    (legible : ∀ item ∈ items, Legible item) (other : ∀ item ∈ items', Legible item)
    (each : ∀ item ∈ items, ∀ {w : Value}, Legible w → ToldApart Writes (Similar false) item w)
    (written : List.Forall₂ Writes items parts) (written' : List.Forall₂ Writes items' parts')
    (closes : Closes back) (closes' : Closes back')
    (same : separated [',', ' '] parts ++ back = separated [',', ' '] parts' ++ back') :
    List.Forall₂ (Similar false) items items' ∧ back = back' :=
  forall₂_of_separated (fun item member w member' => each item member (other w member'))
    (fun item member => (legible item member).starts)
    (fun w member => (other w member).starts) written written' closes closes' same

private theorem toldApart_list (legible : ∀ item ∈ items, Legible item)
    (other : ∀ item ∈ items', Legible item)
    (each : ∀ item ∈ items, ∀ {w : Value}, Legible w → ToldApart Writes (Similar false) item w) :
    ToldApart Writes (Similar false) (.list items) (.list items') := by
  intro text text' rest rest' written written' _ _ same
  rw [Writes, write] at written written'
  obtain ⟨parts, isParts, written⟩ := bind_eq_ok written
  obtain ⟨parts', isParts', written'⟩ := bind_eq_ok written'
  cases written
  cases written'
  simp only [inside, List.append_assoc] at same
  obtain ⟨similar, behind⟩ := forall₂_similar_of_items legible other each
    (forall₂_writes isParts) (forall₂_writes isParts') (closes_bracket rest)
    (closes_bracket rest') (List.append_cancel_left same)
  exact ⟨.list similar, (List.cons.inj behind).2⟩

private theorem toldApart_tuple (legible : ∀ item ∈ items, Legible item)
    (other : ∀ item ∈ items', Legible item)
    (each : ∀ item ∈ items, ∀ {w : Value}, Legible w → ToldApart Writes (Similar false) item w) :
    ToldApart Writes (Similar false) (.tuple items) (.tuple items') := by
  intro text text' rest rest' written written' _ _ same
  obtain ⟨parts, isParts, rfl⟩ := writes_tuple written
  obtain ⟨parts', isParts', rfl⟩ := writes_tuple written'
  simp only [List.cons_append, List.append_assoc] at same
  obtain ⟨similar, behind⟩ := forall₂_similar_of_items legible other each isParts isParts'
    (closes_tupleBack items.length rest) (closes_tupleBack items'.length rest')
    (List.cons.inj same).2
  -- There are as many items on both sides, so that both tuples end alike.
  rw [similar.length_eq] at behind
  exact ⟨.tuple similar, List.append_cancel_left behind⟩

/-- Entries are told apart where their keys and their values are. -/
private theorem toldApart_entry {entry entry' : Value × Value}
    (under : ToldApart Writes (Similar false) entry.1 entry'.1)
    (value : ToldApart Writes (Similar false) entry.2 entry'.2) :
    ToldApart WritesEntry (SimilarEntries false) entry entry' := by
  rintro _ _ rest rest' ⟨one, two, isOne, isTwo, rfl⟩ ⟨one', two', isOne', isTwo', rfl⟩ ends ends'
    same
  simp only [List.append_assoc] at same
  obtain ⟨similarKeys, behind⟩ := under isOne isOne' (endsNumber_cons (by decide))
    (endsNumber_cons (by decide)) same
  obtain ⟨similarValues, tails⟩ := value isTwo isTwo' ends ends'
    (List.cons.inj (List.cons.inj behind).2).2
  exact ⟨.entry similarKeys similarValues, tails⟩

private theorem toldApart_dictionary {entries entries' : List (Value × Value)}
    (keys : ∀ entry ∈ entries, Legible entry.1) (keys' : ∀ entry ∈ entries', Legible entry.1)
    (each : ∀ entry ∈ entries, ∀ entry' ∈ entries',
      ToldApart WritesEntry (SimilarEntries false) entry entry') :
    ToldApart Writes (Similar false) (.dictionary entries) (.dictionary entries') := by
  intro text text' rest rest' written written' _ _ same
  rw [Writes, write] at written written'
  obtain ⟨parts, isParts, written⟩ := bind_eq_ok written
  obtain ⟨parts', isParts', written'⟩ := bind_eq_ok written'
  cases written
  cases written'
  simp only [inside, List.append_assoc] at same
  obtain ⟨similar, behind⟩ := forall₂_of_separated each
    (fun entry member => starts_entry (keys entry member))
    (fun entry member => starts_entry (keys' entry member))
    (forall₂_writesEntry isParts) (forall₂_writesEntry isParts') (closes_brace rest)
    (closes_brace rest') (List.append_cancel_left same)
  exact ⟨.dictionary similar, (List.cons.inj behind).2⟩

end Containers

section Around

variable {v w : Value} {front back : String}

/-- What stands between two ends is told apart where it is by itself. -/
theorem similar_of_inside {part part' rest rest' : List Char}
    (ends : ∀ rest, EndsNumber (back.toList ++ rest))
    (apart : ToldApart Writes (Similar false) v w) (isPart : Writes v part)
    (isPart' : Writes w part')
    (same : inside front back part ++ rest = inside front back part' ++ rest') :
    Similar false v w ∧ rest = rest' := by
  simp only [inside, List.append_assoc] at same
  obtain ⟨similar, behind⟩ := apart isPart isPart' (ends _) (ends _)
    (List.append_cancel_left same)
  exact ⟨similar, List.append_cancel_left behind⟩

theorem endsNumber_parenthesis (rest : List Char) : EndsNumber (")".toList ++ rest) :=
  endsNumber_cons (by decide)

/-- A form that is written around one value is told apart where the value is. -/
private theorem toldApart_around {outer outer' : Value}
    (isOuter : write .quoted outer = (do return inside front ")" (← write .quoted v)))
    (isOuter' : write .quoted outer' = (do return inside front ")" (← write .quoted w)))
    (make : Similar false v w → Similar false outer outer')
    (apart : ToldApart Writes (Similar false) v w) :
    ToldApart Writes (Similar false) outer outer' := by
  intro text text' rest rest' written written' _ _ same
  obtain ⟨part, isPart, written⟩ := bind_eq_ok (isOuter.symm.trans written)
  obtain ⟨part', isPart', written'⟩ := bind_eq_ok (isOuter'.symm.trans written')
  cases written
  cases written'
  exact (similar_of_inside endsNumber_parenthesis apart isPart isPart' same).imp_left make

private theorem toldApart_pair {v' w' : Value} (first : ToldApart Writes (Similar false) v v')
    (second : ToldApart Writes (Similar false) w w') :
    ToldApart Writes (Similar false) (.pair ⟨v, w⟩) (.pair ⟨v', w'⟩) := by
  intro text text' rest rest' written written' _ _ same
  rw [Writes, write] at written written'
  obtain ⟨one, isOne, written⟩ := bind_eq_ok written
  obtain ⟨two, isTwo, written⟩ := bind_eq_ok written
  obtain ⟨one', isOne', written'⟩ := bind_eq_ok written'
  obtain ⟨two', isTwo', written'⟩ := bind_eq_ok written'
  cases written
  cases written'
  rw [List.append_assoc, List.append_assoc] at same
  have endsFirst : ∀ rest, EndsNumber (", v2=".toList ++ rest) := fun _ =>
    endsNumber_cons (by decide)
  obtain ⟨similar, behind⟩ := similar_of_inside endsFirst first isOne isOne' same
  obtain ⟨similar', tails⟩ :=
    similar_of_inside endsNumber_parenthesis second isTwo isTwo' behind
  exact ⟨.pair similar similar', tails⟩

end Around

/-! ## Values -/

/-- Only values of the same kind are left to be told apart. -/
private theorem Legible.toldApart_of_kind {v w : Value} (legible : Legible v) (other : Legible w)
    (alike : v.kindOf = w.kindOf → ToldApart Writes (Similar false) v w) :
    ToldApart Writes (Similar false) v w := by
  intro text text' rest rest' written written' ends ends' same
  refine alike ?_ written written' ends ends' same
  rw [← kindToldBy_write legible written rest, same, kindToldBy_write other written']

/-- Legible values whose texts start the same text are similar, and their texts end at the same
place. -/
theorem Legible.toldApart {v : Value} (legible : Legible v) :
    ∀ {w : Value}, Legible w → ToldApart Writes (Similar false) v w := by
  induction legible with
  | null =>
      intro w other
      refine toldApart_of_kind .null other fun sameKind => ?_
      cases other with
      | null => exact toldApart_of_written rfl rfl (.scalar .null)
      | _ => cases sameKind
  | bool b =>
      intro w other
      refine toldApart_of_kind (.bool b) other fun sameKind => ?_
      cases other with
      | bool b' => exact toldApart_bool b b'
      | _ => cases sameKind
  | int short =>
      intro w other
      refine toldApart_of_kind (.int short) other fun sameKind => ?_
      cases other with
      | int short' => exact toldApart_int short short'
      | _ => cases sameKind
  | text s =>
      intro w other
      refine toldApart_of_kind (.text s) other fun sameKind => ?_
      cases other with
      | text s' => exact toldApart_text s s'
      | _ => cases sameKind
  | list each inductionHypothesis =>
      intro w other
      refine toldApart_of_kind (.list each) other fun sameKind => ?_
      cases other with
      | list each' => exact toldApart_list each each' inductionHypothesis
      | _ => cases sameKind
  | tuple each inductionHypothesis =>
      intro w other
      refine toldApart_of_kind (.tuple each) other fun sameKind => ?_
      cases other with
      | tuple each' => exact toldApart_tuple each each' inductionHypothesis
      | _ => cases sameKind
  | dictionary keys each members underHypothesis valueHypothesis =>
      intro w other
      refine toldApart_of_kind (.dictionary keys each members) other fun sameKind => ?_
      cases other with
      | dictionary keys' each' members' =>
          exact toldApart_dictionary keys keys' fun entry member entry' member' =>
            toldApart_entry (underHypothesis entry member (keys' entry' member'))
              (valueHypothesis entry member (each' entry' member'))
      | _ => cases sameKind
  | ok payload inductionHypothesis =>
      intro w other
      refine toldApart_of_kind (.ok payload) other fun sameKind => ?_
      cases other with
      | ok payload' => exact toldApart_around rfl rfl .ok (inductionHypothesis payload')
      | _ => cases sameKind
  | notOk kind =>
      intro w other
      refine toldApart_of_kind (.notOk kind) other fun sameKind => ?_
      cases other with
      | notOk kind' => exact toldApart_of_written rfl rfl (.notOk kind kind')
      | _ => cases sameKind
  | left kind payload inductionHypothesis =>
      intro w other
      refine toldApart_of_kind (.left kind payload) other fun sameKind => ?_
      cases other with
      | left kind' payload' =>
          exact toldApart_around rfl rfl (.left kind kind') (inductionHypothesis payload')
      | _ => cases sameKind
  | right kind payload inductionHypothesis =>
      intro w other
      refine toldApart_of_kind (.right kind payload) other fun sameKind => ?_
      cases other with
      | right kind' payload' =>
          exact toldApart_around rfl rfl (.right kind kind') (inductionHypothesis payload')
      | _ => cases sameKind
  | pair first second firstHypothesis secondHypothesis =>
      intro w other
      refine toldApart_of_kind (.pair first second) other fun sameKind => ?_
      cases other with
      | pair first' second' =>
          exact toldApart_pair (firstHypothesis first') (secondHypothesis second')
      | _ => cases sameKind
  | sequence container inductionHypothesis =>
      intro w other
      refine toldApart_of_kind (.sequence container) other fun sameKind => ?_
      cases other with
      | sequence container' =>
          exact toldApart_around rfl rfl .sequence (inductionHypothesis container')
      | _ => cases sameKind

/-! ## Texts of legible values -/

/-- What begins and goes on without a fault has a result. -/
theorem exists_bind {ε α β : Type} {first : Except ε α} {next : α → Except ε β}
    (begins : ∃ a, first = .ok a) (goesOn : ∀ a, ∃ b, next a = .ok b) :
    ∃ b, (first >>= next) = .ok b := by
  obtain ⟨a, rfl⟩ := begins
  exact goesOn a

private theorem exists_writeItems {items : List Value}
    (each : ∀ item ∈ items, ∃ text, Writes item text) :
    ∃ parts, writeItems items = .ok parts := by
  induction items with
  | nil => exact ⟨[], rfl⟩
  | cons item items inductionHypothesis =>
      rw [List.forall_mem_cons] at each
      exact exists_bind each.1 fun _ => exists_bind (inductionHypothesis each.2) fun _ => ⟨_, rfl⟩

private theorem exists_writeEntries {entries : List (Value × Value)}
    (keys : ∀ entry ∈ entries, ∃ text, Writes entry.1 text)
    (each : ∀ entry ∈ entries, ∃ text, Writes entry.2 text) :
    ∃ parts, writeEntries entries = .ok parts := by
  induction entries with
  | nil => exact ⟨[], rfl⟩
  | cons entry entries inductionHypothesis =>
      rw [List.forall_mem_cons] at keys each
      exact exists_bind keys.1 fun _ => exists_bind each.1 fun _ =>
        exists_bind (inductionHypothesis keys.2 each.2) fun _ => ⟨_, rfl⟩

theorem Legible.exists_writes {v : Value} (legible : Legible v) : ∃ text, Writes v text := by
  induction legible with
  | null | text | notOk => exact ⟨_, rfl⟩
  | bool b => cases b <;> exact ⟨_, rfl⟩
  | int short => exact ⟨_, if_neg (Nat.not_lt.mpr short)⟩
  | list each inductionHypothesis =>
      exact exists_bind (exists_writeItems inductionHypothesis) fun _ => ⟨_, rfl⟩
  | tuple each inductionHypothesis =>
      refine exists_bind (exists_writeItems inductionHypothesis) fun parts => ?_
      split <;> exact ⟨_, rfl⟩
  | dictionary keys each members underHypothesis valueHypothesis =>
      exact exists_bind (exists_writeEntries underHypothesis valueHypothesis) fun _ => ⟨_, rfl⟩
  | ok payload inductionHypothesis => exact exists_bind inductionHypothesis fun _ => ⟨_, rfl⟩
  | left kind payload inductionHypothesis =>
      exact exists_bind inductionHypothesis fun _ => ⟨_, rfl⟩
  | right kind payload inductionHypothesis =>
      exact exists_bind inductionHypothesis fun _ => ⟨_, rfl⟩
  | pair first second firstHypothesis secondHypothesis =>
      exact exists_bind firstHypothesis fun _ => exists_bind secondHypothesis fun _ => ⟨_, rfl⟩
  | sequence container inductionHypothesis =>
      exact exists_bind inductionHypothesis fun _ => ⟨_, rfl⟩

private theorem Legible.exists_shown {v : Value} (legible : Legible v) :
    ∃ text, v.shown = .ok text := by
  obtain ⟨text, written⟩ := legible.exists_writes
  exact ⟨String.ofList text, by rw [shown, written]; rfl⟩

/-- Legible values have the same text just if they are similar. -/
theorem Legible.shown_eq_iff {v w : Value} (legible : Legible v) (other : Legible w) :
    v.shown = w.shown ↔ Similar false v w := by
  refine ⟨fun same => ?_, shown_similar⟩
  obtain ⟨text, written⟩ := legible.exists_writes
  have written' := write_eq_ok (same.symm.trans (by rw [shown, written]; rfl))
  rw [String.toList_ofList] at written'
  exact (legible.toldApart other written written' Json.endsNumber_nil Json.endsNumber_nil rfl).1

end Presence.Value

namespace Presence.Session

open Attempt Run Value

private theorem runFrom_shown (call : Caller) {a : Value} {text : String} {world : World}
    (told : (world.store.settled a).shown = .ok text) :
    (performGeneral call .shown [a]).runFrom world = (.ok (.text text), world) := by
  have opens : performGeneral call .shown [a] = (do return .text (← lift (← observe a).shown)) :=
    rfl
  rw [opens, runFrom_bind_of_ok _ (runFrom_observe a world), told]
  rfl

private theorem runFrom_same (call : Caller) (a b : Value) (world : World) :
    (performGeneral call .same [a, b]).runFrom world =
      (.ok (.bool (world.store.settled a == world.store.settled b)), world) := rfl

/-- Two legible values, of which each has a text, have the same text just if they are of the same
structure and hold the same, kinds of absent payloads and of sides aside; then they are equal, also
where they are shown and compared in a session. So a text in an option is told from every other
option, and options with a nought, with an empty text and with nothing from each other and from
none. -/
theorem shown_unambiguous {v w : Value} (legible : Legible v) (other : Legible w) :
    (∃ text, v.shown = .ok text) ∧ (∃ text, w.shown = .ok text) ∧
    (v.shown = w.shown ↔ Similar false v w) ∧
    (v.shown = w.shown → (v == w) = true) ∧
    (∀ s : String, v = .option (.ok (.text s)) → v.shown = w.shown → w = v) ∧
    (∀ kind : Value,
      [.option (.ok (.int 0)), .option (.ok (.text "")), .option (.ok .null),
        .option (.notOk kind)].Pairwise fun x y : Value => x.shown ≠ y.shown) ∧
    ∀ (call : Caller) (world : World) (a b : Value), world.store.settled a = v →
      world.store.settled b = w → ∃ text text',
        (performGeneral call .shown [a]).runFrom world = (.ok (.text text), world) ∧
        (performGeneral call .shown [b]).runFrom world = (.ok (.text text'), world) ∧
        (text = text' →
          (performGeneral call .same [a, b]).runFrom world = (.ok (.bool true), world)) := by
  have similar := legible.shown_eq_iff other
  obtain ⟨text, told⟩ := legible.exists_shown
  obtain ⟨text', told'⟩ := other.exists_shown
  have equal : v.shown = w.shown → (v == w) = true := fun same =>
    legible.same_of_similar (similar.mp same)
  refine ⟨⟨text, told⟩, ⟨text', told'⟩, similar, equal, ?_, ?_, ?_⟩
  · rintro s rfl same
    cases similar.mp same with
    | ok payload =>
        cases payload
        rfl
  · intro kind
    have zero : (Value.option (.ok (.int 0))).shown = .ok "Some(0)" := rfl
    have empty : (Value.option (.ok (.text ""))).shown = .ok "Some('')" := rfl
    have nothing : (Value.option (.ok .null)).shown = .ok "Some(None)" := rfl
    have none : (Value.option (.notOk kind)).shown = .ok "NotOk()" := rfl
    simp [zero, empty, nothing, none]
  · rintro call world a b rfl rfl
    refine ⟨text, text', runFrom_shown call told, runFrom_shown call told', ?_⟩
    rintro rfl
    rw [runFrom_same, equal (told.trans told'.symm)]

/-- A side that holds a text with both quotes, a tuple of one item and an option without a
payload. -/
def quotedSide (kind : Value) : Value :=
  .either (.right
    (.dictionary [(.text "it's \"so\"", .tuple [.int (-1)]), (.int 2, .option (.notOk kind))]) kind)

private theorem legible_quotedSide (kind : Value) : Legible (quotedSide kind) := by
  have keys : Members [.text "it's \"so\"", .int 2] := ⟨by decide, by decide⟩
  refine .right kind (.dictionary ?_ ?_ keys)
  · simpa using ⟨.text _, .int (by decide)⟩
  · simpa using ⟨.tuple (by simpa using .int (by decide)), .notOk kind⟩

theorem shown_unambiguous_quotedSide :
    (quotedSide (.ofKind .int)).shown = (quotedSide (.ofKind .text)).shown ∧
      (quotedSide (.ofKind .int) == quotedSide (.ofKind .text)) = true := by
  obtain ⟨-, -, similar, equal, -⟩ :=
    shown_unambiguous (legible_quotedSide (.ofKind .int)) (legible_quotedSide (.ofKind .text))
  have same := similar.mpr (.right _ _ (.dictionary (.cons (.entry (.refl _) (.refl _))
    (.cons (.entry (.refl _) (.notOk _ _)) .nil))))
  exact ⟨same, equal same⟩

end Presence.Session
