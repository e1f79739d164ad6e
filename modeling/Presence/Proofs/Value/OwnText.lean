import Mathlib.Tactic.SplitIfs
import Presence.Optional
import Presence.Proofs.Value.Equality
import Presence.Value.Text

/-!
Contract: the text of a value by itself against its text among others.

Owns: that only texts and faults have two texts (`write_plain_eq_quoted`); that no text by itself is
that of an option with the value as its payload (`plain_option_ne`).

Does not own: line breaks in texts (`Presence.Proofs.Value.LineBreaks`).

A fault that has one argument is written as that argument, which may be a fault again, and a fault
of grammar ends with a place, so the text of a fault may be the longer one of the two.
-/

namespace Presence

/-! ## Lengths -/

private theorem Text.length_escapeChar_pos (quote c : Char) : 1 ≤ (escapeChar quote c).length := by
  unfold escapeChar escapeCode
  dsimp only
  split_ifs <;> simp

theorem Text.length_quoted (text : List Char) : text.length + 2 ≤ (quoted text).length := by
  have escaped : ∀ quote, text.length ≤ (text.flatMap (escapeChar quote)).length := by
    intro quote
    induction text with
    | nil => exact Nat.le_refl _
    | cons c rest inductionHypothesis =>
        have first := length_escapeChar_pos quote c
        rw [List.flatMap_cons, List.length_append, List.length_cons]
        omega
  have inner := escaped (quoteFor text)
  simp only [quoted, List.length_cons, List.length_append, List.length_nil]
  omega

namespace Value

theorem length_inside (front back : String) (part : List Char) :
    (inside front back part).length =
      front.toList.length + part.length + back.toList.length := by
  rw [inside, List.length_append, List.length_append]

/-- The first two parts, and the separator between them, are in the text. -/
theorem length_separated (separator first second : List Char) (rest : List (List Char)) :
    first.length + separator.length + second.length ≤
      (separated separator (first :: second :: rest)).length := by
  cases rest with
  | nil =>
      simp only [separated, List.length_append]
      exact Nat.le_refl _
  | cons third rest =>
      simp only [separated, List.length_append]
      omega

private theorem length_lastOfPath (path : List Char) : (lastOfPath path).length ≤ path.length := by
  have taken : (path.reverse.takeWhile (· != '/')).length ≤ path.reverse.length :=
    (List.takeWhile_prefix _).length_le
  rw [List.length_reverse] at taken
  rwa [lastOfPath, List.length_reverse]

/-! ## Places -/

/-- A place is not much longer than the texts of what it tells. -/
private theorem length_placeText {file line : Value} {one two : List Char}
    (isFile : write .quoted file = .ok one) (isLine : write .quoted line = .ok two) :
    (placeText file line).length ≤ one.length + two.length + 8 := by
  have path : ∀ s, file = .text s → (lastOfPath s.toList).length + 2 ≤ one.length := by
    rintro s rfl
    cases isFile
    have escaped := Text.length_quoted s.toList
    have last := length_lastOfPath s.toList
    omega
  have number : ∀ n, line = .int n → two = decimal n := by
    rintro n rfl
    have written : numberText n = .ok two := isLine
    unfold numberText at written
    split_ifs at written
    exact (Except.ok.inj written).symm
  unfold placeText
  split
  · next s n =>
      have isPath := path s rfl
      rw [number n rfl]
      simp only [List.length_append, List.length_cons, List.length_nil, String.reduceToList]
      omega
  · next s _ =>
      have isPath := path s rfl
      simp only [length_inside, String.reduceToList, List.length_cons, List.length_nil]
      omega
  · next n _ =>
      rw [number n rfl]
      simp only [length_inside, String.reduceToList, List.length_cons, List.length_nil]
      omega
  · exact Nat.zero_le _

private theorem head_placeText (file line : Value) : (placeText file line).head? ≠ some 'S' := by
  unfold placeText
  split <;> simp [inside]

private theorem head_grammarPlace (details : Value) : (grammarPlace details).head? ≠ some 'S' := by
  unfold grammarPlace
  split
  · exact head_placeText _ _
  · exact head_placeText _ _
  · simp

private theorem length_grammarPlace {details : Value} {shown : List Char}
    (written : write .quoted details = .ok shown) :
    (grammarPlace details).length ≤ shown.length + 4 := by
  -- Only a tuple or a list of a file and a line tells a place.
  have items : ∀ {file line rest parts}, writeItems (file :: line :: rest) = .ok parts →
      ∃ one two others, parts = one :: two :: others ∧
        (placeText file line).length ≤ one.length + two.length + 8 := by
    intro file line rest parts isParts
    rw [writeItems] at isParts
    obtain ⟨one, isFile, isParts⟩ := bind_eq_ok isParts
    obtain ⟨behind, isBehind, isParts⟩ := bind_eq_ok isParts
    rw [writeItems] at isBehind
    obtain ⟨two, isLine, isBehind⟩ := bind_eq_ok isBehind
    obtain ⟨others, _, isBehind⟩ := bind_eq_ok isBehind
    cases isBehind
    cases isParts
    exact ⟨one, two, others, rfl, length_placeText isFile isLine⟩
  unfold grammarPlace
  split
  · rw [write] at written
    obtain ⟨parts, isParts, written⟩ := bind_eq_ok written
    obtain ⟨one, two, others, rfl, atMost⟩ := items isParts
    have inner := length_separated [',', ' '] one two others
    cases written
    simp only [length_inside, String.reduceToList, List.length_cons, List.length_nil] at inner ⊢
    omega
  · rw [write] at written
    obtain ⟨parts, isParts, written⟩ := bind_eq_ok written
    obtain ⟨one, two, others, rfl, atMost⟩ := items isParts
    have inner := length_separated [',', ' '] one two others
    cases written
    simp only [length_inside, String.reduceToList, List.length_cons, List.length_nil] at inner ⊢
    omega
  · exact Nat.zero_le _

/-! ## Texts -/

/-- What is neither a text nor a fault is written alike in both looks. -/
theorem write_plain_cases (v : Value) : (∃ s, v = .text s) ∨ (∃ t, v = .thrown t) ∨
    write .plain v = write .quoted v := by
  cases v with
  | scalar s =>
      cases s with
      | text s => exact .inl ⟨s, rfl⟩
      | bool b => cases b <;> exact .inr (.inr rfl)
      | handle h => cases h with | mk sort number => cases sort <;> exact .inr (.inr rfl)
      | _ => exact .inr (.inr rfl)
  | thrown t => exact .inr (.inl ⟨t, rfl⟩)
  | option o => cases o <;> exact .inr (.inr rfl)
  | either e => cases e <;> exact .inr (.inr rfl)
  | ternary t =>
      obtain ⟨condition, v, f⟩ := t
      cases f <;> exact .inr (.inr rfl)
  | _ => exact .inr (.inr rfl)

/-- A text that is not much longer than another one, or begins otherwise than an option does. -/
def FallsShort (plain quoted : List Char) : Prop :=
  plain.length ≤ quoted.length + 5 ∨ plain.head? ≠ some 'S'

theorem FallsShort.of_le {plain quoted : List Char} (le : plain.length ≤ quoted.length) :
    FallsShort plain quoted := .inl (Nat.le_add_right_of_le le)

theorem FallsShort.longer {plain quoted more : List Char} (short : FallsShort plain quoted)
    (le : quoted.length ≤ more.length) : FallsShort plain more :=
  short.imp_left fun atMost => by omega

/-- A place behind a text leaves it short. -/
private theorem FallsShort.append {plain quoted place more : List Char}
    (short : FallsShort plain quoted)
    (noLetter : place.head? ≠ some 'S') (le : place.length + quoted.length ≤ more.length) :
    FallsShort (plain ++ place) more := by
  rcases short with atMost | noOption
  · left
    rw [List.length_append]
    omega
  · right
    cases plain with
    | nil => exact noLetter
    | cons c rest => exact noOption

private theorem head_deviceText (number reason : List Char) (files : List Value)
    (texts : List (List Char)) : (deviceText number reason files texts).head? = some '[' := by
  unfold deviceText
  dsimp only
  split
  · split_ifs
    · rfl
    · split
      · split_ifs <;> rfl
      · rfl
  · rfl

section Faults

variable {number : Nat} {kind : FaultKind} {first second : Value} {rest : List Value}
  {cause : Option Value} {plain quoted : List Char}

/-- The only argument of a fault falls short, and so does the fault. -/
private theorem fallsShort_single
    (short : ∀ {plain quoted : List Char}, write .plain first = .ok plain →
      write .quoted first = .ok quoted → FallsShort plain quoted)
    (isPlain : write .plain (.thrown ⟨number, kind, [first], cause⟩) = .ok plain)
    (isQuoted : write .quoted (.thrown ⟨number, kind, [first], cause⟩) = .ok quoted) :
    FallsShort plain quoted := by
  have opens : write .plain (.thrown ⟨number, kind, [first], cause⟩) =
    write (if kind = .key then .quoted else .plain) first := rfl
  rw [opens] at isPlain
  rw [write] at isQuoted
  obtain ⟨inner, isInner, isQuoted⟩ := bind_eq_ok isQuoted
  have innerShort : FallsShort plain inner := by
    split at isPlain
    · cases isPlain.symm.trans isInner
      exact .of_le (Nat.le_refl _)
    · exact short isPlain isInner
  cases isQuoted
  apply innerShort.longer
  simp only [List.length_append, length_inside]
  omega

/-- Of more arguments than one, at most the first one is written by itself and comes first. -/
private theorem fallsShort_several
    (short : ∀ {plain quoted : List Char}, write .plain first = .ok plain →
      write .quoted first = .ok quoted → FallsShort plain quoted)
    (isPlain : write .plain (.thrown ⟨number, kind, first :: second :: rest, cause⟩) = .ok plain)
    (isQuoted : write .quoted (.thrown ⟨number, kind, first :: second :: rest, cause⟩) =
      .ok quoted) : FallsShort plain quoted := by
  rw [write] at isPlain isQuoted
  obtain ⟨one, isOne, isQuoted⟩ := bind_eq_ok isQuoted
  obtain ⟨two, isTwo, isQuoted⟩ := bind_eq_ok isQuoted
  obtain ⟨others, isOthers, isQuoted⟩ := bind_eq_ok isQuoted
  rw [isOne, isTwo, isOthers] at isPlain
  -- Files are left out of some faults, but never the first two arguments.
  have atLeast : one.length + two.length + 4 ≤ quoted.length := by
    have inner := length_separated [',', ' '] one two
    cases isQuoted
    simp only [List.length_append, length_inside, String.reduceToList, List.length_cons,
      List.length_nil] at inner ⊢
    split
    · have := inner []
      omega
    · have := inner others
      omega
  obtain ⟨place, isPlace⟩ :
      ∃ place, place = if rest.isEmpty then grammarPlace second else [] := ⟨_, rfl⟩
  have opens : (if kind.isOfGrammar then do return (← write .plain first) ++ place
      else if kind.isOfDevice && rest.length ≤ 3 then do
        return deviceText (← write .plain first) (← write .plain second) rest others
      else return inside "(" ")" (separated [',', ' '] (one :: two :: others)) :
        Except Fault (List Char)) = .ok plain := isPlace ▸ isPlain
  split_ifs at opens
  · obtain ⟨own, isOwn, opens⟩ := bind_eq_ok opens
    cases opens
    have told := length_grammarPlace isTwo
    apply (short isOwn isOne).append
    · rw [isPlace]
      split
      · exact head_grammarPlace second
      · simp
    · rw [isPlace]
      split
      · omega
      · rw [List.length_nil]
        omega
  · obtain ⟨number, _, opens⟩ := bind_eq_ok opens
    obtain ⟨reason, _, opens⟩ := bind_eq_ok opens
    cases opens
    right
    rw [head_deviceText]
    decide
  · cases opens
    right
    simp [inside]

end Faults

/-- The text of a value by itself falls short of its text among others. -/
private theorem fallsShort_plain (v : Value) {plain quoted : List Char}
    (isPlain : write .plain v = .ok plain) (isQuoted : write .quoted v = .ok quoted) :
    FallsShort plain quoted := by
  rcases write_plain_cases v with ⟨s, rfl⟩ | ⟨⟨number, kind, arguments, cause⟩, isFault⟩ | same
  · cases isPlain
    cases isQuoted
    exact .of_le (Nat.le_of_add_right_le (Text.length_quoted s.toList))
  · rw [isFault] at isPlain isQuoted
    rcases arguments with _ | ⟨first, _ | ⟨second, rest⟩⟩
    · cases isPlain
      left
      split <;> simp
    · exact fallsShort_single (fallsShort_plain first) isPlain isQuoted
    · exact fallsShort_several (fallsShort_plain first) isPlain isQuoted
  · rw [same] at isPlain
    cases isPlain.symm.trans isQuoted
    exact .of_le (Nat.le_refl _)
termination_by v
decreasing_by
  all_goals
    rw [isFault]
    simp
    omega

/-! ## Options -/

/-- The characters of a text that is told. -/
theorem write_eq_ok {look : Look} {v : Value} {text : String}
    (told : String.ofList <$> write look v = .ok text) : write look v = .ok text.toList := by
  rcases written : write look v with fault | characters <;> rw [written] at told <;> cases told
  rw [String.toList_ofList]

/-- An option is written with its payload as it is written among others. -/
theorem plain_some {v : Value} {text : String} (told : (Value.option (.ok v)).plain = .ok text) :
    ∃ inner, v.shown = .ok inner ∧ text.toList = inside "Some(" ")" inner.toList := by
  obtain ⟨inner, isInner, same⟩ := bind_eq_ok (write_eq_ok told)
  refine ⟨String.ofList inner, ?_, ?_⟩
  · rw [shown, isInner]
    rfl
  · rw [String.toList_ofList]
    exact (Except.ok.inj same).symm

theorem plain_notOk (kind : Value) : (Value.option (.notOk kind)).plain = .ok "NotOk()" := rfl

/-- An option never has the text of what it holds, nor that of nothing where it holds nothing. -/
theorem plain_option_ne (o : Optional Value Value) {text other : String}
    (told : (Value.option o).plain = .ok text) (toldOther : o.toNullable.plain = .ok other) :
    text ≠ other := by
  cases o with
  | notOk kind =>
      cases told
      cases toldOther
      exact fun same => absurd same (by decide)
  | ok v =>
      rintro rfl
      obtain ⟨inner, isInner, same⟩ := plain_some told
      rcases fallsShort_plain v (write_eq_ok toldOther) (write_eq_ok isInner) with short | noLetter
      · rw [same, length_inside] at short
        simp only [String.reduceToList, List.length_cons, List.length_nil] at short
        omega
      · rw [same] at noLetter
        exact noLetter rfl

end Value

end Presence
