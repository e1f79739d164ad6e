import Mathlib.Data.List.TakeWhile
import Presence.Text.Numeral

/-!
Contract: what a text is that a whole number in base ten is read from.

Owns: `Digits`, digits with single underscores between them; `Numeral`, such digits after a sign or
none and between blanks; `Spells`, the texts of numerals with no more digits than are read; that a
number is read from what spells it and from nothing else (`readPlainInt_eq_ok_iff`, and
`readInt_eq_ok_iff` for texts of the first block).

Does not own: numbers in other bases, digits of other scripts, and the numbers of documents
(`Presence.Proofs.Json.Grammar`).

Underscores are no digits and do not count for the limit; noughts at the front do.
-/

namespace Presence.Text

/-! ## Digits -/

/-- A text of digits with single underscores between them, and its digits. -/
inductive Digits : (body digits : List Char) → Prop where
  | last {c : Char} (isDigit : c.isDigit = true) : Digits [c] [c]
  | next {c : Char} {rest digits : List Char} (isDigit : c.isDigit = true)
      (others : Digits rest digits) : Digits (c :: rest) (c :: digits)
  | apart {c : Char} {rest digits : List Char} (isDigit : c.isDigit = true)
      (others : Digits rest digits) : Digits (c :: '_' :: rest) (c :: digits)

theorem Digits.exists_head {body digits : List Char} (isBody : Digits body digits) :
    ∃ c rest, body = c :: rest ∧ c.isDigit = true := by
  cases isBody with
  | last isDigit | next isDigit | apart isDigit => exact ⟨_, _, rfl, isDigit⟩

private theorem Digits.isDigit_or_eq {body digits : List Char} (isBody : Digits body digits) :
    ∀ c ∈ body, c.isDigit = true ∨ c = '_' := by
  induction isBody with
  | last isDigit => exact List.forall_mem_singleton.mpr (.inl isDigit)
  | next isDigit _ inductionHypothesis =>
      exact List.forall_mem_cons.mpr ⟨.inl isDigit, inductionHypothesis⟩
  | apart isDigit _ inductionHypothesis =>
      exact List.forall_mem_cons.mpr ⟨.inl isDigit,
        List.forall_mem_cons.mpr ⟨.inr rfl, inductionHypothesis⟩⟩

/-- Digits without underscores. -/
theorem digits_of_isDigit {digits : List Char} (nonempty : digits ≠ [])
    (isDigits : ∀ c ∈ digits, c.isDigit = true) : Digits digits digits := by
  induction digits with
  | nil => exact absurd rfl nonempty
  | cons c rest inductionHypothesis =>
      obtain ⟨isDigit, others⟩ := List.forall_mem_cons.mp isDigits
      cases rest with
      | nil => exact .last isDigit
      | cons d more => exact .next isDigit (inductionHypothesis nofun others)

/-- The number that a digit means. -/
def digitOf (c : Char) : Nat := c.toNat - '0'.toNat

theorem digitValue?_ten (c : Char) :
    (digitValue? c).filter (· < 10) = if c.isDigit then some (digitOf c) else none := by
  have asBounds : c.isDigit = ('0' ≤ c && c ≤ '9') := rfl
  rw [asBounds, digitValue?]
  split
  · next isDigit =>
      obtain ⟨notBelow, notAbove⟩ := Char.isDigit_iff_toNat.mp (asBounds.trans isDigit)
      have small : digitOf c < 10 :=
        Nat.sub_lt_left_of_lt_add notBelow (Nat.lt_succ_of_le notAbove)
      exact if_pos (decide_eq_true small)
  -- Letters mean ten and more.
  · split
    · simp
    · split <;> simp

theorem ofDigits_ten (digits : List Char) :
    ofDigits 10 (digits.map digitOf) = Nat.ofDigitChars 10 digits 0 := by
  rw [ofDigits, Nat.ofDigitChars, List.foldl_map]
  simp only [digitOf, Nat.mul_comm]

theorem spanDigits_of_digits {body digits : List Char} (isBody : Digits body digits)
    (needsDigit : Bool) :
    spanDigits 10 needsDigit body = some (digits.map digitOf, []) := by
  have noDigit : Char.isDigit '_' = false := rfl
  induction isBody generalizing needsDigit with
  | last isDigit => simp [spanDigits, digitValue?_ten, isDigit]
  | next isDigit _ inductionHypothesis =>
      simp [spanDigits, digitValue?_ten, isDigit, inductionHypothesis]
  | apart isDigit _ inductionHypothesis =>
      simp [spanDigits, digitValue?_ten, isDigit, noDigit, inductionHypothesis]

/-- What digits are taken from, up to its end. Where no digit has to come next it may also be at its
end already, or go on with an underscore. -/
private theorem digits_of_spanDigits {text : List Char} {needsDigit : Bool} {values : List Nat}
    (span : spanDigits 10 needsDigit text = some (values, [])) :
    (needsDigit = false ∧ text = [] ∧ values = []) ∨
      ∃ body digits, Digits body digits ∧ values = digits.map digitOf ∧
        (text = body ∨ needsDigit = false ∧ text = '_' :: body) := by
  induction text generalizing needsDigit values with
  | nil =>
      cases needsDigit with
      | true => cases span
      | false =>
          cases span
          exact .inl ⟨rfl, rfl, rfl⟩
  | cons c rest inductionHypothesis =>
      rw [spanDigits, digitValue?_ten] at span
      by_cases isDigit : c.isDigit = true
      · rw [if_pos isDigit] at span
        obtain ⟨⟨others, left⟩, spanned, same⟩ := Option.map_eq_some_iff.mp span
        cases same
        refine .inr ?_
        rcases inductionHypothesis spanned with
          ⟨-, rfl, rfl⟩ | ⟨body, digits, isBody, rfl, rfl | ⟨-, rfl⟩⟩
        · exact ⟨[c], [c], .last isDigit, rfl, .inl rfl⟩
        · exact ⟨_, _, .next isDigit isBody, rfl, .inl rfl⟩
        · exact ⟨_, _, .apart isDigit isBody, rfl, .inl rfl⟩
      · rw [if_neg isDigit] at span
        cases needsDigit with
        | true => cases span
        | false =>
            by_cases isUnderscore : c = '_'
            · subst isUnderscore
              have spanned : spanDigits 10 true rest = some (values, []) := span
              rcases inductionHypothesis spanned with
                ⟨never, -⟩ | ⟨body, digits, isBody, rfl, rfl | ⟨never, -⟩⟩
              · cases never
              · exact .inr ⟨_, _, isBody, rfl, .inr ⟨rfl, rfl⟩⟩
              · cases never
            · simp [isUnderscore] at span

private theorem spanDigits_eq_some_iff {text : List Char} {values : List Nat} :
    spanDigits 10 true text = some (values, []) ↔
      ∃ digits, Digits text digits ∧ values = digits.map digitOf := by
  constructor
  · intro span
    rcases digits_of_spanDigits span with
      ⟨never, -⟩ | ⟨body, digits, isBody, same, rfl | ⟨never, -⟩⟩
    · cases never
    · exact ⟨digits, isBody, same⟩
    · cases never
  · rintro ⟨digits, isBody, rfl⟩
    exact spanDigits_of_digits isBody true

/-! ## Signs -/

/-- What stands in front of digits. -/
inductive Sign where
  | absent
  | plus
  | minus
deriving DecidableEq, Repr

namespace Sign

def characters : Sign → List Char
  | absent => []
  | plus => ['+']
  | minus => ['-']

def isNegative : Sign → Bool
  | absent => false
  | plus => false
  | minus => true

/-- The number of a size. -/
def of (sign : Sign) (size : Nat) : Int := if sign.isNegative then -(size : Int) else size

end Sign

private theorem spanSign_append (sign : Sign) {body digits : List Char}
    (isBody : Digits body digits) :
    spanSign (sign.characters ++ body) = (sign.isNegative, body) := by
  cases sign with
  | plus | minus => rfl
  | absent =>
      obtain ⟨c, rest, rfl, isDigit⟩ := isBody.exists_head
      show spanSign (c :: rest) = (false, c :: rest)
      unfold spanSign
      split
      · next same =>
          obtain ⟨rfl, -⟩ := List.cons.inj same
          cases isDigit
      · next same =>
          obtain ⟨rfl, -⟩ := List.cons.inj same
          cases isDigit
      · rfl

private theorem exists_of_spanSign (text : List Char) :
    ∃ sign : Sign, text = sign.characters ++ (spanSign text).2 ∧
      (spanSign text).1 = sign.isNegative := by
  unfold spanSign
  split
  · exact ⟨.minus, rfl, rfl⟩
  · exact ⟨.plus, rfl, rfl⟩
  · exact ⟨.absent, rfl, rfl⟩

private theorem markedBase?_ne_ten (c : Char) : markedBase? c ≠ some 10 := by
  unfold markedBase?
  split
  · simp
  · split
    · simp
    · split <;> simp

/-- No mark stands for base ten, in which a nought at the front is a digit like any other. -/
theorem radixOf_ten (text : List Char) : radixOf 10 text = (⟨10, false⟩, text) := by
  unfold radixOf
  split
  · next mark rest =>
      split
      · next marked isMarked =>
          have other : ¬ (decide (10 = 0) || decide (10 = marked)) = true := by
            simpa using fun same : 10 = marked => markedBase?_ne_ten mark (same ▸ isMarked)
          exact if_neg other
      · rfl
  · rfl

theorem isUnlimited_ten : isUnlimited 10 = false := rfl

/-- Digits after a sign or none are read as the number that they mean, unless there are too many. -/
private theorem readSigned_append (sign : Sign) {body digits : List Char}
    (isBody : Digits body digits) :
    readSigned 10 (sign.characters ++ body) =
      if digits.length > digitLimit then .error (.tooLong digits.length)
      else .ok (sign.of (Nat.ofDigitChars 10 digits 0)) := by
  unfold readSigned
  simp only [spanSign_append sign isBody, radixOf_ten, spanDigits_of_digits isBody true,
    List.length_map, ofDigits_ten, isUnlimited_ten, Bool.not_false, Bool.and_true,
    decide_eq_true_eq]
  rfl

private theorem exists_of_readSigned {text : List Char} {n : Int}
    (read : readSigned 10 text = .ok n) :
    ∃ (sign : Sign) (body digits : List Char), text = sign.characters ++ body ∧
      Digits body digits ∧ digits.length ≤ digitLimit ∧
        n = sign.of (Nat.ofDigitChars 10 digits 0) := by
  obtain ⟨sign, shape, isNegative⟩ := exists_of_spanSign text
  unfold readSigned at read
  simp only [radixOf_ten, isUnlimited_ten, Bool.not_false, Bool.and_true] at read
  split at read
  · cases read
  · next values rest span =>
      split at read
      · cases read
      · next short =>
          split at read
          · cases read
          · next whole =>
              obtain rfl : rest = [] := by simpa using whole
              obtain ⟨digits, isBody, rfl⟩ := spanDigits_eq_some_iff.mp span
              refine ⟨sign, _, digits, shape, isBody, by simpa using short, ?_⟩
              rw [← Except.ok.inj read, isNegative, ofDigits_ten]
              rfl

/-! ## Blanks -/

/-- The blanks that may stand around a number. -/
def blanks : List Char := [' ', '\t', '\n', '\x0b', '\x0c', '\r']

theorem isPlainBlank_iff (c : Char) : isPlainBlank c = true ↔ c ∈ blanks := by
  have between : 0x09 ≤ c.toNat ∧ c.toNat ≤ 0x0d ↔
      c.toNat = '\t'.toNat ∨ c.toNat = '\n'.toNat ∨ c.toNat = '\x0b'.toNat ∨
        c.toNat = '\x0c'.toNat ∨ c.toNat = '\r'.toNat := by
    show 9 ≤ c.toNat ∧ c.toNat ≤ 13 ↔
      c.toNat = 9 ∨ c.toNat = 10 ∨ c.toNat = 11 ∨ c.toNat = 12 ∨ c.toNat = 13
    omega
  simp only [Char.toNat_inj] at between
  simp only [isPlainBlank, Bool.or_eq_true, Bool.and_eq_true, decide_eq_true_eq, beq_iff_eq,
    between, blanks, List.mem_cons, List.not_mem_nil, or_false]

private theorem dropWhile_of_visible {core : List Char} (nonempty : core ≠ [])
    (visible : ∀ c ∈ core, isPlainBlank c = false) (rest : List Char) :
    (core ++ rest).dropWhile isPlainBlank = core ++ rest := by
  obtain ⟨c, others, rfl⟩ := List.exists_cons_of_ne_nil nonempty
  rw [List.cons_append, List.dropWhile_cons_of_neg]
  simp [visible c]

/-- The blanks at both ends are taken off, and nothing else. -/
private theorem trimBlanks_append {before core after : List Char}
    (blankBefore : ∀ c ∈ before, isPlainBlank c = true) (nonempty : core ≠ [])
    (visible : ∀ c ∈ core, isPlainBlank c = false)
    (blankAfter : ∀ c ∈ after, isPlainBlank c = true) :
    trimBlanks (before ++ core ++ after) = core := by
  have fromBehind : core.reverse.dropWhile isPlainBlank = core.reverse := by
    have nonempty' : core.reverse ≠ [] := by simpa using nonempty
    simpa using dropWhile_of_visible nonempty' (by simpa using visible) []
  rw [trimBlanks, List.append_assoc, List.dropWhile_append_of_pos blankBefore,
    dropWhile_of_visible nonempty visible, List.reverse_append,
    List.dropWhile_append_of_pos (by simpa using blankAfter), fromBehind, List.reverse_reverse]

private theorem exists_of_trimBlanks (text : List Char) :
    ∃ before after, text = before ++ trimBlanks text ++ after ∧
      (∀ c ∈ before, isPlainBlank c = true) ∧ ∀ c ∈ after, isPlainBlank c = true := by
  refine ⟨text.takeWhile isPlainBlank,
    ((text.dropWhile isPlainBlank).reverse.takeWhile isPlainBlank).reverse, ?_,
    fun c => List.mem_takeWhile_imp, fun c member => ?_⟩
  · rw [trimBlanks, List.append_assoc, ← List.reverse_append, List.takeWhile_append_dropWhile,
      List.reverse_reverse, List.takeWhile_append_dropWhile]
  · exact List.mem_takeWhile_imp (List.mem_reverse.mp member)

/-! ## Numerals -/

/-- A whole number as people write it: digits with single underscores between them, after a sign or
none, and blanks around that. -/
structure Numeral where
  before : List Char
  sign : Sign
  body : List Char
  digits : List Char
  after : List Char
  blank_before : ∀ c ∈ before, c ∈ blanks
  isBody : Digits body digits
  blank_after : ∀ c ∈ after, c ∈ blanks

namespace Numeral

variable (numeral : Numeral)

def text : List Char :=
  numeral.before ++ (numeral.sign.characters ++ numeral.body) ++ numeral.after

def value : Int := numeral.sign.of (Nat.ofDigitChars 10 numeral.digits 0)

theorem core_cases : ∀ c ∈ numeral.sign.characters ++ numeral.body,
    c ∈ ['+', '-', '_'] ∨ c.isDigit = true := by
  have ofSign : ∀ c ∈ numeral.sign.characters, c ∈ ['+', '-', '_'] ∨ c.isDigit = true := by
    cases numeral.sign <;> simp [Sign.characters]
  intro c member
  rcases List.mem_append.mp member with isSign | isBody
  · exact ofSign c isSign
  · rcases numeral.isBody.isDigit_or_eq c isBody with isDigit | rfl
    · exact .inr isDigit
    · exact .inl (by decide)

private theorem isPlainBlank_core : ∀ c ∈ numeral.sign.characters ++ numeral.body,
    isPlainBlank c = false := by
  intro c member
  rw [← Bool.not_eq_true, isPlainBlank_iff]
  intro isBlank
  have noDigit : ∀ d ∈ blanks, d ∉ ['+', '-', '_'] ∧ d.isDigit = false := by simp [blanks]
  obtain ⟨noMark, notDigit⟩ := noDigit c isBlank
  rcases numeral.core_cases c member with isMark | isDigit
  · exact noMark isMark
  · rw [notDigit] at isDigit
    cases isDigit

private theorem trimBlanks_text :
    trimBlanks numeral.text = numeral.sign.characters ++ numeral.body := by
  obtain ⟨c, rest, shape, -⟩ := numeral.isBody.exists_head
  exact trimBlanks_append (fun c member => (isPlainBlank_iff c).mpr (numeral.blank_before c member))
    (by simp [shape]) numeral.isPlainBlank_core
    (fun c member => (isPlainBlank_iff c).mpr (numeral.blank_after c member))

/-- A numeral is read as its value, unless it has too many digits. -/
theorem readPlainInt_text : readPlainInt 10 numeral.text =
    if numeral.digits.length > digitLimit then .error (.tooLong numeral.digits.length)
    else .ok numeral.value := by
  rw [readPlainInt, numeral.trimBlanks_text, readSigned_append _ numeral.isBody]
  rfl

end Numeral

/-- A text is a numeral of a number, with no more digits than are read. -/
def Spells (text : List Char) (n : Int) : Prop :=
  ∃ numeral : Numeral, numeral.text = text ∧ numeral.digits.length ≤ digitLimit ∧ numeral.value = n

/-- A number is read from the texts that spell it, and from no others. -/
theorem readPlainInt_eq_ok_iff {text : List Char} {n : Int} :
    readPlainInt 10 text = .ok n ↔ Spells text n := by
  constructor
  · intro read
    obtain ⟨before, after, shape, blankBefore, blankAfter⟩ := exists_of_trimBlanks text
    obtain ⟨sign, body, digits, core, isBody, short, rfl⟩ := exists_of_readSigned read
    rw [core] at shape
    exact ⟨⟨before, sign, body, digits, after,
      fun c member => (isPlainBlank_iff c).mp (blankBefore c member), isBody,
      fun c member => (isPlainBlank_iff c).mp (blankAfter c member)⟩, shape.symm, short, rfl⟩
  · rintro ⟨numeral, rfl, short, rfl⟩
    rw [numeral.readPlainInt_text, if_neg (Nat.not_lt.mpr short)]

/-! ## Texts of the first block -/

private theorem narrow_of_lt {c : Char} (small : c.toNat < 127) : narrow c = c := if_pos small

theorem map_narrow_of_lt {text : List Char} (small : ∀ c ∈ text, c.toNat < 127) :
    text.map narrow = text :=
  (List.map_congr_left fun c member => narrow_of_lt (small c member)).trans (List.map_id' text)

theorem Numeral.isNarrow (numeral : Numeral) : ∀ c ∈ numeral.text, c.toNat < 127 ∧ c ≠ '?' := by
  have ofBlank : ∀ c ∈ blanks, c.toNat < 127 ∧ c ≠ '?' := by simp [blanks]
  have ofMark : ∀ c ∈ ['+', '-', '_'], c.toNat < 127 ∧ c ≠ '?' := by simp
  intro c member
  rcases List.mem_append.mp member with isFront | isAfter
  · rcases List.mem_append.mp isFront with isBefore | isCore
    · exact ofBlank c (numeral.blank_before c isBefore)
    · rcases numeral.core_cases c isCore with isMark | isDigit
      · exact ofMark c isMark
      · have notAbove := (Char.isDigit_iff_toNat.mp isDigit).2
        refine ⟨Nat.lt_of_le_of_lt notAbove (by decide), ?_⟩
        rintro rfl
        cases isDigit
  · exact ofBlank c (numeral.blank_after c isAfter)

theorem Numeral.readInt_text (numeral : Numeral) : readInt 10 numeral.text =
    if numeral.digits.length > digitLimit then .error (.tooLong numeral.digits.length)
    else .ok numeral.value := by
  rw [readInt, map_narrow_of_lt fun c member => (numeral.isNarrow c member).1,
    numeral.readPlainInt_text]

/-- Of the texts of the first block, those that spell a number are read as that number. The last
character of the block is the only one that is taken for another, and no numeral has either. -/
theorem readInt_eq_ok_iff {text : List Char} (ascii : ∀ c ∈ text, c.toNat < 128) {n : Int} :
    readInt 10 text = .ok n ↔ Spells text n := by
  constructor
  · intro read
    obtain ⟨numeral, shape, short, same⟩ := readPlainInt_eq_ok_iff.mp read
    have small : ∀ c ∈ text, c.toNat < 127 := by
      intro c member
      have notLast : c.toNat ≠ 127 := by
        intro isLast
        obtain rfl : c = '\x7f' := Char.toNat_inj.mp isLast
        have isThere : narrow '\x7f' ∈ numeral.text := by
          rw [shape]
          exact List.mem_map_of_mem member
        exact (numeral.isNarrow _ isThere).2 rfl
      have := ascii c member
      omega
    exact ⟨numeral, shape.trans (map_narrow_of_lt small), short, same⟩
  · rintro ⟨numeral, rfl, short, rfl⟩
    rw [numeral.readInt_text, if_neg (Nat.not_lt.mpr short)]

end Presence.Text
