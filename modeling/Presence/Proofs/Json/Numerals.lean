import Presence.Json.Reader
import Presence.Json.Writer

/-!
Contract: reading a whole number of a document undoes writing it.

Owns: where a number ends (`EndsNumber`); that decimal digits start with nought only for nought
(`head_toDigits`); reading digits, and a number with its sign, back (`readUnsigned_toDigits`,
`readPlain_decimal`); the words (`readPlain_null`, `readPlain_bool`).

Does not own: numbers with a point, which no round trip needs here.
-/

namespace Presence.Json

/-- A text in front of which a number ends: it goes on with no digit, no point and no exponent. -/
def EndsNumber (rest : List Char) : Prop :=
  ∀ c ∈ rest.head?, c.isDigit = false ∧ c ≠ '.' ∧ c ≠ 'e' ∧ c ≠ 'E'

theorem endsNumber_nil : EndsNumber [] := by
  intro c member
  simp at member

theorem endsNumber_cons {c : Char} {rest : List Char}
    (ends : c.isDigit = false ∧ c ≠ '.' ∧ c ≠ 'e' ∧ c ≠ 'E') : EndsNumber (c :: rest) := by
  intro d member
  obtain rfl : c = d := by simpa using member
  exact ends

/-! ## Digits -/

theorem isDigit_of_mem_toDigits {n : Nat} {c : Char} (member : c ∈ Nat.toDigits 10 n) :
    c.isDigit = true :=
  Nat.isDigit_of_mem_toDigits (by decide) (by decide) member

private theorem digitChar_ne_zero {n : Nat} (positive : 0 < n) (small : n < 10) :
    Nat.digitChar n ≠ '0' := by
  have cases : ∀ m : Fin 10, 0 < m.val → Nat.digitChar m.val ≠ '0' := by decide
  exact cases ⟨n, small⟩ positive

/-- The digits of a number above nought do not start with nought. -/
theorem head_toDigits {n : Nat} (positive : 0 < n) : (Nat.toDigits 10 n).head? ≠ some '0' := by
  -- The last digit is peeled off until one digit is left, which is the first.
  induction n using Nat.strongRecOn with
  | ind n inductionHypothesis =>
      by_cases small : n < 10
      · rw [Nat.toDigits_of_lt_base small]
        simpa using digitChar_ne_zero positive small
      · have front : 0 < n / 10 := by omega
        have others := inductionHypothesis (n / 10) (by omega) front
        obtain ⟨c, rest, shape⟩ := List.exists_cons_of_ne_nil
          (Nat.toDigits_ne_nil (n := n / 10) (b := 10))
        rw [Nat.toDigits_of_base_le (by decide) (by omega)]
        rw [shape] at others ⊢
        exact others

private theorem spanDigits_toDigits (n : Nat) {rest : List Char} (ends : EndsNumber rest) :
    Binary64.spanDigits (Nat.toDigits 10 n ++ rest) = (Nat.toDigits 10 n, rest) := by
  have digits : ∀ c ∈ Nat.toDigits 10 n, c.isDigit = true := fun c => isDigit_of_mem_toDigits
  have taken : rest.takeWhile Char.isDigit = [] := by
    cases rest with
    | nil => rfl
    | cons c rest => rw [List.takeWhile_cons_of_neg (by simp [(ends c rfl).1])]
  have dropped : rest.dropWhile Char.isDigit = rest := by
    cases rest with
    | nil => rfl
    | cons c rest => rw [List.dropWhile_cons_of_neg (by simp [(ends c rfl).1])]
  rw [Binary64.spanDigits, List.takeWhile_append_of_pos digits, List.dropWhile_append_of_pos digits,
    taken, dropped, List.append_nil]

private theorem spanWhole_toDigits (n : Nat) {rest : List Char} (ends : EndsNumber rest) :
    spanWhole (Nat.toDigits 10 n ++ rest) = some (Nat.toDigits 10 n, rest) := by
  by_cases nought : n = 0
  · subst nought
    rw [Nat.toDigits_zero]
    rfl
  · have span := spanDigits_toDigits n ends
    have head := head_toDigits (Nat.pos_of_ne_zero nought)
    have digits := fun c => isDigit_of_mem_toDigits (n := n) (c := c)
    cases shape : Nat.toDigits 10 n with
    | nil => exact absurd shape Nat.toDigits_ne_nil
    | cons c others =>
        rw [shape] at span head digits
        have notNought : c ≠ '0' := by simpa using head
        have isDigit : c.isDigit = true := digits c (by simp)
        rw [List.cons_append] at span ⊢
        unfold spanWhole
        split
        · next equal => exact absurd (List.cons.inj equal).1 notNought
        · next equal =>
            obtain ⟨rfl, rfl⟩ := List.cons.inj equal
            rw [if_pos isDigit, span]
        · next equal => exact absurd equal (by simp)

private theorem spanFraction_of_endsNumber {rest : List Char} (ends : EndsNumber rest) :
    spanFraction rest = none := by
  unfold spanFraction
  split
  · next others => exact absurd rfl (ends '.' rfl).2.1
  · rfl

private theorem spanExponent_of_endsNumber {rest : List Char} (ends : EndsNumber rest) :
    spanExponent rest = none := by
  cases rest with
  | nil => rfl
  | cons mark others =>
      have noMark : ¬ (mark == 'e' || mark == 'E') = true := by
        simpa using (ends mark rfl).2.2
      unfold spanExponent
      exact if_neg noMark

/-- Digits within the limit are read back as their number. -/
theorem readUnsigned_toDigits (negative : Bool) {n : Nat}
    (short : (Nat.toDigits 10 n).length ≤ Text.digitLimit) {rest : List Char}
    (ends : EndsNumber rest) :
    readUnsigned negative (Nat.toDigits 10 n ++ rest) =
      .ok (some (.int (if negative then -(n : Int) else n), rest)) := by
  unfold readUnsigned wholeNumber
  simp only [spanWhole_toDigits n ends, spanFraction_of_endsNumber ends, Option.elim_none,
    spanExponent_of_endsNumber ends]
  rw [if_neg (by omega), Nat.ofDigitChars_ten_toDigits]
  rfl

/-! ## Words and numbers with a sign -/

theorem dropWord?_of_ne {first c : Char} (different : first ≠ c) (word rest : List Char) :
    dropWord? (first :: word) (c :: rest) = none := by
  simp [dropWord?, List.isPrefixOf, different]

/-- No word starts with a digit. -/
private theorem readPlain_of_digit {c : Char} {rest : List Char} {found : Value × List Char}
    (isDigit : c.isDigit = true) (read : readUnsigned false (c :: rest) = .ok (some found)) :
    readPlain (c :: rest) = .ok found := by
  have other : ∀ d : Char, d.isDigit = false → d ≠ c := by
    rintro d notDigit rfl
    rw [isDigit] at notDigit
    exact absurd notDigit (by decide)
  have noMinus : c ≠ '-' := (other '-' rfl).symm
  unfold readPlain
  simp only [words, List.findSome?_cons, dropWord?_of_ne (other 'n' rfl),
    dropWord?_of_ne (other 't' rfl), dropWord?_of_ne (other 'f' rfl),
    dropWord?_of_ne (other 'N' rfl), dropWord?_of_ne (other 'I' rfl),
    dropWord?_of_ne (other '-' rfl), Option.map_none, List.findSome?_nil]
  split
  · next equal => exact absurd (List.cons.inj equal).1 noMinus
  · rw [read]
    rfl

/-- A sign in front of a digit starts a number and no word. -/
private theorem readPlain_of_minus {c : Char} {rest : List Char} {found : Value × List Char}
    (isDigit : c.isDigit = true) (read : readUnsigned true (c :: rest) = .ok (some found)) :
    readPlain ('-' :: c :: rest) = .ok found := by
  have noWord : 'I' ≠ c := by
    rintro rfl
    exact absurd isDigit (by decide)
  have noInfinity : dropWord? ['-', 'I', 'n', 'f', 'i', 'n', 'i', 't', 'y'] ('-' :: c :: rest) =
      none := by
    simp [dropWord?, List.isPrefixOf, noWord]
  unfold readPlain
  simp only [words, List.findSome?_cons, dropWord?_of_ne (show 'n' ≠ '-' by decide),
    dropWord?_of_ne (show 't' ≠ '-' by decide), dropWord?_of_ne (show 'f' ≠ '-' by decide),
    dropWord?_of_ne (show 'N' ≠ '-' by decide), dropWord?_of_ne (show 'I' ≠ '-' by decide),
    noInfinity, Option.map_none, List.findSome?_nil, read]
  rfl

/-- A whole number within the limit is read back, as long as it ends where its digits end. -/
theorem readPlain_decimal {n : Int} (short : (Nat.toDigits 10 n.natAbs).length ≤ Text.digitLimit)
    {rest : List Char} (ends : EndsNumber rest) :
    readPlain (decimal n ++ rest) = .ok (.int n, rest) := by
  have first : ∀ size : Nat, ∃ c others, Nat.toDigits 10 size = c :: others ∧ c.isDigit = true := by
    intro size
    obtain ⟨c, others, shape⟩ :=
      List.exists_cons_of_ne_nil (Nat.toDigits_ne_nil (n := size) (b := 10))
    exact ⟨c, others, shape, isDigit_of_mem_toDigits (n := size) (by simp [shape])⟩
  cases n with
  | ofNat size =>
      have read := readUnsigned_toDigits false (n := size) short ends
      obtain ⟨c, others, shape, isDigit⟩ := first size
      simp only [decimal]
      rw [shape, List.cons_append] at read ⊢
      exact readPlain_of_digit isDigit read
  | negSucc size =>
      have read := readUnsigned_toDigits true (n := size + 1) short ends
      obtain ⟨c, others, shape, isDigit⟩ := first (size + 1)
      simp only [decimal, List.cons_append]
      rw [shape, List.cons_append] at read ⊢
      exact readPlain_of_minus isDigit read

theorem readPlain_null (rest : List Char) : readPlain ("null".toList ++ rest) = .ok (.null, rest) :=
  rfl

theorem readPlain_bool (b : Bool) (rest : List Char) :
    readPlain ((if b then "true" else "false").toList ++ rest) = .ok (.bool b, rest) := by
  cases b <;> rfl

end Presence.Json
