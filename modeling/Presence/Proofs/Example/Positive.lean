import Presence.Proofs.Session.ReadingBack
import Presence.Proofs.Text.Numeral
import Presence.Session.General

/-!
Contract: which texts are parsed as positive numbers, and what is said of all others.

Owns: `verdict`, what is said of the number that a text spells, or of a text that spells none; that
parsing a text gives its verdict and never fails (`parsePositive_text`); that a number is parsed
back from its decimal digits (`parsePositive_plain`); which texts get which verdict
(`texts_told_apart`).

Does not own: the form of written numbers (`Presence.Proofs.Text.Numeral`).
-/

namespace Presence.Example

open Attempt Session

/-! ## Verdicts -/

/-- What is said of the number that a text spells, or of a text that spells none. -/
def verdict (s : String) (number : Option Int) : Either Value (ParseError Value String Int) Int :=
  match number with
  | none => .left ⟨.text s, "not a number", 0⟩ .null
  | some n => if n ≤ 0 then .left ⟨.text s, "not positive", 0⟩ .null else .right n .null

/-- The three verdicts, one of which each number, or none, gets. -/
theorem verdict_cases (s : String) (number : Option Int) :
    (∃ n, number = some n ∧ 0 < n ∧ verdict s number = .right n .null) ∨
      (∃ n, number = some n ∧ n ≤ 0 ∧
        verdict s number = .left ⟨.text s, "not positive", 0⟩ .null) ∨
      number = none ∧ verdict s number = .left ⟨.text s, "not a number", 0⟩ .null := by
  cases number with
  | none => exact .inr (.inr ⟨rfl, rfl⟩)
  | some n =>
      by_cases positive : 0 < n
      · exact .inl ⟨n, rfl, positive, if_neg (Int.not_le.mpr positive)⟩
      · have notPositive : n ≤ 0 := Int.not_lt.mp positive
        exact .inr (.inl ⟨n, rfl, notPositive, if_pos notPositive⟩)

theorem verdict_eq_right_iff {s : String} {number : Option Int} {n : Int} :
    verdict s number = .right n .null ↔ number = some n ∧ 0 < n := by
  rcases verdict_cases s number with
    ⟨k, rfl, positive, same⟩ | ⟨k, rfl, notPositive, same⟩ | ⟨rfl, same⟩ <;> rw [same]
  · constructor
    · intro equal
      cases equal
      exact ⟨rfl, positive⟩
    · rintro ⟨equal, -⟩
      cases equal
      rfl
  · refine ⟨nofun, ?_⟩
    rintro ⟨equal, positive⟩
    cases equal
    omega
  · exact ⟨nofun, fun given => nomatch given.1⟩

private theorem verdict_eq_notPositive_iff {s : String} {number : Option Int} :
    verdict s number = .left ⟨.text s, "not positive", 0⟩ .null ↔
      ∃ n, number = some n ∧ n ≤ 0 := by
  rcases verdict_cases s number with
    ⟨k, rfl, positive, same⟩ | ⟨k, rfl, notPositive, same⟩ | ⟨rfl, same⟩ <;> rw [same]
  · refine ⟨nofun, ?_⟩
    rintro ⟨n, equal, notPositive⟩
    cases equal
    omega
  · exact ⟨fun _ => ⟨k, rfl, notPositive⟩, fun _ => rfl⟩
  · constructor
    · intro equal
      simp at equal
    · rintro ⟨n, never, -⟩
      cases never

private theorem verdict_eq_noNumber_iff {s : String} {number : Option Int} :
    verdict s number = .left ⟨.text s, "not a number", 0⟩ .null ↔ number = none := by
  rcases verdict_cases s number with
    ⟨k, rfl, positive, same⟩ | ⟨k, rfl, notPositive, same⟩ | ⟨rfl, same⟩ <;> rw [same]
  · simp
  · simp
  · exact ⟨fun _ => rfl, fun _ => rfl⟩

/-- A text that cannot be read, for whatever reason, spells no number. -/
private theorem wholeNumberOf_text (s : String) :
    wholeNumberOf (.text s) = .ok (Text.readInt 10 s.toList).toOption := by
  have whole : (Value.text s).toWhole =
      Value.wholeRead 10 (.text s) (Text.readInt 10 s.toList) := rfl
  rw [wholeNumberOf, whole]
  cases Text.readInt 10 s.toList with
  | ok n => rfl
  | error problem => cases problem <;> rfl

theorem parsePositive_text (s : String) :
    parsePositive (.text s) = .ok (verdict s (Text.readInt 10 s.toList).toOption) := by
  rw [parsePositive, wholeNumberOf_text]
  cases (Text.readInt 10 s.toList).toOption <;> rfl

/-! ## Decimal digits -/

/-- The decimal digits of a number, with its sign, spell the number. -/
private theorem spells_decimal {n : Int}
    (short : (Nat.toDigits 10 n.natAbs).length ≤ Text.digitLimit) :
    Text.Spells (decimal n) n := by
  have isBody (size : Nat) : Text.Digits (Nat.toDigits 10 size) (Nat.toDigits 10 size) :=
    Text.digits_of_isDigit Nat.toDigits_ne_nil fun _ =>
      Nat.isDigit_of_mem_toDigits (by decide) (by decide)
  cases n with
  | ofNat size =>
      refine ⟨⟨[], .absent, _, _, [], nofun, isBody size, nofun⟩, ?_, short, ?_⟩
      · simp [Text.Numeral.text, Text.Sign.characters, decimal]
      · simp [Text.Numeral.value, Text.Sign.of, Text.Sign.isNegative]
  | negSucc size =>
      refine ⟨⟨[], .minus, _, _, [], nofun, isBody (size + 1), nofun⟩, ?_, short, ?_⟩
      · simp [Text.Numeral.text, Text.Sign.characters, decimal]
      · simp [Text.Numeral.value, Text.Sign.of, Text.Sign.isNegative]
        omega

private theorem ascii_of_spells {text : List Char} {n : Int} (spells : Text.Spells text n) :
    ∀ c ∈ text, c.toNat < 128 := by
  obtain ⟨numeral, rfl, -, -⟩ := spells
  intro c member
  exact Nat.lt_succ_of_lt (numeral.isNarrow c member).1

/-- A number above nought is parsed back from its decimal digits. -/
theorem parsePositive_plain {n : Int} (positive : 0 < n)
    (short : (Nat.toDigits 10 n.natAbs).length ≤ Text.digitLimit) :
    ∃ written, (Value.int n).plain = .ok written ∧
      parsePositive (.text written) = .ok (.right n .null) := by
  have spells := spells_decimal short
  refine ⟨String.ofList (decimal n), ?_, ?_⟩
  · show String.ofList <$> numberText n = _
    rw [numberText, if_neg (Nat.not_lt.mpr short)]
    rfl
  · rw [parsePositive_text, String.toList_ofList,
      (Text.readInt_eq_ok_iff (ascii_of_spells spells)).mpr spells]
    exact congrArg Except.ok (verdict_eq_right_iff.mpr ⟨rfl, positive⟩)

/-! ## All texts of the first block -/

section Texts

variable {s : String}

/-- The number that a text spells, if it spells one. -/
theorem readInt_toOption_eq_some_iff (ascii : ∀ c ∈ s.toList, c.toNat < 128) {n : Int} :
    (Text.readInt 10 s.toList).toOption = some n ↔ Text.Spells s.toList n := by
  rw [← Text.readInt_eq_ok_iff ascii]
  cases Text.readInt 10 s.toList <;> simp [Except.toOption]

private theorem readInt_toOption_eq_none_iff (ascii : ∀ c ∈ s.toList, c.toNat < 128) :
    (Text.readInt 10 s.toList).toOption = none ↔ ∀ n, ¬ Text.Spells s.toList n := by
  simp only [← readInt_toOption_eq_some_iff ascii, Option.eq_none_iff_forall_ne_some, ne_eq]

/-- A numeral with too many digits is no number to the parser. -/
theorem readInt_toOption_of_long {numeral : Text.Numeral} (shape : numeral.text = s.toList)
    (long : Text.digitLimit < numeral.digits.length) :
    (Text.readInt 10 s.toList).toOption = none := by
  rw [← shape, numeral.readInt_text, if_pos long]
  rfl

/-- What stands in for a text is the number that it spells, if that is above nought, and else
nought. -/
theorem exists_fold_verdict (s : String) (number : Option Int) :
    ∃ k : Int, 0 ≤ k ∧ ∀ (m : Type → Type) [Monad m],
      ((verdict s number).fold (fun error => pure error.fallback) pure : Attempt m Int) =
        pure k := by
  rcases verdict_cases s number with
    ⟨n, -, positive, same⟩ | ⟨n, -, -, same⟩ | ⟨-, same⟩ <;> rw [same]
  · exact ⟨n, Int.le_of_lt positive, fun _ _ => rfl⟩
  · exact ⟨0, Int.le_refl 0, fun _ _ => rfl⟩
  · exact ⟨0, Int.le_refl 0, fun _ _ => rfl⟩

end Texts

/-- A verdict as a session hands it on. -/
def asValue (e : Either Value (ParseError Value String Int) Int) : Value :=
  match e with
  | .left ⟨input, reason, fallback⟩ kind =>
      .either (.left (.parseError ⟨input, .text reason, .int fallback⟩) kind)
  | .right n kind => .either (.right (.int n) kind)

private theorem runFrom_parsePositive (call : Caller) (s : String) (world : World) :
    (performGeneral call .parsePositive [.text s]).runFrom world =
      (.ok (asValue (verdict s (Text.readInt 10 s.toList).toOption)), world) := by
  have parses : (performGeneral call .parsePositive [.text s]).runFrom world = (do
      match ← Run.lift (parsePositive (.text s)) with
      | .left ⟨input, reason, fallback⟩ kind =>
          return .either (.left (.parseError ⟨input, .text reason, .int fallback⟩) kind)
      | .right n kind => return .either (.right (.int n) kind) : Run Value).runFrom world := rfl
  rw [parses, parsePositive_text]
  cases verdict s (Text.readInt 10 s.toList).toOption <;> rfl

/-- Every text of the first block is parsed, and told apart by the number that it spells: a number
above nought is on the right; on the left is the text with what is wrong, which is that the number
that it spells is not above nought, or that it spells none, as when it has more than 4300 digits. A
session gives the same and stays as it was. What stands in for any text is never below nought, and
the decimal digits of a number above nought are parsed as that number. -/
theorem texts_told_apart {s : String} (ascii : ∀ c ∈ s.toList, c.toNat < 128) :
    Text.digitLimit = 4300 ∧
    (∃ e, parsePositive (.text s) = .ok e ∧
      (∀ (call : Caller) (world : World),
        (performGeneral call .parsePositive [.text s]).runFrom world =
          (.ok (asValue e), world)) ∧
      ∃ k : Int, 0 ≤ k ∧ ∀ (m : Type → Type) [Monad m],
        (e.fold (fun error => pure error.fallback) pure : Attempt m Int) = pure k) ∧
    (∀ n, parsePositive (.text s) = .ok (.right n .null) ↔ Text.Spells s.toList n ∧ 0 < n) ∧
    (parsePositive (.text s) = .ok (.left ⟨.text s, "not positive", 0⟩ .null) ↔
      ∃ n, Text.Spells s.toList n ∧ n ≤ 0) ∧
    (parsePositive (.text s) = .ok (.left ⟨.text s, "not a number", 0⟩ .null) ↔
      ∀ n, ¬ Text.Spells s.toList n) ∧
    (∀ numeral : Text.Numeral, numeral.text = s.toList →
      Text.digitLimit < numeral.digits.length →
        parsePositive (.text s) = .ok (.left ⟨.text s, "not a number", 0⟩ .null)) ∧
    (∀ error kind, parsePositive (.text s) = .ok (.left error kind) → error.input = .text s) ∧
    ∀ n : Int, 0 < n → (Nat.toDigits 10 n.natAbs).length ≤ Text.digitLimit →
      ∃ written, (Value.int n).plain = .ok written ∧
        parsePositive (.text written) = .ok (.right n .null) := by
  simp only [parsePositive_text s, Except.ok.injEq]
  refine ⟨rfl, ⟨_, rfl, fun call world => runFrom_parsePositive call s world,
    exists_fold_verdict s _⟩, ?_, ?_, ?_, ?_, ?_, ?_⟩
  · intro n
    rw [verdict_eq_right_iff, readInt_toOption_eq_some_iff ascii]
  · simp only [verdict_eq_notPositive_iff, readInt_toOption_eq_some_iff ascii]
  · rw [verdict_eq_noNumber_iff, readInt_toOption_eq_none_iff ascii]
  · intro numeral shape long
    exact verdict_eq_noNumber_iff.mpr (readInt_toOption_of_long shape long)
  · intro error kind left
    rcases verdict_cases s (Text.readInt 10 s.toList).toOption with
      ⟨n, -, -, same⟩ | ⟨n, -, -, same⟩ | ⟨-, same⟩ <;> rw [same] at left <;> cases left
    · rfl
    · rfl
  · intro n positive short
    exact parsePositive_plain positive short

/-- Blanks, a sign, an underscore and noughts at the front do not hinder a number. -/
theorem texts_told_apart_grouped :
    (∀ c ∈ "\t+01_000\n".toList, c.toNat < 128) ∧
    Text.Spells "\t+01_000\n".toList 1000 ∧
    parsePositive (.text "\t+01_000\n") = .ok (.right 1000 .null) := by
  have ascii : ∀ c ∈ "\t+01_000\n".toList, c.toNat < 128 := by simp
  have isBody : Text.Digits "01_000".toList "01000".toList :=
    .next rfl (.apart rfl (.next rfl (.next rfl (.last rfl))))
  have short : "01000".toList.length ≤ Text.digitLimit := by decide
  have blankBefore : ∀ c ∈ ['\t'], c ∈ Text.blanks := by simp [Text.blanks]
  have blankAfter : ∀ c ∈ ['\n'], c ∈ Text.blanks := by simp [Text.blanks]
  have spells : Text.Spells "\t+01_000\n".toList 1000 :=
    ⟨⟨_, .plus, _, _, _, blankBefore, isBody, blankAfter⟩, rfl, short, rfl⟩
  obtain ⟨-, -, isRight, -⟩ := texts_told_apart ascii
  exact ⟨ascii, spells, (isRight 1000).mpr ⟨spells, by decide⟩⟩

/-- Two underscores in a row do. -/
example : parsePositive (.text "1__000") = .ok (.left ⟨.text "1__000", "not a number", 0⟩ .null) :=
  rfl

end Presence.Example
