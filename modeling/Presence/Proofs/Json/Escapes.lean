import Mathlib.Tactic.SplitIfs
import Presence.Json.Reader
import Presence.Json.Writer
import Presence.Proofs.Text.Encoding

/-!
Contract: reading a text of a document undoes writing it.

Owns: reading back each kind of escape (`readEscape_code`, `readEscape_pair`), one character
(`readText_escapeChar`), and a text up to its closing quote (`readText_escaped`).

Does not own: numbers (`Presence.Proofs.Json.Numerals`) and values
(`Presence.Proofs.Json.RoundTrip`).

An escape of a code needs one more character after its digits, so the tail that follows a character
must not be empty. The closing quote always provides for that.
-/

namespace Presence.Json

/-! ## Codes -/

theorem charOfCode_toNat (c : Char) : charOfCode c.toNat = c := by
  have range := Text.code_range c
  unfold charOfCode
  rw [if_pos, Char.ofNat_toNat]
  simp only [Bool.or_eq_true, Bool.and_eq_true, decide_eq_true_eq]
  omega

private theorem isHighSurrogate_toNat (c : Char) : isHighSurrogate c.toNat = false := by
  have range := Text.code_range c
  unfold isHighSurrogate
  simp only [Bool.and_eq_false_iff, decide_eq_false_iff_not]
  omega

/-- Four digits stand one by one. -/
theorem hex_four (code : Nat) : ∃ a b c d, Text.hex 4 code = [a, b, c, d] := by
  have length : (Text.hex 4 code).length = 4 := Text.hex_length 4 code
  match digits : Text.hex 4 code, length with
  | [a, b, c, d], _ => exact ⟨a, b, c, d, rfl⟩

theorem readCode_hex {code : Nat} (small : code < 0x10000) {tail : List Char}
    (nonempty : tail ≠ []) : readCode ('u' :: (Text.hex 4 code ++ tail)) = .ok code := by
  have value : Text.hexValue? 0 (Text.hex 4 code) = some code := by
    rw [Text.hexValue?_hex 4 code 0 small, Nat.zero_mul, Nat.zero_add]
  obtain ⟨a, b, c, d, digits⟩ := hex_four code
  obtain ⟨e, rest, rfl⟩ := List.exists_cons_of_ne_nil nonempty
  rw [digits] at value ⊢
  simp only [List.cons_append, List.nil_append, readCode, value]

private theorem readSecondCode_codeEscape {code : Nat} (small : code < 0x10000) {tail : List Char}
    (nonempty : tail ≠ []) : readSecondCode (codeEscape code ++ tail) = .ok (some code) := by
  have read := readCode_hex small nonempty
  obtain ⟨a, b, c, d, digits⟩ := hex_four code
  obtain ⟨e, rest, rfl⟩ := List.exists_cons_of_ne_nil nonempty
  rw [digits, List.cons_append, List.cons_append, List.cons_append, List.cons_append,
    List.nil_append] at read
  simp only [codeEscape, digits, List.cons_append, List.nil_append, readSecondCode, read]
  rfl

/-! ## Escapes -/

/-- A code that starts no pair stands for its character. -/
theorem readEscape_code (opening : List Char) {code : Nat} (small : code < 0x10000)
    (alone : isHighSurrogate code = false) {tail : List Char} (nonempty : tail ≠ []) :
    readEscape opening ('u' :: (Text.hex 4 code ++ tail)) = .ok (charOfCode code, 5) := by
  unfold readEscape
  simp only [beq_self_eq_true, if_true, readCode_hex small nonempty]
  simp only [bind, Except.bind, alone]
  rfl

/-- The two codes of a pair stand for one character beyond the first plane. -/
theorem readEscape_pair (opening : List Char) {high low : Nat}
    (isHigh : isHighSurrogate high = true) (isLow : isLowSurrogate low = true) {tail : List Char}
    (nonempty : tail ≠ []) :
    readEscape opening ('u' :: (Text.hex 4 high ++ (codeEscape low ++ tail))) =
      .ok (charOfCode (0x10000 + (high - 0xd800) * 0x400 + (low - 0xdc00)), 11) := by
  have highSmall : high < 0x10000 := by
    simp only [isHighSurrogate, Bool.and_eq_true, decide_eq_true_eq] at isHigh
    omega
  have lowSmall : low < 0x10000 := by
    simp only [isLowSurrogate, Bool.and_eq_true, decide_eq_true_eq] at isLow
    omega
  have second := readSecondCode_codeEscape lowSmall nonempty
  have dropped : (Text.hex 4 high ++ (codeEscape low ++ tail)).drop 4 = codeEscape low ++ tail :=
    List.drop_left' (Text.hex_length 4 high)
  unfold readEscape
  simp only [beq_self_eq_true, if_true,
    readCode_hex highSmall (List.append_ne_nil_of_right_ne_nil _ nonempty)]
  simp only [bind, Except.bind, isHigh, dropped, second, isLow, if_true]
  rfl

/-! ## Characters -/

private theorem readText_passed (opening passed tail : List Char) :
    readText opening passed.length (passed ++ tail) = readText opening 0 tail := by
  induction passed with
  | nil => rfl
  | cons c rest inductionHypothesis =>
      rw [List.length_cons, List.cons_append, readText, inductionHypothesis]

section Character

variable {opening tail others left : List Char}

/-- An escape that is read is passed over, and the rest is read behind it. -/
theorem readText_of_readEscape {c : Char} {passed : List Char}
    (escape : readEscape opening (passed ++ tail) = .ok (c, passed.length))
    (follows : readText opening 0 tail = .ok (others, left)) :
    readText opening 0 ('\\' :: (passed ++ tail)) = .ok (c :: others, left) := by
  rw [readText, if_neg (by decide), if_pos (by decide), escape]
  simp only [bind, Except.bind, readText_passed, follows]
  rfl

private theorem readText_named {c name : Char} (means : namedEscape? name = some c)
    (isName : name ≠ 'u') (follows : readText opening 0 tail = .ok (others, left)) :
    readText opening 0 ('\\' :: name :: tail) = .ok (c :: others, left) := by
  have escape : readEscape opening ([name] ++ tail) = .ok (c, [name].length) := by
    simp [readEscape, isName, means]
  exact readText_of_readEscape escape follows

private theorem readText_codeEscape {code : Nat} (small : code < 0x10000)
    (alone : isHighSurrogate code = false) (nonempty : tail ≠ [])
    (follows : readText opening 0 tail = .ok (others, left)) :
    readText opening 0 (codeEscape code ++ tail) = .ok (charOfCode code :: others, left) := by
  have escape : readEscape opening (('u' :: Text.hex 4 code) ++ tail) =
      .ok (charOfCode code, ('u' :: Text.hex 4 code).length) := by
    rw [List.cons_append, readEscape_code opening small alone nonempty, List.length_cons,
      Text.hex_length]
  exact readText_of_readEscape escape follows

private theorem readText_pair {high low : Nat} (isHigh : isHighSurrogate high = true)
    (isLow : isLowSurrogate low = true) (nonempty : tail ≠ [])
    (follows : readText opening 0 tail = .ok (others, left)) :
    readText opening 0 (codeEscape high ++ codeEscape low ++ tail) =
      .ok (charOfCode (0x10000 + (high - 0xd800) * 0x400 + (low - 0xdc00)) :: others, left) := by
  have escape : readEscape opening (('u' :: Text.hex 4 high ++ codeEscape low) ++ tail) =
      .ok (charOfCode (0x10000 + (high - 0xd800) * 0x400 + (low - 0xdc00)),
        ('u' :: Text.hex 4 high ++ codeEscape low).length) := by
    rw [List.append_assoc, List.cons_append, readEscape_pair opening isHigh isLow nonempty]
    simp [codeEscape, Text.hex_length]
  have read := readText_of_readEscape escape follows
  simpa [codeEscape] using read

/-- A character that stands as it is. -/
private theorem readText_graphic {c : Char} (notQuote : c ≠ '"') (notEscape : c ≠ '\\')
    (noControl : ¬ c.toNat < 0x20) (follows : readText opening 0 tail = .ok (others, left)) :
    readText opening 0 (c :: tail) = .ok (c :: others, left) := by
  rw [readText, if_neg (by simpa using notQuote), if_neg (by simpa using notEscape),
    if_neg noControl, follows]
  rfl

/-- The two halves of a code beyond the first plane are those of a pair, and make it up again. -/
private theorem charOfCode_halves {c : Char} (large : ¬ c.toNat < 0x10000) :
    isHighSurrogate (0xd800 + (c.toNat - 0x10000) / 0x400) = true ∧
      isLowSurrogate (0xdc00 + (c.toNat - 0x10000) % 0x400) = true ∧
      charOfCode (0x10000 + (0xd800 + (c.toNat - 0x10000) / 0x400 - 0xd800) * 0x400
        + (0xdc00 + (c.toNat - 0x10000) % 0x400 - 0xdc00)) = c := by
  have range := Text.code_range c
  have whole : 0x10000 + (0xd800 + (c.toNat - 0x10000) / 0x400 - 0xd800) * 0x400
      + (0xdc00 + (c.toNat - 0x10000) % 0x400 - 0xdc00) = c.toNat := by omega
  refine ⟨?_, ?_, ?_⟩
  · simp only [isHighSurrogate, Bool.and_eq_true, decide_eq_true_eq]
    omega
  · simp only [isLowSurrogate, Bool.and_eq_true, decide_eq_true_eq]
    omega
  · rw [whole, charOfCode_toNat]

/-- One character is read back, however it is written. -/
theorem readText_escapeChar (c : Char) (nonempty : tail ≠ [])
    (follows : readText opening 0 tail = .ok (others, left)) :
    readText opening 0 (escapeChar c ++ tail) = .ok (c :: others, left) := by
  unfold escapeChar
  -- The branches are those of the writer: quotes and backslashes, named controls, graphic
  -- characters, and codes of one or two halves.
  split_ifs with isMark isBackspace isFeed isNewline isReturn isTab isGraphic isPlane
  · have unnamed : namedEscape? c = some c := by
      simp only [Bool.or_eq_true, beq_iff_eq] at isMark
      rcases isMark with rfl | rfl <;> rfl
    have isName : c ≠ 'u' := by
      rintro rfl
      exact absurd isMark (by decide)
    exact readText_named unnamed isName follows
  · rw [beq_iff_eq.mp isBackspace]
    exact readText_named rfl (by decide) follows
  · rw [beq_iff_eq.mp isFeed]
    exact readText_named rfl (by decide) follows
  · rw [beq_iff_eq.mp isNewline]
    exact readText_named rfl (by decide) follows
  · rw [beq_iff_eq.mp isReturn]
    exact readText_named rfl (by decide) follows
  · rw [beq_iff_eq.mp isTab]
    exact readText_named rfl (by decide) follows
  · simp only [Bool.or_eq_true, beq_iff_eq, not_or] at isMark
    have noControl : ¬ c.toNat < 0x20 := by
      simp only [Bool.and_eq_true, decide_eq_true_eq, Char.le_def, UInt32.le_iff_toNat_le]
        at isGraphic
      exact Nat.not_lt.mpr isGraphic.1
    exact readText_graphic isMark.1 isMark.2 noControl follows
  · have read := readText_codeEscape isPlane (isHighSurrogate_toNat c) nonempty follows
    rwa [charOfCode_toNat] at read
  · obtain ⟨isHigh, isLow, whole⟩ := charOfCode_halves isPlane
    have read := readText_pair isHigh isLow nonempty follows
    rwa [whole] at read

end Character

/-! ## Texts -/

/-- A text is read back up to its closing quote. -/
theorem readText_escaped (opening characters rest : List Char) :
    readText opening 0 (characters.flatMap escapeChar ++ '"' :: rest) = .ok (characters, rest) := by
  induction characters with
  | nil =>
      rw [List.flatMap_nil, List.nil_append, readText, if_pos (by decide)]
  | cons c others inductionHypothesis =>
      rw [List.flatMap_cons, List.append_assoc]
      exact readText_escapeChar c (by simp) inductionHypothesis

end Presence.Json
