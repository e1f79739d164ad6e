import Presence.Proofs.Text.Encoding
import Presence.Text.Quoted

/-!
Contract: a text between quotes shows what it holds and where it ends.

Owns: `unescape?`, which reads the first character of a text between quotes, and that it undoes the
escapes of either quote (`unescape?_escapeChar`); that texts between quotes with anything behind
them are the same only for one text (`quoted_append_inj`).

Does not own: octets between quotes, and the escapes of documents (`Presence.Proofs.Json.Escapes`).
-/

namespace Presence.Text

/-! ## Characters -/

/-- The character whose code stands at the start of a text in `width` digits, and what is behind
it. -/
def readCode? (width : Nat) (text : List Char) : Option (Char × List Char) :=
  (hexValue? 0 (text.take width)).map fun code => (Char.ofNat code, text.drop width)

/-- The first character of a text in which characters may be escaped, and what is behind it. -/
def unescape? : List Char → Option (Char × List Char)
  | [] => none
  | '\\' :: 't' :: rest => some ('\t', rest)
  | '\\' :: 'n' :: rest => some ('\n', rest)
  | '\\' :: 'r' :: rest => some ('\r', rest)
  | '\\' :: 'x' :: rest => readCode? 2 rest
  | '\\' :: 'u' :: rest => readCode? 4 rest
  | '\\' :: 'U' :: rest => readCode? 8 rest
  | '\\' :: c :: rest => some (c, rest)
  | c :: rest => some (c, rest)

private theorem readCode?_hex {width : Nat} {c : Char} (fits : c.toNat < Nat.pow 16 width)
    (rest : List Char) : readCode? width (hex width c.toNat ++ rest) = some (c, rest) := by
  have length := hex_length width c.toNat
  rw [readCode?, List.take_left' length, List.drop_left' length, hexValue?_hex _ _ _ fits]
  simp

private theorem unescape?_escapeCode (c : Char) (rest : List Char) :
    unescape? (escapeCode c ++ rest) = some (c, rest) := by
  have below : c.toNat < 0x110000 := (code_range c).elim (by omega) And.right
  unfold escapeCode
  dsimp only
  split
  · next narrow => exact readCode?_hex narrow rest
  · split
    · next middle => exact readCode?_hex middle rest
    · exact readCode?_hex (Nat.lt_trans below (by decide)) rest

private theorem unescape?_plain {c : Char} (noEscape : c ≠ '\\') (rest : List Char) :
    unescape? (c :: rest) = some (c, rest) := by
  unfold unescape?
  split <;> simp_all

/-- The forms that a character takes between quotes. -/
inductive Escaped (quote : Char) : (c : Char) → List Char → Prop where
  | marked {c : Char} (isMarked : c = quote ∨ c = '\\') : Escaped quote c ['\\', c]
  | tab : Escaped quote '\t' ['\\', 't']
  | lineFeed : Escaped quote '\n' ['\\', 'n']
  | carriageReturn : Escaped quote '\r' ['\\', 'r']
  | plain {c : Char} (isOther : c ≠ quote) (noEscape : c ≠ '\\') : Escaped quote c [c]
  | code (c : Char) : Escaped quote c (escapeCode c)

theorem escaped_escapeChar (quote c : Char) : Escaped quote c (escapeChar quote c) := by
  unfold escapeChar
  by_cases isMarked : c = quote ∨ c = '\\'
  · rw [if_pos (by simpa using isMarked)]
    exact .marked isMarked
  rw [if_neg (by simpa using isMarked)]
  by_cases isTab : c = '\t'
  · subst isTab
    exact .tab
  by_cases isBreak : c = '\n'
  · subst isBreak
    exact .lineFeed
  by_cases isReturn : c = '\r'
  · subst isReturn
    exact .carriageReturn
  simp only [beq_iff_eq, isTab, isBreak, isReturn, if_false]
  split
  · exact .plain (fun same => isMarked (.inl same)) fun same => isMarked (.inr same)
  · exact .code c

/-- The two quotes that a text may stand between. -/
def IsQuote (quote : Char) : Prop := quote = '\'' ∨ quote = '"'

theorem isQuote_quoteFor (text : List Char) : IsQuote (quoteFor text) := by
  unfold quoteFor
  split
  · exact .inr rfl
  · exact .inl rfl

/-- A character is read back from its escape, whichever of the two quotes is around it. -/
theorem unescape?_escapeChar {quote : Char} (isQuote : IsQuote quote) (c : Char)
    (rest : List Char) : unescape? (escapeChar quote c ++ rest) = some (c, rest) := by
  have escaped := escaped_escapeChar quote c
  generalize escapeChar quote c = form at escaped
  cases escaped with
  | marked isMarked =>
      rcases isMarked with rfl | rfl
      · rcases isQuote with rfl | rfl <;> rfl
      · rfl
  | tab | lineFeed | carriageReturn => rfl
  | plain _ noEscape => exact unescape?_plain noEscape rest
  | code => exact unescape?_escapeCode c rest

/-- No quote is left without its escape. -/
private theorem head_escapeChar {quote : Char} (isQuote : IsQuote quote) (c : Char)
    (rest : List Char) :
    (escapeChar quote c ++ rest).head? ≠ some quote := by
  have noEscape : some '\\' ≠ some quote := by rcases isQuote with rfl | rfl <;> decide
  have escaped := escaped_escapeChar quote c
  generalize escapeChar quote c = form at escaped
  cases escaped with
  | marked | tab | lineFeed | carriageReturn => exact noEscape
  | plain isOther => exact fun same => isOther (Option.some.inj same)
  | code =>
      unfold escapeCode
      dsimp only
      split
      · exact noEscape
      · split <;> exact noEscape

/-! ## Texts -/

/-- Escaped characters up to the quote are those of one text only. -/
private theorem flatMap_escapeChar_inj {quote : Char} (isQuote : IsQuote quote)
    {text other : List Char} {rest rest' : List Char}
    (same : text.flatMap (escapeChar quote) ++ quote :: rest =
      other.flatMap (escapeChar quote) ++ quote :: rest') : text = other ∧ rest = rest' := by
  induction text generalizing other with
  | nil =>
      cases other with
      | nil => exact ⟨rfl, (List.cons.inj same).2⟩
      | cons c other =>
          rw [List.flatMap_cons, List.append_assoc] at same
          exact absurd (congrArg List.head? same).symm (head_escapeChar isQuote c _)
  | cons c text inductionHypothesis =>
      cases other with
      | nil =>
          rw [List.flatMap_cons, List.append_assoc] at same
          exact absurd (congrArg List.head? same) (head_escapeChar isQuote c _)
      | cons d other =>
          rw [List.flatMap_cons, List.flatMap_cons, List.append_assoc, List.append_assoc] at same
          have read := congrArg unescape? same
          rw [unescape?_escapeChar isQuote, unescape?_escapeChar isQuote] at read
          obtain ⟨rfl, behind⟩ := Prod.mk.inj (Option.some.inj read)
          obtain ⟨rfl, ends⟩ := inductionHypothesis behind
          exact ⟨rfl, ends⟩

/-- Texts between quotes are told apart, whatever is behind them. -/
theorem quoted_append_inj {text other rest rest' : List Char}
    (same : quoted text ++ rest = quoted other ++ rest') : text = other ∧ rest = rest' := by
  simp only [quoted, List.cons_append, List.append_assoc, List.nil_append] at same
  obtain ⟨sameQuote, inner⟩ := List.cons.inj same
  rw [← sameQuote] at inner
  exact flatMap_escapeChar_inj (isQuote_quoteFor text) inner

end Presence.Text
