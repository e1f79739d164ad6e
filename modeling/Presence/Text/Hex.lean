/-!
Contract: numbers in hexadecimal digits of a fixed width, in lower case.

Owns: `hex`, its reader `hexValue?`, which takes either case, and that the second undoes the first.
-/

namespace Presence.Text

/-- The last `width` hexadecimal digits of a number. -/
def hex : (width n : Nat) → List Char
  | 0, _ => []
  | width + 1, n => hex width (n / 16) ++ [Nat.digitChar (n % 16)]

def hexDigit? (c : Char) : Option Nat :=
  if '0' ≤ c && c ≤ '9' then some (c.toNat - '0'.toNat)
  else if 'a' ≤ c && c ≤ 'f' then some (c.toNat - 'a'.toNat + 10)
  else if 'A' ≤ c && c ≤ 'F' then some (c.toNat - 'A'.toNat + 10)
  else none

/-- The number that hexadecimal digits mean, going on from a number read before. -/
def hexValue? : (sofar : Nat) → List Char → Option Nat
  | sofar, [] => some sofar
  | sofar, c :: rest => (hexDigit? c).bind fun digit => hexValue? (sofar * 16 + digit) rest

@[simp] theorem hex_length (width n : Nat) : (hex width n).length = width := by
  induction width generalizing n with
  | zero => rfl
  | succ width inductionHypothesis => simp [hex, inductionHypothesis]

theorem hexDigit?_digitChar {n : Nat} (small : n < 16) : hexDigit? (Nat.digitChar n) = some n := by
  have cases : ∀ m : Fin 16, hexDigit? (Nat.digitChar m.val) = some m.val := by decide
  exact cases ⟨n, small⟩

theorem hexValue?_append (sofar : Nat) (left right : List Char) :
    hexValue? sofar (left ++ right) =
      (hexValue? sofar left).bind fun middle => hexValue? middle right := by
  induction left generalizing sofar with
  | nil => rfl
  | cons c rest inductionHypothesis =>
      cases digit : hexDigit? c with
      | none => simp [hexValue?, digit]
      | some value => simp [hexValue?, digit, inductionHypothesis]

theorem hexValue?_hex (width n sofar : Nat) (fits : n < Nat.pow 16 width) :
    hexValue? sofar (hex width n) = some (sofar * Nat.pow 16 width + n) := by
  induction width generalizing n with
  | zero =>
      have nought : n = 0 := by simpa using fits
      simp [hex, hexValue?, nought]
  | succ width inductionHypothesis =>
      have step : Nat.pow 16 (width + 1) = Nat.pow 16 width * 16 := rfl
      have upper : n / 16 < Nat.pow 16 width := by
        rw [step] at fits
        exact Nat.div_lt_of_lt_mul (by omega)
      have last : n % 16 < 16 := Nat.mod_lt _ (by decide)
      rw [hex, hexValue?_append, inductionHypothesis _ upper]
      simp only [Option.bind_some, hexValue?, hexDigit?_digitChar last, Option.some.injEq]
      have split := Nat.div_add_mod n 16
      rw [step, ← Nat.mul_assoc, Nat.add_mul]
      omega

end Presence.Text
