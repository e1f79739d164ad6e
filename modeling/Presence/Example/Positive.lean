import Presence.Either
import Presence.Value.Conversion

/-!
Contract: positive whole numbers out of what people write.

Owns: `wholeNumberOf`, and `parsePositive`, which gives the number on the right, or on the left what
was to be parsed and why it could not be.

Does not own: the form of written numbers (`Presence.Text.Numeral`), and what counts as a number
(`Presence.Value.Conversion`).
-/

namespace Presence.Example

/-- The whole number that a value is or spells, `none` if it spells none. -/
def wholeNumberOf (source : Value) : Except Fault (Option Int) :=
  match source.toWhole with
  | .ok n => .ok (some n)
  | .error fault => if fault.kind = .value then .ok none else .error fault

/-- A positive whole number. -/
def parsePositive (source : Value) :
    Except Fault (Either Value (ParseError Value String Int) Int) := do
  match ← wholeNumberOf source with
  | none => return .left ⟨source, "not a number", 0⟩ .null
  | some n => return if n ≤ 0 then .left ⟨source, "not positive", 0⟩ .null else .right n .null

end Presence.Example
