import Presence.Condition
import Presence.Console
import Presence.Example.Positive
import Presence.Json.Optional
import Presence.Sequence
import Presence.Value.Arithmetic

/-!
Contract: a tour of options, of either side, and of sequences, that prints what they give.

Owns: the lines of the tour.

Does not own: the operations that it shows.
-/

namespace Presence.Example

/-- A computation that writes to a console. -/
abbrev Script (α : Type) : Type := Attempt (StateM Console) α

/-- Writes one line of text. -/
def writeLine (channel : Channel) (line : List Char) : Script Unit :=
  modify fun console => console.writeLine channel line

/-- Writes values on one line, with a blank between them. -/
def say (parts : List Value) : Script Unit := do
  let texts ← Attempt.ofExcept (parts.mapM Value.plain)
  writeLine .output (separated [' '] (texts.map String.toList))

/-- The double of a payload, or nought. -/
def sayDouble (title : String) (o : Optional Value Value) : Script Unit := do
  let doubled ← o.map (fun v => Attempt.ofExcept (v.mul (.int 2))) .null
  say [.text title, doubled.orElse (.int 0)]

def prices : List (Value × Value) := [(.text "apple", .int 3), (.text "pear", .int 0)]

/-- Whether a fruit has a price, and the price or its zero. -/
def sayPrice (name : String) : Script Unit := do
  let price ← Attempt.ofExcept ((Value.dictionary prices).lookup (.text name) (.ofKind .int))
  let listed : Ternary Bool Value Unit :=
    (Ternary.ofCondition price.isOk .null).thenGive (.text "listed")
  let word ← listed.orGive (fun _ => pure .null) (.text "unlisted")
  say [.text name, .text "=>", word, ← Attempt.ofHash price.orZero]

/-- A number, or why it is none and what stands in for it. -/
def sayPositive (source : String) : Script Unit := do
  let parsed ← Attempt.ofExcept (parsePositive (.text source))
  parsed.ifLeft fun error => do
    let shown ← Attempt.ofExcept error.input.shown
    say [.text ("  " ++ shown ++ ": " ++ error.reason)]
  let number ← parsed.fold (fun error => pure error.fallback) pure
  say [.text source, .text "=>", .int number]

/-- The first number above a bound, as a document. -/
def sayFirstAbove (title : String) (numbers : Sequence (List Int)) (bound : Int) : Script Unit := do
  let found ← numbers.find fun n => pure (bound < n)
  let found ← found.map (fun n => pure (Value.int n)) .null
  let document ← Attempt.ofExcept found.toDocument
  say [.text title, .text (String.ofList document)]

/-- The whole tour. -/
def tour : Script Unit := do
  sayDouble "of(5).map(double) =>" (.ok (.int 5))
  sayDouble "not_ok(int).map(double) =>" (.notOk (.ofKind .int))
  ["apple", "pear", "plum"].forM sayPrice
  ["7", "-5", "x"].forM sayPositive
  let evens ← (Sequence.mk [(1 : Int), 2, 3, 4]).keepIf fun n => pure (n % 2 == 0)
  sayFirstAbove "first even > 2 =>" evens 2
  sayFirstAbove "first even > 9 =>" evens 9

end Presence.Example
