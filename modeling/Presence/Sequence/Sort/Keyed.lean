/-!
Contract: items with keys, and orders of keys that may have gaps.

Owns: `Keyed`, and `Before`, the order of anything that is sorted.
-/

namespace Presence.Sort

/-- An item with the key that it is sorted by. -/
structure Keyed (κ α : Type) where
  key : κ
  item : α

/-- Which of two stands strictly before the other; `none` where there is no order between them. -/
abbrev Before (κ : Type) : Type := κ → κ → Option Bool

/-- The order of items by their keys. -/
def Before.ofKeys {κ α : Type} (before? : Before κ) : Before (Keyed κ α) := fun x y =>
  before? x.key y.key

end Presence.Sort
