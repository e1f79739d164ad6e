import Presence.Value.Lookup

/-!
Contract: zero values by kind.

Owns: `zeroOf?`, which kinds have a zero and what it is; `zeroOf`, which is nothing for all else;
`isZero`.

Does not own: options, which fall back on zeros (`Presence.Optional`).
-/

namespace Presence

/-- The zero of a kind: the number nought, or what is empty. -/
def zeroOf? (kind : Kind) : Option Value :=
  match kind with
  | .int => some (.int 0)
  | .float => some (.float Binary64.zero)
  | .complex => some (.complex Binary64.zero Binary64.zero)
  | .text => some (.text "")
  | .bytes => some (.bytes [])
  | .bool => some (.bool false)
  | .list => some (.list [])
  | .dictionary => some (.dictionary [])
  | .tuple => some (.tuple [])
  | .set => some (.set [])
  | .frozenSet => some (.frozenSet [])
  | _ => none

/-- The zero of what may be a kind: nothing for what is none, which must have a hash to be told from
kinds. -/
def zeroOf (kind : Value) : Except Kind Value := do
  kind.requireHash
  match kind with
  | .ofKind kind => return (zeroOf? kind).getD .null
  | _ => return .null

/-- Whether a value is nothing or equals the zero of its own kind. -/
def isZero (v : Value) : Bool :=
  v.isNull || (zeroOf? v.kindOf).any fun zero => v == zero

end Presence
