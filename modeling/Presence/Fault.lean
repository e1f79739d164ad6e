import Presence.Json.Problem
import Presence.Value

/-!
Contract: what can go wrong, by cause.

Owns: `Fault`, its kinds, and `Attempt`, a computation that may end in a fault; the one place where
a fault changes its cause on the way (`sealed`).

Does not own: the wording of faults (`Presence.Fault.Message`).
-/

namespace Presence

/-- The kinds of containers that are indexed. -/
inductive Indexed where
  | list
  | tuple
  | text
  | bytes
  | byteArray
deriving DecidableEq, Repr

/-- What can be wrong with a template that is to be filled in. -/
inductive TemplateProblem where
  | incomplete
  | incompleteKey
  | widthTooBig
  /-- What a precision is called depends on whether the template is a text. -/
  | precisionTooBig (ofText : Bool)
  /-- A conversion that there is not, by what it is shown as, its code and its place. -/
  | unsupported (shown : Char) (code place : Nat)
deriving DecidableEq, Repr

/-- What a stream is used for: to be started on, or to have text written or read. -/
inductive StreamUse where
  | start
  | transfer
deriving DecidableEq, Repr

/-- The causes of faults. -/
inductive Fault where
  /-- A fault object that was raised, or handed over to be raised. -/
  | thrown (t : Thrown Value)
  /-- The payload of an absent option was demanded. -/
  | notOk
  /-- The right payload of a left side was demanded. -/
  | isLeft
  /-- The left payload of a right side was demanded. -/
  | isRight
  /-- A variable of the environment that must be set is not. -/
  | unsetVariable (name : String)
  | unhashable (kind : Kind)
  /-- A value that no document can hold. -/
  | unserializable (kind : Kind)
  /-- A key that no document can hold. -/
  | badKey (kind : Kind)
  /-- A document was to be read from a value that is no text. -/
  | noDocument (kind : Kind)
  | malformed (problem : Json.Problem) (place : Json.Place)
  /-- Octets that are no text in their encoding. -/
  | undecodable
  /-- A number with more digits than are read. -/
  | longNumeral (digits : Nat)
  /-- A number with more digits than are written. -/
  | longNumber
  /-- A text that is no whole number in some base. -/
  | noNumeral (base : Nat) (literal : Value)
  /-- A text that is no number of a kind. -/
  | unconverted (kind : Kind) (literal : Value)
  /-- A text that is no complex number. -/
  | noComplex
  /-- What is not a number was to be made whole. -/
  | notWhole
  /-- A base in which no whole number is read. -/
  | badBase
  /-- Less than no octets were asked for. -/
  | negativeCount
  | badTemplate (problem : TemplateProblem)
  /-- An entry, by its place, that has not two parts but another count of them. -/
  | unevenEntry (place count : Nat)
  | missingKey (key : Value)
  | outOfRange (what : Indexed)
  /-- An index beyond every container. -/
  | hugeIndex
  /-- Two sequences to be paired have different lengths. -/
  | unequalLengths (operation : String)
  | tooFewParts (count : Nat)
  | tooManyParts
  | noOctet
  | noOctets
  | closeFailed
  /-- A name that holds the character with the code nought. -/
  | noughtInName
  /-- A stream was used after it was closed. -/
  | closedStream (use : StreamUse)
  /-- A list inside itself, which no document can hold. -/
  | insideItself
  /-- The end of an iteration was raised inside another iteration. -/
  | stoppedInside
  | wrongType
  | noMember
  | notImplemented
  | divisionByZero
  | overflow
  /-- More parts than there is room for. -/
  | noRoom
  | unknownEncoding
  | unencodable
  | tooDeep
  | badInput

namespace Fault

def kind : Fault → FaultKind
  | .thrown t => t.kind
  | .notOk => .notOk
  | .isLeft => .wrongSide
  | .isRight => .wrongSide
  | .unsetVariable _ => .must
  | .unhashable _ => .type
  | .unserializable _ => .type
  | .badKey _ => .type
  | .noDocument _ => .type
  | .malformed _ _ => .jsonDecode
  | .undecodable => .unicodeDecode
  | .longNumeral _ => .value
  | .longNumber => .value
  | .noNumeral _ _ => .value
  | .unconverted _ _ => .value
  | .noComplex => .value
  | .notWhole => .value
  | .badBase => .value
  | .negativeCount => .value
  | .badTemplate _ => .value
  | .unevenEntry _ _ => .value
  | .missingKey _ => .key
  | .outOfRange _ => .index
  | .hugeIndex => .index
  | .unequalLengths _ => .value
  | .tooFewParts _ => .value
  | .tooManyParts => .value
  | .noOctet => .value
  | .noOctets => .value
  | .closeFailed => .runtime
  | .noughtInName => .value
  | .closedStream _ => .value
  | .insideItself => .value
  | .stoppedInside => .runtime
  | .wrongType => .type
  | .noMember => .member
  | .notImplemented => .notImplemented
  | .divisionByZero => .zeroDivision
  | .overflow => .overflow
  | .noRoom => .memory
  | .unknownEncoding => .lookup
  | .unencodable => .unicodeEncode
  | .tooDeep => .recursion
  | .badInput => .badInput

end Fault

/-- A computation that may end in a fault; its other effects are kept when it does. -/
abbrev Attempt (m : Type → Type) (α : Type) : Type := ExceptT Fault m α

namespace Attempt

variable {m : Type → Type} [Monad m] {α : Type}

/-- The end of an iteration may not leave an iteration that runs inside another one: it would be
taken for the end of that one. It leaves as another fault. -/
def sealed (body : Attempt m α) : Attempt m α :=
  tryCatch body fun fault =>
    throw (if fault.kind = .stopIteration then .stoppedInside else fault)

/-- Runs a closing computation after a body, however the body ends. A fault of the closing takes
the place of the outcome. -/
def closing (body : Attempt m α) (close : Attempt m Unit) : Attempt m α :=
  ExceptT.mk do
    let outcome ← body.run
    match ← close.run with
    | .error fault => return .error fault
    | .ok () => return outcome

/-- A pure result as a computation. -/
def ofExcept (result : Except Fault α) : Attempt m α := ExceptT.mk (pure result)

/-- The answer about hashes as a computation. -/
def ofHash (result : Except Kind α) : Attempt m α :=
  ofExcept (result.mapError Fault.unhashable)

/-- A result that is missing where a value is of the wrong kind. -/
def ofOption (result : Option α) : Attempt m α :=
  match result with
  | some a => pure a
  | none => throw .wrongType

end Attempt

end Presence
