import Presence.Sequence
import Presence.Session.Logging
import Presence.Session.Throwing
import Presence.Text.Encoding.Named
import Presence.Value.Conversion

/-!
Contract: kinds as functions, which make values of themselves.

Owns: `construct`, for the kinds that have values to be made.

Does not own: what a value is as one of a simpler kind (`Presence.Value.Conversion`), and the kinds
of faults (`Presence.Session.Throwing`).

Arguments of another number than a kind takes are of the wrong type, and so are all arguments for a
kind of which no value can be made.
-/

namespace Presence.Session

open Run

namespace Construct

/-- The encoding of a name. -/
def encodingOf (name : String) : Run Text.Named := do
  match Text.Named.ofName? name with
  | some encoding => return encoding
  | none => fail .unknownEncoding

/-- The text that a value is as octets in an encoding. No octets are no text in any of them. -/
def decoded (v : Value) (name : String) : Run Value := do
  match v with
  | .scalar s =>
      match s.octets? with
      | none => fail .wrongType
      | some [] => return .text ""
      | some octets =>
          match (← encodingOf name).decode? octets with
          | some text => return .text (String.ofList text)
          | none => fail .undecodable
  | _ => fail .wrongType

/-- The octets that a text is in an encoding. -/
def encoded (text name : String) : Run (List UInt8) := do
  match (← encodingOf name).encode? text.toList with
  | some octets => return octets
  | none => fail .unencodable

/-- The octets that a value is: as many noughts as a number says, or the octets that its parts
are. -/
def octetsOf (beyond : Fault) (v : Value) : Run (List UInt8) := do
  match v, v.int? with
  | .text _, _ => fail .wrongType
  | _, some n => lift (Value.noughtOctets n)
  | v, none => (← feedOf v).collect fun item => lift (item.toOctet beyond)

/-- Fails for what is no name, which is a text without the code nought. -/
def requireNames : List Value → Run Unit
  | [] => return
  | .text name :: rest =>
      if name.toList.contains '\x00' then fail .noughtInName else requireNames rest
  | _ => fail .wrongType

/-- Fails unless an argument comes with at most two names, those of an encoding and of what is to be
done where it fails. -/
def requireEncoding (arguments : List Value) : Run Unit :=
  if arguments.length ≤ 3 then requireNames (arguments.drop 1) else fail .wrongType

/-- The octets of the arguments for a kind of octets. -/
def octetsOfAll (beyond : Fault) (arguments : List Value) : Run (List UInt8) := do
  requireEncoding arguments
  match arguments with
  | [] => return []
  | [x] => octetsOf beyond x
  | .text s :: .text name :: _ => encoded s name
  | _ => fail .wrongType

/-- A number out of the arguments for a kind of numbers. -/
def numberOf (kind : Kind) (arguments : List Value) : Run Value := do
  match kind, arguments with
  | .int, [] => return .int 0
  | .int, [x] => return .int (← lift (← observe x).toWhole)
  | .int, [x, base] => return .int (← lift (x.toWholeIn base))
  | .float, [] => return .float .zero
  | .float, [x] => return .float (← lift x.toReal)
  | .complex, [] => return .complex .zero .zero
  | .complex, [x] => lift x.toComplex
  | .complex, [x, y] => lift (x.toComplexOf y)
  | _, _ => fail .wrongType

/-- A text out of the arguments for the kind of texts. -/
def textOf (arguments : List Value) : Run Value := do
  requireEncoding arguments
  match arguments with
  | [] => return .text ""
  | [x] => return .text (← lift (← observe x).plain)
  | x :: .text name :: _ => decoded x name
  | _ => fail .wrongType

/-- What holds the parts of a value. -/
def gathered (kind : Kind) (arguments : List Value) : Run Value := do
  match kind, arguments with
  | .list, [] => return .list []
  | .list, [x] => return .list (← parts x)
  | .tuple, [] => return .tuple []
  | .tuple, [x] => return .tuple (← parts x)
  | .set, [] => return .set []
  | .set, [x] => return .set (← (← feedOf x).toSet)
  | .frozenSet, [] => return .frozenSet []
  | .frozenSet, [x] => return .frozenSet (← (← feedOf x).toSet)
  | .dictionary, [] => return .dictionary []
  | .dictionary, [x] => return .dictionary (← entriesOf x)
  | _, _ => fail .wrongType

/-- A container of this library around its arguments. -/
def contained (kind : Kind) (arguments : List Value) : Run Value := do
  match kind, arguments with
  | .some, [x] => return .option (.ok x)
  | .notOk, [] => return .option (.notOk .null)
  | .notOk, [kind] => return .option (.notOk kind)
  | .left, [x] => return .either (.left x .null)
  | .left, [x, kind] => return .either (.left x kind)
  | .right, [x] => return .either (.right x .null)
  | .right, [x, kind] => return .either (.right x kind)
  | .pair, [x, y] => return .pair ⟨x, y⟩
  | .sequence, [x] => return .sequence ⟨x⟩
  | .guarded, [x] => return .guarded ⟨x⟩
  | .deferred, [f] => return .deferred ⟨f⟩
  | .ternary, [condition] => return .ternary ⟨condition, .null, none⟩
  | .ternary, [condition, v] => return .ternary ⟨condition, v, none⟩
  | .ternary, [condition, v, .null] => return .ternary ⟨condition, v, none⟩
  | .ternary, [condition, v, f] => return .ternary ⟨condition, v, some f⟩
  | .parseError, [input, reason, fallback] => return .parseError ⟨input, reason, fallback⟩
  | _, _ => fail .wrongType

/-- A holder around its argument, or around nothing. -/
def held (holder : Holder) (arguments : List Value) : Run Value := do
  match arguments with
  | [] => return .managed ⟨holder, .option (.notOk .null)⟩
  | [x] => return .managed ⟨holder, x⟩
  | _ => fail .wrongType

/-- What is the same only as itself. -/
def distinct (kind : Kind) (arguments : List Value) : Run Value := do
  match kind, arguments with
  | .object, [] => return .handle .object (← newNumber)
  | .option, [] => return .handle .bareOption (← newNumber)
  | .either, [] => return .handle .bareEither (← newNumber)
  | .client, [users] => newClient users (.bool false)
  | .client, [users, failing] => newClient users failing
  | .stream, [] => newStream (.ofText none [])
  | .stream, [.null] => newStream (.ofText none [])
  | .stream, [.text s] => newStream (.ofText none s.toList)
  | _, _ => fail .wrongType

end Construct

open Construct in
/-- A value of a kind. -/
def construct (kind : Kind) (arguments : List Value) : Run Value := do
  match kind with
  | .none => if arguments.isEmpty then return .null else fail .wrongType
  | .bool =>
      match arguments with
      | [] => return .bool false
      | [x] => return .bool (← truth x)
      | _ => fail .wrongType
  | .int | .float | .complex => numberOf kind arguments
  | .text => textOf arguments
  | .bytes => return .bytes (← octetsOfAll .noOctets arguments)
  | .byteArray => return .byteArray (← octetsOfAll .noOctet arguments)
  | .list | .tuple | .set | .frozenSet | .dictionary => gathered kind arguments
  | .type =>
      match arguments with
      | [x] => return .ofKind x.kindOf
      | _ => fail .wrongType
  | .function | .iterator | .slice => fail .wrongType
  | .some | .notOk | .left | .right | .pair | .sequence | .guarded | .deferred | .ternary
  | .parseError => contained kind arguments
  | .managed => held .plain arguments
  | .closable => held .closable arguments
  | .clientHolder => held .clients arguments
  | .option | .either | .object | .client | .stream => distinct kind arguments
  | .logger => loggerOf arguments []
  | .fault kind => return .thrown (← newThrown kind arguments)

end Presence.Session
