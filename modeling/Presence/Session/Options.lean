import Presence.Json.Optional
import Presence.Sequence
import Presence.Session.Members

/-!
Contract: the operations on options in a session.

Owns: `performOption`; the operations that may be given something else than an option.

Does not own: the operations themselves (`Presence.Optional`, `Presence.Json.Optional`).

Arguments of another number than an operation takes are of the wrong type. An option without a
payload and without its absence can do nothing.
-/

namespace Presence.Session

open Run

/-- A value as an option. -/
def optionOf (v : Value) : Run (Optional Value Value) := do
  match v with
  | .option o => return o
  | .handle .bareOption _ => fail .notImplemented
  | _ => fail .badInput

/-- The function of the payload, asked of the values of a kind, of which the first argument then is
one. -/
def mapOfKind (call : Caller) (kind : Kind) (v f : Value) : Run Value := do
  if kind.isOfOptions then
    match v with
    | .option o => return .option (← o.map (fun x => call f [x]) .null)
    | .managed d => do
        if ← Members.isOk d.basic then fail .noMember else return .option (.notOk .null)
    | .handle .bareOption _ => fail .notImplemented
    | .ofKind kind => Members.ofKind (Members.isOptional kind)
    | _ => fail .noMember
  else if kind.isOfSides then
    match v with
    | .either e => return .either (← e.map fun x => call f [x])
    | .handle .bareEither _ => fail .notImplemented
    | .ofKind kind => Members.ofKind kind.isOfSides
    | _ => fail .noMember
  else if kind == .sequence then
    match v with
    | .sequence ⟨items⟩ => do
        return .ofSequence ⟨← (← feedOf items).map fun x => call f [x]⟩
    | _ => fail .noMember
  else fail .noMember

/-- The function of the payload of whatever has one. -/
def mapFree (call : Caller) (v f kind : Value) : Run Value := do
  match v with
  | .option o => return .option (← o.map (fun x => call f [x]) kind)
  | .handle .bareOption _ => fail .notImplemented
  | .either _ => fail .wrongType
  | .handle .bareEither _ => fail .wrongType
  | .sequence _ => fail .wrongType
  | .ofKind named => mapOfKind call named f kind
  | _ => fail .noMember

/-- The document of whatever may hold a payload. -/
def documentOf (v : Value) : Run Value := do
  if ← Members.isOk v then
    let payload ← observe (← Members.mustGet v)
    return .text (String.ofList (← lift (Optional.toDocument (.ok (κ := Value) payload))))
  else return .text (String.ofList (← lift (Optional.toDocument (.notOk Value.null))))

/-- The option of a document, decoded by a function if there is one. -/
def ofDocument (call : Caller) (source decode kind : Value) : Run Value := do
  let decoded (v : Value) : Run Value := do
    let v ← keep v
    match decode with
    | .null => return v
    | f => call f [v]
  return .option (← Optional.ofDocument source decoded kind)

/-- What stands under a key of a value, with the lists of its own that it has there. What is gone
through tells whether it holds the key, but has nothing under it. -/
def lookupIn (v key kind : Value) : Run (Optional Value Value) := do
  match v with
  | .null => return .notOk kind
  | v => do
      if ← holds v key then return .ok (← lift ((← look v).item (← observe key)))
      else return .notOk kind

def performOption (call : Caller) (operation : OptionOperation) (arguments : List Value) :
    Run Value := do
  match operation, arguments with
  | .zeroOf, [kind] => Attempt.ofHash (zeroOf kind)
  | .isZero, [v] => return .bool (isZero (← observe v))
  | .make, [v] => return .option (.ok v)
  | .guarded, [v, condition] => return .option (.guarded v (← truth condition))
  | .notOk, [] => return .option (.notOk .null)
  | .notOk, [kind] => return .option (.notOk kind)
  | .ofNullable, [v] => return .option (.ofNullable v .null)
  | .ofNullable, [v, kind] => return .option (.ofNullable v kind)
  | .unlessZero, [v] => return .option (.guarded v !(isZero (← observe v)))
  | .mapFree, [v, f] => mapFree call v f .null
  | .mapFree, [v, f, kind] => mapFree call v f kind
  | .lift, [f] => newFunction (.lifted f)
  | .lookup, [v, key] => return .option (← lookupIn v key .null)
  | .lookup, [v, key, kind] => return .option (← lookupIn v key kind)
  | .environment, [.text name] => return .option ((← get).environment.find name)
  | .toDocument, [v] => documentOf v
  | .ofDocument, [source] => ofDocument call source .null .null
  | .ofDocument, [source, decode] => ofDocument call source decode .null
  | .ofDocument, [source, decode, kind] => ofDocument call source decode kind
  | .encode, [v] => return .text (String.ofList (← lift (Json.write .spaced (← observe v))))
  | .encodeCompact, [v] => return .text (String.ofList (← lift (Json.write .compact (← observe v))))
  | .isOk, [v] => return .bool (← optionOf v).isOk
  | .isNone, [v] => return .bool (← optionOf v).isNone
  | .get, [v] => do withFlag (← optionOf v).get
  | .mustGet, [v] => lift (← optionOf v).mustGet
  | .orElse, [v, fallback] => return (← optionOf v).orElse fallback
  | .orZero, [v] => do Attempt.ofHash (← optionOf v).orZero
  | .orCall, [v, f] => (← optionOf v).orCall (call f [])
  | .toNullable, [v] => return (← optionOf v).toNullable
  | .map, [v, f] => return .option (← (← optionOf v).map (fun x => call f [x]) .null)
  | .map, [v, f, kind] => return .option (← (← optionOf v).map (fun x => call f [x]) kind)
  | .convert, [v, f] => return .option (← (← optionOf v).convert fun x => call f [x])
  | .flatMap, [v, f] => (← optionOf v).andThen (fun x => call f [x]) (.option (.notOk .null))
  | .keepOkIf, [v, p] => return .option (← (← optionOf v).keepOkIf (test call p))
  | .toNotOkIf, [v, p] => return .option (← (← optionOf v).toNotOkIf (test call p))
  | .call, [v, f] => do
      (← optionOf v).call (effect call f)
      return .null
  | .kind, [.handle .bareOption _] => fail .noMember
  | .kind, [v] => return (← optionOf v).kind
  | _, _ => fail .wrongType

end Presence.Session
