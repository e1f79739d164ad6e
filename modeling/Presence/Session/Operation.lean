/-!
Contract: the operations that a session can ask for, with their names.

Owns: one enumeration for each theme, each with the table of its names; `Operation`, their sum.

Does not own: what the operations do (a module for each theme under `Presence.Session`).
-/

namespace Presence.Session

/-- Making options and going on with them. -/
inductive OptionOperation where
  | zeroOf
  | isZero
  | make
  | guarded
  | notOk
  | ofNullable
  | unlessZero
  | mapFree
  | lift
  | lookup
  | environment
  | toDocument
  | ofDocument
  | encode
  | encodeCompact
  | isOk
  | isNone
  | get
  | mustGet
  | orElse
  | orZero
  | orCall
  | toNullable
  | map
  | convert
  | flatMap
  | keepOkIf
  | toNotOkIf
  | call
  | kind
deriving DecidableEq, Repr

def OptionOperation.table : List (String × OptionOperation) :=
  [("zero_of", .zeroOf), ("is_zero", .isZero), ("of", .make), ("new", .guarded), ("not_ok", .notOk),
    ("from_nullable", .ofNullable), ("of_pointee", .ofNullable), ("if_not_zero", .unlessZero),
    ("if_provided", .unlessZero), ("map_option", .mapFree), ("lift", .lift), ("lookup", .lookup),
    ("getenv", .environment), ("to_json", .toDocument), ("from_json", .ofDocument),
    ("encode", .encode), ("encode_compact", .encodeCompact), ("option.is_ok", .isOk),
    ("option.is_some", .isOk), ("option.is_none", .isNone), ("option.get", .get),
    ("option.must_get", .mustGet), ("option.or_", .orElse), ("option.get_or_else", .orElse),
    ("option.or_zero", .orZero), ("option.or_empty", .orZero), ("option.or_false", .orZero),
    ("option.or_call", .orCall), ("option.to_nullable", .toNullable), ("option.map", .map),
    ("option.convert", .convert), ("option.flat_map", .flatMap), ("option.keep_ok_if", .keepOkIf),
    ("option.to_not_ok_if", .toNotOkIf), ("option.call", .call), ("option.kind", .kind)]

/-- Making either side and going on with it. -/
inductive EitherOperation where
  | left
  | right
  | foldFree
  | mapRightFree
  | mapLeftFree
  | isLeft
  | isRight
  | get
  | getLeft
  | getOrElse
  | leftOrElse
  | getOrCall
  | leftOrCall
  | mustGet
  | mustGetLeft
  | map
  | flatMap
  | mapLeft
  | fold
  | ifRight
  | ifLeft
  | toOption
deriving DecidableEq, Repr

def EitherOperation.table : List (String × EitherOperation) :=
  [("left", .left), ("right", .right), ("fold_either", .foldFree), ("map_right", .mapRightFree),
    ("map_left", .mapLeftFree), ("either.is_left", .isLeft), ("either.is_right", .isRight),
    ("either.get", .get), ("either.get_left", .getLeft), ("either.get_or_else", .getOrElse),
    ("either.left_or_else", .leftOrElse), ("either.get_or_call", .getOrCall),
    ("either.left_or_call", .leftOrCall), ("either.must_get", .mustGet),
    ("either.must_get_left", .mustGetLeft), ("either.map", .map), ("either.flat_map", .flatMap),
    ("either.map_left", .mapLeft), ("either.fold", .fold), ("either.if_right", .ifRight),
    ("either.call", .ifRight), ("either.if_left", .ifLeft), ("either.call_left", .ifLeft),
    ("either.to_option", .toOption)]

/-- Opening, using and closing dependencies. -/
inductive ManagedOperation where
  | plain
  | closable
  | openWith
  | bracket
  | isOk
  | get
  | mustGet
  | orElse
  | call
  | close
deriving DecidableEq, Repr

def ManagedOperation.table : List (String × ManagedOperation) :=
  [("advanced", .plain), ("closable", .closable), ("open_as_option", .openWith), ("with", .bracket),
    ("advanced.is_ok", .isOk), ("advanced.get", .get), ("advanced.must_get", .mustGet),
    ("advanced.or_", .orElse), ("advanced.call", .call), ("advanced.close", .close)]

/-- Waiting for conditions, and demands. -/
inductive ConditionOperation where
  | guarded
  | guardedWhen
  | deferred
  | deferredWhen
  | ternary
  | thenGive
  | thenRun
  | orGive
  | orRun
  | requireNothing
  | requireOne
  | requireTwo
  | requireResult
  | requireVariable
deriving DecidableEq, Repr

def ConditionOperation.table : List (String × ConditionOperation) :=
  [("cond.of", .guarded), ("cond.when", .guardedWhen), ("cond.of_call", .deferred),
    ("lazy_cond.when", .deferredWhen), ("if_", .ternary), ("ternary.then", .thenGive),
    ("ternary.then_call", .thenRun), ("ternary.else_", .orGive), ("ternary.else_call", .orRun),
    ("must.be_nil", .requireNothing), ("must.get", .requireOne), ("must.get2", .requireTwo),
    ("must.of", .requireResult), ("must.getenv", .requireVariable)]

/-- Pairs, sequences, and going through what can be gone through. -/
inductive SequenceOperation where
  | pair
  | zip
  | zipWith
  | make
  | ofParts
  | size
  | item
  | items
  | map
  | flatMap
  | keepIf
  | removeIf
  | takeFirst
  | each
  | find
  | indexWhere
  | any
  | contains
  | containsAny
  | meets
  | unique
  | toSet
  | single
  | fold
  | sortBy
  | sortByDesc
  | append
  | extend
  | foldFree
  | unzip (columns : Nat)
deriving DecidableEq, Repr

def SequenceOperation.table : List (String × SequenceOperation) :=
  [("pair.of", .pair), ("zip", .zip), ("zip_with", .zipWith), ("mapper.of", .make),
    ("mapper.from_iterable", .ofParts), ("mapper.len", .size), ("mapper.getitem", .item),
    ("mapper.iter", .items), ("mapper.to_list", .items), ("mapper.map", .map),
    ("mapper.convert", .map), ("mapper.flat_map", .flatMap), ("mapper.keep_if", .keepIf),
    ("mapper.remove_if", .removeIf), ("mapper.take_first", .takeFirst), ("mapper.each", .each),
    ("mapper.find", .find), ("mapper.index_where", .indexWhere), ("mapper.any", .any),
    ("mapper.contains", .contains), ("mapper.contains_any", .containsAny),
    ("mapper.matches", .meets), ("mapper.unique", .unique), ("mapper.to_set", .toSet),
    ("mapper.single", .single), ("mapper.fold", .fold), ("mapper.sort_by", .sortBy),
    ("mapper.sort_by_desc", .sortByDesc), ("mapper.append", .append), ("mapper.extend", .extend),
    ("fold", .foldFree), ("unzip2", .unzip 2), ("unzip3", .unzip 3), ("unzip4", .unzip 4)]

/-- Loggers. -/
inductive LoggerOperation where
  | make
  | ofEnvironment
  | setLevel
  | enabled
  | levelName
  | bind
  | debug
  | info
  | warn
  | error
  | assignLevel
deriving DecidableEq, Repr

def LoggerOperation.table : List (String × LoggerOperation) :=
  [("logger.new", .make), ("logger.from_env", .ofEnvironment), ("logger.set_level", .setLevel),
    ("logger.enabled", .enabled), ("logger.level_name", .levelName), ("logger.bind", .bind),
    ("logger.debug", .debug), ("logger.info", .info), ("logger.warn", .warn),
    ("logger.error", .error), ("logger.assign_level", .assignLevel)]

/-- What can be asked of any value, and the examples. -/
inductive GeneralOperation where
  | size
  | printLine
  | same
  | different
  | shown
  | plain
  | truthy
  | hashable
  | sameHash
  | give
  | call
  | appendToList
  | parsePositive
  | tour
  | sources
deriving DecidableEq, Repr

def GeneralOperation.table : List (String × GeneralOperation) :=
  [("len_", .size), ("string_len", .size), ("println", .printLine), ("eq", .same),
    ("ne", .different), ("repr", .shown), ("str", .plain), ("truthy", .truthy),
    ("hashable", .hashable), ("same_hash", .sameHash), ("let", .give), ("call_fn", .call),
    ("list_append", .appendToList), ("example.parse_positive", .parsePositive),
    ("example.option_either", .tour), ("example.advanced_option", .sources)]

/-- The operations of all themes. -/
inductive Operation where
  | option (operation : OptionOperation)
  | either (operation : EitherOperation)
  | managed (operation : ManagedOperation)
  | condition (operation : ConditionOperation)
  | sequence (operation : SequenceOperation)
  | logger (operation : LoggerOperation)
  | general (operation : GeneralOperation)
deriving DecidableEq, Repr

/-- The operation of a name. -/
def Operation.ofName? (name : String) : Option Operation :=
  (OptionOperation.table.lookup name).map Operation.option
    <|> (EitherOperation.table.lookup name).map Operation.either
    <|> (ManagedOperation.table.lookup name).map Operation.managed
    <|> (ConditionOperation.table.lookup name).map Operation.condition
    <|> (SequenceOperation.table.lookup name).map Operation.sequence
    <|> (LoggerOperation.table.lookup name).map Operation.logger
    <|> (GeneralOperation.table.lookup name).map Operation.general

end Presence.Session
