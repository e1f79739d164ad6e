/-!
Contract: the kinds that a value or a fault can be of, with the names under which they are shown.

Owns: `FaultKind`, the kinds of faults; `Kind`, the kinds of values, a fault being a value too;
their short names and the longer names that tell where a kind is defined.

Does not own: which kind a given value is of (`Presence.Value`), and which kinds have a zero value
(`Presence.Zero`).
-/

namespace Presence

/-- The kinds of faults. Most of them are never raised by this library, but may be by what it
calls. -/
inductive FaultKind where
  | base
  | exception
  | fluent
  | notOk
  | wrongSide
  | must
  | value
  | key
  | index
  | runtime
  | type
  | member
  | zeroDivision
  | notImplemented
  | unicodeDecode
  | overflow
  | recursion
  | stopIteration
  | keyboardInterrupt
  | systemExit
  | jsonDecode
  | memory
  | lookup
  | arithmetic
  | floatingPoint
  | assertion
  | buffer
  | endOfFile
  | generatorExit
  | stopAsyncIteration
  | importing
  | moduleNotFound
  | naming
  | unboundLocal
  | reference
  | system
  | grammar
  | indentation
  | tabs
  | unicode
  | unicodeEncode
  | unicodeTranslate
  | group
  | baseGroup
  | device
  | blocking
  | childProcess
  | connection
  | brokenPipe
  | connectionAborted
  | connectionRefused
  | connectionReset
  | fileExists
  | fileNotFound
  | interrupted
  | isDirectory
  | notDirectory
  | permission
  | processLookup
  | timeout
  | warning
  | bytesWarning
  | deprecationWarning
  | encodingWarning
  | futureWarning
  | importWarning
  | pendingDeprecationWarning
  | resourceWarning
  | runtimeWarning
  | grammarWarning
  | unicodeWarning
  | userWarning
  | badInput
deriving DecidableEq, Repr

namespace FaultKind

def name : FaultKind → String
  | .base => "BaseException"
  | .exception => "Exception"
  | .fluent => "FluentError"
  | .notOk => "NotOkError"
  | .wrongSide => "WrongSideError"
  | .must => "MustError"
  | .value => "ValueError"
  | .key => "KeyError"
  | .index => "IndexError"
  | .runtime => "RuntimeError"
  | .type => "TypeError"
  | .member => "AttributeError"
  | .zeroDivision => "ZeroDivisionError"
  | .notImplemented => "NotImplementedError"
  | .unicodeDecode => "UnicodeDecodeError"
  | .overflow => "OverflowError"
  | .recursion => "RecursionError"
  | .stopIteration => "StopIteration"
  | .keyboardInterrupt => "KeyboardInterrupt"
  | .systemExit => "SystemExit"
  | .jsonDecode => "JSONDecodeError"
  | .memory => "MemoryError"
  | .lookup => "LookupError"
  | .arithmetic => "ArithmeticError"
  | .floatingPoint => "FloatingPointError"
  | .assertion => "AssertionError"
  | .buffer => "BufferError"
  | .endOfFile => "EOFError"
  | .generatorExit => "GeneratorExit"
  | .stopAsyncIteration => "StopAsyncIteration"
  | .importing => "ImportError"
  | .moduleNotFound => "ModuleNotFoundError"
  | .naming => "NameError"
  | .unboundLocal => "UnboundLocalError"
  | .reference => "ReferenceError"
  | .system => "SystemError"
  | .grammar => "SyntaxError"
  | .indentation => "IndentationError"
  | .tabs => "TabError"
  | .unicode => "UnicodeError"
  | .unicodeEncode => "UnicodeEncodeError"
  | .unicodeTranslate => "UnicodeTranslateError"
  | .group => "ExceptionGroup"
  | .baseGroup => "BaseExceptionGroup"
  | .device => "OSError"
  | .blocking => "BlockingIOError"
  | .childProcess => "ChildProcessError"
  | .connection => "ConnectionError"
  | .brokenPipe => "BrokenPipeError"
  | .connectionAborted => "ConnectionAbortedError"
  | .connectionRefused => "ConnectionRefusedError"
  | .connectionReset => "ConnectionResetError"
  | .fileExists => "FileExistsError"
  | .fileNotFound => "FileNotFoundError"
  | .interrupted => "InterruptedError"
  | .isDirectory => "IsADirectoryError"
  | .notDirectory => "NotADirectoryError"
  | .permission => "PermissionError"
  | .processLookup => "ProcessLookupError"
  | .timeout => "TimeoutError"
  | .warning => "Warning"
  | .bytesWarning => "BytesWarning"
  | .deprecationWarning => "DeprecationWarning"
  | .encodingWarning => "EncodingWarning"
  | .futureWarning => "FutureWarning"
  | .importWarning => "ImportWarning"
  | .pendingDeprecationWarning => "PendingDeprecationWarning"
  | .resourceWarning => "ResourceWarning"
  | .runtimeWarning => "RuntimeWarning"
  | .grammarWarning => "SyntaxWarning"
  | .unicodeWarning => "UnicodeWarning"
  | .userWarning => "UserWarning"
  | .badInput => "BadInput"

def all : List FaultKind :=
  [.base, .exception, .fluent, .notOk, .wrongSide, .must, .value, .key, .index, .runtime, .type,
    .member, .zeroDivision, .notImplemented, .unicodeDecode, .overflow, .recursion, .stopIteration,
    .keyboardInterrupt, .systemExit, .jsonDecode, .memory, .lookup, .arithmetic, .floatingPoint,
    .assertion, .buffer, .endOfFile, .generatorExit, .stopAsyncIteration, .importing,
    .moduleNotFound, .naming, .unboundLocal, .reference, .system, .grammar, .indentation, .tabs,
    .unicode, .unicodeEncode, .unicodeTranslate, .group, .baseGroup, .device, .blocking,
    .childProcess, .connection, .brokenPipe, .connectionAborted, .connectionRefused,
    .connectionReset, .fileExists, .fileNotFound, .interrupted, .isDirectory, .notDirectory,
    .permission, .processLookup, .timeout, .warning, .bytesWarning, .deprecationWarning,
    .encodingWarning, .futureWarning, .importWarning, .pendingDeprecationWarning, .resourceWarning,
    .runtimeWarning, .grammarWarning, .unicodeWarning, .userWarning, .badInput]

/-- Names that mean a kind of another name. -/
def aliases : List (String × FaultKind) := [("EnvironmentError", .device), ("IOError", .device)]

def ofName? (text : String) : Option FaultKind :=
  match all.find? fun kind => kind.name == text with
  | some kind => some kind
  | none => aliases.lookup text

/-- The name with the place where the kind is defined; built-in kinds have no such place. -/
def qualifiedName (kind : FaultKind) : String :=
  match kind with
  | .fluent | .notOk | .wrongSide | .must => "fluentfp.errors." ++ kind.name
  | .jsonDecode => "json.decoder." ++ kind.name
  | _ => kind.name

/-- The kinds of faults of devices, which have a number and a text of their own. -/
def isOfDevice (kind : FaultKind) : Bool :=
  [device, blocking, childProcess, connection, brokenPipe, connectionAborted, connectionRefused,
    connectionReset, fileExists, fileNotFound, interrupted, isDirectory, notDirectory, permission,
    processLookup, timeout].contains kind

/-- The kinds of faults in the grammar of a source, which may tell the place. -/
def isOfGrammar (kind : FaultKind) : Bool := [grammar, indentation, tabs].contains kind

/-- The kind of a fault of a device by its number. -/
def ofDeviceNumber? (number : Int) : Option FaultKind :=
  [((1 : Int), permission), (2, fileNotFound), (3, processLookup), (4, interrupted),
    (10, childProcess), (11, blocking), (13, permission), (17, fileExists), (20, notDirectory),
    (21, isDirectory), (32, brokenPipe), (103, connectionAborted), (104, connectionReset),
    (108, brokenPipe), (110, timeout), (111, connectionRefused), (114, blocking),
    (115, blocking)].lookup number

end FaultKind

/-- The kinds of values. -/
inductive Kind where
  | none
  | bool
  | int
  | float
  | complex
  | text
  | bytes
  | byteArray
  | list
  | tuple
  | dictionary
  | set
  | frozenSet
  | object
  | type
  | function
  | iterator
  | stream
  | slice
  | option
  | some
  | notOk
  | either
  | left
  | right
  | pair
  | sequence
  | managed
  | closable
  | clientHolder
  | client
  | guarded
  | deferred
  | ternary
  | logger
  | parseError
  | fault (kind : FaultKind)
deriving DecidableEq, Repr

namespace Kind

def name : Kind → String
  | .none => "NoneType"
  | .bool => "bool"
  | .int => "int"
  | .float => "float"
  | .complex => "complex"
  | .text => "str"
  | .bytes => "bytes"
  | .byteArray => "bytearray"
  | .list => "list"
  | .tuple => "tuple"
  | .dictionary => "dict"
  | .set => "set"
  | .frozenSet => "frozenset"
  | .object => "object"
  | .type => "type"
  | .function => "function"
  | .iterator => "list_iterator"
  | .stream => "StringIO"
  | .slice => "slice"
  | .option => "Option"
  | .some => "Some"
  | .notOk => "NotOk"
  | .either => "Either"
  | .left => "Left"
  | .right => "Right"
  | .pair => "Pair"
  | .sequence => "Mapper"
  | .managed => "Advanced"
  | .closable => "ClosableOption"
  | .clientHolder => "ClientOption"
  | .client => "Client"
  | .guarded => "Cond"
  | .deferred => "LazyCond"
  | .ternary => "Ternary"
  | .logger => "ConsoleLogger"
  | .parseError => "ParseError"
  | .fault kind => kind.name

/-- The kinds that have a name of their own, those of faults aside. -/
def plain : List Kind :=
  [.none, .bool, .int, .float, .complex, .text, .bytes, .byteArray, .list, .tuple, .dictionary,
    .set, .frozenSet, .object, .type, .function, .iterator, .stream, .slice, .option, .some, .notOk,
    .either, .left, .right, .pair, .sequence, .managed, .closable, .clientHolder, .client,
    .guarded, .deferred, .ternary, .logger, .parseError]

def ofName? (text : String) : Option Kind :=
  match plain.find? fun kind => kind.name == text with
  | Option.some kind => Option.some kind
  | Option.none => (FaultKind.ofName? text).map Kind.fault

/-- The kind that options have in common, and the kinds of options. -/
def isOfOptions (kind : Kind) : Bool := [Kind.option, .some, .notOk].contains kind

/-- The kind that both sides have in common, and the kinds of the sides. -/
def isOfSides (kind : Kind) : Bool := [Kind.either, .left, .right].contains kind

/-- The kinds of holders. -/
def isOfHolders (kind : Kind) : Bool := [Kind.managed, .closable, .clientHolder].contains kind

/-- The name with the place where the kind is defined. -/
def qualifiedName (kind : Kind) : String :=
  match kind with
  | .stream => "_io." ++ kind.name
  | .option | .some | .notOk => "fluentfp.option." ++ kind.name
  | .either | .left | .right => "fluentfp.either." ++ kind.name
  | .pair => "fluentfp.pair." ++ kind.name
  | .sequence => "fluentfp.mapper." ++ kind.name
  | .managed | .closable => "fluentfp.advanced." ++ kind.name
  | .guarded | .deferred => "fluentfp.value." ++ kind.name
  | .ternary => "fluentfp.ternary." ++ kind.name
  | .logger => "fluentfp.logger." ++ kind.name
  | .clientHolder | .client | .parseError => "__main__." ++ kind.name
  | .fault kind => kind.qualifiedName
  | _ => kind.name

end Kind

end Presence
