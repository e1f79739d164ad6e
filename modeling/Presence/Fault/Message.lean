import Presence.Value.Text

/-!
Contract: the wording of faults.

Owns: `Fault.message`, the text of a fault; `Fault.isWorded`, which faults show it;
`Fault.wrapped?`, the value that a fault carries along.

Does not own: the causes (`Presence.Fault`).
-/

namespace Presence

namespace Indexed

def name : Indexed → String
  | .list => "list index out of range"
  | .tuple => "tuple index out of range"
  | .text => "string index out of range"
  | .bytes => "index out of range"
  | .byteArray => "bytearray index out of range"

end Indexed

namespace TemplateProblem

/-- The hexadecimal digits of a code. -/
def hexText (code : Nat) : String := String.ofList (Nat.toDigits 16 code)

def text : TemplateProblem → String
  | .incomplete => "incomplete format"
  | .incompleteKey => "incomplete format key"
  | .widthTooBig => "width too big"
  | .precisionTooBig true => "precision too big"
  | .precisionTooBig false => "prec too big"
  | .unsupported shown code place =>
      "unsupported format character '" ++ String.singleton shown ++ "' (0x" ++ hexText code
        ++ ") at index " ++ toString place

end TemplateProblem

namespace Fault

/-- What is said of a number with too many digits. -/
def limitText : String := "Exceeds the limit (4300 digits) for integer string conversion"

def limitHint : String := "; use sys.set_int_max_str_digits() to increase the limit"

/-- The text of a fault. An argument that cannot be written has the text of nothing. -/
def message : Fault → String
  | .thrown t =>
      match Value.plain (.thrown t) with
      | .ok text => text
      | .error _ => ""
  | .notOk => "option: not ok"
  | .isLeft => "either: must_get called on Left"
  | .isRight => "either: must_get_left called on Right"
  | .unsetVariable name => "expected value for environment variable " ++ name
  | .unhashable kind => "unhashable type: '" ++ kind.name ++ "'"
  | .unserializable kind => "Object of type " ++ kind.name ++ " is not JSON serializable"
  | .badKey kind => "keys must be str, int, float, bool or None, not " ++ kind.name
  | .noDocument kind => "the JSON object must be str, bytes or bytearray, not " ++ kind.name
  | .malformed problem place => problem.text ++ ": " ++ place.text
  | .longNumeral digits =>
      limitText ++ ": value has " ++ toString digits ++ " digits" ++ limitHint
  | .longNumber => limitText ++ limitHint
  | .noNumeral base literal =>
      match literal.shown with
      | .ok text =>
          "invalid literal for int() with base " ++ toString base ++ ": "
            ++ String.ofList (text.toList.take 200)
      | .error _ => ""
  | .unconverted kind literal =>
      match literal.shown with
      | .ok text => "could not convert string to " ++ kind.name ++ ": " ++ text
      | .error _ => ""
  | .noComplex => "complex() arg is a malformed string"
  | .notWhole => "cannot convert float NaN to integer"
  | .badBase => "int() base must be >= 2 and <= 36, or 0"
  | .negativeCount => "negative count"
  | .badTemplate problem => problem.text
  | .unevenEntry place count =>
      "dictionary update sequence element #" ++ toString place ++ " has length " ++ toString count
        ++ "; 2 is required"
  | .missingKey key =>
      match key.shown with
      | .ok text => text
      | .error _ => ""
  | .outOfRange what => what.name
  | .hugeIndex => "cannot fit 'int' into an index-sized integer"
  | .unequalLengths operation => operation ++ ": arguments must have same length"
  | .tooFewParts count =>
      "not enough values to unpack (expected 2, got " ++ toString count ++ ")"
  | .tooManyParts => "too many values to unpack (expected 2)"
  | .noOctet => "byte must be in range(0, 256)"
  | .noOctets => "bytes must be in range(0, 256)"
  | .closeFailed => "close failed"
  | .noughtInName => "embedded null character"
  | .closedStream .start => "I/O operation on closed file."
  | .closedStream .transfer => "I/O operation on closed file"
  | .insideItself => "Circular reference detected"
  | .stoppedInside => "generator raised StopIteration"
  | .undecodable => ""
  | .wrongType => ""
  | .noMember => ""
  | .notImplemented => ""
  | .divisionByZero => ""
  | .overflow => ""
  | .noRoom => ""
  | .unknownEncoding => ""
  | .unencodable => ""
  | .tooDeep => ""
  | .badInput => ""

/-- Whether a fault shows its text: those of this library, those of documents, values, keys,
indices and runs, and the few about types that name the type. -/
def isWorded (fault : Fault) : Bool :=
  match fault.kind with
  | .fluent | .notOk | .wrongSide | .must | .jsonDecode | .value | .key | .index | .runtime => true
  | .type =>
      ["Object of type ", "unhashable type: ", "keys must be ", "the JSON object must be "].any
        fun front => front.isPrefixOf fault.message
  | _ => false

/-- The value that a fault of a failed demand carries along. -/
def wrapped? (fault : Fault) : Option Value :=
  match fault with
  | .thrown t => if t.kind = .must then t.carried else none
  | .unsetVariable _ => some (.text fault.message)
  | _ => none

end Fault

end Presence
