import Presence.Binary64.Arithmetic
import Presence.Value.Items

/-!
Contract: arithmetic on values.

Owns: the sum, difference, product, quotient downwards and remainder of numbers of any kinds, the
joining and repeating of texts, octets, lists and tuples, and the difference of sets; how many
parts there is room for.

Does not own: the arithmetic of binary64 numbers (`Presence.Binary64.Arithmetic`), and templates
(`Presence.Value.Template`).

A whole number that meets a binary64 number becomes one, and either becomes a complex number that
meets one.
-/

namespace Presence

/-- How many parts there is room for at once. -/
def roomLimit : Nat := 0x1000000

/-- Fails for more parts than there is room for. -/
def requireRoom (count : Nat) : Except Fault Unit :=
  if count ≤ roomLimit then .ok () else .error .noRoom

/-- A number of one of the three kinds that arithmetic knows. -/
inductive Number where
  | whole (n : Int)
  | real (x : Binary64)
  | complex (re im : Binary64)

/-- Two numbers of the same kind. -/
inductive NumberPair where
  | whole (a b : Int)
  | real (x y : Binary64)
  | complex (re im re' im' : Binary64)

namespace Number

def ofScalar? : Scalar → Option Number
  | .bool b => some (.whole (if b then 1 else 0))
  | .int n => some (.whole n)
  | .float x => some (.real x)
  | .complex re im => some (.complex re im)
  | _ => none

/-- The binary64 number next to a whole number. -/
def realOf (n : Int) : Except Fault Binary64 :=
  match Binary64.ofInt? n with
  | some x => .ok x
  | none => .error .overflow

/-- The whole number that a binary64 number is without its fraction. -/
def wholeOf (x : Binary64) : Except Fault Int :=
  match x.truncate?, x with
  | some n, _ => .ok n
  | none, .nan => .error .notWhole
  | none, _ => .error .overflow

/-- Two numbers brought to the wider one of their kinds. -/
def align (a b : Number) : Except Fault NumberPair :=
  match a, b with
  | .whole m, .whole n => .ok (.whole m n)
  | .whole m, .real y => do return .real (← realOf m) y
  | .real x, .whole n => do return .real x (← realOf n)
  | .real x, .real y => .ok (.real x y)
  | .whole m, .complex re im => do return .complex (← realOf m) .zero re im
  | .real x, .complex re im => .ok (.complex x .zero re im)
  | .complex re im, .whole n => do return .complex re im (← realOf n) .zero
  | .complex re im, .real y => .ok (.complex re im y .zero)
  | .complex re im, .complex re' im' => .ok (.complex re im re' im')

end Number

namespace NumberPair

def add : NumberPair → Value
  | .whole a b => .int (a + b)
  | .real x y => .float (x.add y)
  | .complex re im re' im' => .complex (re.add re') (im.add im')

def sub : NumberPair → Value
  | .whole a b => .int (a - b)
  | .real x y => .float (x.sub y)
  | .complex re im re' im' => .complex (re.sub re') (im.sub im')

def mul : NumberPair → Value
  | .whole a b => .int (a * b)
  | .real x y => .float (x.mul y)
  | .complex re im re' im' =>
      .complex ((re.mul re').sub (im.mul im')) ((re.mul im').add (im.mul re'))

/-- The remainder with the sign of the divisor. -/
def mod : NumberPair → Except Fault Value
  | .whole a b => if b = 0 then .error .divisionByZero else .ok (.int (Int.fmod a b))
  | .real x y => if y.isZero then .error .divisionByZero else .ok (.float (x.floorMod y))
  | .complex _ _ _ _ => .error .wrongType

/-- The quotient downwards. -/
def floorDiv : NumberPair → Except Fault Value
  | .whole a b => if b = 0 then .error .divisionByZero else .ok (.int (Int.fdiv a b))
  | .real x y => if y.isZero then .error .divisionByZero else .ok (.float (x.floorDiv y))
  | .complex _ _ _ _ => .error .wrongType

end NumberPair

namespace Value

/-- Two values as numbers of the same kind; `none` if one is no number. -/
def numbers? (v w : Value) : Option (Except Fault NumberPair) :=
  match v, w with
  | .scalar a, .scalar b => do
      return (← Number.ofScalar? a).align (← Number.ofScalar? b)
  | _, _ => none

def neg (v : Value) : Except Fault Value :=
  match v with
  | .scalar s =>
      match Number.ofScalar? s with
      | some (.whole n) => .ok (.int (-n))
      | some (.real x) => .ok (.float x.neg)
      | some (.complex re im) => .ok (.complex re.neg im.neg)
      | none => .error .wrongType
  | _ => .error .wrongType

def add (v w : Value) : Except Fault Value :=
  match v.numbers? w with
  | some both => NumberPair.add <$> both
  | none =>
      match v, w with
      | .text s, .text t => .ok (.text (s ++ t))
      | .bytes s, .bytes t => .ok (.bytes (s ++ t))
      | .bytes s, .byteArray t => .ok (.bytes (s ++ t))
      | .byteArray s, .bytes t => .ok (.byteArray (s ++ t))
      | .byteArray s, .byteArray t => .ok (.byteArray (s ++ t))
      | .list xs, .list ys => .ok (.list (xs ++ ys))
      | .tuple xs, .tuple ys => .ok (.tuple (xs ++ ys))
      | _, _ => .error .wrongType

/-- The items of a set that another has not. -/
def without (items others : List Value) : List Value :=
  items.filter fun item => !item.isStored others

def sub (v w : Value) : Except Fault Value :=
  match v.numbers? w with
  | some both => NumberPair.sub <$> both
  | none =>
      match v, w with
      | .set xs, .set ys => .ok (.set (without xs ys))
      | .set xs, .frozenSet ys => .ok (.set (without xs ys))
      | .frozenSet xs, .set ys => .ok (.frozenSet (without xs ys))
      | .frozenSet xs, .frozenSet ys => .ok (.frozenSet (without xs ys))
      | _, _ => .error .wrongType

/-- A list over and over, not at all for a count below nought; no room for more items than a word
counts ends in the fault that is given. -/
def repeated {α : Type} (items : List α) (count : Int) (beyond : Fault) :
    Except Fault (List α) := do
  let size := items.length * count.toNat
  if wordBound ≤ size then throw beyond
  requireRoom size
  return if size = 0 then [] else (List.replicate count.toNat items).flatten

/-- A value with its items over and over; `none` if it has none. -/
def repeat? (v : Value) (count : Int) : Option (Except Fault Value) :=
  match v with
  | .text s =>
      some ((repeated s.toList count .overflow).map fun characters =>
        .text (String.ofList characters))
  | .bytes octets => some ((repeated octets count .overflow).map Value.bytes)
  | .byteArray octets => some ((repeated octets count .noRoom).map Value.byteArray)
  | .list items => some ((repeated items count .noRoom).map Value.list)
  | .tuple items => some ((repeated items count .noRoom).map Value.tuple)
  | _ => none

/-- A value with items as often as another one says. -/
def repeatBy (v count : Value) : Except Fault Value :=
  match count.int?, v.repeat? 0 with
  | some n, some _ =>
      if fitsWord n then (v.repeat? n).getD (.error .wrongType) else .error .overflow
  | _, _ => .error .wrongType

def mul (v w : Value) : Except Fault Value :=
  match v.numbers? w with
  | some both => NumberPair.mul <$> both
  | none => if (v.repeat? 0).isSome then v.repeatBy w else w.repeatBy v

/-- Whether one of two values is a complex number, with which there is no remainder. -/
def isComplexPair (v w : Value) : Bool := v.kindOf == .complex || w.kindOf == .complex

/-- The remainder of two numbers. -/
def remainder (v w : Value) : Except Fault Value :=
  if v.isComplexPair w then .error .wrongType
  else
    match v.numbers? w with
    | some both => do (← both).mod
    | none => .error .wrongType

def floorDiv (v w : Value) : Except Fault Value :=
  if v.isComplexPair w then .error .wrongType
  else
    match v.numbers? w with
    | some both => do (← both).floorDiv
    | none => .error .wrongType

end Value

end Presence
