import Presence.Value.Equality

/-!
Contract: search in sets and dictionaries, by hash and then by equality.

Owns: membership in a set, where a set that is searched for counts as a frozen one; adding to a
set; finding and putting under a key; making a set and a dictionary from items and entries.

Does not own: plain search through the items of a sequence, which is by equality alone
(`Value.isAmong`).

A search for something without a hash fails with the kind that has none, even in an empty set.
Values are found by equality alone: each that is no number is one of its own, equal to nothing, and
is not found even where it has been put.
-/

namespace Presence.Value

/-- Whether a value equals one of some items, which what is no number never does. -/
def isAmong (v : Value) (items : List Value) : Bool := items.any fun item => item == v

/-- Whether a value with a hash is found among stored items, as one of the same hash that equals
it. -/
def isStored (v : Value) (items : List Value) : Bool :=
  items.any fun item => hashesAgree item v && item == v

/-- The value to search a set for: a set is searched for as the frozen set of its items. -/
def frozen : Value → Value
  | .set items => .frozenSet items
  | v => v

/-- Fails with the kind that has no hash. -/
def requireHash (v : Value) : Except Kind Unit := do
  let _ ← v.hash

/-- Whether a set holds a value. -/
def isInSet (v : Value) (items : List Value) : Except Kind Bool := do
  v.frozen.requireHash
  return v.frozen.isStored items

/-- Adds a value to a set, unless an equal one is there. -/
def addToSet (items : List Value) (v : Value) : Except Kind (List Value) := do
  v.requireHash
  return if v.isStored items then items else items ++ [v]

/-- The items of the set made from items in their order: of equal ones the first. -/
def setOf (items : List Value) : Except Kind (List Value) := items.foldlM addToSet []

/-- Finds the value under a key with a hash. -/
def findStored? (key : Value) (entries : List (Value × Value)) : Option Value :=
  (entries.find? fun entry => hashesAgree entry.1 key && entry.1 == key).map Prod.snd

/-- Finds the value under a key. -/
def findUnder? (key : Value) (entries : List (Value × Value)) : Except Kind (Option Value) := do
  key.requireHash
  return findStored? key entries

/-- Puts a value under a key with a hash. An equal key keeps its place and its form. -/
def putStored (key v : Value) : List (Value × Value) → List (Value × Value)
  | [] => [(key, v)]
  | entry :: rest =>
      if hashesAgree entry.1 key && entry.1 == key then (entry.1, v) :: rest
      else entry :: putStored key v rest

/-- Puts a value under a key. -/
def putUnder (entries : List (Value × Value)) (key v : Value) :
    Except Kind (List (Value × Value)) := do
  key.requireHash
  return putStored key v entries

/-- The entries of the dictionary made from entries in their order. -/
def dictionaryOf (entries : List (Value × Value)) : Except Kind (List (Value × Value)) :=
  entries.foldlM (fun sofar entry => putUnder sofar entry.1 entry.2) []

end Presence.Value
