import CrateAtlas.OrderedMap
import CrateAtlas.Text.Order
import CrateAtlas.Text.Blank

/-!
Records of named values. A record lists the names that read as array indexes first, in
numeric order, and then every other name in the order of insertion. Some names are known to
every record, whether or not a value was stored under them.
-/

namespace CrateAtlas.Record

/-- The names that every record answers to without having stored them. -/
def inheritedNames : List String :=
  ["constructor", "__defineGetter__", "__defineSetter__", "hasOwnProperty",
    "__lookupGetter__", "__lookupSetter__", "isPrototypeOf", "propertyIsEnumerable",
    "toString", "valueOf", "__proto__", "toLocaleString"]

def digitValue (character : Char) : Nat :=
  character.toNat - '0'.toNat

def decimalValue (digits : List Char) : Nat :=
  digits.foldl (fun value digit => 10 * value + digitValue digit) 0

/-- The array index that a name spells: decimal, without leading zeros, below `2^32 - 1`. -/
def index? (name : String) : Option Nat :=
  let digits := name.toList
  if digits ≠ [] ∧ digits.all Text.isAsciiDigit ∧ (digits = ['0'] ∨ digits.head? ≠ some '0') ∧
      decimalValue digits < 4294967295 then
    some (decimalValue digits)
  else none

/-- Stores a value under a name; nothing is ever stored under `__proto__`. -/
def assign (name : String) (value : α) (record : List (String × α)) : List (String × α) :=
  if name = "__proto__" then record else OrderedMap.put name value record

def ofPairs (pairs : List (String × α)) : List (String × α) :=
  pairs.foldl (fun record pair => OrderedMap.put pair.1 pair.2 record) []

def answersTo (record : List (String × α)) (name : String) : Bool :=
  OrderedMap.has name record || inheritedNames.contains name

def listing (record : List (String × α)) : List (String × α) :=
  let indexed := record.filter fun pair => (index? pair.1).isSome
  let named := record.filter fun pair => (index? pair.1).isNone
  Text.sortBy (fun left right => compare ((index? left.1).getD 0) ((index? right.1).getD 0))
    indexed ++ named

def names (record : List (String × α)) : List String :=
  (listing record).map Prod.fst

def sorted (record : List (String × α)) : List (String × α) :=
  Text.sortBy (fun left right => Text.compareText left.1 right.1) record

end CrateAtlas.Record
