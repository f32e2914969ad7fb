import ObjectBus.Number.Shortest
import ObjectBus.SortedMap

/-!
# JSON values

JSON values as programs exchange them: numbers are 64-bit integers or doubles, and an object
lists its members. Members of an object that was read stand in ascending key order, each key
once; an object built by this library stands in the order in which it is written.
-/

namespace ObjectBus

/-- A JSON number. -/
inductive JsonNumber where
  /-- An integer from zero upwards. -/
  | natural (n : UInt64)
  /-- An integer below zero. -/
  | negative (n : Int64)
  /-- A number that was written with a point or an exponent, or that no integer holds. -/
  | float (x : Binary64)
deriving DecidableEq, Inhabited

/-- A JSON value. -/
inductive Json where
  /-- The absent value. -/
  | null
  /-- A truth value. -/
  | bool (b : Bool)
  /-- A number. -/
  | number (n : JsonNumber)
  /-- A text. -/
  | string (s : String)
  /-- A sequence of values. -/
  | array (items : List Json)
  /-- Named values. -/
  | object (members : List (String × Json))
deriving Inhabited

namespace JsonNumber

/-- The number of a signed integer. -/
def ofInt64 (n : Int64) : JsonNumber :=
  if 0 ≤ n then natural n.toUInt64 else negative n

/-- The integer, if it is one that a signed 64-bit word holds. -/
def asInt64? : JsonNumber → Option Int64
  | natural n => if n.toNat < Nat.pow 2 63 then some n.toInt64 else none
  | negative n => some n
  | float _ => none

/-- The integer, if it is one that an unsigned 64-bit word holds. -/
def asUInt64? : JsonNumber → Option UInt64
  | natural n => some n
  | _ => none

/-- The number as a double, rounded if it is an integer that no double holds. -/
def asBinary64 : JsonNumber → Binary64
  | natural n => Binary64.ofNat n.toNat
  | negative n => Binary64.ofRatio true n.toInt.natAbs 1
  | float x => x

end JsonNumber

namespace Json

/-- The number of an unsigned integer. -/
def ofUInt64 (n : UInt64) : Json := number (.natural n)

/-- The number of a natural number below `2 ^ 64`. -/
def ofNat (n : Nat) : Json := number (.natural (UInt64.ofNat n))

/-- The number of a signed integer. -/
def ofInt64 (n : Int64) : Json := number (.ofInt64 n)

/-- The number of a double. JSON has no numbers that are not finite, so these become null. -/
def ofBinary64 (x : Binary64) : Json := if x.isFinite then number (.float x) else null

/-- A value that may be absent. -/
def ofOption (f : α → Json) : Option α → Json
  | none => null
  | some a => f a

/-- The object with the given members in ascending key order. Of two members with one key the
later one counts. -/
def ofMembers (members : List (String × Json)) : Json :=
  object (members.foldl (fun l m => SortedMap.insertBinding m.1 m.2 l) [])

/-- The truth value, if it is one. -/
def asBool? : Json → Option Bool
  | bool b => some b
  | _ => none

/-- The signed integer, if it is one. -/
def asInt64? : Json → Option Int64
  | number n => n.asInt64?
  | _ => none

/-- The unsigned integer, if it is one. -/
def asUInt64? : Json → Option UInt64
  | number n => n.asUInt64?
  | _ => none

/-- The number as a double, if it is a number. -/
def asBinary64? : Json → Option Binary64
  | number n => some n.asBinary64
  | _ => none

/-- The text, if it is one. -/
def asString? : Json → Option String
  | string s => some s
  | _ => none

/-- The items, if it is an array. -/
def asArray? : Json → Option (List Json)
  | array items => some items
  | _ => none

/-- The members, if it is an object. -/
def asObject? : Json → Option (List (String × Json))
  | object members => some members
  | _ => none

/-- The first member of an object with the given key. -/
def member? (j : Json) (key : String) : Option Json :=
  j.asObject?.bind (SortedMap.findBinding key)

end Json

end ObjectBus
