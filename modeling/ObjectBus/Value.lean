import ObjectBus.Json.Basic
import ObjectBus.Text.Quoted
import ObjectBus.Time.Text

/-!
# Property values

The values that properties hold. Equality is total and tells values of different kinds apart:
doubles are compared by their bits and instants by day, second and nanosecond, so that values
can be parts of a key.
-/

namespace ObjectBus

/-- The value of one property. -/
inductive Value where
  /-- A truth value. -/
  | bool (b : Bool)
  /-- A signed integer. -/
  | int (n : Int64)
  /-- An unsigned integer. -/
  | uint (n : UInt64)
  /-- A double. -/
  | float (x : Binary64)
  /-- A text. -/
  | str (s : String)
  /-- A sequence of bytes. -/
  | bytes (bs : List UInt8)
  /-- A point in time. -/
  | time (t : Instant)
  /-- The number of an enumerator of some enum type. -/
  | enumerator (n : Int32)
  /-- A list of values. -/
  | list (items : List Value)
deriving Inhabited

namespace Value

/-! ## Equality -/

mutual

/-- Whether two values are the same. -/
def same : Value → Value → Bool
  | bool a, bool b => a == b
  | int a, int b => a == b
  | uint a, uint b => a == b
  | float a, float b => a == b
  | str a, str b => a == b
  | bytes a, bytes b => a == b
  | time a, time b => a == b
  | enumerator a, enumerator b => a == b
  | list a, list b => sameItems a b
  | _, _ => false

/-- Whether two lists of values are the same. -/
def sameItems : List Value → List Value → Bool
  | [], [] => true
  | a :: as, b :: bs => same a b && sameItems as bs
  | _, _ => false

end

mutual

theorem same_iff : ∀ a b : Value, same a b = true ↔ a = b
  | bool _, b => by cases b <;> simp [same]
  | int _, b => by cases b <;> simp [same]
  | uint _, b => by cases b <;> simp [same]
  | float _, b => by cases b <;> simp [same]
  | str _, b => by cases b <;> simp [same]
  | bytes _, b => by cases b <;> simp [same]
  | time _, b => by cases b <;> simp [same]
  | enumerator _, b => by cases b <;> simp [same]
  | list as, b => by
    cases b with
    | list bs => simp [same, sameItems_iff as bs]
    | _ => simp [same]

theorem sameItems_iff : ∀ as bs : List Value, sameItems as bs = true ↔ as = bs
  | [], bs => by cases bs <;> simp [sameItems]
  | a :: as, bs => by
    cases bs with
    | nil => simp [sameItems]
    | cons b bs => simp [sameItems, same_iff a b, sameItems_iff as bs]

end

instance : DecidableEq Value := fun a b => decidable_of_iff (same a b = true) (same_iff a b)

/-! ## Content -/

/-- The name of the kind of a value. -/
def kindName : Value → String
  | bool _ => "bool"
  | int _ => "int"
  | uint _ => "uint"
  | float _ => "float"
  | str _ => "string"
  | bytes _ => "bytes"
  | time _ => "time"
  | enumerator _ => "enum"
  | list _ => "list"

/-- The text, if the value is one. -/
def asString? : Value → Option String
  | str s => some s
  | _ => none

/-- The integer, if the value is one from zero upwards. -/
def asUInt64? : Value → Option UInt64
  | uint n => some n
  | int n => if 0 ≤ n then some n.toUInt64 else none
  | _ => none

/-! ## Text and JSON -/

mutual

/-- The text of a value, for people. -/
def text : Value → String
  | bool b => if b then "true" else "false"
  | int n => toString n.toInt
  | uint n => toString n.toNat
  | float x => NumberStyle.plain.text x
  | str s => Text.quoted s
  | bytes bs => "<" ++ toString bs.length ++ " bytes>"
  | time t => t.text
  | enumerator n => "#" ++ toString n.toInt
  | list items => "[" ++ ", ".intercalate (texts items) ++ "]"

/-- The texts of the items of a list. -/
def texts : List Value → List String
  | [] => []
  | v :: vs => text v :: texts vs

end

mutual

/-- The JSON form of a value. Kinds are not marked: reading it back takes the kind from the
schema. -/
def toJson : Value → Json
  | bool b => .bool b
  | int n => .ofInt64 n
  | uint n => .ofUInt64 n
  | float x => .ofBinary64 x
  | str s => .string s
  | bytes bs => .array (bs.map fun b => .ofNat b.toNat)
  | time t => .string t.text
  | enumerator n => .ofInt64 n.toInt64
  | list items => .array (toJsons items)

/-- The JSON forms of the items of a list. -/
def toJsons : List Value → List Json
  | [] => []
  | v :: vs => toJson v :: toJsons vs

end

end Value

/-- The identity of a cached object: the values of its key properties in ascending tag
order. -/
abbrev ObjectKey := List Value

/-- The parts of a key, for people. -/
def ObjectKey.text (key : ObjectKey) : String := "/".intercalate (key.map Value.text)

end ObjectBus
