import ObjectBus.Json.Basic
import ObjectBus.Time.Reader
import ObjectBus.Value

/-!
# Kinds of values

The kind of a property says which values it may hold and how they are read from JSON.
-/

namespace ObjectBus

/-- The kind of values a property holds. -/
inductive ValueKind where
  /-- Truth values. -/
  | bool
  /-- Signed integers. -/
  | int
  /-- Unsigned integers. -/
  | uint
  /-- Doubles. -/
  | float
  /-- Texts. -/
  | string
  /-- Sequences of bytes. -/
  | bytes
  /-- Points in time. -/
  | time
  /-- Enumerators of the named enum type. -/
  | enumerator (typeName : String)
  /-- Lists of values of one kind. -/
  | list (item : ValueKind)
deriving DecidableEq, Inhabited

namespace ValueKind

/-- Whether a value is of this kind. -/
def accepts : ValueKind → Value → Bool
  | bool, .bool _ => true
  | int, .int _ => true
  | uint, .uint _ => true
  | float, .float _ => true
  | string, .str _ => true
  | bytes, .bytes _ => true
  | time, .time _ => true
  | enumerator _, .enumerator _ => true
  | list item, .list values => values.all item.accepts
  | _, _ => false

/-- One byte from JSON. -/
def byteOfJson? (j : Json) : Option UInt8 :=
  j.asUInt64?.bind fun n => if n.toNat < 256 then some n.toUInt8 else none

/-- The number of an enumerator from JSON. -/
def enumeratorOfJson? (j : Json) : Option Int32 :=
  j.asInt64?.bind fun n =>
    if Int32.minValue.toInt ≤ n.toInt ∧ n.toInt ≤ Int32.maxValue.toInt then some n.toInt32 else none

/-- A value of this kind from JSON. -/
def valueOfJson? : ValueKind → Json → Option Value
  | bool, j => j.asBool?.map .bool
  | int, j => j.asInt64?.map .int
  | uint, j => j.asUInt64?.map .uint
  | float, j => j.asBinary64?.map .float
  | string, j => j.asString?.map .str
  | bytes, j => (j.asArray?.bind fun items => items.mapM byteOfJson?).map .bytes
  | time, j => (j.asString?.bind Instant.ofText?).map .time
  | enumerator _, j => (enumeratorOfJson? j).map .enumerator
  | list item, j => (j.asArray?.bind fun items => items.mapM item.valueOfJson?).map .list

/-- The kind, for people. -/
def text : ValueKind → String
  | bool => "Bool"
  | int => "Int"
  | uint => "UInt"
  | float => "Float"
  | string => "String"
  | bytes => "Bytes"
  | time => "Time"
  | enumerator typeName => "Enum(" ++ Text.quoted typeName ++ ")"
  | list item => "List(" ++ item.text ++ ")"

/-- The kind in a definition written as JSON. -/
def toJson : ValueKind → Json
  | bool => .string "bool"
  | int => .string "int"
  | uint => .string "uint"
  | float => .string "float"
  | string => .string "string"
  | bytes => .string "bytes"
  | time => .string "time"
  | enumerator typeName => .object [("enum", .string typeName)]
  | list item => .object [("list", item.toJson)]

end ValueKind

end ObjectBus
