import ObjectBus.Json.Text
import ObjectBus.Json.Tree
import ObjectBus.Object
import ObjectBus.Time.Reader

/-!
# Values as exact JSON

A JSON form of values and objects that loses nothing, for tools: the kind of a value is
marked, 64-bit integers are texts and doubles are the sixteen hexadecimal digits of their
bits.
-/

namespace ObjectBus

/-! ## Hexadecimal digits -/

/-- Bytes as pairs of hexadecimal digits. -/
def hexOfBytes (bytes : List UInt8) : String :=
  String.ofList (bytes.flatMap fun b => Json.hexPair b.toNat)

/-- The bytes that pairs of hexadecimal digits stand for. -/
def bytesOfDigits? : List Char → Option (List UInt8)
  | [] => some []
  | a :: b :: rest =>
    match Json.Tree.hexValue a, Json.Tree.hexValue b with
    | some high, some low => (bytesOfDigits? rest).map (UInt8.ofNat (high * 16 + low) :: ·)
    | _, _ => none
  | _ => none

/-- The bytes that a text of hexadecimal digits stands for. -/
def bytesOfHex? (s : String) : Option (List UInt8) := bytesOfDigits? s.toList

/-- The bits of a double as sixteen hexadecimal digits. -/
def Binary64.hex (x : Binary64) : String :=
  let digits := Nat.toDigits 16 x.bits.toNat
  String.ofList (List.replicate (16 - digits.length) '0' ++ digits)

/-- The double whose bits are given in hexadecimal digits. -/
def Binary64.ofHex? (s : String) : Option Binary64 :=
  (s.toList.foldlM (fun n c => (Json.Tree.hexValue c).map (n * 16 + ·)) 0).map fun n =>
    ⟨UInt64.ofNat n⟩

mutual

/-- Other JSON with its doubles written as their bits. -/
def Json.exact : Json → Json
  | .number (.float x) => .object [("$f64", .string x.hex)]
  | .array items => .array (exactItems items)
  | .object members => .object (exactMembers members)
  | j => j

/-- The items of an array with their doubles written as bits. -/
def Json.exactItems : List Json → List Json
  | [] => []
  | j :: rest => j.exact :: exactItems rest

/-- The members of an object with their doubles written as bits. -/
def Json.exactMembers : List (String × Json) → List (String × Json)
  | [] => []
  | (key, j) :: rest => (key, j.exact) :: exactMembers rest

end

namespace Value

mutual

/-- The exact JSON of a value. -/
def toExactJson : Value → Json
  | bool b => .object [("bool", .bool b)]
  | int n => .object [("int", .string (toString n.toInt))]
  | uint n => .object [("uint", .string (toString n.toNat))]
  | float x => .object [("float", .string x.hex)]
  | str s => .object [("str", .string s)]
  | bytes bs => .object [("bytes", .string (hexOfBytes bs))]
  | time t => .object [("time", .string t.text)]
  | enumerator n => .object [("enum", .ofInt64 n.toInt64)]
  | list items => .object [("list", .array (toExactJsons items))]

/-- The exact JSON of the items of a list. -/
def toExactJsons : List Value → List Json
  | [] => []
  | v :: rest => toExactJson v :: toExactJsons rest

end

/-- The value of exact JSON that is no list. -/
def ofPlainExactJson? (kind : String) (j : Json) : Option Value :=
  match kind with
  | "bool" => j.asBool?.map bool
  | "int" => (j.asString?.bind String.toInt?).map fun n => int (Int64.ofInt n)
  | "uint" => (j.asString?.bind String.toNat?).map fun n => uint (UInt64.ofNat n)
  | "float" => (j.asString?.bind Binary64.ofHex?).map float
  | "str" => j.asString?.map str
  | "bytes" => (j.asString?.bind bytesOfHex?).map bytes
  | "time" => (j.asString?.bind Instant.ofText?).map time
  | "enum" => j.asInt64?.map fun n => enumerator n.toInt32
  | _ => none

mutual

/-- The value of exact JSON. -/
def ofExactJson? : Json → Option Value
  | .object [("list", .array items)] => (ofExactJsons? items).map list
  | .object [(kind, j)] => ofPlainExactJson? kind j
  | _ => none

/-- The values of the items of a list. -/
def ofExactJsons? : List Json → Option (List Value)
  | [] => some []
  | j :: rest =>
    match ofExactJson? j with
    | none => none
    | some v => (ofExactJsons? rest).map (v :: ·)

end

end Value

/-- The exact JSON of a key: its parts and its text. -/
def ObjectKey.toExactJson (k : ObjectKey) : Json :=
  .object [("parts", .array (k.map Value.toExactJson)), ("display", .string (ObjectKey.text k))]

/-- The exact JSON of a property set: its thirty-two bits as a number. -/
def PropertySet.toExactJson (s : PropertySet) : Json := .ofNat s.bits.toNat

/-- The property set of exact JSON. -/
def PropertySet.ofExactJson? (j : Json) : Option PropertySet :=
  j.asUInt64?.map fun n => ⟨BitVec.ofNat 32 n.toNat⟩

namespace Object

/-- The exact JSON of an object. -/
def toExactJson (o : Object) : Json :=
  .object [("type", .string o.typeName),
    ("values", .ofMembers (o.values.toList.map fun b => (toString b.1.toNat, b.2.toExactJson)))]

/-- One property of exact JSON. -/
def propertyOfExactJson? (m : String × Json) : Option (Tag × Value) := do
  let tag ← m.1.toNat?
  let value ← Value.ofExactJson? m.2
  pure (UInt32.ofNat tag, value)

/-- The object of exact JSON. -/
def ofExactJson? (j : Json) : Option Object := do
  let typeName ← (j.member? "type").bind Json.asString?
  let members ← (j.member? "values").bind Json.asObject?
  let values ← members.mapM propertyOfExactJson?
  pure ⟨typeName, .ofList values⟩

end Object

end ObjectBus
