import ObjectBus.Schema.Basic
import ObjectBus.Wire.Basic

/-!
# Type definitions on the wire
-/

namespace ObjectBus.Wire

/-- The bytes of a kind. -/
def writeKind : ValueKind → List UInt8
  | .bool => [0]
  | .int => [1]
  | .uint => [2]
  | .float => [3]
  | .string => [4]
  | .bytes => [5]
  | .time => [6]
  | .enumerator typeName => 7 :: write typeName
  | .list item => 8 :: writeKind item

/-- Read a kind. The argument bounds how deeply lists are nested; each level takes a byte. -/
def readKindWithin : Nat → Decoder ValueKind
  | 0 => throw .endOfInput
  | fuel + 1 => do
    match ← readNat 32 with
    | 0 => pure .bool
    | 1 => pure .int
    | 2 => pure .uint
    | 3 => pure .float
    | 4 => pure .string
    | 5 => pure .bytes
    | 6 => pure .time
    | 7 => .enumerator <$> read
    | 8 => .list <$> readKindWithin fuel
    | _ => throw .badContent

/-- Read a kind. -/
def readKind : Decoder ValueKind := do
  readKindWithin ((← get).length + 1)

instance : Wire ValueKind where
  write := writeKind
  read := readKind

instance : Wire StructFlags where
  write f :=
    write f.cached ++ write f.internal ++ write f.cleanup ++ write f.localOnly ++
      write f.persistent
  read := do
    let cached ← read
    let internal ← read
    let cleanup ← read
    let localOnly ← read
    let persistent ← read
    pure { cached, internal, cleanup, localOnly, persistent }

instance : Wire PropertySchema where
  write p := write p.name ++ write p.tag ++ write p.kind ++ write p.key
  read := do
    let name ← read
    let tag ← read
    let kind ← read
    let key ← read
    pure { name, tag, kind, key }

instance : Wire StructSchema where
  write s := write s.name ++ write s.flags ++ write s.properties
  read := do
    let name ← read
    let flags ← read
    let properties ← read
    pure { name, flags, properties }

instance : Wire Enumerator where
  write e := write e.name ++ write e.value
  read := do
    let name ← read
    let value ← read
    pure { name, value }

instance : Wire EnumSchema where
  write s := write s.name ++ write s.enumerators
  read := do
    let name ← read
    let enumerators ← read
    pure { name, enumerators }

end ObjectBus.Wire
