import ObjectBus.Error
import ObjectBus.Object
import ObjectBus.Time.Reader

/-!
# The wire format

How values are laid out as bytes. Numbers have variable length: seven bits in each byte, the
low ones first, and the top bit set in every byte but the last. Signed numbers are folded so
that small magnitudes stay short. A text or sequence is its length and its content, an
optional value a mark and the value, a record its fields in order, and an alternative its
number and its fields.

Each type has one writer and one reader. A reader takes its value off the front of the bytes
and leaves the rest.
-/

namespace ObjectBus

/-- A reader of bytes: it fails, or gives a value and the bytes that follow it. -/
abbrev Decoder := StateT (List UInt8) (Except DecodeError)

/-- Types that have a layout as bytes. -/
class Wire (α : Type) where
  /-- The bytes of a value. -/
  write : α → List UInt8
  /-- Read a value off the front of the bytes. -/
  read : Decoder α

namespace Wire

/-! ## Numbers -/

/-- The bytes of a natural number, seven bits in each. -/
def writeNat (n : Nat) : List UInt8 :=
  if n < 128 then [UInt8.ofNat n] else UInt8.ofNat (n % 128 + 128) :: writeNat (n / 128)

/-- Read one byte. -/
def readByte : Decoder UInt8 := fun bytes =>
  match bytes with
  | [] => .error .endOfInput
  | b :: rest => .ok (b, rest)

/-- Read a natural number of at most the given number of bytes. -/
def readGroups : Nat → Decoder Nat
  | 0 => throw .badNumber
  | left + 1 => do
    let b ← readByte
    if b.toNat < 128 then pure b.toNat
    else do
      let high ← readGroups left
      pure (b.toNat - 128 + 128 * high)

/-- Read a natural number that has to fit a word of the given width. Zero bits above the
number may be written, but not in more bytes than the width needs. -/
def readNat (width : Nat) : Decoder Nat := do
  let n ← readGroups ((width + 6) / 7)
  if n < Nat.pow 2 width then pure n else throw .badNumber

/-- Fold a signed number: magnitudes alternate, zero first. -/
def fold (n : Int) : Nat := if 0 ≤ n then 2 * n.toNat else 2 * n.natAbs - 1

/-- Undo the folding of a signed number. -/
def unfold (n : Nat) : Int := if n % 2 = 0 then (n / 2 : Nat) else -((n / 2 : Nat) : Int) - 1

instance : Wire UInt8 where
  write b := [b]
  read := readByte

instance : Wire UInt32 where
  write n := writeNat n.toNat
  read := UInt32.ofNat <$> readNat 32

instance : Wire UInt64 where
  write n := writeNat n.toNat
  read := UInt64.ofNat <$> readNat 64

instance : Wire Int32 where
  write n := writeNat (fold n.toInt)
  read := (fun n => Int32.ofInt (unfold n)) <$> readNat 32

instance : Wire Int64 where
  write n := writeNat (fold n.toInt)
  read := (fun n => Int64.ofInt (unfold n)) <$> readNat 64

/-- The given number of bytes of a number, the low ones first. -/
def writeFixed : Nat → Nat → List UInt8
  | 0, _ => []
  | left + 1, n => UInt8.ofNat (n % 256) :: writeFixed left (n / 256)

/-- The number that bytes stand for, the low ones first. -/
def fixedValue : List UInt8 → Nat
  | [] => 0
  | b :: rest => b.toNat + 256 * fixedValue rest

/-- Read the given number of bytes. -/
def readBytes (n : Nat) : Decoder (List UInt8) := fun bytes =>
  let front := bytes.take n
  if front.length < n then .error .endOfInput else .ok (front, bytes.drop n)

instance : Wire Binary64 where
  write x := writeFixed 8 x.bits.toNat
  read := (fun bs => ⟨UInt64.ofNat (fixedValue bs)⟩) <$> readBytes 8

instance : Wire Bool where
  write b := [if b then 1 else 0]
  read := do
    let b ← readByte
    if b = 0 then pure false else if b = 1 then pure true else throw .badBool

/-! ## Texts and sequences -/

/-- The bytes of a text in UTF-8. -/
def utf8 (s : String) : List UInt8 := s.toUTF8.data.toList

/-- The text whose bytes in UTF-8 are given. -/
def ofUtf8? (bytes : List UInt8) : Option String := String.fromUTF8? ⟨bytes.toArray⟩

instance : Wire String where
  write s :=
    let bytes := utf8 s
    writeNat bytes.length ++ bytes
  read := do
    let n ← readNat 64
    let bytes ← readBytes n
    match ofUtf8? bytes with
    | some s => pure s
    | none => throw .badText

/-- Read the given number of values. -/
def readMany (read : Decoder α) : Nat → Decoder (List α)
  | 0 => pure []
  | left + 1 => do
    let a ← read
    let rest ← readMany read left
    pure (a :: rest)

instance [Wire α] : Wire (List α) where
  write items := writeNat items.length ++ items.flatMap write
  read := do
    let n ← readNat 64
    readMany read n

instance [Wire α] : Wire (Option α) where
  write
    | none => [0]
    | some a => 1 :: write a
  read := do
    let mark ← readByte
    if mark = 0 then pure none
    else if mark = 1 then some <$> read
    else throw .badOption

instance [Wire α] [Wire β] : Wire (α × β) where
  write p := write p.1 ++ write p.2
  read := do
    let a ← read
    let b ← read
    pure (a, b)

/-! ## Property values -/

instance : Wire Instant where
  write t := write t.wireText
  read := do
    let s ← read
    match Instant.ofWireText? s with
    | some t => pure t
    | none => throw .badContent

instance : Wire PropertySet where
  write s := writeNat s.bits.toNat
  read := (fun n => ⟨BitVec.ofNat 32 n⟩) <$> readNat 32

mutual

/-- The bytes of a property value. -/
def writeValue : Value → List UInt8
  | .bool b => 0 :: write b
  | .int n => 1 :: write n
  | .uint n => 2 :: write n
  | .float x => 3 :: write x
  | .str s => 4 :: write s
  | .bytes bs => 5 :: write bs
  | .time t => 6 :: write t
  | .enumerator n => 7 :: write n
  | .list items => 8 :: writeNat items.length ++ writeValues items

/-- The bytes of property values one after the other. -/
def writeValues : List Value → List UInt8
  | [] => []
  | v :: rest => writeValue v ++ writeValues rest

end

mutual

/-- Read a property value. The first argument bounds the number of nested and consecutive
values; each takes at least one byte. -/
def readValueWithin : Nat → Decoder Value
  | 0 => throw .endOfInput
  | fuel + 1 => do
    match ← readNat 32 with
    | 0 => .bool <$> read
    | 1 => .int <$> read
    | 2 => .uint <$> read
    | 3 => .float <$> read
    | 4 => .str <$> read
    | 5 => .bytes <$> read
    | 6 => .time <$> read
    | 7 => .enumerator <$> read
    | 8 => do
      let n ← readNat 64
      .list <$> readValuesWithin fuel n
    | _ => throw .badContent

/-- Read the given number of property values. -/
def readValuesWithin : Nat → Nat → Decoder (List Value)
  | _, 0 => pure []
  | 0, _ + 1 => throw .endOfInput
  | fuel + 1, left + 1 => do
    let v ← readValueWithin fuel
    let rest ← readValuesWithin fuel left
    pure (v :: rest)

end

/-- Read a property value. -/
def readValue : Decoder Value := do
  readValueWithin ((← get).length + 1)

instance : Wire Value where
  write := writeValue
  read := readValue

instance : Wire Object where
  write o := write o.typeName ++ write o.values.toList
  read := do
    let typeName ← read
    let values ← read (α := List (Tag × Value))
    pure ⟨typeName, .ofList values⟩

end Wire

end ObjectBus
