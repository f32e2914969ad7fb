import ObjectBus.Json.Tree
import ObjectBus.Schema.Basic

/-!
# Type definitions in JSON

Definitions of types are read from and written to JSON. A record may be given as an object or
as an array of its fields in order. In an object a field may stand only once, fields that the
record does not have are passed over, and some fields may be missing.
-/

namespace ObjectBus

namespace Json.Tree

/-! ## Records -/

/-- Put the members of an object into the places of a record's fields. A field that occurs
twice, or a key that is no text, is refused. -/
def placeMembers (names : List String) (places : List (Option Tree)) :
    List (Option String × Tree) → Option (List (Option Tree))
  | [] => some places
  | (key, value) :: rest =>
    match key with
    | none => none
    | some key =>
      let i := names.idxOf key
      if i < names.length then
        match places[i]? with
        | some none => placeMembers names (places.set i (some value)) rest
        | _ => none
      else placeMembers names places rest

/-- The fields of a record with the given names, each present or missing. -/
def fields? (names : List String) : Tree → Option (List (Option Tree))
  | array items =>
    if items.length ≤ names.length then
      some (items.map some ++ List.replicate (names.length - items.length) none)
    else none
  | object members => placeMembers names (List.replicate names.length none) members
  | _ => none

/-- A field that has to be present. -/
def required (read : Tree → Option α) (field : Option Tree) : Option α :=
  field.bind read

/-- A field that takes a default when it is missing. -/
def optional (read : Tree → Option α) (default : α) (field : Option Tree) : Option α :=
  match field with
  | none => some default
  | some t => read t

/-! ## Plain parts -/

/-- A text. -/
def text? : Tree → Option String
  | string s => s
  | _ => none

/-- A truth value. -/
def truth? : Tree → Option Bool
  | bool b => some b
  | _ => none

/-- An integer written without point and exponent. -/
def integer? : Tree → Option Int
  | number n => n.toInt?
  | _ => none

/-- An integer within the given bounds. -/
def integerIn? (low high : Int) (t : Tree) : Option Int :=
  t.integer?.bind fun n => if low ≤ n ∧ n ≤ high then some n else none

/-- An unsigned 32-bit integer. -/
def uint32? (t : Tree) : Option UInt32 :=
  (t.integerIn? 0 (UInt32.size - 1)).map fun n => UInt32.ofNat n.toNat

/-- An unsigned 64-bit integer. -/
def uint64? (t : Tree) : Option UInt64 :=
  (t.integerIn? 0 (UInt64.size - 1)).map fun n => UInt64.ofNat n.toNat

/-- A signed 32-bit integer. -/
def int32? (t : Tree) : Option Int32 :=
  (t.integerIn? Int32.minValue.toInt Int32.maxValue.toInt).map Int32.ofInt

/-- An array whose items are read one by one. -/
def list? (read : Tree → Option α) : Tree → Option (List α)
  | array items => items.mapM read
  | _ => none

/-- Whether the tree is the word `null`. -/
def isNull : Tree → Bool
  | null => true
  | _ => false

end Json.Tree

open Json (Tree)

namespace ValueKind

/-- The kinds that are written as a single word. -/
def plainKinds : List (String × ValueKind) :=
  [("bool", bool), ("int", int), ("uint", uint), ("float", float), ("string", string),
    ("bytes", bytes), ("time", time)]

/-- Read a kind, nested at most `depth` deep: a word, or an object whose only member names the
kind and holds what else belongs to it. -/
def ofTree? : Nat → Tree → Option ValueKind
  | _, .string (some word) => plainKinds.lookup word
  | depth + 1, .object [(some word, t)] =>
    if word = "enum" then t.text?.map enumerator
    else if word = "list" then (ofTree? depth t).map list
    else (plainKinds.lookup word).bind fun kind => if t.isNull then some kind else none
  | _, _ => none

end ValueKind

namespace StructFlags

/-- Read flags; each one that is missing is not set. -/
def ofTree? (t : Tree) : Option StructFlags := do
  let flag := Tree.optional Tree.truth? false
  match ← t.fields? ["cached", "internal", "cleanup", "local", "persistent"] with
  | [cached, internal, cleanup, localOnly, persistent] =>
    pure {
      cached := ← flag cached
      internal := ← flag internal
      cleanup := ← flag cleanup
      localOnly := ← flag localOnly
      persistent := ← flag persistent }
  | _ => none

/-- The flags in a definition written as JSON. -/
def toJson (f : StructFlags) : Json :=
  .object [("cached", .bool f.cached), ("internal", .bool f.internal),
    ("cleanup", .bool f.cleanup), ("local", .bool f.localOnly), ("persistent", .bool f.persistent)]

end StructFlags

namespace PropertySchema

/-- Read a property. Unless it says so it is not part of the key. -/
def ofTree? (depth : Nat) (t : Tree) : Option PropertySchema := do
  match ← t.fields? ["name", "tag", "kind", "key"] with
  | [name, tag, kind, key] =>
    pure {
      name := ← Tree.required Tree.text? name
      tag := ← Tree.required Tree.uint32? tag
      kind := ← Tree.required (ValueKind.ofTree? depth) kind
      key := ← Tree.optional Tree.truth? false key }
  | _ => none

/-- The property in a definition written as JSON. -/
def toJson (p : PropertySchema) : Json :=
  .object [("name", .string p.name), ("tag", .ofNat p.tag.toNat), ("kind", p.kind.toJson),
    ("key", .bool p.key)]

end PropertySchema

namespace StructSchema

/-- Read a struct type, with arrays and objects nested at most `depth` deep. Flags may be
missing. -/
def ofTree? (depth : Nat) (t : Tree) : Option StructSchema := do
  match ← t.fields? ["name", "flags", "properties"] with
  | [name, flags, properties] =>
    pure {
      name := ← Tree.required Tree.text? name
      flags := ← Tree.optional StructFlags.ofTree? {} flags
      properties :=
        ← Tree.required (Tree.list? (PropertySchema.ofTree? (depth - 3))) properties }
  | _ => none

/-- Read a struct type from a JSON text. -/
def ofText? (s : String) : Option StructSchema :=
  (Tree.ofText? s).bind (ofTree? Tree.depthLimit)

/-- The definition written as JSON. -/
def toJson (s : StructSchema) : Json :=
  .object [("name", .string s.name), ("flags", s.flags.toJson),
    ("properties", .array (s.properties.map PropertySchema.toJson))]

end StructSchema

namespace EnumSchema

/-- Read an enumerator. -/
def enumeratorOfTree? (t : Tree) : Option Enumerator := do
  match ← t.fields? ["name", "value"] with
  | [name, value] =>
    pure { name := ← Tree.required Tree.text? name, value := ← Tree.required Tree.int32? value }
  | _ => none

/-- Read an enum type. -/
def ofTree? (t : Tree) : Option EnumSchema := do
  match ← t.fields? ["name", "enumerators"] with
  | [name, enumerators] =>
    pure {
      name := ← Tree.required Tree.text? name
      enumerators := ← Tree.required (Tree.list? enumeratorOfTree?) enumerators }
  | _ => none

/-- The definition written as JSON. -/
def toJson (s : EnumSchema) : Json :=
  .object [("name", .string s.name), ("enumerators", .array (s.enumerators.map fun e =>
    .object [("name", .string e.name), ("value", .ofInt64 e.value.toInt64)]))]

end EnumSchema

end ObjectBus
