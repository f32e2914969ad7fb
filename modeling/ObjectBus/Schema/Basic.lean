import ObjectBus.Error
import ObjectBus.Object

/-!
# Schemas

A struct schema names the properties of a type, says which of them form the key, and carries
the flags that decide how the broker treats objects of the type. An enum schema names the
enumerators of an enum type.

Everything that the broker learns about an object it learns here: its key (`keyOf`), whether
it conforms to its type (`validate`) and which of its properties the type declares.
-/

namespace ObjectBus

/-- How the broker treats the objects of a type. -/
structure StructFlags where
  /-- The latest object of each key is kept and sent to those who join. -/
  cached : Bool := false
  /-- The type is for the protocol's own use and hidden from schema discovery. -/
  internal : Bool := false
  /-- Cached objects are retracted when the peer that wrote them last disconnects. -/
  cleanup : Bool := false
  /-- Objects never leave the process that publishes them. -/
  localOnly : Bool := false
  /-- Objects are meant to be kept; nothing here depends on it. -/
  persistent : Bool := false
deriving DecidableEq, Inhabited

/-- Five characters, a letter for each flag that is set and a point for each that is not. -/
def StructFlags.text (f : StructFlags) : String :=
  let mark (set : Bool) (c : Char) := if set then c else '.'
  String.ofList [mark f.cached 'C', mark f.internal 'I', mark f.persistent 'P', mark f.cleanup 'c',
    mark f.localOnly 'L']

/-- One property of a struct type. -/
structure PropertySchema where
  /-- The name by which people and JSON know the property. -/
  name : String
  /-- The number of the property. -/
  tag : Tag
  /-- The kind of its values. -/
  kind : ValueKind
  /-- Whether the property is part of the key. -/
  key : Bool := false
deriving DecidableEq, Inhabited

/-- The definition of a struct type. -/
structure StructSchema where
  /-- The name of the type. -/
  name : String
  /-- How the broker treats its objects. -/
  flags : StructFlags := {}
  /-- Its properties in the order of the definition. -/
  properties : List PropertySchema := []
deriving DecidableEq, Inhabited

namespace StructSchema

/-- The property with the given tag; of several the first. -/
def findProperty? (s : StructSchema) (tag : Tag) : Option PropertySchema :=
  s.properties.find? fun p => p.tag == tag

/-- The property with the given name; of several the first. -/
def findPropertyNamed? (s : StructSchema) (name : String) : Option PropertySchema :=
  s.properties.find? fun p => p.name == name

/-- The tags that the type declares. -/
def allProperties (s : StructSchema) : PropertySet := .ofTags (s.properties.map (·.tag))

/-- The tags that together identify an object. -/
def keyProperties (s : StructSchema) : PropertySet :=
  .ofTags ((s.properties.filter (·.key)).map (·.tag))

/-- The declared properties that are set on an object. -/
def validProperties (s : StructSchema) (o : Object) : PropertySet :=
  o.setProperties ∩ s.allProperties

/-- One part of the key of an object. -/
def keyPart (s : StructSchema) (o : Object) (tag : Tag) : Outcome Value :=
  match o.get? tag with
  | some value => .ok value
  | none => .error (.protocol (.missingKey s.name tag))

/-- The key of an object: the values of the key properties in ascending tag order, all of
which have to be set. -/
def keyOf (s : StructSchema) (o : Object) : Outcome ObjectKey :=
  s.keyProperties.tags.mapM (s.keyPart o)

/-- Check properties against the tags seen before them. -/
def checkProperties (typeName : String) (seen : PropertySet) :
    List PropertySchema → Outcome Unit
  | [] => .ok ()
  | p :: rest =>
    if ¬PropertySet.InRange p.tag then
      .error (.schemaConflict (.tagOutOfRange typeName p.name p.tag))
    else if seen.contains p.tag then .error (.schemaConflict (.tagTwice typeName p.tag))
    else checkProperties typeName (seen.insert p.tag) rest

/-- Check that every tag is in range and none is given twice. -/
def checkDefinition (s : StructSchema) : Outcome Unit :=
  checkProperties s.name .none s.properties

/-- Check one value of an object. -/
def validateValue (s : StructSchema) (tag : Tag) (value : Value) : Outcome Unit :=
  match s.findProperty? tag with
  | none => .error (.protocol (.undeclared s.name tag))
  | some p =>
    if p.kind.accepts value then .ok ()
    else .error (.protocol (.wrongKind s.name p.name p.kind value.kindName))

/-- Check that an object conforms: it names this type, and each property that is set is
declared and holds a value of its kind. Key properties may be unset. -/
def validate (s : StructSchema) (o : Object) : Outcome Unit :=
  if o.typeName ≠ s.name then .error (.protocol (.otherType o.typeName s.name))
  else o.values.toList.forM fun b => s.validateValue b.1 b.2

/-! ## Objects as JSON -/

/-- Set one property from a member of a JSON object. -/
def setFromMember (s : StructSchema) (o : Object) (m : String × Json) : Outcome Object :=
  match s.findPropertyNamed? m.1 with
  | none => .error (.invalidOperation (.noProperty s.name m.1))
  | some p =>
    match p.kind.valueOfJson? m.2 with
    | none => .error (.invalidOperation (.cannotHold s.name m.1 m.2))
    | some value => .ok (o.set p.tag value)

/-- Read an object from a JSON object with a member for each property that is set. -/
def objectOfJson (s : StructSchema) (j : Json) : Outcome Object :=
  match j with
  | .object members => members.foldlM s.setFromMember (.empty s.name)
  | _ => .error (.invalidOperation (.notAnObject s.name))

/-- The name under which a property stands in JSON; a tag that the type does not declare is
written as a number. -/
def memberName (s : StructSchema) (tag : Tag) : String :=
  match s.findProperty? tag with
  | some p => p.name
  | none => "#" ++ toString tag.toNat

/-- Write an object as a JSON object with a member for each property that is set. -/
def objectToJson (s : StructSchema) (o : Object) : Json :=
  .ofMembers (o.values.toList.map fun b => (s.memberName b.1, b.2.toJson))

end StructSchema

/-- One named value of an enum type. -/
structure Enumerator where
  /-- The name. -/
  name : String
  /-- The number. -/
  value : Int32
deriving DecidableEq, Inhabited

/-- The definition of an enum type. -/
structure EnumSchema where
  /-- The name of the type. -/
  name : String
  /-- Its enumerators in the order of the definition. -/
  enumerators : List Enumerator := []
deriving DecidableEq, Inhabited

/-- The name of the first enumerator with the given number. -/
def EnumSchema.nameOf? (s : EnumSchema) (value : Int32) : Option String :=
  (s.enumerators.find? fun e => e.value == value).map (·.name)

end ObjectBus
