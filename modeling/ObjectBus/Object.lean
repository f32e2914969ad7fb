import ObjectBus.PropertySet
import ObjectBus.SortedMap
import ObjectBus.Value

/-!
# Objects

An object names its type and holds a value for each property that is set. Which properties a
type has, and which of them form the key, is up to its schema.

Objects change by merging: the listed properties take the state they have in another object,
set or unset, and all others stay.
-/

namespace ObjectBus

/-- A dynamically typed object. -/
structure Object where
  /-- The name of the type. -/
  typeName : String
  /-- The properties that are set. -/
  values : SortedMap Tag Value
deriving DecidableEq

namespace Object

/-- The object of a type with no property set. -/
def empty (typeName : String) : Object := ⟨typeName, .empty⟩

instance : Inhabited Object := ⟨empty ""⟩

/-- The value of a property, if it is set. -/
def get? (o : Object) (tag : Tag) : Option Value := o.values.find? tag

/-- Set a property. -/
def set (o : Object) (tag : Tag) (value : Value) : Object :=
  { o with values := o.values.insert tag value }

/-- Unset a property. -/
def unset (o : Object) (tag : Tag) : Object := { o with values := o.values.erase tag }

/-- The properties that are set, as far as a property set can hold them. -/
def setProperties (o : Object) : PropertySet := .ofTags o.values.keys

/-- The object with only the given properties. -/
def restrict (o : Object) (properties : PropertySet) : Object :=
  { o with values := o.values.filterKeys properties.contains }

/-- Give one property the state it has in `other`. -/
def mergeTag (other : Object) (o : Object) (tag : Tag) : Object :=
  match other.get? tag with
  | some value => o.set tag value
  | none => o.unset tag

/-- Give the listed properties the state they have in `other`. One that is unset there becomes
unset here. -/
def merge (o other : Object) (properties : PropertySet) : Object :=
  properties.tags.foldl (mergeTag other) o

/-! ## The view of each operation -/

@[simp]
theorem get?_set (o : Object) (tag tag' : Tag) (value : Value) :
    (o.set tag value).get? tag' = if tag' = tag then some value else o.get? tag' := by
  simp [get?, set]

@[simp]
theorem get?_unset (o : Object) (tag tag' : Tag) :
    (o.unset tag).get? tag' = if tag' = tag then none else o.get? tag' := by
  simp [get?, unset]

@[simp]
theorem get?_restrict (o : Object) (properties : PropertySet) (tag : Tag) :
    (o.restrict properties).get? tag = if properties.contains tag then o.get? tag else none := by
  simp [get?, restrict]

end Object

end ObjectBus
