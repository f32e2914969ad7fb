import ObjectBus.Schema.Basic

/-!
# The registry of types

The struct and enum types that a host or guest knows, in name order. A name keeps its first
definition: the same definition again changes nothing, and another one is refused.
-/

namespace ObjectBus

/-- The outcome of a registration that was not refused. -/
inductive Registered where
  /-- The type was not known before. -/
  | new
  /-- The same definition was known already. -/
  | unchanged
deriving DecidableEq, Repr

/-- The known types. -/
structure Registry where
  /-- The struct types by name. -/
  structs : SortedMap String StructSchema
  /-- The enum types by name. -/
  enums : SortedMap String EnumSchema
deriving DecidableEq

namespace Registry

/-- The registry without any type. -/
def empty : Registry := ⟨.empty, .empty⟩

instance : Inhabited Registry := ⟨empty⟩

/-- The struct type of a name. -/
def findStruct? (r : Registry) (name : String) : Option StructSchema := r.structs.find? name

/-- The enum type of a name. -/
def findEnum? (r : Registry) (name : String) : Option EnumSchema := r.enums.find? name

/-- The struct type of a name that has to be known. -/
def resolve (r : Registry) (name : String) : Outcome StructSchema :=
  match r.findStruct? name with
  | some s => .ok s
  | none => .error (.unknownType name)

/-- Add a struct type without any check. -/
def addStruct (r : Registry) (s : StructSchema) : Registry :=
  { r with structs := r.structs.insert s.name s }

/-- Add an enum type without any check. -/
def addEnum (r : Registry) (s : EnumSchema) : Registry :=
  { r with enums := r.enums.insert s.name s }

/-- Register a struct type whose definition is in order. -/
def registerStruct (r : Registry) (s : StructSchema) : Outcome (Registry × Registered) := do
  s.checkDefinition
  match r.findStruct? s.name with
  | some known =>
    if known = s then .ok (r, .unchanged) else .error (.schemaConflict (.otherStruct s.name))
  | none => .ok (r.addStruct s, .new)

/-- Register an enum type. -/
def registerEnum (r : Registry) (s : EnumSchema) : Outcome (Registry × Registered) :=
  match r.findEnum? s.name with
  | some known =>
    if known = s then .ok (r, .unchanged) else .error (.schemaConflict (.otherEnum s.name))
  | none => .ok (r.addEnum s, .new)

end Registry

end ObjectBus
