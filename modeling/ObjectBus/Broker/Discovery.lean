import ObjectBus.Protocol.Control
import ObjectBus.Schema.Registry

/-!
# Schema discovery

The answer to a guest that asks for type definitions: the struct types selected by its lists in
name order, each preceded by those enum types of its properties that were not sent before.
-/

namespace ObjectBus.Discovery

/-- Whether a struct type is to be sent. Internal types never are, an empty list of wanted
names wants all, and unwanted names are left out. -/
def selects (whitelist blacklist : List String) (s : StructSchema) : Bool :=
  !s.flags.internal && (whitelist.isEmpty || whitelist.contains s.name) &&
    !blacklist.contains s.name

/-- The struct types to be sent, in name order. -/
def selected (r : Registry) (whitelist blacklist : List String) : List StructSchema :=
  r.structs.values.filter (selects whitelist blacklist)

/-- The enum types that the properties of a struct type name and that were not sent before,
each once. -/
def newEnums (r : Registry) (sent : List String) : List PropertySchema → List EnumSchema
  | [] => []
  | p :: rest =>
    match p.kind with
    | .enumerator typeName =>
      if sent.contains typeName then newEnums r sent rest
      else
        match r.findEnum? typeName with
        | some e => e :: newEnums r (sent ++ [typeName]) rest
        | none => newEnums r sent rest
    | _ => newEnums r sent rest

/-- The definitions to be sent for the selected struct types. -/
def definitions (r : Registry) (sent : List String) : List StructSchema → List ControlMessage
  | [] => []
  | s :: rest =>
    let enums := newEnums r sent s.properties
    enums.map .enumSchema ++ .structSchema s :: definitions r (sent ++ enums.map (·.name)) rest

/-- The whole answer, with the mark of its end. -/
def reply (r : Registry) (whitelist blacklist : List String) : List ControlMessage :=
  definitions r [] (selected r whitelist blacklist) ++ [.endOfDiscovery]

end ObjectBus.Discovery
