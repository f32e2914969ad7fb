import ObjectBus.Protocol.Transmission
import ObjectBus.Schema.Registry

/-!
# Built-in types

Every registry starts with two internal cached types whose objects the host alone writes: one
record for each peer and the state of its connection, and one announcement for each known
type. Groups with fixed names receive what guests announce.
-/

namespace ObjectBus

/-- The type of the records of peers and their connections. -/
def peerStateType : String := "PeerState"

/-- The type of the announcements of known types. -/
def typeAnnounceType : String := "TypeAnnounce"

/-- The enum type of connection states. -/
def connectionStateEnum : String := "ConnectionState"

/-- The group that receives struct definitions which guests announce. -/
def structSchemaGroup : String := "StructSchema"

/-- The group that receives enum definitions which guests announce. -/
def enumSchemaGroup : String := "EnumSchema"

/-- The group that receives requests to clear caches. -/
def clearCacheGroup : String := "ClearCache"

/-- Whether only the host may write objects of a type. -/
def isHostRecord (typeName : String) : Bool :=
  typeName == peerStateType || typeName == typeAnnounceType

namespace PeerState

/-- The tag of the peer's number, the key. -/
def idTag : Tag := 1

/-- The tag of the peer's name. -/
def nameTag : Tag := 2

/-- The tag of the state of the peer's connection. -/
def stateTag : Tag := 3

/-- The schema of peer-state records. -/
def schema : StructSchema where
  name := peerStateType
  flags := { cached := true, internal := true }
  properties := [
    { name := "id", tag := idTag, kind := .uint, key := true },
    { name := "name", tag := nameTag, kind := .string },
    { name := "connectionState", tag := stateTag, kind := .enumerator connectionStateEnum }]

/-- The record of a peer in a state. -/
def record (id : PeerId) (name : String) (state : ConnectionState) : Object :=
  (((Object.empty peerStateType).set idTag (.uint id.toUInt64)).set nameTag (.str name)).set
    stateTag (.enumerator state.toEnumerator)

/-- The peer and the state that a record names. -/
def ofRecord? (o : Object) : Option (PeerId × ConnectionState) :=
  match (o.get? idTag).bind Value.asUInt64?, o.get? stateTag with
  | some id, some (.enumerator n) =>
    (ConnectionState.ofEnumerator? n).bind fun state =>
      if id.toNat < UInt32.size then some (id.toUInt32, state) else none
  | _, _ => none

end PeerState

namespace TypeAnnounce

/-- The tag of the number of the type, the key. -/
def idTag : Tag := 1

/-- The tag of the name of the type. -/
def nameTag : Tag := 2

/-- The tag of the flags of the type. -/
def flagsTag : Tag := 3

/-- The schema of type announcements. -/
def schema : StructSchema where
  name := typeAnnounceType
  flags := { cached := true, internal := true }
  properties := [
    { name := "id", tag := idTag, kind := .uint, key := true },
    { name := "name", tag := nameTag, kind := .string },
    { name := "flags", tag := flagsTag, kind := .string }]

/-- The announcement of a type under a number. -/
def record (id : UInt32) (schema : StructSchema) : Object :=
  (((Object.empty typeAnnounceType).set idTag (.uint id.toUInt64)).set nameTag
    (.str schema.name)).set flagsTag (.str schema.flags.text)

end TypeAnnounce

/-- The enum type of connection states. -/
def connectionStateSchema : EnumSchema where
  name := connectionStateEnum
  enumerators := ConnectionState.all.map fun s => { name := s.text, value := s.toEnumerator }

/-- The struct types that every registry starts with. -/
def builtinStructs : List StructSchema := [PeerState.schema, TypeAnnounce.schema]

/-- The enum types that every registry starts with. -/
def builtinEnums : List EnumSchema := [connectionStateSchema]

/-- The registry of the built-in types. -/
def Registry.builtin : Registry :=
  builtinEnums.foldl Registry.addEnum (builtinStructs.foldl Registry.addStruct Registry.empty)

end ObjectBus
