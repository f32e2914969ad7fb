import ObjectBus.Protocol.Control

/-!
# Transmissions

What travels between host and guests: a header with either an object or a control message.
Control messages, and objects of internal types, travel in a namespace of their own.
-/

namespace ObjectBus

/-- The namespace of control messages and of objects of internal types. -/
def controlNamespace : String := "SYS"

/-- What accompanies an object or a message. -/
structure Header where
  /-- The type of the object, or the kind of the message. -/
  typeName : String
  /-- The peer it came from, as the host saw it. -/
  sender : Option PeerId := none
  /-- When the sender sent it. -/
  sentTime : Option Instant := none
  /-- When the host took it over. -/
  serverSentTime : Option Instant := none
  /-- The properties that are included. -/
  attributes : PropertySet := .none
  /-- Whether the object is to be removed. -/
  remove : Bool := false
  /-- In a replay, how many objects are still to follow. -/
  fromCache : Option UInt32 := none
  /-- The group it goes to, unless that is named after the type. -/
  destinationGroup : Option String := none
  /-- The namespace it travels in. -/
  nameSpace : Option String := none
  /-- Whether the host itself published it. -/
  isFromMyself : Bool := false
deriving DecidableEq, Inhabited

namespace Header

/-- The header for publishing an object of a type at the given time. Key properties are always
included, and internal types travel in the control namespace. -/
def forObject (schema : StructSchema) (included : PropertySet) (remove : Bool) (now : Instant) :
    Header where
  typeName := schema.name
  sentTime := some now
  attributes := included ∪ schema.keyProperties
  remove := remove
  nameSpace := if schema.flags.internal then some controlNamespace else none

/-- Whether this is the header of something in the control namespace. -/
def isControl (h : Header) : Bool := h.nameSpace == some controlNamespace

/-- The group that receives what the header accompanies. -/
def group (h : Header) : String := h.destinationGroup.getD h.typeName

end Header

/-- What a transmission carries. -/
inductive Payload where
  /-- An object. -/
  | object (o : Object)
  /-- A control message. -/
  | control (message : ControlMessage)
deriving DecidableEq, Inhabited

/-- A header with an object or a control message. -/
structure Transmission where
  /-- What accompanies the payload. -/
  header : Header
  /-- What is sent. -/
  payload : Payload
deriving DecidableEq, Inhabited

namespace Transmission

/-- The transmission of an object. -/
def ofObject (header : Header) (o : Object) : Transmission := ⟨header, .object o⟩

/-- The transmission of a control message at the given time. -/
def ofControl (message : ControlMessage) (now : Instant) : Transmission where
  header :=
    { typeName := message.typeName, sentTime := some now, nameSpace := some controlNamespace }
  payload := .control message

/-- The object, if the transmission carries one. -/
def object? (t : Transmission) : Option Object :=
  match t.payload with
  | .object o => some o
  | .control _ => none

/-- The control message, if the transmission carries one. -/
def control? (t : Transmission) : Option ControlMessage :=
  match t.payload with
  | .object _ => none
  | .control message => some message

end Transmission

end ObjectBus
