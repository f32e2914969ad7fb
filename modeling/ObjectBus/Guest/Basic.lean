import ObjectBus.Audit.Note
import ObjectBus.Protocol.Builtin
import ObjectBus.Wire.Framing

/-!
# Guests

A guest is the other end of a connection: it names itself to the host, joins groups, publishes
objects and asks for type definitions. It keeps what it learns about types in a registry of
its own.

Sending never waits. What the guest sent so far is kept in order, and whoever carries its
frames takes them from there.
-/

namespace ObjectBus

/-- Something that arrives at a guest: a transmission or a failure of the transport. -/
abbrev Arrival := Except TransportError Transmission

/-- What arrives from a stream of bytes. Behind a frame that is too long the stream first looks
closed, and its end shows the frame once more. -/
def arrivalsOfBytes (bytes : List UInt8) : List Arrival :=
  let (bodies, streamEnd) := Framing.split bytes
  let last : List Arrival := match streamEnd with
    | .clean => []
    | .truncated => [.error Framing.truncatedError]
    -- Whoever goes on reading behind the first error meets the frame again.
    | .oversized =>
      [.error Framing.oversizedError, .error .closed, .error Framing.oversizedError]
  (bodies.map fun body => (Transmission.decode body).mapError .codec) ++ last

/-- A guest. -/
structure Guest where
  /-- The number that the host gave it. -/
  peer : PeerId
  /-- The name under which the host greeted. -/
  hostName : String
  /-- The state of the protocol, as the guest knows it. -/
  state : ConnectionState
  /-- The types it knows. -/
  registry : Registry
  /-- What it sent so far, in order. -/
  sent : List Transmission

namespace Guest

/-- The topic of a guest's notes. -/
def topic : String := "guest"

/-- A guest before the handshake. -/
def fresh : Guest where
  peer := 0
  hostName := ""
  state := .connecting
  registry := .builtin
  sent := []

instance : Inhabited Guest := ⟨fresh⟩

/-- Send a transmission. -/
def send (g : Guest) (t : Transmission) : Guest := { g with sent := g.sent ++ [t] }

/-- Send a control message. -/
def sendControl (g : Guest) (message : ControlMessage) (now : Instant) : Guest :=
  g.send (.ofControl message now)

/-- Ask to join a group. -/
def join (g : Guest) (group : String) (now : Instant) : Guest :=
  g.sendControl (.member group .join) now

/-- Ask to leave a group. -/
def leave (g : Guest) (group : String) (now : Instant) : Guest :=
  g.sendControl (.member group .leave) now

/-- Publish an object. The included properties are those that are set, unless told
otherwise. -/
def publish (g : Guest) (schema : StructSchema) (o : Object) (included : Option PropertySet)
    (now : Instant) : Guest :=
  g.send (.ofObject
    (.forObject schema (included.getD (schema.validProperties o)) false now) o)

/-- Remove an object. Only its key has to be set. -/
def remove (g : Guest) (schema : StructSchema) (o : Object) (now : Instant) : Guest :=
  g.send (.ofObject (.forObject schema schema.keyProperties true now) o)

/-- Announce a struct type. -/
def announceStruct (g : Guest) (schema : StructSchema) (now : Instant) : Guest :=
  g.sendControl (.structSchema schema) now

/-- Announce an enum type. -/
def announceEnum (g : Guest) (schema : EnumSchema) (now : Instant) : Guest :=
  g.sendControl (.enumSchema schema) now

/-- Ask to remove every cached object of the named types. -/
def clearCache (g : Guest) (typeNames : List String) (now : Instant) : Guest :=
  g.sendControl (.clearCache typeNames) now

/-- Say goodbye. -/
def close (g : Guest) (now : Instant) : Guest :=
  { g.sendControl (.notice .goodbye "goodbye") now with state := .closed }

end Guest

end ObjectBus
