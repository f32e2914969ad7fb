import ObjectBus.Dispatcher
import ObjectBus.Group

/-!
# The broker

The broker joins the parts: the connections, the groups, the caches with their local
subscribers and the registry of types. It is a state machine that handles one thing at a time,
so that every accepted object, its merging and its fanout, is one step for everybody else.

This module holds the state and what can be seen of it.
-/

namespace ObjectBus

/-- What observers of a broker are told. -/
inductive BrokerEvent where
  /-- A connection changed its state, with the cause if it closed abnormally. -/
  | peerState (peer : PeerId) (name : String) (state : ConnectionState) (cause : Option String)
  /-- An object was created, updated or removed. -/
  | object (event : ObjectEvent)
  /-- A type became known. -/
  | typeAnnounced (id : UInt32) (name : String)
deriving DecidableEq

/-- Whether it makes sense to go on reading from a guest. -/
inductive Flow where
  /-- The connection is open. -/
  | proceed
  /-- The connection is gone. -/
  | stop
deriving DecidableEq, Repr

/-- How many events an observer may leave unread, unless told otherwise. -/
def defaultEventCapacity : Nat := 256

/-- The state of a broker. -/
structure Broker where
  /-- The name under which it greets guests. -/
  name : String
  /-- The known types. -/
  registry : Registry
  /-- The caches and the local subscribers. -/
  dispatcher : Dispatcher
  /-- The groups. -/
  groups : GroupTable
  /-- The open connections. -/
  connections : ConnectionTable
  /-- The connections that closed since the last sweep. -/
  closed : ConnectionTable
  /-- The channels of the connections that a sweep has forgotten, as they were then. -/
  released : SortedMap PeerId Channel
  /-- The cached types whose objects go with the guest that wrote them last, in the order in
  which they became known. -/
  cleanupTypes : List String
  /-- The numbers of the types. -/
  typeIds : SortedMap String UInt32
  /-- The number of the next guest. -/
  nextPeer : PeerId
  /-- The number of the next type. -/
  nextTypeId : UInt32
  /-- How many events an observer may leave unread. -/
  eventCapacity : Nat
  /-- All events so far, in order. -/
  events : List BrokerEvent

namespace Broker

/-- The topic of the broker's notes. -/
def topic : String := "broker"

/-- A broker with a registry whose types it has not made known yet. -/
def bare (name : String) (registry : Registry) (eventCapacity : Nat) : Broker where
  name := name
  registry := registry
  dispatcher := .empty
  groups := .empty
  connections := .empty
  closed := .empty
  released := .empty
  cleanupTypes := []
  typeIds := .empty
  nextPeer := hostId + 1
  nextTypeId := 1
  eventCapacity := max eventCapacity 1
  events := []

instance : Inhabited Broker := ⟨bare "" default 1⟩

/-- Tell observers of an event. -/
def emit (b : Broker) (e : BrokerEvent) : Broker := { b with events := b.events ++ [e] }

/-- Put a connection into the open table. -/
def putConnection (b : Broker) (peer : PeerId) (c : Connection) : Broker :=
  { b with connections := b.connections.insert peer c }

/-- The connection of a peer, open or closed since the last sweep. -/
def connection? (b : Broker) (peer : PeerId) : Option Connection :=
  b.connections.find? peer <|> b.closed.find? peer

/-- The state of the connection of a peer. -/
def connectionState? (b : Broker) (peer : PeerId) : Option ConnectionState :=
  (b.connection? peer).map (·.state)

/-- The name of a peer. -/
def peerName? (b : Broker) (peer : PeerId) : Option String := (b.connection? peer).map (·.name)

/-- The channel of a peer, even if its connection is forgotten. -/
def channel? (b : Broker) (peer : PeerId) : Option Channel :=
  (b.connection? peer).map (·.channel) <|> b.released.find? peer

/-- The container of a type. -/
def container? (b : Broker) (typeName : String) : Option Container :=
  b.dispatcher.pool.find? typeName

/-- A group. -/
def group? (b : Broker) (name : String) : Option Group := b.groups.find? name

/-- The number of a type. -/
def typeId? (b : Broker) (typeName : String) : Option UInt32 := b.typeIds.find? typeName

/-- Numbers in brackets, for notes. -/
def peerList (peers : List PeerId) : String :=
  "[" ++ ", ".intercalate (peers.map fun p => toString p.toNat) ++ "]"

/-- The fields of a note about a peer and its name. -/
def peerFields (peer : PeerId) (name : String) : List (String × NoteValue) :=
  [("peer", .number peer), ("name", .shown name)]

end Broker

end ObjectBus
