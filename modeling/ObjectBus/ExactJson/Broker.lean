import ObjectBus.Broker.Feed
import ObjectBus.Broker.Types
import ObjectBus.ExactJson.Arrangement
import ObjectBus.ExactJson.Connection
import ObjectBus.ExactJson.Event

/-!
# What groups and brokers do, as exact JSON
-/

namespace ObjectBus

/-- The exact JSON of a group. -/
def Group.toExactJson (g : Group) : Json :=
  .object [("name", .string g.name), ("members", .array (g.members.map .ofUInt32)),
    ("len", .ofNat g.size), ("empty", .bool g.isEmpty)]

/-- The exact JSON of what became of a transmission to a group. -/
def Delivery.toExactJson (d : Delivery) : Json :=
  .object [("delivered", .ofNat d.delivered), ("failed", .array (d.failed.map .ofUInt32))]

/-- The exact JSON of the cached objects of a container, sorted. -/
def Container.toExactJson (timeText : Instant → String) (c : Container) : Json :=
  .array (Json.sorted (c.snapshot.map fun e => e.toExactJson timeText))

/-- The text for a subscription. -/
def SubscriptionId.text (s : SubscriptionId) : String :=
  "SubscriptionId(" ++ toString s.number ++ ")"

/-- What subscribers were told after a number of earlier times, as exact JSON. -/
def Dispatcher.toldSince (timeText : Instant → String) (d : Dispatcher) (count : Nat) :
    List Json :=
  (d.told.drop count).map fun x =>
    .object [("sub", .ofNat x.1.number), ("event", x.2.toExactJson timeText)]

/-- The exact JSON of an event. -/
def BrokerEvent.toExactJson (timeText : Instant → String) : BrokerEvent → Json
  | peerState peer name state cause =>
    .object [("peer", .ofUInt32 peer), ("name", .string name), ("state", .string state.text),
      ("cause", Json.ofOption .string cause)]
  | object e => .object [("object", e.toExactJson timeText)]
  | typeAnnounced id name => .object [("type_id", .ofUInt32 id), ("type_name", .string name)]

/-- The peer of a change of state. -/
def BrokerEvent.changedPeer? : BrokerEvent → Option PeerId
  | peerState peer .. => some peer
  | _ => none

namespace FeedItem

/-- The exact JSON of what an observer reads. -/
def toExactJson (timeText : Instant → String) : FeedItem → Json
  | lost count => .object [("lagged", .ofNat count)]
  | event e => e.toExactJson timeText

/-- The peer of a change of state. -/
def changedPeer? : FeedItem → Option PeerId
  | lost _ => none
  | event e => e.changedPeer?

end FeedItem

/-- How the sequences of one step are arranged: when the states of several peers changed, the
order of these changes means nothing either, and everything is sorted. -/
def Json.arrangedFor (events : List FeedItem) (l : List Json) : List Json :=
  let peers := events.filterMap fun e => e.changedPeer?
  if peers.all fun p => peers.head? == some p then arranged l else sorted l

/-- The word for the outcome of a registration. -/
def Registered.word : Registered → String
  | new => "New"
  | unchanged => "Unchanged"

/-- The word for whether to go on reading. -/
def Flow.word : Flow → String
  | proceed => "Continue"
  | stop => "Stop"

namespace Broker

/-- The types of a broker with their numbers and the sizes of their containers, as exact
JSON. -/
def typesJson (b : Broker) : Json :=
  .array (b.registry.structs.keys.map fun name =>
    .array [.string name, Json.ofOption .ofUInt32 (b.typeId? name),
      Json.ofOption (fun c => .ofNat c.size) (b.container? name)])

/-- The cached objects of a type, as exact JSON. -/
def cachedJson (timeText : Instant → String) (b : Broker) (typeName : String) : Json :=
  Json.ofOption (fun c => c.toExactJson timeText) (b.container? typeName)

/-- What a broker has of a type, as exact JSON. -/
def dumpJson (timeText : Instant → String) (b : Broker) (typeName : String) : Json :=
  .object [("id", Json.ofOption .ofUInt32 (b.typeId? typeName)),
    ("entries", b.cachedJson timeText typeName),
    ("members", Json.ofOption (fun g => .array (g.members.map .ofUInt32)) (b.group? typeName))]

/-- What was handed to a peer so far. -/
def sentTo (b : Broker) (peer : PeerId) : List Transmission :=
  ((b.channel? peer).map (·.sent)).getD []

/-- The state and the name of a peer and how often its channel was closed, as exact JSON. -/
def peerJson (b : Broker) (peer : PeerId) : Json :=
  .array [Json.ofOption (fun s => .string s.text) (b.connectionState? peer),
    Json.ofOption .string (b.peerName? peer),
    .ofNat (((b.channel? peer).map (·.closeCount)).getD 0)]

end Broker

end ObjectBus
