import ObjectBus.Broker.Frame

/-!
# Operations of the embedding program

Accepting guests, publishing as the host, local subscriptions, sweeping and shutting down.
-/

namespace ObjectBus.Broker

/-! ## Guests -/

/-- Take over a new channel and greet the guest at its other end. -/
def accept (b : Broker) (channel : Channel) (now : Instant) : Noted (Broker × PeerId) := do
  let peer := b.nextPeer
  Noted.note .info topic "accepted connection"
    [("peer", .number peer), ("endpoint", .shown channel.endpoint)]
  let r ← (Connection.ofChannel peer channel).beginHandshake b.name now
  let c ← match r.2 with
    | .ok () => pure r.1
    | .error e => r.1.fail e
  let b ← drain ({ b with nextPeer := b.nextPeer + 1 }.putConnection peer c) now
  pure (b, peer)

/-- The transport of a guest failed. -/
def transportFailed (b : Broker) (peer : PeerId) (e : TransportError) (now : Instant) :
    Noted Broker :=
  match b.connections.find? peer with
  | none => pure b
  | some c => do
    let c ← c.transportFailed e
    (b.putConnection peer c).drain now

/-! ## Objects -/

/-- Publish an object as the host. The included properties are those that are set, unless told
otherwise. -/
def publish (b : Broker) (o : Object) (included : Option PropertySet) (remove : Bool)
    (now : Instant) : Noted (Broker × Outcome Unit) := do
  let r ← b.publishAsHost o included remove now
  match r.2 with
  | .error e => pure (r.1, .error e)
  | .ok () => do
    let b ← r.1.drain now
    pure (b, .ok ())

/-- Remove an object as the host. Only its key has to be set. -/
def remove (b : Broker) (o : Object) (now : Instant) : Noted (Broker × Outcome Unit) :=
  match b.registry.resolve o.typeName with
  | .error e => pure (b, .error e)
  | .ok schema => b.publish o (some schema.keyProperties) true now

/-- Subscribe to the objects of a type. -/
def subscribe (b : Broker) (typeName : String) (now : Instant) :
    Broker × Outcome SubscriptionId :=
  match b.registry.resolve typeName with
  | .error e => (b, .error e)
  | .ok schema =>
    let r := b.dispatcher.subscribe schema now
    ({ b with dispatcher := r.1 }, .ok r.2)

/-- End a subscription. -/
def unsubscribe (b : Broker) (id : SubscriptionId) : Broker × Outcome Unit :=
  let r := b.dispatcher.unsubscribe id
  ({ b with dispatcher := r.1 }, r.2)

/-! ## Sweeping and shutting down -/

/-- Whether some cached object of an ordinary type names a peer. -/
def isReferenced (b : Broker) (peer : PeerId) : Bool :=
  b.dispatcher.pool.containers.values.any fun c =>
    !isHostRecord c.schema.name && c.mentions peer

/-- Whether an object is the record of a closed peer that nothing else names. -/
def isStale (b : Broker) (o : Object) : Bool :=
  match PeerState.ofRecord? o with
  | some (peer, .closed) => !b.isReferenced peer
  | _ => false

/-- Forget the closed connections and their memberships. -/
def forgetClosed (b : Broker) : Broker :=
  { b with
    groups := b.closed.keys.foldl GroupTable.drop b.groups
    closed := .empty
    released := b.closed.toList.foldl (fun m x => m.insert x.1 x.2.channel) b.released }

/-- Forget closed connections, and retract the records of closed peers that no other cached
object names. -/
def sweep (b : Broker) (now : Instant) : Noted Broker := do
  Noted.noteIf (b.closed.isEmpty = false) .debug topic "swept closed connections"
    [("peers", .shown (peerList b.closed.keys))]
  let b := b.forgetClosed
  match b.container? peerStateType with
  | none => pure b
  | some c => do
    -- Which records are stale is settled before the first of them is retracted.
    let stale := c.objects.filter b.isStale
    let b ← b.retract stale c.schema.keyProperties "failed to retract peer state" [] now
    b.drain now

/-- Say goodbye to one guest and close its connection. -/
def farewell (b : Broker) (peer : PeerId) (now : Instant) : Noted Broker :=
  match b.connections.find? peer with
  | none => pure b
  | some c => do
    let c ← c.sendControl (.notice .goodbye "host shutting down") now
    let c ← c.close none
    pure (b.putConnection peer c)

/-- Say goodbye to every guest, close all connections and sweep. -/
def shutdown (b : Broker) (now : Instant) : Noted Broker := do
  Noted.note .info topic "broker shutting down" [("connections", .count b.connections.size)]
  let b ← b.connections.keys.foldlM (fun b peer => b.farewell peer now) b
  let b ← b.drain now
  b.sweep now

end ObjectBus.Broker
