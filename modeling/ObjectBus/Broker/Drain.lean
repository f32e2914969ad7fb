import ObjectBus.Broker.Publish

/-!
# Changes of state

Connections queue their changes of state, and after every operation the broker takes them all:
it tells observers, publishes the record of the peer, and when a connection has closed removes
the objects that go with it. Publishing may close further connections, so the broker goes
around until no connection has anything queued.
-/

namespace ObjectBus.Broker

/-- Note a change of state. -/
def noteTransition (peer : PeerId) (name : String) (t : Transition) : Noted Unit :=
  match t.state, t.cause with
  | .closed, none => Noted.note .info topic "guest disconnected" (peerFields peer name)
  | .closed, some cause =>
    Noted.note .error topic "guest connection failed"
      (peerFields peer name ++ [("cause", .shown cause)])
  | .connected, _ => Noted.note .info topic "guest is connected" (peerFields peer name)
  | state, _ =>
    Noted.note .debug topic "guest state change"
      (peerFields peer name ++ [("state", .shown state.text)])

/-- Remove the objects of one type that a closed guest wrote last. -/
def cleanUpType (b : Broker) (peer : PeerId) (typeName : String) (now : Instant) : Noted Broker :=
  match b.container? typeName with
  | none => pure b
  | some c =>
    let owned := c.writtenBy peer
    if owned.isEmpty then pure b
    else do
      Noted.note .info topic "removing objects of closed guest"
        [("peer", .number peer), ("type_name", .shown typeName), ("entries", .count owned.length)]
      b.retract owned c.schema.keyProperties "cleanup removal failed"
        [("peer", .number peer), ("type_name", .shown typeName)] now

/-- Move the connection of a guest from the open table to the closed one. -/
def setAside (b : Broker) (peer : PeerId) : Broker :=
  match b.connections.find? peer with
  | none => b
  | some c => { b with connections := b.connections.erase peer, closed := b.closed.insert peer c }

/-- What follows when a connection has closed. -/
def onClosed (b : Broker) (peer : PeerId) (now : Instant) : Noted Broker :=
  let b := b.setAside peer
  b.cleanupTypes.foldlM (fun b typeName => b.cleanUpType peer typeName now) b

/-- Process one change of state. -/
def onTransition (b : Broker) (peer : PeerId) (t : Transition) (now : Instant) :
    Noted Broker := do
  let name := (b.peerName? peer).getD unnamedPeer
  noteTransition peer name t
  -- The objects of a guest are gone before observers hear that it is.
  let b ← if t.state = .closed then b.onClosed peer now else pure b
  let b := b.emit (.peerState peer name t.state t.cause)
  b.publishOrNote (PeerState.record peer name t.state) none false "failed to publish peer state"
    [("peer", .number peer)] now

/-- The changes of state that wait, by connection. -/
def pending (b : Broker) : List (PeerId × Transition) :=
  b.connections.toList.flatMap fun x => x.2.transitions.map (x.1, ·)

/-- Take what waits off the queues. -/
def takePending (b : Broker) : Broker :=
  { b with connections := b.connections.map fun _ c => c.drained }

/-- Process what waits in rounds until nothing does, within a number of rounds. -/
def drainWithin (now : Instant) : Nat → Broker → Noted Broker
  | 0, b => pure b
  | rounds + 1, b =>
    if b.pending.isEmpty then pure b
    else do
      -- What this round queues anew is left to the next one.
      let b ← b.pending.foldlM (fun b x => b.onTransition x.1 x.2 now) b.takePending
      drainWithin now rounds b

/-- Process all changes of state that wait, and those that follow from them. Every round after
the first follows the closing of a connection, and each connection closes once. -/
def drain (b : Broker) (now : Instant) : Noted Broker :=
  drainWithin now (b.connections.size + 2) b

end ObjectBus.Broker
