import ObjectBus.Broker.Discovery
import ObjectBus.Broker.Types

/-!
# Frames from guests

What a broker does with a transmission that a guest sent. Whatever is not valid is answered with
a notice: a violation keeps the connection, any other error closes it.
-/

namespace ObjectBus.Broker

/-- Answer a guest with a notice, and close its connection unless the error is a violation. -/
def report (b : Broker) (peer : PeerId) (e : BrokerError) (now : Instant) : Noted Broker :=
  match b.connections.find? peer with
  | none => pure b
  | some c =>
    if e.isViolation then do
      Noted.note .warn topic "protocol violation"
        (peerFields peer c.name ++ [("error", .shown e.message)])
      let c ← c.sendControl (.notice .violation e.message) now
      pure (b.putConnection peer c)
    else do
      let c ← c.sendControl (.notice .failure e.message) now
      let c ← c.fail e
      pure (b.putConnection peer c)

/-- The properties that an accepted object includes: those that its header names, or all that
are set if it names none, as far as the type declares them, and the key. -/
def acceptedAttributes (schema : StructSchema) (h : Header) (o : Object) : PropertySet :=
  let named := if h.attributes.isEmpty then schema.validProperties o else h.attributes
  (named ∩ schema.allProperties) ∪ schema.keyProperties

/-- Check and dispatch an object from a guest. -/
def acceptObject (b : Broker) (h : Header) (o : Object) (now : Instant) :
    Noted (Broker × Outcome Unit) :=
  match b.registry.resolve h.typeName with
  | .error e => pure (b, .error e)
  | .ok schema =>
    if h.isControl ≠ schema.flags.internal then
      pure (b, .error (.protocol (.wrongNamespace schema.name)))
    else
      match schema.validate o with
      | .error e => pure (b, .error e)
      | .ok () => b.dispatch schema { h with attributes := acceptedAttributes schema h o } o now

/-- Bring a guest up to date with the cached objects of a type. -/
def replayTo (b : Broker) (peer : PeerId) (schema : StructSchema) (now : Instant) :
    Noted (Broker × Outcome Unit) :=
  let b := { b with
    dispatcher := { b.dispatcher with pool := b.dispatcher.pool.touch schema } }
  let replay := (b.dispatcher.pool.getD schema).replay now
  match b.connections.find? peer with
  | none => pure (b, .error (.unknownConnection peer))
  | some c => do
    Noted.note .debug topic "replaying cache"
      [("peer", .number peer), ("type_name", .shown schema.name), ("items", .count replay.length)]
    let c ← replay.foldlM (fun c t => c.send t) c
    let c ← c.sendControl (.endOfReplay schema.name) now
    pure (b.putConnection peer c, .ok ())

/-- The fields of a note about a peer and a group. -/
def groupFields (peer : PeerId) (group : String) : List (String × NoteValue) :=
  [("peer", .number peer), ("group", .text group)]

/-- Change the membership of a guest. Joining the group of a cached type replays its cache, also
to a guest that is a member already. -/
def changeMembership (b : Broker) (peer : PeerId) (group : String) (event : MemberEvent)
    (now : Instant) : Noted (Broker × Outcome Unit) :=
  match event with
  | .join => do
    let r ← b.groups.join group peer
    Noted.noteIf (r.2 = true) .info topic "guest joined group" (groupFields peer group)
    let b := { b with groups := r.1 }
    match b.registry.findStruct? group with
    | some schema => if schema.flags.cached then b.replayTo peer schema now else pure (b, .ok ())
    | none => pure (b, .ok ())
  | .leave => do
    let r ← b.groups.leave group peer
    Noted.noteIf (r.2 = true) .info topic "guest left group" (groupFields peer group)
    pure ({ b with groups := r.1 }, .ok ())
  | .kill => do
    Noted.note .warn topic "kill membership event is not supported" (groupFields peer group)
    pure (b, .ok ())

/-- Answer a guest that asks for type definitions. -/
def discover (b : Broker) (peer : PeerId) (whitelist blacklist : List String) (now : Instant) :
    Noted (Broker × Outcome Unit) :=
  match b.connections.find? peer with
  | none => pure (b, .error (.unknownConnection peer))
  | some c => do
    Noted.note .info topic "answering schema discovery"
      (peerFields peer c.name ++
        [("types", .count (Discovery.selected b.registry whitelist blacklist).length)])
    let messages := Discovery.reply b.registry whitelist blacklist
    let c ← messages.foldlM (fun c message => c.sendControl message now) c
    pure (b.putConnection peer c, .ok ())

/-- Hand a transmission on to a group. -/
def forward (b : Broker) (group : String) (t : Transmission) : Noted Broker := do
  let r ← b.fanout group t
  pure r.1

/-- Remember that a type which a guest announced is registered. -/
def confirmImport (b : Broker) (peer : PeerId) (typeName : String) : Broker :=
  match b.connections.find? peer with
  | none => b
  | some c => b.putConnection peer (c.rememberImport typeName)

/-- Remove every cached object of one type. -/
def clearType (b : Broker) (typeName : String) (now : Instant) : Noted Broker :=
  match b.container? typeName with
  | none => pure b
  | some c => do
    Noted.note .info topic "clearing cache"
      [("type_name", .shown typeName), ("entries", .count c.size)]
    b.retract c.objects c.schema.keyProperties "cache clear removal failed"
      [("type_name", .shown typeName)] now

/-- Remove every cached object of the named types. -/
def clearCache (b : Broker) (typeNames : List String) (now : Instant) : Noted Broker := do
  let b ← typeNames.foldlM (fun b typeName => b.clearType typeName now) b
  b.drain now

/-- Do the control work that a connection hands on. -/
def acceptRequest (b : Broker) (peer : PeerId) (request : ControlRequest) (now : Instant) :
    Noted (Broker × Outcome Unit) :=
  match request with
  | .member group event => b.changeMembership peer group event now
  | .descriptorRequest whitelist blacklist =>
    b.discover peer (whitelist.getD []) (blacklist.getD []) now
  | .clearCache typeNames h => do
    let b ← b.clearCache typeNames now
    let b ← b.forward clearCacheGroup ⟨h, .control (.clearCache typeNames)⟩
    pure (b, .ok ())
  | .importStruct schema h => do
    let r ← b.registerStruct schema now
    match r.2 with
    | .error e => pure (r.1, .error e)
    | .ok registered => do
      let fields := [("peer", .number peer), ("type_name", .shown schema.name)]
      match registered with
      | .new => Noted.note .info topic "imported struct type" fields
      | .unchanged => Noted.note .debug topic "struct type already known" fields
      let b := r.1.confirmImport peer schema.name
      let b ← b.forward structSchemaGroup ⟨h, .control (.structSchema schema)⟩
      pure (b, .ok ())
  | .importEnum schema h => do
    let r ← b.registerEnum schema
    match r.2 with
    | .error e => pure (r.1, .error e)
    | .ok _ => do
      let b := r.1.confirmImport peer schema.name
      let b ← b.forward enumSchemaGroup ⟨h, .control (.enumSchema schema)⟩
      pure (b, .ok ())

/-- Report an error that ended an operation. -/
def settle (peer : PeerId) (now : Instant) (r : Broker × Outcome Unit) : Noted Broker :=
  match r.2 with
  | .ok () => pure r.1
  | .error e => r.1.report peer e now

/-- Do what follows from the classification of a frame. -/
def acceptReceived (b : Broker) (peer : PeerId) (received : Received) (now : Instant) :
    Noted Broker :=
  match received with
  | .handled => pure b
  | .object h o => do
    let r ← b.acceptObject h o now
    settle peer now r
  | .control request => do
    let r ← b.acceptRequest peer request now
    settle peer now r
  | .rejected violation => b.report peer (.protocol violation) now
  | .fatal e => b.report peer e now

/-- Whether it makes sense to go on reading from a guest. -/
def flow (b : Broker) (peer : PeerId) : Flow :=
  match b.connections.find? peer with
  | some c => if c.isClosed then .stop else .proceed
  | none => .stop

/-- Process a transmission from a guest. -/
def receive (b : Broker) (peer : PeerId) (t : Transmission) (now : Instant) :
    Noted (Broker × Flow) :=
  match b.connections.find? peer with
  | none => do
    Noted.note .debug topic "frame for unknown or closed connection dropped"
      [("peer", .number peer)]
    pure (b, .stop)
  | some c => do
    let r ← c.receive t now
    let b ← (b.putConnection peer r.1).acceptReceived peer r.2 now
    let b ← b.drain now
    pure (b, b.flow peer)

end ObjectBus.Broker
