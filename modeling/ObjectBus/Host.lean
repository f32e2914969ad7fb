import ObjectBus.Broker.Housekeeping

/-!
# The host

A host owns a broker and serves requests one after the other, each as a whole, for as long as
it runs. Stopping it shuts the broker down; requests that come later are refused.
-/

namespace ObjectBus

/-- A request to a host. -/
inductive HostRequest where
  /-- Take over a new channel. -/
  | accept (channel : Channel)
  /-- Process a transmission from a guest. -/
  | receive (peer : PeerId) (t : Transmission)
  /-- The transport of a guest failed. -/
  | transportFailed (peer : PeerId) (error : TransportError)
  /-- Publish an object as the host. -/
  | publish (o : Object) (included : Option PropertySet) (remove : Bool)
  /-- Register a struct type. -/
  | registerStruct (schema : StructSchema)
  /-- Register an enum type. -/
  | registerEnum (schema : EnumSchema)
  /-- Give the cached objects of a type. -/
  | snapshot (typeName : String)
  /-- Give the state of a connection. -/
  | peerState (peer : PeerId)
  /-- Sweep now. -/
  | sweep

/-- What a host answers. -/
inductive HostReply where
  /-- It is done. -/
  | done
  /-- The number of the new guest. -/
  | accepted (peer : PeerId)
  /-- What became of a registration. -/
  | registered (outcome : Registered)
  /-- The cached objects, if the type is cached. -/
  | entries (entries : Option (List Entry))
  /-- The state, if there is a connection. -/
  | state (state : Option ConnectionState)

/-- A host with its broker. -/
structure Host where
  /-- The broker. -/
  broker : Broker
  /-- Whether the host still runs. -/
  running : Bool

namespace Host

/-- The topic of the host's notes. -/
private def topic : String := "host"

/-- Start a host around a broker. -/
def start (b : Broker) : Noted Host := do
  Noted.note .info topic "host started" [("name", .shown b.name)]
  pure ⟨b, true⟩

/-- What a running host does with a request. -/
def perform (b : Broker) (now : Instant) : HostRequest → Noted (Broker × Outcome HostReply)
  | .accept channel => do
    let r ← b.accept channel now
    pure (r.1, .ok (.accepted r.2))
  | .receive peer t => do
    let r ← b.receive peer t now
    Noted.noteIf (r.2 = .stop) .debug topic "connection stopped" [("peer", .number peer)]
    pure (r.1, .ok .done)
  | .transportFailed peer error => do
    let b ← b.transportFailed peer error now
    pure (b, .ok .done)
  | .publish o included remove => do
    let r ← b.publish o included remove now
    pure (r.1, r.2.map fun _ => .done)
  | .registerStruct schema => do
    let r ← b.registerStruct schema now
    pure (r.1, r.2.map .registered)
  | .registerEnum schema => do
    let r ← b.registerEnum schema
    pure (r.1, r.2.map .registered)
  | .snapshot typeName => pure (b, .ok (.entries ((b.container? typeName).map (·.snapshot))))
  | .peerState peer => pure (b, .ok (.state (b.connectionState? peer)))
  | .sweep => do
    let b ← b.sweep now
    pure (b, .ok .done)

/-- Serve a request. A host that was stopped refuses it. -/
def serve (h : Host) (request : HostRequest) (now : Instant) : Noted (Host × Outcome HostReply) :=
  if h.running then do
    let r ← perform h.broker now request
    pure ({ h with broker := r.1 }, r.2)
  else pure (h, .error .hostStopped)

/-- Stop a host: its broker shuts down. -/
def stop (h : Host) (now : Instant) : Noted Host :=
  if h.running then do
    let b ← h.broker.shutdown now
    Noted.note .info topic "host stopped" [("name", .shown b.name)]
    pure ⟨b, false⟩
  else pure h

end Host

end ObjectBus
