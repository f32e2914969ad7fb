import ObjectBus.Audit.Note
import ObjectBus.Channel
import ObjectBus.Protocol.Builtin

/-!
# Connections

A connection runs the protocol with one guest over one channel.

    connecting --> early_subscribe --> connected <--> suspended
        |                 |                |
        +-----------------+----------------+---------> closed

It stamps and classifies what the guest sends. Work that needs the rest of the broker is handed
back as a `Received` value. Changes of state wait in a queue until the broker takes them.
-/

namespace ObjectBus

/-- A change of state that the broker has not processed yet. -/
structure Transition where
  /-- The new state. -/
  state : ConnectionState
  /-- Why a connection closed; an orderly end has no cause. -/
  cause : Option String
deriving DecidableEq, Inhabited

/-- Control work that a connection hands to the broker. -/
inductive ControlRequest where
  /-- A change of group membership. -/
  | member (group : String) (event : MemberEvent)
  /-- Type definitions are wanted. -/
  | descriptorRequest (whitelist blacklist : Option (List String))
  /-- Caches are to be cleared. -/
  | clearCache (typeNames : List String) (header : Header)
  /-- A struct type was announced. -/
  | importStruct (schema : StructSchema) (header : Header)
  /-- An enum type was announced. -/
  | importEnum (schema : EnumSchema) (header : Header)
deriving DecidableEq

/-- What became of a received transmission. -/
inductive Received where
  /-- The connection dealt with it. -/
  | handled
  /-- An object to be dispatched and passed on. -/
  | object (header : Header) (o : Object)
  /-- A control message that needs the broker. -/
  | control (request : ControlRequest)
  /-- It was not valid here; the connection stays. -/
  | rejected (violation : Violation)
  /-- It cannot be forgiven; the connection is to be closed. -/
  | fatal (error : BrokerError)

/-- The name of a guest that has not named itself. -/
def unnamedPeer : String := "<not_set>"

/-- The host's side of the conversation with one guest. -/
structure Connection where
  /-- The number of the guest. -/
  peer : PeerId
  /-- The name of the guest. -/
  name : String
  /-- The state of the protocol. -/
  state : ConnectionState
  /-- Whether the guest has been greeted. -/
  started : Bool
  /-- Where transmissions go. -/
  channel : Channel
  /-- The names of the types that this guest announced and the broker registered. -/
  imported : List String
  /-- The changes of state that the broker has not taken yet, in order. -/
  transitions : List Transition
  /-- The name under which the host greets. -/
  hostName : String

namespace Connection

/-- The topic of this module's notes. -/
private def topic : String := "connection"

/-- A connection over a new channel, before the greeting. -/
def ofChannel (peer : PeerId) (channel : Channel) : Connection where
  peer := peer
  name := unnamedPeer
  state := .connecting
  started := false
  channel := channel
  imported := []
  transitions := []
  hostName := ""

/-- Whether the connection is over. -/
def isClosed (c : Connection) : Bool := c.state == .closed

/-- Whether changes of state wait for the broker. -/
def hasTransitions (c : Connection) : Bool := !c.transitions.isEmpty

/-- The connection without its waiting changes of state. -/
def drained (c : Connection) : Connection := { c with transitions := [] }

/-! ## Changing state -/

/-- Enter a state and queue the change. A closed connection stays as it is. -/
def setState (c : Connection) (state : ConnectionState) (cause : Option String) :
    Noted Connection :=
  if c.isClosed then pure c
  else do
    Noted.note .debug topic "connection state change"
      [("peer", .number c.peer), ("from", .shown c.state.text), ("to", .shown state.text)]
    pure { c with state := state, transitions := c.transitions ++ [⟨state, cause⟩] }

/-- Close the connection and its channel. -/
def close (c : Connection) (cause : Option String) : Noted Connection :=
  if c.isClosed then pure c
  else do
    let c ← c.setState .closed cause
    pure { c with channel := c.channel.close }

/-- Close because the channel failed. -/
def transportFailed (c : Connection) (error : TransportError) : Noted Connection :=
  if c.isClosed then pure c
  else do
    match error with
    | .closed => Noted.note .debug topic "channel closed by peer" [("peer", .number c.peer)]
    | error =>
      Noted.note .error topic "channel failed"
        [("peer", .number c.peer), ("error", .shown error.message)]
    c.close (some (BrokerError.transport error).message)

/-- Close because processing failed. -/
def fail (c : Connection) (error : BrokerError) : Noted Connection := do
  Noted.note .error topic "closing connection"
    [("peer", .number c.peer), ("name", .shown c.name), ("error", .shown error.message)]
  c.close (some error.message)

/-- Pause delivery; only a connected connection can. -/
def suspend (c : Connection) : Noted (Connection × Bool) :=
  if c.state = .connected then do
    let c ← c.setState .suspended none
    pure (c, true)
  else pure (c, false)

/-- Go on with delivery after a pause. -/
def resume (c : Connection) : Noted (Connection × Bool) :=
  if c.state = .suspended then do
    let c ← c.setState .connected none
    pure (c, true)
  else pure (c, false)

/-! ## Sending -/

/-- Send a transmission. Nothing is sent while the connection is suspended or closed, and a
channel that fails closes the connection. -/
def send (c : Connection) (t : Transmission) : Noted Connection :=
  match c.state with
  | .closed => pure c
  | .suspended => do
    Noted.note .trace topic "dropping frame while suspended"
      [("peer", .number c.peer), ("type_name", .shown t.header.typeName)]
    pure c
  | _ =>
    match c.channel.send t with
    | (channel, none) => pure { c with channel := channel }
    | (channel, some error) => transportFailed { c with channel := channel } error

/-- Send a control message. -/
def sendControl (c : Connection) (message : ControlMessage) (now : Instant) : Noted Connection :=
  c.send (.ofControl message now)

/-- Send an object as the host. The included properties are those that are set, unless told
otherwise. -/
def sendObject (c : Connection) (schema : StructSchema) (o : Object)
    (included : Option PropertySet) (remove : Bool) (now : Instant) : Noted Connection :=
  let h := Header.forObject schema (included.getD (schema.validProperties o)) remove now
  c.send (.ofObject { h with sender := some hostId, serverSentTime := h.sentTime } o)

/-- Begin the handshake by greeting the guest. It can be begun only once. -/
def beginHandshake (c : Connection) (hostName : String) (now : Instant) :
    Noted (Connection × Outcome Unit) :=
  if c.started then pure (c, .error .handshakeAlreadyStarted)
  else do
    let c : Connection := { c with started := true, hostName := hostName }
    let c ← c.setState .connecting none
    let c ← c.sendControl (.hello hostName 0 false) now
    pure (c, .ok ())

/-! ## Receiving -/

/-- The header of what the guest sent, with what the host vouches for. -/
def stamp (c : Connection) (h : Header) (now : Instant) : Header :=
  { h with
    sender := some c.peer
    serverSentTime := some now
    sentTime := some (h.sentTime.getD now)
    isFromMyself := false }

/-- Name the guest, accept it and go on to the state it asked for. -/
def acceptConnect (c : Connection) (name : String) (preload : Bool) (now : Instant) :
    Noted Connection := do
  Noted.note .info topic "guest connected"
    [("peer", .number c.peer), ("name", .shown name), ("preload_cache", .truth preload)]
  let c : Connection := { c with name := name }
  -- The response is sent in the old state: a failing channel closes the connection, and a
  -- closed connection enters no other state.
  let c ← c.sendControl (.connectResponse (some c.hostName) (some c.peer) true preload false) now
  c.setState (if preload then .earlySubscribe else .connected) none

/-- Go on to live traffic and acknowledge it. -/
def finishPreload (c : Connection) (now : Instant) : Noted Connection := do
  let c ← c.setState .connected none
  c.sendControl .preloadFinished now

/-- Close because the guest sent a notice. -/
def peerReported (c : Connection) (code : UInt32) (text : String) : Noted Connection :=
  if code = NoticeCode.goodbye.number then do
    Noted.note .debug topic "guest said goodbye" [("peer", .number c.peer)]
    c.close none
  else do
    let error := BrokerError.peerError code text
    Noted.note .warn topic "guest reported an error"
      [("peer", .number c.peer), ("error", .shown error.message)]
    c.close (some error.message)

/-- The rejection of a control message in the present state. -/
def unexpected (c : Connection) (message : ControlMessage) : Received :=
  .rejected (.controlInState message.typeName c.state)

/-- Hand on an announced type, unless the broker has it from this guest already. -/
def announced (c : Connection) (typeName : String) (request : ControlRequest) : Noted Received :=
  if c.imported.contains typeName then do
    Noted.note .trace topic "schema already imported"
      [("peer", .number c.peer), ("type_name", .text typeName)]
    pure .handled
  else pure (.control request)

/-- What becomes of a control message from a guest that has named itself. -/
def classifyControl (c : Connection) (h : Header) (message : ControlMessage) : Noted Received :=
  match message with
  | .member group event => pure (.control (.member group event))
  | .descriptorRequest whitelist blacklist =>
    pure (.control (.descriptorRequest whitelist blacklist))
  | .clearCache typeNames => pure (.control (.clearCache typeNames h))
  | .structSchema schema => c.announced schema.name (.importStruct schema h)
  | .enumSchema schema => c.announced schema.name (.importEnum schema h)
  | message => pure (c.unexpected message)

/-- Process a control message other than a notice. -/
def receiveMessage (c : Connection) (h : Header) (message : ControlMessage) (now : Instant) :
    Noted (Connection × Received) :=
  match c.state with
  | .connecting =>
    match message with
    | .connect (some name) preload false => do
      let c ← c.acceptConnect name preload now
      pure (c, .handled)
    | message => pure (c, c.unexpected message)
  | .earlySubscribe =>
    if message.finishesPreload then do
      let c ← c.finishPreload now
      pure (c, .handled)
    else do
      let received ← c.classifyControl h message
      pure (c, received)
  | .connected => do
    let received ← c.classifyControl h message
    pure (c, received)
  | .suspended => pure (c, c.unexpected message)
  | .closed => pure (c, c.unexpected message)

/-- Classify an object in the control namespace, where objects of internal types travel. -/
def classifyInternal (c : Connection) (h : Header) (o : Object) : Received :=
  if isHostRecord o.typeName then .fatal (.invalidOperation (.hostRecord o.typeName))
  else
    match c.state with
    | .earlySubscribe => .object h o
    | .connected => .object h o
    | state => .rejected (.internalObjectInState o.typeName state)

/-- Classify an object outside the control namespace. -/
def classifyObject (c : Connection) (h : Header) (o : Object) : Received :=
  if c.state = .connected then .object h o
  else .rejected (.objectInState h.typeName c.state)

/-- Stamp, process and classify what the guest sent. -/
def receive (c : Connection) (t : Transmission) (now : Instant) : Noted (Connection × Received) :=
  if c.isClosed then pure (c, .handled)
  else
    let h := c.stamp t.header now
    match t.payload with
    | .object o => pure (c, if h.isControl then c.classifyInternal h o else c.classifyObject h o)
    | .control message =>
      if h.isControl then
        match message with
        | .error code text => do
          let c ← c.peerReported code text
          pure (c, .handled)
        | message => c.receiveMessage h message now
      else pure (c, .rejected (.controlOutsideNamespace message.typeName))

/-- Remember that the broker has registered a type which this guest announced. -/
def rememberImport (c : Connection) (typeName : String) : Connection :=
  if c.imported.contains typeName then c else { c with imported := c.imported ++ [typeName] }

end Connection

end ObjectBus
