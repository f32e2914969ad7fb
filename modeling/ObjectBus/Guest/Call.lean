import ObjectBus.Guest.Basic

/-!
# Calls that wait

Some calls of a guest wait for what the host sends. Such a call is given by what it does with
each transmission that arrives, which either ends it or leaves it waiting, and by what it does
when the transport fails, which always ends it.

`await` lets a call take what has arrived until it ends. When nothing is left the stream is
closed.
-/

namespace ObjectBus

/-- What becomes of a call when something arrives. -/
inductive Progress (σ α : Type) where
  /-- It goes on waiting. -/
  | waiting (s : σ)
  /-- It has ended. -/
  | ended (a : α)

/-- A call that waits: `σ` is what it remembers meanwhile and `α` what it gives. -/
structure Call (σ α : Type) where
  /-- What it does with a transmission. -/
  take : σ → Transmission → Noted (Progress σ α)
  /-- What it gives when the transport fails. -/
  failed : σ → TransportError → α

namespace Call

/-- What a call does with an arrival. -/
def arrive (c : Call σ α) (s : σ) : Arrival → Noted (Progress σ α)
  | .ok t => c.take s t
  | .error e => pure (.ended (c.failed s e))

/-- Let a call take arrivals until it ends. Gives what it gave and the arrivals it left. -/
def await (c : Call σ α) (s : σ) : List Arrival → Noted (α × List Arrival)
  | [] => pure (c.failed s .closed, [])
  | a :: rest => do
    match ← c.arrive s a with
    | .waiting s => c.await s rest
    | .ended r => pure (r, rest)

end Call

/-- The error that a notice from the host reports. A goodbye is none. -/
def Transmission.reportedError? (t : Transmission) : Option BrokerError :=
  match t.payload with
  | .control (.error code text) =>
    if code = NoticeCode.goodbye.number then none else some (.peerError code text)
  | _ => none

namespace Guest

/-- A guest and the outcome of one of its calls. -/
abbrev Result (α : Type) := Guest × Outcome α

/-- The control message of a transmission that should carry one. -/
def controlOf (t : Transmission) : Outcome ControlMessage :=
  match t.reportedError? with
  | some e => .error e
  | none =>
    match t.payload with
    | .control message => .ok message
    | .object o => .error (.protocol (.objectInHandshake o.typeName))

/-- The outcome when the transport fails. -/
def transportFailed (g : Guest) (e : TransportError) : Result α := (g, .error (.transport e))

/-! ## The handshake -/

/-- Wait for the greeting and name oneself. -/
def greet (name : String) (preload : Bool) (now : Instant) : Call Guest (Result Unit) where
  take g t :=
    match controlOf t with
    | .ok (.hello serverName _ _) =>
      let g := { g with hostName := serverName }
      pure (.ended (g.sendControl (.connectAs name preload) now, .ok ()))
    | .ok other => pure (.ended (g, .error (.protocol (.otherControl "Hello" other.typeName))))
    | .error e => pure (.ended (g, .error e))
  failed := transportFailed

/-- Wait to be accepted. -/
def enter (preload : Bool) : Call Guest (Result Unit) where
  take g t :=
    match controlOf t with
    | .ok (.connectResponse _ (some peer) true _ _) => do
      Noted.note .info topic "connected to host"
        [("peer", .number peer), ("host", .shown g.hostName)]
      let state := if preload then .earlySubscribe else .connected
      pure (.ended ({ g with peer := peer, state := state }, .ok ()))
    | .ok other =>
      pure (.ended (g, .error (.protocol (.otherControl "ConnectResponse" other.typeName))))
    | .error e => pure (.ended (g, .error e))
  failed := transportFailed

/-- Do the whole handshake with what arrives. With preloading the guest stays in early
subscription until `finishPreload`. -/
def connect (name : String) (preload : Bool) (arrivals : List Arrival) (now : Instant) :
    Noted (Result Unit × List Arrival) := do
  let r ← (greet name preload now).await fresh arrivals
  match r.1.2 with
  | .error e => pure ((r.1.1, .error e), r.2)
  | .ok () => (enter preload).await r.1.1 r.2

/-! ## Preloading -/

/-- Whether a message acknowledges that preloading has finished. -/
def acknowledgesPreload : ControlMessage → Bool
  | .connectResponse _ _ _ _ finished => finished
  | _ => false

/-- Wait for the acknowledgement and keep what arrives before it. -/
def preloading : Call (Guest × List Transmission) (Result (List Transmission)) where
  take s t :=
    if (t.control?.map acknowledgesPreload).getD false then
      pure (.ended ({ s.1 with state := .connected }, .ok s.2))
    else
      match t.reportedError? with
      | some e => pure (.ended (s.1, .error e))
      | none => pure (.waiting (s.1, s.2 ++ [t]))
  failed s e := transportFailed s.1 e

/-- Leave early subscription. Gives what arrived before the host's acknowledgement. -/
def finishPreload (g : Guest) (arrivals : List Arrival) (now : Instant) :
    Noted (Result (List Transmission) × List Arrival) :=
  if g.state = .earlySubscribe then
    preloading.await (g.sendControl .preloadClientFinished now, []) arrivals
  else pure ((g, .error (.invalidOperation (.finishPreload g.state))), arrivals)

/-! ## Discovery -/

/-- Take type definitions up to the end of the discovery. What does not belong to it is
skipped. -/
def discovering : Call (Guest × List StructSchema) (Result (List StructSchema)) where
  take s t :=
    match t.reportedError? with
    | some e => pure (.ended (s.1, .error e))
    | none =>
      match t.payload with
      | .control (.structSchema schema) =>
        match s.1.registry.registerStruct schema with
        | .error e => pure (.ended (s.1, .error e))
        | .ok (registry, _) =>
          pure (.waiting ({ s.1 with registry := registry }, s.2 ++ [schema]))
      | .control (.enumSchema schema) =>
        match s.1.registry.registerEnum schema with
        | .error e => pure (.ended (s.1, .error e))
        | .ok (registry, _) => pure (.waiting ({ s.1 with registry := registry }, s.2))
      | .control (.cacheInfo _ _ true) => pure (.ended (s.1, .ok s.2))
      | _ => do
        Noted.note .debug topic "skipping frame during discovery"
          [("type_name", .shown t.header.typeName)]
        pure (.waiting s)
  failed s e := transportFailed s.1 e

/-- Ask for type definitions. -/
def askSchemas (g : Guest) (whitelist blacklist : Option (List String)) (now : Instant) : Guest :=
  g.sendControl (.descriptorRequest whitelist blacklist) now

/-- Ask for type definitions and wait for them. Gives the struct types; all definitions are
registered. -/
def requestSchemas (g : Guest) (whitelist blacklist : Option (List String))
    (arrivals : List Arrival) (now : Instant) :
    Noted (Result (List StructSchema) × List Arrival) :=
  discovering.await (g.askSchemas whitelist blacklist now, []) arrivals

/-! ## Receiving -/

/-- Take one transmission. A goodbye, like the end of the stream, gives none. -/
def receiving : Call Guest (Result (Option Transmission)) where
  take g t :=
    match t.payload with
    | .control (.error code text) =>
      if code = NoticeCode.goodbye.number then
        pure (.ended ({ g with state := .closed }, .ok none))
      else pure (.ended (g, .error (.peerError code text)))
    | _ => pure (.ended (g, .ok (some t)))
  failed g e :=
    if e = .closed then ({ g with state := .closed }, .ok none) else transportFailed g e

/-- Take the next transmission, or none when the host has closed the connection. -/
def receive (g : Guest) (arrivals : List Arrival) :
    Noted (Result (Option Transmission) × List Arrival) :=
  receiving.await g arrivals

end Guest

end ObjectBus
