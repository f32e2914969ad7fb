import ObjectBus.Broker.Basic

/-!
# Publishing

An object that the broker accepts, from a guest or from itself, is merged into the cache of its
type, told to local subscribers and observers, and handed to the group it goes to.
-/

namespace ObjectBus.Broker

/-- Hand a transmission to a group. -/
def fanout (b : Broker) (group : String) (t : Transmission) : Noted (Broker × Delivery) := do
  let r ← b.groups.deliver group t b.connections
  pure ({ b with connections := r.1 }, r.2)

/-- Apply an accepted object and hand it to its group. -/
def dispatch (b : Broker) (schema : StructSchema) (h : Header) (o : Object) (now : Instant) :
    Noted (Broker × Outcome Unit) := do
  let r ← b.dispatcher.apply schema h o h.isFromMyself now
  let b := { b with dispatcher := r.1 }
  match r.2 with
  | .error e => pure (b, .error e)
  | .ok dispatched => do
    let b := match dispatched.event with
      | some e => b.emit (.object e)
      | none => b
    -- Members get the object as it was sent, not as it was merged.
    let f ← b.fanout h.group (.ofObject h o)
    Noted.noteIf (f.2.failed ≠ []) .debug topic "fanout closed members"
      [("group", .text h.group), ("failed", .shown (peerList f.2.failed))]
    pure (f.1, .ok ())

/-- The header with which the host publishes an object. -/
def hostHeader (schema : StructSchema) (o : Object) (included : Option PropertySet) (remove : Bool)
    (now : Instant) : Header :=
  { Header.forObject schema (included.getD (schema.validProperties o)) remove now with
    sender := some hostId
    serverSentTime := some now
    isFromMyself := true }

/-- Publish an object as the host, without taking changes of state that follow from it. The
included properties are those that are set, unless told otherwise. -/
def publishAsHost (b : Broker) (o : Object) (included : Option PropertySet) (remove : Bool)
    (now : Instant) : Noted (Broker × Outcome Unit) :=
  match b.registry.resolve o.typeName with
  | .error e => pure (b, .error e)
  | .ok schema =>
    match schema.validate o with
    | .error e => pure (b, .error e)
    | .ok () => b.dispatch schema (hostHeader schema o included remove now) o now

/-- Publish an object as the host where nobody waits for the outcome: a failure is noted. -/
def publishOrNote (b : Broker) (o : Object) (included : Option PropertySet) (remove : Bool)
    (failure : String) (fields : List (String × NoteValue)) (now : Instant) : Noted Broker := do
  let r ← b.publishAsHost o included remove now
  match r.2 with
  | .ok () => pure r.1
  | .error e => do
    Noted.note .error topic failure (fields ++ [("error", .shown e.message)])
    pure r.1

/-- Remove cached objects one after the other. -/
def retract (b : Broker) (objects : List Object) (keys : PropertySet) (failure : String)
    (fields : List (String × NoteValue)) (now : Instant) : Noted Broker :=
  objects.foldlM (fun b o => b.publishOrNote o (some keys) true failure fields now) b

end ObjectBus.Broker
