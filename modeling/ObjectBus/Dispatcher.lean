import ObjectBus.Audit.Note
import ObjectBus.Cache.Container

/-!
# The dispatcher

The dispatcher applies objects to the caches and tells the subscribers of their types what
happened. A subscriber of a cached type is first told of every object that is cached already,
as if it were being created.
-/

namespace ObjectBus

/-- What happened to one object. -/
structure ObjectEvent where
  /-- The header with which the object came. -/
  header : Header
  /-- The object as cached after the write, or as it came if its type is not cached. -/
  object : Object
  /-- The object as it came. -/
  transmitted : Object
  /-- Where the state of the object comes from. -/
  provenance : Provenance
  /-- Whether the host itself published it. -/
  isFromMyself : Bool
deriving DecidableEq, Inhabited

namespace ObjectEvent

/-- What the write did. -/
def operation (e : ObjectEvent) : Operation := e.provenance.lastOperation

/-- The type under which the object came. -/
def typeName (e : ObjectEvent) : String := e.header.typeName

end ObjectEvent

/-- The handle of a subscription. -/
structure SubscriptionId where
  /-- Subscriptions are numbered from zero. -/
  number : Nat
deriving DecidableEq, Repr, Inhabited

/-- What became of an object that was applied. -/
structure Dispatched where
  /-- Whether its type is cached. -/
  cached : Bool
  /-- What happened to it, if anything changed. -/
  event : Option ObjectEvent
deriving DecidableEq

/-- The caches and the local subscribers. -/
structure Dispatcher where
  /-- The caches. -/
  pool : ContainerPool
  /-- The subscriptions to each type, the oldest first. -/
  subscribers : SortedMap String (List SubscriptionId)
  /-- The number of the next subscription. -/
  nextSubscription : Nat
  /-- What subscribers have been told so far, in order. -/
  told : List (SubscriptionId × ObjectEvent)

namespace Dispatcher

/-- A dispatcher with neither caches nor subscribers. -/
def empty : Dispatcher := ⟨.empty, .empty, 0, []⟩

instance : Inhabited Dispatcher := ⟨empty⟩

/-- The event of an entry that a header's write left behind. -/
def eventOf (h : Header) (o : Object) (isFromMyself : Bool) (e : Entry) : ObjectEvent where
  header := h
  object := e.object
  transmitted := o
  provenance := e.provenance
  isFromMyself := isFromMyself

/-- Apply an object of a cached type to its container. -/
def applyCached (d : Dispatcher) (schema : StructSchema) (h : Header) (o : Object)
    (isFromMyself : Bool) (now : Instant) : Dispatcher × Outcome (Option ObjectEvent) :=
  let d := { d with pool := d.pool.touch schema }
  let c := d.pool.getD schema
  let keep (c : Container) : Dispatcher := { d with pool := d.pool.put schema.name c }
  if h.remove then
    match c.remove h o now with
    | .error e => (d, .error e)
    | .ok (c, e) => (keep c, .ok (e.map (eventOf h o isFromMyself)))
  else
    match c.insert h o now with
    | .error e => (d, .error e)
    | .ok (c, e) => (keep c, .ok (some (eventOf h o isFromMyself e)))

/-- The event of an object whose type is not cached. -/
def uncachedEvent (h : Header) (o : Object) (isFromMyself : Bool) (now : Instant) :
    ObjectEvent where
  header := h
  object := o
  transmitted := o
  provenance := .ofCreate h now
  isFromMyself := isFromMyself

/-- Tell the subscribers of an event's type. -/
def tell (d : Dispatcher) (e : ObjectEvent) : Noted Dispatcher :=
  match d.subscribers.find? e.typeName with
  | none => pure d
  | some ids => do
    Noted.note .trace "dispatcher" "notifying subscribers"
      [("type_name", .shown e.typeName), ("handlers", .count ids.length)]
    pure { d with told := d.told ++ ids.map (·, e) }

/-- Apply one object and tell the subscribers of its type what happened. Removing an object
whose type is not cached does nothing. -/
def apply (d : Dispatcher) (schema : StructSchema) (h : Header) (o : Object)
    (isFromMyself : Bool) (now : Instant) : Noted (Dispatcher × Outcome Dispatched) :=
  if schema.flags.cached then
    match d.applyCached schema h o isFromMyself now with
    | (d, .error e) => pure (d, .error e)
    | (d, .ok none) => pure (d, .ok ⟨true, none⟩)
    | (d, .ok (some e)) => do
      let d ← d.tell e
      pure (d, .ok ⟨true, some e⟩)
  else if h.remove then do
    Noted.note .warn "dispatcher" "remove of uncached type ignored"
      [("type_name", .shown schema.name)]
    pure (d, .ok ⟨false, none⟩)
  else do
    let e := uncachedEvent h o isFromMyself now
    let d ← d.tell e
    pure (d, .ok ⟨false, some e⟩)

/-- What a new subscriber is told of an object in a replay. -/
def replayEvent (c : Container) (h : Header) (o : Object) (now : Instant) : ObjectEvent where
  header := h
  object := o
  transmitted := o
  provenance :=
    let known := match c.findObject? o with
      | some e => e.provenance
      | none => .ofCreate h now
    { known with lastOperation := .create }
  isFromMyself := false

/-- What a new subscriber of a type is told first. -/
def replayEvents (d : Dispatcher) (typeName : String) (now : Instant) : List ObjectEvent :=
  match d.pool.find? typeName with
  | none => []
  | some c => (c.replay now).filterMap fun t => t.object?.map fun o => replayEvent c t.header o now

/-- Subscribe to a type. -/
def subscribe (d : Dispatcher) (schema : StructSchema) (now : Instant) :
    Dispatcher × SubscriptionId :=
  let id : SubscriptionId := ⟨d.nextSubscription⟩
  let older := (d.subscribers.find? schema.name).getD []
  ({ d with
      subscribers := d.subscribers.insert schema.name (older ++ [id])
      nextSubscription := d.nextSubscription + 1
      told := d.told ++ (d.replayEvents schema.name now).map (id, ·) }, id)

/-- End a subscription. -/
def unsubscribe (d : Dispatcher) (id : SubscriptionId) : Dispatcher × Outcome Unit :=
  if d.subscribers.values.any (·.contains id) then
    ({ d with subscribers := d.subscribers.map fun _ ids => ids.filter (· ≠ id) }, .ok ())
  else (d, .error (.invalidOperation (.noSubscription id.number)))

end Dispatcher

end ObjectBus
