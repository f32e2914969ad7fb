import ObjectBus.Broker.Drain

/-!
# Making types known

A struct type that is registered gets a number, a container if it is cached, and an
announcement that is published like any other object.
-/

namespace ObjectBus.Broker

/-- Give a new type its number and its container. -/
def adoptType (b : Broker) (schema : StructSchema) : Broker :=
  { b with
    typeIds := b.typeIds.insert schema.name b.nextTypeId
    nextTypeId := b.nextTypeId + 1
    dispatcher :=
      if schema.flags.cached then { b.dispatcher with pool := b.dispatcher.pool.touch schema }
      else b.dispatcher
    cleanupTypes :=
      if schema.flags.cached && schema.flags.cleanup then b.cleanupTypes ++ [schema.name]
      else b.cleanupTypes }

/-- Make a newly registered type known. -/
def onNewType (b : Broker) (schema : StructSchema) (now : Instant) : Noted Broker := do
  let id := b.nextTypeId
  Noted.note .info topic "registered struct type"
    [("type_id", .number id), ("type_name", .shown schema.name),
      ("flags", .shown schema.flags.text)]
  let b := (b.adoptType schema).emit (.typeAnnounced id schema.name)
  b.publishOrNote (TypeAnnounce.record id schema) none false "failed to announce type"
    [("type_name", .shown schema.name)] now

/-- A broker around a registry. Every type in it is announced as if it had just been
registered. -/
def ofRegistry (name : String) (registry : Registry) (eventCapacity : Nat) (now : Instant) :
    Noted Broker :=
  registry.structs.values.foldlM (fun b schema => b.onNewType schema now)
    (bare name registry eventCapacity)

/-- A broker that knows the built-in types. -/
def new (name : String) (now : Instant) : Noted Broker :=
  ofRegistry name .builtin defaultEventCapacity now

/-- Register a struct type; a new one is made known. -/
def registerStruct (b : Broker) (schema : StructSchema) (now : Instant) :
    Noted (Broker × Outcome Registered) :=
  match b.registry.registerStruct schema with
  | .error e => pure (b, .error e)
  | .ok (_, .unchanged) => pure (b, .ok .unchanged)
  | .ok (registry, .new) => do
    let b ← onNewType { b with registry := registry } schema now
    let b ← b.drain now
    pure (b, .ok .new)

/-- Register an enum type. -/
def registerEnum (b : Broker) (schema : EnumSchema) : Noted (Broker × Outcome Registered) :=
  match b.registry.registerEnum schema with
  | .error e => pure (b, .error e)
  | .ok (_, .unchanged) => pure (b, .ok .unchanged)
  | .ok (registry, .new) => do
    Noted.note .info topic "registered enum type" [("enum_name", .shown schema.name)]
    pure ({ b with registry := registry }, .ok .new)

end ObjectBus.Broker
