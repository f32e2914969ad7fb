import ObjectBus.Broker.Housekeeping
import ObjectBus.Proofs.PropertySet
import ObjectBus.Proofs.SortedMap

/-!
# Runs of a broker

A broker is driven by calls: the program that embeds it accepts guests, hands over what they
send, publishes, registers types and cleans up. A run is any sequence of calls, each at its own
time. The channels may fail in any way: how a channel fails is part of the channel, and a call
may replace it (`disturb`).

* `BrokerCall` and `Broker.perform`: one call and what it makes of a broker;
* `Registry.Built`: the registries around which a broker can be started;
* `Broker.Reachable`: the brokers that some run leads to;
* `Broker.board`: one of them, with notes.
-/

namespace ObjectBus

/-- One call on a broker. -/
inductive BrokerCall where
  /-- Take over a new channel and greet the guest at its other end. -/
  | accept (channel : Channel)
  /-- Process a transmission from a guest. -/
  | receive (peer : PeerId) (t : Transmission)
  /-- The transport of a guest failed. -/
  | transportFailed (peer : PeerId) (error : TransportError)
  /-- Publish an object as the host. -/
  | publish (o : Object) (included : Option PropertySet) (remove : Bool)
  /-- Remove an object as the host. -/
  | remove (o : Object)
  /-- Remove every cached object of the named types. -/
  | clearCache (typeNames : List String)
  /-- Register a struct type. -/
  | registerStruct (schema : StructSchema)
  /-- Register an enum type. -/
  | registerEnum (schema : EnumSchema)
  /-- Subscribe to the objects of a type. -/
  | subscribe (typeName : String)
  /-- End a subscription. -/
  | unsubscribe (id : SubscriptionId)
  /-- Forget closed connections and stale records. -/
  | sweep
  /-- Say goodbye to every guest and sweep. -/
  | shutdown
  /-- From now on the channel of a guest fails in another way. -/
  | disturb (peer : PeerId)
      (refusal : List ChannelAction → Transmission → Option TransportError)

namespace Connection

/-- A connection whose channel fails in another way from now on. -/
def disturbed (c : Connection)
    (refusal : List ChannelAction → Transmission → Option TransportError) : Connection :=
  { c with channel := { c.channel with refusal := refusal } }

end Connection

namespace Broker

/-- Let the channel of a guest fail in another way. -/
def disturb (b : Broker) (peer : PeerId)
    (refusal : List ChannelAction → Transmission → Option TransportError) : Broker :=
  match b.connections.find? peer with
  | none => b
  | some c => b.putConnection peer (c.disturbed refusal)

/-- The broker after a call, whether the call succeeded or not. -/
def perform (b : Broker) (call : BrokerCall) (now : Instant) : Broker :=
  match call with
  | .accept channel => (b.accept channel now).value.1
  | .receive peer t => (b.receive peer t now).value.1
  | .transportFailed peer error => (b.transportFailed peer error now).value
  | .publish o included remove => (b.publish o included remove now).value.1
  | .remove o => (b.remove o now).value.1
  | .clearCache typeNames => (b.clearCache typeNames now).value
  | .registerStruct schema => (b.registerStruct schema now).value.1
  | .registerEnum schema => (b.registerEnum schema).value.1
  | .subscribe typeName => (b.subscribe typeName now).1
  | .unsubscribe id => (b.unsubscribe id).1
  | .sweep => (b.sweep now).value
  | .shutdown => (b.shutdown now).value
  | .disturb peer refusal => b.disturb peer refusal

/-- The broker after some calls, each at its own time. -/
def after (b : Broker) (calls : List (BrokerCall × Instant)) : Broker :=
  calls.foldl (fun b call => b.perform call.1 call.2) b

end Broker

/-! ## Where runs begin -/

namespace Registry

/-- A registry that was built by registering types. -/
inductive Built : Registry → Prop
  /-- A registry begins without types. -/
  | empty : Built .empty
  /-- A struct type was registered. -/
  | registerStruct {r r' : Registry} {s : StructSchema} {outcome : Registered} (h : Built r)
      (hs : r.registerStruct s = .ok (r', outcome)) : Built r'
  /-- An enum type was registered. -/
  | registerEnum {r r' : Registry} {s : EnumSchema} {outcome : Registered} (h : Built r)
      (hs : r.registerEnum s = .ok (r', outcome)) : Built r'

/-- Every struct type is known under its own name and has a definition that is in order. -/
def WellFormed (r : Registry) : Prop :=
  ∀ name s, r.findStruct? name = some s → s.name = name ∧ s.checkDefinition = .ok ()

/-- What registering a struct type does: a definition that is in order is added under a name
that was free, or is there already. -/
theorem registerStruct_cases {r r' : Registry} {s : StructSchema} {outcome : Registered}
    (hs : r.registerStruct s = .ok (r', outcome)) :
    s.checkDefinition = .ok () ∧
      (outcome = .unchanged ∧ r' = r ∧ r.findStruct? s.name = some s ∨
        outcome = .new ∧ r' = r.addStruct s ∧ r.findStruct? s.name = none) := by
  unfold registerStruct at hs
  cases hcheck : s.checkDefinition with
  | error e =>
    rw [hcheck] at hs
    cases hs
  | ok u =>
    refine ⟨rfl, ?_⟩
    simp only [hcheck, bind, Except.bind] at hs
    cases hfind : r.findStruct? s.name with
    | none =>
      simp only [hfind, Except.ok.injEq, Prod.mk.injEq] at hs
      exact .inr ⟨hs.2.symm, hs.1.symm, rfl⟩
    | some known =>
      simp only [hfind] at hs
      split at hs
      · rename_i heq
        simp only [Except.ok.injEq, Prod.mk.injEq] at hs
        exact .inl ⟨hs.2.symm, hs.1.symm, by rw [heq]⟩
      · cases hs

/-- What registering an enum type does. -/
theorem registerEnum_cases {r r' : Registry} {s : EnumSchema} {outcome : Registered}
    (hs : r.registerEnum s = .ok (r', outcome)) :
    outcome = .unchanged ∧ r' = r ∨ outcome = .new ∧ r' = r.addEnum s := by
  unfold registerEnum at hs
  cases hfind : r.findEnum? s.name with
  | none =>
    simp only [hfind, Except.ok.injEq, Prod.mk.injEq] at hs
    exact .inr ⟨hs.2.symm, hs.1.symm⟩
  | some known =>
    simp only [hfind] at hs
    split at hs
    · simp only [Except.ok.injEq, Prod.mk.injEq] at hs
      exact .inl ⟨hs.2.symm, hs.1.symm⟩
    · cases hs

@[simp]
theorem findStruct?_addStruct (r : Registry) (s : StructSchema) (name : String) :
    (r.addStruct s).findStruct? name = if name = s.name then some s else r.findStruct? name := by
  simp [addStruct, findStruct?]

theorem wellFormed_addStruct {r : Registry} (h : r.WellFormed) {s : StructSchema}
    (hcheck : s.checkDefinition = .ok ()) : (r.addStruct s).WellFormed := by
  intro name s' hs'
  rw [findStruct?_addStruct] at hs'
  split at hs'
  · rename_i hname
    obtain rfl := Option.some.inj hs'
    exact ⟨hname.symm, hcheck⟩
  · exact h name s' hs'

namespace WellFormed

variable {r : Registry}

/-- The types of a registry are found under their names. -/
theorem findStruct?_eq_some_iff (h : r.WellFormed) {name : String} {s : StructSchema} :
    r.findStruct? name = some s ↔ s ∈ r.structs.values ∧ s.name = name := by
  rw [SortedMap.mem_values_iff]
  constructor
  · intro hs
    exact ⟨⟨name, hs⟩, (h name s hs).1⟩
  · rintro ⟨⟨name', hs⟩, rfl⟩
    rwa [findStruct?, (h name' s hs).1]

theorem map_name_values (h : r.WellFormed) :
    r.structs.values.map (·.name) = r.structs.keys := by
  rw [SortedMap.values, SortedMap.keys, List.map_map]
  refine List.map_congr_left fun binding hmem => ?_
  exact (h _ _ (SortedMap.find?_eq_some_iff.2 hmem)).1

/-- No two types of a registry have the same name. -/
theorem nodup_names (h : r.WellFormed) : (r.structs.values.map (·.name)).Nodup := by
  rw [h.map_name_values]
  exact SortedMap.nodup_keys r.structs

end WellFormed

/-- Registering types keeps a registry well-formed. -/
theorem Built.wellFormed {r : Registry} (h : r.Built) : r.WellFormed := by
  induction h with
  | empty =>
    intro name s hs
    cases hs
  | registerStruct _ hs ih =>
    obtain ⟨hcheck, ⟨-, rfl, -⟩ | ⟨-, rfl, -⟩⟩ := registerStruct_cases hs
    · exact ih
    · exact wellFormed_addStruct ih hcheck
  | registerEnum _ hs ih =>
    obtain ⟨-, rfl⟩ | ⟨-, rfl⟩ := registerEnum_cases hs
    · exact ih
    · exact ih

/-- A definition that is in order can be registered under a free name. -/
theorem registerStruct_of_new {r : Registry} {s : StructSchema}
    (hcheck : s.checkDefinition = .ok ()) (hnew : r.findStruct? s.name = none) :
    r.registerStruct s = .ok (r.addStruct s, .new) := by
  simp [registerStruct, hcheck, hnew, bind, Except.bind]

/-- The built-in types are registered like any others. -/
theorem built_builtin : builtin.Built := by
  have hpeer : empty.registerStruct PeerState.schema =
      .ok (empty.addStruct PeerState.schema, .new) := registerStruct_of_new rfl rfl
  have hnew : (empty.addStruct PeerState.schema).findStruct? TypeAnnounce.schema.name = none := by
    rw [findStruct?_addStruct, if_neg (by decide)]
    rfl
  exact .registerEnum (.registerStruct (.registerStruct .empty hpeer)
    (registerStruct_of_new rfl hnew)) rfl

end Registry

namespace Broker

/-- The brokers that some run leads to: a broker is started around a registry and then called
in any way. -/
inductive Reachable : Broker → Prop
  /-- A broker is started. -/
  | start {registry : Registry} (h : registry.Built) (name : String) (eventCapacity : Nat)
      (now : Instant) : Reachable (ofRegistry name registry eventCapacity now).value
  /-- A broker is called. -/
  | perform {b : Broker} (h : Reachable b) (call : BrokerCall) (now : Instant) :
      Reachable (b.perform call now)

/-- A broker that knows the built-in types is reachable. -/
theorem reachable_new (name : String) (now : Instant) : (new name now).value.Reachable :=
  .start Registry.built_builtin name defaultEventCapacity now

/-- Calls lead from reachable brokers to reachable ones. -/
theorem Reachable.after {b : Broker} (h : b.Reachable) (calls : List (BrokerCall × Instant)) :
    (b.after calls).Reachable := by
  induction calls generalizing b with
  | nil => exact h
  | cons call rest ih => exact ih (h.perform call.1 call.2)

/-! ## A board of notes -/

/-- A cached type of notes that go with the guest that wrote them last. -/
def noteSchema : StructSchema where
  name := "Note"
  flags := { cached := true, cleanup := true }
  properties := [
    { name := "id", tag := 1, kind := .uint, key := true },
    { name := "text", tag := 2, kind := .string }]

/-- A note. -/
def note (id : UInt64) (text : String) : Object :=
  ((Object.empty noteSchema.name).set 1 (.uint id)).set 2 (.str text)

/-- A broker that knows notes only, on which the host has published one, and that a guest has
reached. -/
def board : Broker :=
  (ofRegistry "board" (Registry.empty.addStruct noteSchema) 1 default).value.after
    [(.publish (note 1 "welcome") none false, default),
      (.accept (.reliable "reader"), default)]

theorem reachable_board : board.Reachable :=
  Reachable.after
    (.start (.registerStruct .empty (Registry.registerStruct_of_new rfl rfl)) _ _ _) _

/-- The board when its guest has been accepted, with or without preloading. -/
def boardWithReader (preload : Bool) : Broker :=
  board.perform (.receive 2 (.ofControl (.connectAs "reader" preload) default)) default

/-- The request to join the group of the notes. -/
def joinNotes : Transmission := .ofControl (.member noteSchema.name .join) default

/-- A note that the host publishes later. -/
def news : BrokerCall := .publish (note 2 "news") none false

end Broker

end ObjectBus
