import Mathlib.Logic.Relation
import ObjectBus.Proofs.Broker.Call
import ObjectBus.Proofs.Broker.Publish

/-!
# What a call does, step by step

Every call is a chain of small steps, each of which concerns one connection, one accepted
object, one membership, one replay or one type (`Step`). In between the broker takes the
queued changes of state, and a connection that has closed leaves the table together with its
objects (`Move`).

What all runs keep is proved for each step, from there for each move (`Move.induction`) and from
there for each call.

* `Step.connection`, `Step.stays`: what steps do to the table of connections;
* `onClosed_steps`: what follows when a connection has closed is a chain of steps.
-/

namespace ObjectBus

open Relation (ReflTransGen)

/-! ## Steps -/

/-- What a host does with one connection, apart from processing what the guest sent. -/
inductive Connection.Acts (now : Instant) (c : Connection) : Connection → Prop
  /-- The guest is sent control messages. -/
  | tell (messages : List ControlMessage) :
      Acts now c ((messages.map (Transmission.ofControl · now)).foldl
        (fun c t => (c.send t).value) c)
  /-- The connection is closed. -/
  | close (cause : Option String) : Acts now c (c.close cause).value
  /-- A type that the guest announced was registered. -/
  | rememberImport (typeName : String) : Acts now c (c.rememberImport typeName)
  /-- The channel fails in another way from now on. -/
  | disturb (refusal : List ChannelAction → Transmission → Option TransportError) :
      Acts now c (c.disturbed refusal)

namespace Broker

/-- The connection to a new guest, who has been greeted. -/
def greeted (b : Broker) (channel : Channel) (now : Instant) : Connection :=
  ((Connection.ofChannel b.nextPeer channel).beginHandshake b.name now).value.1

/-- One step of a call. -/
inductive Step (call : BrokerCall) (now : Instant) (b : Broker) : Broker → Prop
  /-- A new guest is greeted. -/
  | accept {channel : Channel} (hcall : call = .accept channel) :
      Step call now b
        ({ b with nextPeer := b.nextPeer + 1 }.putConnection b.nextPeer (b.greeted channel now))
  /-- A connection processes what its guest sent. -/
  | hear {peer : PeerId} {t : Transmission} {c : Connection} (hcall : call = .receive peer t)
      (hc : b.connections.find? peer = some c) :
      Step call now b (b.putConnection peer (c.receive t now).value.1)
  /-- The host does something with a connection. -/
  | act {peer : PeerId} {c c' : Connection} (hc : b.connections.find? peer = some c)
      (hact : c.Acts now c') : Step call now b (b.putConnection peer c')
  /-- The host publishes an object. -/
  | publish {schema : StructSchema} {o : Object}
      (hschema : b.registry.findStruct? o.typeName = some schema)
      (hvalid : schema.validate o = .ok ()) (included : Option PropertySet) (remove : Bool) :
      Step call now b (b.dispatch schema (hostHeader schema o included remove now) o now).value.1
  /-- An object from a guest is accepted. -/
  | dispatch {peer : PeerId} {t : Transmission} {c : Connection} {schema : StructSchema}
      {h : Header} {o : Object} (hcall : call = .receive peer t)
      (hc : b.connections.find? peer = some c)
      (hreceived : (c.receive t now).value.2 = .object h o)
      (hschema : b.registry.findStruct? h.typeName = some schema)
      (hspace : h.isControl = schema.flags.internal) (hvalid : schema.validate o = .ok ()) :
      Step call now b
        (b.dispatch schema { h with attributes := acceptedAttributes schema h o } o now).value.1
  /-- A control message is handed on to a group. -/
  | forward (group : String) (h : Header) (message : ControlMessage) :
      Step call now b (b.forward group ⟨h, .control message⟩).value
  /-- A guest joins a group. -/
  | join {peer : PeerId} {t : Transmission} {group : String} (hcall : call = .receive peer t)
      (hmessage : t.payload = .control (.member group .join)) :
      Step call now b { b with groups := (b.groups.join group peer).value.1 }
  /-- A guest leaves a group. -/
  | leave {peer : PeerId} {t : Transmission} {group : String} (hcall : call = .receive peer t)
      (hmessage : t.payload = .control (.member group .leave)) :
      Step call now b { b with groups := (b.groups.leave group peer).value.1 }
  /-- A guest that joins the group of a cached type is brought up to date. -/
  | replay {peer : PeerId} {t : Transmission} {group : String} {c : Connection}
      {schema : StructSchema} (hcall : call = .receive peer t)
      (hmessage : t.payload = .control (.member group .join))
      (hschema : b.registry.findStruct? group = some schema)
      (hcached : schema.flags.cached = true) (hc : b.connections.find? peer = some c) :
      Step call now b (b.replayTo peer schema now).value.1
  /-- A struct type becomes known. -/
  | learn {schema : StructSchema} (hcheck : schema.checkDefinition = .ok ())
      (hnew : b.registry.findStruct? schema.name = none) :
      Step call now b ({ b with registry := b.registry.addStruct schema }.adoptType schema)
  /-- An enum type becomes known. -/
  | learnEnum (schema : EnumSchema) :
      Step call now b { b with registry := b.registry.addEnum schema }
  /-- Observers are told of something other than an object. -/
  | announce {e : BrokerEvent} (he : ∀ event, e ≠ .object event) : Step call now b (b.emit e)
  /-- A local subscription begins. -/
  | subscribe (schema : StructSchema) :
      Step call now b { b with dispatcher := (b.dispatcher.subscribe schema now).1 }
  /-- A local subscription ends. -/
  | unsubscribe (id : SubscriptionId) :
      Step call now b { b with dispatcher := (b.dispatcher.unsubscribe id).1 }
  /-- The closed connections are forgotten. -/
  | forgetClosed (hcall : call = .sweep ∨ call = .shutdown) : Step call now b b.forgetClosed

/-- One move of a call: a step, the taking of the queued changes of state, or the closing of a
connection with all that follows from it. -/
inductive Move (call : BrokerCall) (now : Instant) (b : Broker) : Broker → Prop
  /-- A step. -/
  | step {b' : Broker} (h : Step call now b b') : Move call now b b'
  /-- The queued changes of state are taken. -/
  | take : Move call now b b.takePending
  /-- A connection that has closed leaves the table, and its objects go with it. -/
  | closing {peer : PeerId}
      (hclosed : ∀ c, b.connections.find? peer = some c → c.isClosed = true) :
      Move call now b (b.onClosed peer now).value

/-- A chain of steps of one call. -/
abbrev Steps (call : BrokerCall) (now : Instant) : Broker → Broker → Prop :=
  ReflTransGen (Step call now)

/-- A chain of moves of one call. -/
abbrev Moves (call : BrokerCall) (now : Instant) : Broker → Broker → Prop :=
  ReflTransGen (Move call now)

end Broker

/-! ## What steps do to the table of connections -/

namespace Connection

variable {c c' : Connection} {now : Instant}

/-- The host sends nothing but control messages on its own account. -/
theorem Acts.advances (h : c.Acts now c') : c.Advances Transmission.NoObject c' := by
  cases h with
  | tell messages =>
    refine advances_foldl_send _ c fun t ht => ?_
    obtain ⟨message, -, rfl⟩ := List.mem_map.1 ht
    exact Transmission.noObject_ofControl message now
  | close cause => exact advances_close _ c cause
  | rememberImport typeName =>
    unfold Connection.rememberImport
    split
    · exact .refl _ c
    · exact .of_eq _ rfl rfl rfl rfl
  | disturb refusal => exact .of_eq _ rfl rfl rfl rfl

/-- The host leaves the state of a connection as it is or closes it. -/
theorem Acts.settles (h : c.Acts now c') : c.Settles c' := by
  cases h with
  | tell messages => exact settles_foldl_send _ c
  | close cause => exact settles_close c cause
  | rememberImport typeName =>
    unfold Connection.rememberImport
    split
    · exact .refl c
    · exact .inl ⟨rfl, rfl⟩
  | disturb refusal => exact .inl ⟨rfl, rfl⟩

/-- A connection is greeted while it is connecting. -/
theorem advances_beginHandshake (peer : PeerId) (channel : Channel) (hostName : String)
    (now : Instant) :
    (ofChannel peer channel).Advances Transmission.NoObject
      ((ofChannel peer channel).beginHandshake hostName now).value.1 := by
  let started : Connection :=
    { ofChannel peer channel with started := true, hostName := hostName }
  have hstart : (ofChannel peer channel).Advances Transmission.NoObject started :=
    .of_eq _ rfl rfl rfl rfl
  have hstate : started.Advances Transmission.NoObject (started.setState .connecting none).value :=
    advances_setState _ none fun _ => Nat.le_refl _
  exact (hstart.trans hstate).trans (advances_sendControl _ _ now)

theorem state_beginHandshake (peer : PeerId) (channel : Channel) (hostName : String)
    (now : Instant) :
    ((ofChannel peer channel).beginHandshake hostName now).value.1.state = .connecting ∨
      ((ofChannel peer channel).beginHandshake hostName now).value.1.state = .closed :=
  (settles_send _ _).state

end Connection

namespace Broker

variable {call : BrokerCall} {now : Instant} {b b' : Broker} {peer : PeerId} {c c' : Connection}

@[simp]
theorem find?_putConnection (b : Broker) (peer q : PeerId) (c : Connection) :
    (b.putConnection peer c).connections.find? q =
      if q = peer then some c else b.connections.find? q := by
  simp [putConnection]

/-- Putting a connection where it is already changes nothing. -/
theorem putConnection_self (hc : b.connections.find? peer = some c) :
    b.putConnection peer c = b := by
  have htable : b.connections.insert peer c = b.connections := by
    refine SortedMap.ext fun q => ?_
    rw [SortedMap.find?_insert]
    split
    · rename_i hq
      rw [hq, hc]
    · rfl
  rw [putConnection, htable]

/-- Of two connections put in one place the later one counts. -/
theorem putConnection_putConnection (b : Broker) (peer : PeerId) (c c' : Connection) :
    (b.putConnection peer c).putConnection peer c' = b.putConnection peer c' := by
  have htable : (b.connections.insert peer c).insert peer c' = b.connections.insert peer c' := by
    refine SortedMap.ext fun q => ?_
    simp only [SortedMap.find?_insert]
    split <;> rfl
  simp only [putConnection, htable]

theorem connections_forward (b : Broker) (group : String) (t : Transmission) :
    (b.forward group t).value.connections = (b.groups.deliver group t b.connections).value.1 :=
  rfl

-- What is found under a key in one table is related to what is found in another.
section Rel

variable {α : Type} {r : α → α → Prop} {o o' o'' : Option α}

theorem rel_refl (hr : ∀ a, r a a) (o : Option α) : Option.Rel r o o := by
  cases o with
  | none => exact .none
  | some a => exact .some (hr a)

theorem rel_map {f : α → α} (hr : ∀ a, r a (f a)) (o : Option α) : Option.Rel r o (o.map f) := by
  cases o with
  | none => exact .none
  | some a => exact .some (hr a)

theorem rel_trans (hr : ∀ {a a' a''}, r a a' → r a' a'' → r a a'') (h : Option.Rel r o o')
    (h' : Option.Rel r o' o'') : Option.Rel r o o'' := by
  cases h with
  | none => exact h'
  | some hfirst =>
    cases h' with
    | some hsecond => exact .some (hr hfirst hsecond)

theorem eq_none_iff_of_rel (h : Option.Rel r o o') : o' = none ↔ o = none := by
  cases h <;> simp

theorem exists_after_of_rel (h : Option.Rel r o o') {a : α} (ho : o = some a) :
    ∃ a', o' = some a' ∧ r a a' := by
  subst ho
  cases h with
  | some hr => exact ⟨_, rfl, hr⟩

theorem exists_before_of_rel (h : Option.Rel r o o') {a' : α} (ho' : o' = some a') :
    ∃ a, o = some a ∧ r a a' := by
  subst ho'
  cases h with
  | some hr => exact ⟨_, rfl, hr⟩

end Rel

/-- How a step may change the connection of a peer: it advances, and unless its guest sent
something it settles. -/
def Changes (call : BrokerCall) (peer : PeerId) (c c' : Connection) : Prop :=
  c.Advances (fun _ => True) c' ∧ ((∀ t, call ≠ .receive peer t) → c.Settles c')

/-- What holds between a connection and itself after sending, after what the host does with it and
after hearing its guest, holds between the connection of a peer before and after a step, unless the
peer is new. -/
theorem Step.connection_of {r : Connection → Connection → Prop}
    (hsend : ∀ (ts : List Transmission) c, r c (ts.foldl (fun c t => (c.send t).value) c))
    (hact : ∀ c c', c.Acts now c' → r c c')
    (hhear : ∀ t c, call = .receive peer t → r c (c.receive t now).value.1)
    (h : Step call now b b') :
    (∃ channel, call = .accept channel ∧ peer = b.nextPeer ∧
      b'.connections.find? peer = some (b.greeted channel now)) ∨
    Option.Rel r (b.connections.find? peer) (b'.connections.find? peer) := by
  have hsame : Option.Rel r (b.connections.find? peer) (b.connections.find? peer) :=
    rel_refl (hsend []) _
  have hput : ∀ {q c c'}, b.connections.find? q = some c → (peer = q → r c c') →
      Option.Rel r (b.connections.find? peer)
        ((b.putConnection q c').connections.find? peer) := by
    intro q c c' hc hchanges
    rw [find?_putConnection]
    split
    · rename_i hq
      rw [hq, hc]
      exact .some (hchanges hq)
    · exact hsame
  have hoffered : ∀ t : Transmission, Option.Rel r
      (b.connections.find? peer) ((b.connections.find? peer).map (·.offered t)) := by
    refine fun t => rel_map (fun c => ?_) _
    unfold Connection.offered
    split
    · exact hsend [t] c
    · exact hsend [] c
  cases h with
  | @accept channel hcall =>
    by_cases hpeer : peer = b.nextPeer
    · exact .inl ⟨channel, hcall, hpeer, by simp [hpeer]⟩
    · refine .inr ?_
      rw [find?_putConnection, if_neg hpeer]
      exact hsame
  -- Hearing may do more to a connection than close it, but only to that of the sender.
  | @hear q t c hcall hc => exact .inr (hput hc fun hq => hhear t c (hq ▸ hcall))
  | act hc hact' => exact .inr (hput hc fun _ => hact _ _ hact')
  | publish hschema hvalid included remove =>
    refine .inr ?_
    rw [find?_dispatch]
    split
    · exact hoffered _
    · exact hsame
  | dispatch hcall hc hreceived hschema hspace hvalid =>
    refine .inr ?_
    rw [find?_dispatch]
    split
    · exact hoffered _
    · exact hsame
  | forward group h message =>
    refine .inr ?_
    rw [connections_forward, GroupTable.find?_deliver]
    split
    · exact hoffered _
    · exact hsame
  | replay hcall hmessage hschema hcached hc =>
    refine .inr ?_
    rw [value_replayTo _ _ _ hc]
    exact hput hc fun _ => hsend _ _
  | join | leave | learn | learnEnum | announce | subscribe | unsubscribe | forgetClosed =>
    exact .inr hsame

/-- A step leaves every connection in the table and lets it change as it may, except that a new
guest takes the place of its number. -/
theorem Step.connection (h : Step call now b b') (peer : PeerId) :
    (∃ channel, call = .accept channel ∧ peer = b.nextPeer ∧
      b'.connections.find? peer = some (b.greeted channel now)) ∨
    Option.Rel (Changes call peer) (b.connections.find? peer) (b'.connections.find? peer) := by
  refine h.connection_of (fun ts c => ?_) (fun c c' hact => ?_) (fun t c hcall => ?_)
  · exact ⟨Connection.advances_foldl_send ts c fun _ _ => trivial,
      fun _ => Connection.settles_foldl_send ts c⟩
  · exact ⟨hact.advances.mono fun _ _ => trivial, fun _ => hact.settles⟩
  · exact ⟨(c.advances_receive t now).mono fun _ _ => trivial, fun hquiet =>
      absurd hcall (hquiet t)⟩

/-- No step takes a connection out of the table. -/
theorem Step.stays (h : Step call now b b') (hc : ∃ c, b.connections.find? peer = some c) :
    ∃ c', b'.connections.find? peer = some c' := by
  obtain ⟨c, hc⟩ := hc
  rcases h.connection peer with ⟨channel, -, -, hfresh⟩ | hrel
  · exact ⟨_, hfresh⟩
  · obtain ⟨c', hc', -⟩ := exists_after_of_rel hrel hc
    exact ⟨c', hc'⟩

/-- No step forgets a struct type or changes its definition. -/
theorem Step.findStruct? (h : Step call now b b') {name : String} {s : StructSchema}
    (hs : b.registry.findStruct? name = some s) : b'.registry.findStruct? name = some s := by
  cases h with
  | @learn schema hcheck hnew =>
    -- A type is learned only while no other type has its name.
    have hne : name ≠ schema.name := by
      rintro rfl
      rw [hnew] at hs
      cases hs
    simpa [adoptType, hne] using hs
  | publish => rwa [registry_dispatch]
  | dispatch => rwa [registry_dispatch]
  | replay hcall hmessage hschema hcached hc => rwa [value_replayTo _ _ _ hc]
  | accept | hear | act | forward | join | leave | learnEnum | announce | subscribe |
    unsubscribe | forgetClosed => exact hs

/-! ## Chains of steps -/

theorem steps_foldl {α : Type} {f : Broker → α → Broker}
    (hf : ∀ b a, Steps call now b (f b a)) (l : List α) (b : Broker) :
    Steps call now b (l.foldl f b) := by
  induction l generalizing b with
  | nil => exact .refl
  | cons a rest ih => exact (hf b a).trans (ih (f b a))

/-- Whatever the host does with one connection, one after the other, is a chain of steps. -/
theorem steps_acts (hc : b.connections.find? peer = some c)
    (hacts : ReflTransGen (Connection.Acts now) c c') :
    Steps call now b (b.putConnection peer c') := by
  induction hacts with
  | refl =>
    rw [putConnection_self hc]
  | @tail c₁ c₂ _ hact ih =>
    rw [← putConnection_putConnection b peer c₁ c₂]
    exact ih.tail (.act (by simp) hact)

theorem steps_publishAsHost (b : Broker) (o : Object) (included : Option PropertySet)
    (remove : Bool) : Steps call now b (b.publishAsHost o included remove now).value.1 := by
  rcases b.publishAsHost_cases o now included remove with ⟨schema, hschema, hvalid, heq⟩ | heq
  · rw [heq]
    exact .single (.publish hschema hvalid included remove)
  · rw [heq]

theorem steps_publishOrNote (b : Broker) (o : Object) (included : Option PropertySet)
    (remove : Bool) (failure : String) (fields : List (String × NoteValue)) :
    Steps call now b (b.publishOrNote o included remove failure fields now).value := by
  rw [value_publishOrNote]
  exact steps_publishAsHost b o included remove

theorem steps_retract (b : Broker) (objects : List Object) (keys : PropertySet)
    (failure : String) (fields : List (String × NoteValue)) :
    Steps call now b (b.retract objects keys failure fields now).value := by
  rw [value_retract]
  exact steps_foldl (fun b o => steps_publishAsHost b o (some keys) true) objects b

theorem steps_cleanUpType (b : Broker) (peer : PeerId) (typeName : String) :
    Steps call now b (b.cleanUpType peer typeName now).value := by
  unfold cleanUpType
  split
  · exact .refl
  · simp only
    split
    · exact .refl
    · exact steps_retract b _ _ _ _

/-- What follows when a connection has closed: it leaves the table, and the rest is a chain of
steps. -/
theorem onClosed_steps (b : Broker) (peer : PeerId) :
    Steps call now (b.setAside peer) (b.onClosed peer now).value := by
  unfold onClosed
  rw [Noted.value_foldlM]
  exact steps_foldl (fun b typeName => steps_cleanUpType b peer typeName) _ _

theorem Moves.of_steps (h : Steps call now b b') : Moves call now b b' :=
  ReflTransGen.mono (fun _ _ => Move.step) _ _ h

/-- What every step keeps, every chain of steps keeps. -/
theorem Steps.induction {I : Broker → Prop} (hstep : ∀ {b b'}, I b → Step call now b b' → I b')
    (hI : I b) (h : Steps call now b b') : I b' := by
  induction h with
  | refl => exact hI
  | tail _ h ih => exact hstep ih h

/-- What every step keeps, and the leaving of a closed connection and the taking of the queues
as well, every move keeps. -/
theorem Move.induction {I : Broker → Prop} (hstep : ∀ {b b'}, I b → Step call now b b' → I b')
    (htake : ∀ {b}, I b → I b.takePending)
    (haside : ∀ {b peer}, I b → (∀ c, b.connections.find? peer = some c → c.isClosed = true) →
      I (b.setAside peer))
    (hI : I b) (h : Move call now b b') : I b' := by
  cases h with
  | step h => exact hstep hI h
  | take => exact htake hI
  | @closing peer hclosed =>
    exact Steps.induction hstep (haside hI hclosed) (onClosed_steps b peer)

/-- What every step keeps, and the leaving of a closed connection and the taking of the queues
as well, every chain of moves keeps. -/
theorem Moves.induction {I : Broker → Prop} (hstep : ∀ {b b'}, I b → Step call now b b' → I b')
    (htake : ∀ {b}, I b → I b.takePending)
    (haside : ∀ {b peer}, I b → (∀ c, b.connections.find? peer = some c → c.isClosed = true) →
      I (b.setAside peer))
    (hI : I b) (h : Moves call now b b') : I b' := by
  induction h with
  | refl => exact hI
  | tail _ h ih => exact Move.induction hstep htake haside ih h

end Broker

end ObjectBus
