import ObjectBus.Proofs.Broker.Drain

/-!
# Calls are chains of moves

Every call on a broker at rest is a chain of moves and leaves the broker at rest, whether it
succeeds or not (`perform_moves`, `perform_rests`). So in every reachable broker nothing waits
and every connection in the table is open (`Reachable.rested`). What a guest sends may make the
broker drain in the middle of a call; what follows from it is steps and drains (`Strand`).
-/

namespace ObjectBus.Broker

open Relation (ReflTransGen)

variable {call : BrokerCall} {now : Instant} {b b' b'' : Broker} {peer : PeerId} {c : Connection}
variable {t : Transmission} {request : ControlRequest}

/-- A part of a call: it is a chain of moves, and what waits goes on waiting. -/
def Works (call : BrokerCall) (now : Instant) (b b' : Broker) : Prop :=
  b.Queued [] → Moves call now b b' ∧ b'.Queued []

namespace Works

theorem trans (h : Works call now b b') (h' : Works call now b' b'') : Works call now b b'' := by
  intro hq
  obtain ⟨hmoves, hq'⟩ := h hq
  obtain ⟨hmoves', hq''⟩ := h' hq'
  exact ⟨hmoves.trans hmoves', hq''⟩

theorem of_steps (h : Steps call now b b') : Works call now b b' :=
  fun hq => ⟨Moves.of_steps h, hq.steps h⟩

theorem of_step (h : Step call now b b') : Works call now b b' := of_steps (.single h)

theorem drain (call : BrokerCall) (now : Instant) (b : Broker) :
    Works call now b (b.drain now).value :=
  fun hq => drain_spec call now hq

end Works

/-- A part of a call, taken apart: steps and drains in any order. -/
inductive Strand (call : BrokerCall) (now : Instant) : Broker → Broker → Prop
  /-- A chain of steps. -/
  | steps {b b' : Broker} (h : Steps call now b b') : Strand call now b b'
  /-- A drain. -/
  | drain (b : Broker) : Strand call now b (b.drain now).value
  /-- Two parts. -/
  | trans {b b' b'' : Broker} (h : Strand call now b b') (h' : Strand call now b' b'') :
      Strand call now b b''

namespace Strand

theorem refl (call : BrokerCall) (now : Instant) (b : Broker) : Strand call now b b := .steps .refl

theorem works (h : Strand call now b b') : Works call now b b' := by
  induction h with
  | steps h => exact .of_steps h
  | drain b => exact .drain call now b
  | trans _ _ ih ih' => exact ih.trans ih'

end Strand

/-! ## What is sent to one guest -/

theorem acts_sendControl (c : Connection) (message : ControlMessage) (now : Instant) :
    c.Acts now (c.sendControl message now).value :=
  .tell [message]

/-- Answering a guest with a notice, and closing its connection if it has to be. -/
theorem steps_report (b : Broker) (peer : PeerId) (e : BrokerError) :
    Steps call now b (b.report peer e now).value := by
  unfold report
  cases hc : b.connections.find? peer with
  | none => exact .refl
  | some c =>
    simp only
    split
    · exact steps_acts hc (.single (acts_sendControl c _ now))
    · exact steps_acts hc (.tail (.single (acts_sendControl c _ now)) (.close _))

theorem steps_settle (peer : PeerId) (r : Broker × Outcome Unit) :
    Steps call now r.1 (settle peer now r).value := by
  unfold settle
  split
  · exact .refl
  · exact steps_report r.1 peer _

theorem steps_discover (b : Broker) (peer : PeerId) (whitelist blacklist : List String) :
    Steps call now b (b.discover peer whitelist blacklist now).value.1 := by
  unfold discover
  cases hc : b.connections.find? peer with
  | none => exact .refl
  | some c =>
    simp only [Noted.value_bind, Noted.value_foldlM, Noted.value_pure]
    have hact : c.Acts now _ := .tell (Discovery.reply b.registry whitelist blacklist)
    rw [List.foldl_map] at hact
    exact steps_acts hc (.single hact)

theorem steps_confirmImport (b : Broker) (peer : PeerId) (typeName : String) :
    Steps call now b (b.confirmImport peer typeName) := by
  unfold confirmImport
  cases hc : b.connections.find? peer with
  | none => exact .refl
  | some c => exact steps_acts hc (.single (.rememberImport typeName))

/-- Saying goodbye to a guest. -/
theorem steps_farewell (b : Broker) (peer : PeerId) :
    Steps call now b (b.farewell peer now).value := by
  unfold farewell
  cases hc : b.connections.find? peer with
  | none => exact .refl
  | some c => exact steps_acts hc (.tail (.single (acts_sendControl c _ now)) (.close none))

/-! ## Types -/

/-- A new type becomes known and is announced. -/
theorem steps_onNewType {schema : StructSchema} (hcheck : schema.checkDefinition = .ok ())
    (hnew : b.registry.findStruct? schema.name = none) :
    Steps call now b
      (onNewType { b with registry := b.registry.addStruct schema } schema now).value := by
  unfold onNewType
  refine .head (.learn hcheck hnew) (.head (.announce ?_) (steps_publishOrNote _ _ _ _ _ _))
  simp

/-- Registering a struct type, which is made known if it is new. -/
theorem strand_registerStruct (b : Broker) (schema : StructSchema) :
    Strand call now b (b.registerStruct schema now).value.1 := by
  unfold registerStruct
  cases hregister : b.registry.registerStruct schema with
  | error e => exact .refl call now b
  | ok r =>
    obtain ⟨registry, outcome⟩ := r
    obtain ⟨hcheck, ⟨rfl, -, -⟩ | ⟨rfl, rfl, hnew⟩⟩ := Registry.registerStruct_cases hregister
    · exact .refl call now b
    · simp only [Noted.value_bind, Noted.value_pure]
      exact .trans (.steps (steps_onNewType hcheck hnew)) (.drain _)

/-- Registering an enum type. -/
theorem steps_registerEnum (b : Broker) (schema : EnumSchema) :
    Steps call now b (b.registerEnum schema).value.1 := by
  unfold registerEnum
  cases hregister : b.registry.registerEnum schema with
  | error e => exact .refl
  | ok r =>
    obtain ⟨registry, outcome⟩ := r
    obtain ⟨rfl, -⟩ | ⟨rfl, rfl⟩ := Registry.registerEnum_cases hregister
    · exact .refl
    · exact .single (.learnEnum schema)

/-! ## Caches -/

theorem steps_clearType (b : Broker) (typeName : String) :
    Steps call now b (b.clearType typeName now).value := by
  unfold clearType
  split
  · exact .refl
  · exact steps_retract b _ _ _ _

theorem strand_clearCache (b : Broker) (typeNames : List String) :
    Strand call now b (b.clearCache typeNames now).value := by
  unfold clearCache
  simp only [Noted.value_bind, Noted.value_foldlM]
  exact .trans (.steps (steps_foldl steps_clearType typeNames b)) (.drain _)

/-! ## What a guest sent -/

/-- Changing a membership, with the replay that joining may bring. -/
theorem steps_changeMembership {group : String} {event : MemberEvent}
    (hcall : call = .receive peer t) (hmessage : t.payload = .control (.member group event))
    (hc : b.connections.find? peer = some c) :
    Steps call now b (b.changeMembership peer group event now).value.1 := by
  unfold changeMembership
  cases event with
  | join =>
    simp only [Noted.value_bind]
    have hjoin : Step call now b { b with groups := (b.groups.join group peer).value.1 } :=
      .join hcall hmessage
    cases hschema : b.registry.findStruct? group with
    | none => exact .single hjoin
    | some schema =>
      simp only
      split
      · rename_i hcached
        exact .tail (.single hjoin) (.replay hcall hmessage hschema hcached hc)
      · exact .single hjoin
  | leave => exact .single (.leave hcall hmessage)
  | kill => exact .refl

/-- Doing the control work that a connection hands on. -/
theorem strand_acceptRequest (hcall : call = .receive peer t)
    (hc : b.connections.find? peer = some c)
    (hreceived : (c.receive t now).value.2 = .control request) :
    Strand call now b (b.acceptRequest peer request now).value.1 := by
  unfold acceptRequest
  cases request with
  | member group event =>
    have hmessage : t.payload = .control (.member group event) :=
      Connection.payload_of_receive hreceived
    exact .steps (steps_changeMembership hcall hmessage hc)
  | descriptorRequest whitelist blacklist => exact .steps (steps_discover b peer _ _)
  | clearCache typeNames h =>
    simp only [Noted.value_bind, Noted.value_pure]
    exact .trans (strand_clearCache b typeNames) (.steps (.single (.forward _ h _)))
  -- An import is confirmed and passed on only if the type could be registered.
  | importStruct schema h =>
    simp only [Noted.value_bind]
    have hregister : Strand call now b (b.registerStruct schema now).value.1 :=
      strand_registerStruct b schema
    split
    · exact hregister
    · refine hregister.trans (.steps (.tail (steps_confirmImport _ peer schema.name) ?_))
      split <;> exact .forward _ h _
  | importEnum schema h =>
    simp only [Noted.value_bind]
    have hregister : Steps call now b (b.registerEnum schema).value.1 :=
      steps_registerEnum b schema
    split
    · exact .steps hregister
    · simp only [Noted.value_bind, Noted.value_pure]
      refine .steps (hregister.trans (.tail (steps_confirmImport _ peer schema.name) ?_))
      exact .forward _ h _

/-- Checking and dispatching an object from a guest. -/
theorem steps_acceptObject {h : Header} {o : Object} (hcall : call = .receive peer t)
    (hc : b.connections.find? peer = some c)
    (hreceived : (c.receive t now).value.2 = .object h o) :
    Steps call now b (b.acceptObject h o now).value.1 := by
  unfold acceptObject Registry.resolve
  cases hschema : b.registry.findStruct? h.typeName with
  | none => exact .refl
  | some schema =>
    simp only
    split
    · exact .refl
    · rename_i hspace
      split
      · exact .refl
      · rename_i hvalid
        exact .single (.dispatch hcall hc hreceived hschema (not_not.1 hspace) hvalid)

/-- Everything that follows from what a guest sent, until the queues are drained. -/
theorem strand_acceptReceived (hcall : call = .receive peer t)
    (hc : b.connections.find? peer = some c) :
    Strand call now b ((b.putConnection peer (c.receive t now).value.1).acceptReceived peer
      (c.receive t now).value.2 now).value := by
  have hhear : Strand call now b (b.putConnection peer (c.receive t now).value.1) :=
    .steps (.single (.hear hcall hc))
  cases hreceived : (c.receive t now).value.2 with
  | handled => exact hhear
  | rejected violation => exact hhear.trans (.steps (steps_report _ peer _))
  | fatal e => exact hhear.trans (.steps (steps_report _ peer _))
  -- What is handed on leaves the connection as it was, so that hearing it was no step at all.
  | object h o =>
    obtain ⟨hsame, -⟩ := Connection.receive_eq_object hreceived
    rw [hsame, putConnection_self hc]
    exact .steps ((steps_acceptObject hcall hc hreceived).trans (steps_settle peer _))
  | control request =>
    obtain ⟨hsame, -⟩ := Connection.receive_eq_control hreceived
    rw [hsame, putConnection_self hc]
    exact (strand_acceptRequest hcall hc hreceived).trans (.steps (steps_settle peer _))

/-! ## Whole calls -/

/-- What a call does to a broker at rest: it moves it to a broker at rest. -/
def Completes (call : BrokerCall) (now : Instant) (b b' : Broker) : Prop :=
  b.Rested → Moves call now b b' ∧ b'.Rested

namespace Completes

theorem refl (call : BrokerCall) (now : Instant) (b : Broker) : Completes call now b b :=
  fun hr => ⟨.refl, hr⟩

theorem trans (h : Completes call now b b') (h' : Completes call now b' b'') :
    Completes call now b b'' := by
  intro hr
  obtain ⟨hmoves, hr'⟩ := h hr
  obtain ⟨hmoves', hr''⟩ := h' hr'
  exact ⟨hmoves.trans hmoves', hr''⟩

/-- A part of a call that is followed by draining. -/
theorem of_works (h : Works call now b b') : Completes call now b (b'.drain now).value := by
  intro hr
  obtain ⟨hmoves, hq⟩ := h hr.queued
  exact ⟨hmoves.trans (drain_moves hq), drain_rests hq⟩

/-- Steps that leave the connections alone. -/
theorem of_steps (h : Steps call now b b') (hsame : b'.connections = b.connections) :
    Completes call now b b' :=
  fun hr => ⟨Moves.of_steps h, fun peer c hc => hr peer c (hsame ▸ hc)⟩

end Completes

theorem completes_publish (b : Broker) (o : Object) (included : Option PropertySet)
    (remove : Bool) : Completes call now b (b.publish o included remove now).value.1 := by
  have hsteps : Steps call now b (b.publishAsHost o included remove now).value.1 :=
    steps_publishAsHost b o included remove
  unfold publish
  simp only [Noted.value_bind]
  split
  · -- A publication that failed has not reached any connection.
    rename_i e he
    refine .of_steps hsteps ?_
    rcases b.publishAsHost_cases o now included remove with ⟨schema, -, -, heq⟩ | heq
    · rw [heq] at he ⊢
      rw [outcome_dispatch] at he
      have hfails : b.applies schema (hostHeader schema o included remove now) o now = false := by
        unfold applies
        cases happlied : b.applied schema (hostHeader schema o included remove now) o now with
        | ok dispatched =>
          rw [happlied] at he
          cases he
        | error e' => rfl
      rw [Noted.value_pure, value_dispatch, hfails]
      rfl
    · rw [Noted.value_pure, heq]
  · exact .of_works (.of_steps hsteps)

theorem completes_sweep (b : Broker) (hcall : call = .sweep ∨ call = .shutdown) :
    Completes call now b (b.sweep now).value := by
  unfold sweep
  simp only [Noted.value_bind]
  have hforget : Step call now b b.forgetClosed := .forgetClosed hcall
  split
  · exact .of_steps (.single hforget) rfl
  · exact .of_works (.of_steps (.head hforget (steps_retract _ _ _ _ _)))

theorem completes_receive (b : Broker) (peer : PeerId) (t : Transmission) :
    Completes (.receive peer t) now b (b.receive peer t now).value.1 := by
  unfold receive
  cases hc : b.connections.find? peer with
  | none => exact .refl _ now b
  | some c => exact .of_works (strand_acceptReceived rfl hc).works

theorem completes_transportFailed (b : Broker) (peer : PeerId) (error : TransportError) :
    Completes call now b (b.transportFailed peer error now).value := by
  unfold transportFailed
  cases hc : b.connections.find? peer with
  | none => exact .refl _ now b
  | some c =>
    simp only [Noted.value_bind, Connection.value_transportFailed]
    exact .of_works (.of_step (.act hc (.close _)))

theorem completes_remove (b : Broker) (o : Object) :
    Completes call now b (b.remove o now).value.1 := by
  unfold Broker.remove
  split
  · exact .refl _ now b
  · exact completes_publish b o _ true

theorem completes_clearCache (b : Broker) (typeNames : List String) :
    Completes call now b (b.clearCache typeNames now).value := by
  unfold clearCache
  simp only [Noted.value_bind, Noted.value_foldlM]
  exact .of_works (.of_steps (steps_foldl steps_clearType typeNames b))

theorem completes_registerStruct (b : Broker) (schema : StructSchema) :
    Completes call now b (b.registerStruct schema now).value.1 := by
  unfold registerStruct
  cases hregister : b.registry.registerStruct schema with
  | error e => exact .refl _ now b
  | ok r =>
    obtain ⟨registry, outcome⟩ := r
    obtain ⟨hcheck, ⟨rfl, -, -⟩ | ⟨rfl, rfl, hnew⟩⟩ := Registry.registerStruct_cases hregister
    · exact .refl _ now b
    · exact .of_works (.of_steps (steps_onNewType hcheck hnew))

theorem completes_registerEnum (b : Broker) (schema : EnumSchema) :
    Completes call now b (b.registerEnum schema).value.1 := by
  refine .of_steps (steps_registerEnum b schema) ?_
  unfold registerEnum
  split <;> rfl

theorem completes_subscribe (b : Broker) (typeName : String) :
    Completes call now b (b.subscribe typeName now).1 := by
  unfold subscribe
  split
  · exact .refl _ now b
  · exact .of_steps (.single (.subscribe _)) rfl

theorem completes_shutdown (b : Broker) :
    Completes .shutdown now b (b.shutdown now).value := by
  unfold shutdown
  simp only [Noted.value_bind, Noted.value_foldlM]
  have hfarewell : Steps .shutdown now b
      (b.connections.keys.foldl (fun b peer => (b.farewell peer now).value) b) :=
    steps_foldl steps_farewell _ _
  -- The sweep finds a broker at rest, since the goodbyes have been drained before it.
  exact .trans (.of_works (.of_steps hfarewell)) (completes_sweep _ (.inr rfl))

theorem completes_disturb (b : Broker) (peer : PeerId)
    (refusal : List ChannelAction → Transmission → Option TransportError) :
    Completes call now b (b.disturb peer refusal) := by
  unfold disturb
  cases hc : b.connections.find? peer with
  | none => exact .refl _ now b
  | some c =>
    intro hr
    refine ⟨.single (.step (.act hc (.disturb refusal))), fun q c' hc' => ?_⟩
    simp only [find?_putConnection] at hc'
    split at hc'
    · obtain rfl := Option.some.inj hc'
      exact hr peer c hc
    · exact hr q c' hc'

/-- Every call moves a broker at rest to a broker at rest. -/
theorem completes_perform (b : Broker) (call : BrokerCall) (now : Instant) :
    Completes call now b (b.perform call now) := by
  cases call with
  | accept channel => exact .of_works (.of_step (.accept rfl))
  | receive peer t => exact completes_receive b peer t
  | transportFailed peer error => exact completes_transportFailed b peer error
  | publish o included remove => exact completes_publish b o included remove
  | remove o => exact completes_remove b o
  | clearCache typeNames => exact completes_clearCache b typeNames
  | registerStruct schema => exact completes_registerStruct b schema
  | registerEnum schema => exact completes_registerEnum b schema
  | subscribe typeName => exact completes_subscribe b typeName
  | unsubscribe id => exact .of_steps (.single (.unsubscribe id)) rfl
  | sweep => exact completes_sweep b (.inl rfl)
  | shutdown => exact completes_shutdown b
  | disturb peer refusal => exact completes_disturb b peer refusal

/-- A call on a broker at rest is a chain of moves. -/
theorem perform_moves (hr : b.Rested) (call : BrokerCall) (now : Instant) :
    Moves call now b (b.perform call now) :=
  (completes_perform b call now hr).1

/-- A call on a broker at rest leaves it at rest. -/
theorem perform_rests (hr : b.Rested) (call : BrokerCall) (now : Instant) :
    (b.perform call now).Rested :=
  (completes_perform b call now hr).2

/-! ## Starting -/

theorem registry_publishAsHost (b : Broker) (o : Object) (included : Option PropertySet)
    (remove : Bool) (now : Instant) :
    (b.publishAsHost o included remove now).value.1.registry = b.registry := by
  rcases b.publishAsHost_cases o now included remove with ⟨schema, -, -, heq⟩ | heq
  · rw [heq, registry_dispatch]
  · rw [heq]

theorem registry_onNewType (b : Broker) (schema : StructSchema) (now : Instant) :
    (b.onNewType schema now).value.registry = b.registry := by
  unfold onNewType
  simp only [Noted.value_bind, value_publishOrNote]
  exact registry_publishAsHost _ _ _ _ now

/-- What holds of a broker that has not made its types known yet, and is kept when a known type is
made known, holds of a broker that was started. It may depend on the types that have been made
known, which in the end are those of the registry. -/
theorem ofRegistry_onNewType_induction {I : List StructSchema → Broker → Prop}
    {registry : Registry} (hwf : registry.WellFormed) {name : String} {eventCapacity : Nat}
    (hbare : I [] (bare name registry eventCapacity))
    (hnew : ∀ {adopted : List StructSchema} {b : Broker} {schema : StructSchema}, I adopted b →
      b.registry.findStruct? schema.name = some schema →
        I (adopted ++ [schema]) (b.onNewType schema now).value) :
    I registry.structs.values (ofRegistry name registry eventCapacity now).value := by
  have hknown : ∀ schema ∈ registry.structs.values,
      registry.findStruct? schema.name = some schema := by
    intro schema hmem
    exact hwf.findStruct?_eq_some_iff.2 ⟨hmem, rfl⟩
  -- All types of the registry stay known while they are made known one after the other.
  have hfold : ∀ (l adopted : List StructSchema) (b : Broker), I adopted b →
      (∀ schema ∈ l, b.registry.findStruct? schema.name = some schema) →
      I (adopted ++ l) (l.foldl (fun b schema => (b.onNewType schema now).value) b) := by
    intro l
    induction l with
    | nil => exact fun adopted b hb _ => (List.append_nil adopted).symm ▸ hb
    | cons schema rest ih =>
      intro adopted b hb hl
      have hrest := ih (adopted ++ [schema]) (b.onNewType schema now).value
        (hnew hb (hl schema List.mem_cons_self)) fun s hs => ?_
      · rwa [List.append_assoc, List.singleton_append] at hrest
      · rw [registry_onNewType]
        exact hl s (List.mem_cons_of_mem _ hs)
  unfold ofRegistry
  rw [Noted.value_foldlM]
  exact hfold _ [] _ hbare hknown

/-- What holds of a broker that has not made its types known yet, and is kept when a known type
is adopted and by every step, holds of a broker that was started. -/
theorem ofRegistry_induction {I : List StructSchema → Broker → Prop} {registry : Registry}
    (hwf : registry.WellFormed) {name : String} {eventCapacity : Nat}
    (hbare : I [] (bare name registry eventCapacity))
    (hadopt : ∀ {adopted : List StructSchema} {b : Broker} {schema : StructSchema}, I adopted b →
      b.registry.findStruct? schema.name = some schema →
        I (adopted ++ [schema]) (b.adoptType schema))
    (hstep : ∀ {adopted b b'}, I adopted b → Step .sweep now b b' → I adopted b') :
    I registry.structs.values (ofRegistry name registry eventCapacity now).value := by
  refine ofRegistry_onNewType_induction hwf hbare fun {adopted b schema} hb hs => ?_
  have hsteps : Steps .sweep now (b.adoptType schema) (b.onNewType schema now).value := by
    refine .head (.announce ?_) (steps_publishOrNote _ _ _ _ _ _)
    simp
  exact Steps.induction hstep (hadopt hb hs) hsteps

/-- Starting adds no types to the registry. -/
theorem registry_ofRegistry (name : String) (registry : Registry) (eventCapacity : Nat)
    (now : Instant) : (ofRegistry name registry eventCapacity now).value.registry = registry := by
  have hfold : ∀ (l : List StructSchema) (b : Broker),
      (l.foldl (fun b schema => (b.onNewType schema now).value) b).registry = b.registry := by
    intro l
    induction l with
    | nil => exact fun _ => rfl
    | cons schema rest ih =>
      intro b
      rw [List.foldl_cons, ih, registry_onNewType]
  unfold ofRegistry
  rw [Noted.value_foldlM]
  exact hfold _ _

/-- In a reachable broker nothing waits, and every connection in the table is open. -/
theorem Reachable.rested (h : b.Reachable) : b.Rested := by
  induction h with
  | @start registry hbuilt name eventCapacity now =>
    -- No guest can come before the broker has started.
    have hnobody : ∀ peer,
        (ofRegistry name registry eventCapacity now).value.connections.find? peer = none := by
      refine ofRegistry_induction (I := fun _ b => ∀ peer, b.connections.find? peer = none)
        hbuilt.wellFormed (fun peer => rfl) (fun hb _ => hb) ?_
      intro _ b b' hb h peer
      rcases h.connection peer with ⟨channel, hcall, -⟩ | hrel
      · cases hcall
      · exact (eq_none_iff_of_rel hrel).2 (hb peer)
    intro peer c hc
    rw [hnobody peer] at hc
    cases hc
  | perform _ call now ih => exact perform_rests ih call now

/-- What a broker starts with, and what every step, the taking of the queues and the leaving of
a closed connection keep, holds of every reachable broker. -/
theorem Reachable.induction {I : Broker → Prop}
    (hbare : ∀ {registry : Registry} (name : String) (eventCapacity : Nat), registry.Built →
      I (bare name registry eventCapacity))
    (hadopt : ∀ {b : Broker} {schema : StructSchema}, I b →
      b.registry.findStruct? schema.name = some schema → I (b.adoptType schema))
    (hstep : ∀ {call now b b'}, I b → Step call now b b' → I b')
    (htake : ∀ {b}, I b → I b.takePending)
    (haside : ∀ {b peer}, I b → (∀ c, b.connections.find? peer = some c → c.isClosed = true) →
      I (b.setAside peer))
    (h : b.Reachable) : I b := by
  induction h with
  | start hbuilt name eventCapacity now =>
    exact ofRegistry_induction (I := fun _ b => I b) hbuilt.wellFormed
      (hbare name eventCapacity hbuilt) hadopt hstep
  | perform hb call now ih =>
    exact Moves.induction hstep htake haside ih (perform_moves hb.rested call now)

end ObjectBus.Broker
