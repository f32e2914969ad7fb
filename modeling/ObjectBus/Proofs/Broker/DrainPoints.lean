import ObjectBus.Proofs.Broker.HostRecords
import ObjectBus.Proofs.Broker.Rounds

/-!
# Where calls drain

Calls drain at their end, and what a guest asks for may make them drain before that. All of these
drains have an end, and what they leave behind is at rest.

* `Broker.DrainsAt`: the states in which a call drains;
* `perform_drains`: after its last drain a call does nothing but steps;
* `Reachable.buried`: so in every reachable broker no closed connection has anything queued;
* `Reachable.drain_finishes`: the drains of all calls end within as many rounds as there are
  connections, and one.
-/

namespace ObjectBus.Broker

open Relation (ReflTransGen)

variable {call : BrokerCall} {now : Instant} {b b' s : Broker}

/-! ## The states in which calls drain -/

/-- The broker when it has said goodbye to every guest. -/
def farewells (b : Broker) (now : Instant) : Broker :=
  b.connections.keys.foldl (fun b peer => (b.farewell peer now).value) b

/-- The states in which a call on a broker drains: what the call does before the drain, step by
step. A call may drain more than once. -/
inductive DrainsAt (now : Instant) : Broker → BrokerCall → Broker → Prop
  /-- A guest that arrives has been greeted. -/
  | accept (b : Broker) (channel : Channel) : DrainsAt now b (.accept channel)
      ({ b with nextPeer := b.nextPeer + 1 }.putConnection b.nextPeer (b.greeted channel now))
  /-- What a guest sent has been dealt with. -/
  | receive {b : Broker} {peer : PeerId} {c : Connection}
      (hc : b.connections.find? peer = some c) (t : Transmission) :
      DrainsAt now b (.receive peer t)
        ((b.putConnection peer (c.receive t now).value.1).acceptReceived peer
          (c.receive t now).value.2 now).value
  /-- A guest has asked to clear caches, and their objects have been removed. -/
  | receiveClearCache {b s : Broker} {peer : PeerId} {c : Connection} {t : Transmission}
      {typeNames : List String} {h : Header} (hc : b.connections.find? peer = some c)
      (hreceived : (c.receive t now).value.2 = .control (.clearCache typeNames h))
      (hs : DrainsAt now (b.putConnection peer (c.receive t now).value.1)
        (.clearCache typeNames) s) : DrainsAt now b (.receive peer t) s
  /-- A guest has announced a type, and it has been made known. -/
  | receiveStruct {b s : Broker} {peer : PeerId} {c : Connection} {t : Transmission}
      {schema : StructSchema} {h : Header} (hc : b.connections.find? peer = some c)
      (hreceived : (c.receive t now).value.2 = .control (.importStruct schema h))
      (hs : DrainsAt now (b.putConnection peer (c.receive t now).value.1)
        (.registerStruct schema) s) : DrainsAt now b (.receive peer t) s
  /-- A connection has closed because its transport failed. -/
  | transportFailed {b : Broker} {peer : PeerId} {c : Connection}
      (hc : b.connections.find? peer = some c) (error : TransportError) :
      DrainsAt now b (.transportFailed peer error)
        (b.putConnection peer (c.transportFailed error).value)
  /-- An object has been published. -/
  | publish {b : Broker} {o : Object} {included : Option PropertySet} {remove : Bool}
      (hok : (b.publishAsHost o included remove now).value.2 = .ok ()) :
      DrainsAt now b (.publish o included remove)
        (b.publishAsHost o included remove now).value.1
  /-- The removal of an object has been published. -/
  | remove {b s : Broker} {o : Object} {schema : StructSchema}
      (hschema : b.registry.resolve o.typeName = .ok schema)
      (hs : DrainsAt now b (.publish o (some schema.keyProperties) true) s) :
      DrainsAt now b (.remove o) s
  /-- Cached objects have been removed. -/
  | clearCache (b : Broker) (typeNames : List String) : DrainsAt now b (.clearCache typeNames)
      (typeNames.foldl (fun b typeName => (b.clearType typeName now).value) b)
  /-- A new type has been made known. -/
  | registerStruct {b : Broker} {schema : StructSchema} {registry : Registry}
      (hregister : b.registry.registerStruct schema = .ok (registry, .new)) :
      DrainsAt now b (.registerStruct schema)
        (onNewType { b with registry := registry } schema now).value
  /-- Closed connections have been forgotten, and stale records have been retracted. -/
  | sweep {b : Broker} {c : Container} (hc : b.forgetClosed.container? peerStateType = some c) :
      DrainsAt now b .sweep (b.forgetClosed.retract (c.objects.filter b.forgetClosed.isStale)
        c.schema.keyProperties "failed to retract peer state" [] now).value
  /-- Goodbye has been said to every guest. -/
  | farewells (b : Broker) : DrainsAt now b .shutdown (b.farewells now)
  /-- After that a sweep has followed. -/
  | shutdown {b s : Broker} (hs : DrainsAt now ((b.farewells now).drain now).value .sweep s) :
      DrainsAt now b .shutdown s

theorem steps_farewells (b : Broker) : Steps call now b (b.farewells now) :=
  steps_foldl steps_farewell _ _

/-- Shutting down is saying goodbye, processing what follows and sweeping. -/
theorem value_shutdown (b : Broker) (now : Instant) :
    (b.shutdown now).value = (((b.farewells now).drain now).value.sweep now).value := by
  unfold shutdown
  simp only [Noted.value_bind, Noted.value_foldlM]
  rfl

theorem steps_onNewType_of_new {schema : StructSchema} {registry : Registry}
    (hregister : b.registry.registerStruct schema = .ok (registry, .new)) :
    Steps call now b (onNewType { b with registry := registry } schema now).value := by
  obtain ⟨hcheck, ⟨hold, -⟩ | ⟨-, rfl, hnew⟩⟩ := Registry.registerStruct_cases hregister
  · cases hold
  · exact steps_onNewType hcheck hnew

/-- A call reaches the states in which it drains by steps and earlier drains. -/
theorem DrainsAt.strand (h : DrainsAt now b call s) : Strand call now b s := by
  cases h with
  | accept channel => exact .steps (.single (.accept rfl))
  | receive hc t => exact strand_acceptReceived rfl hc
  | receiveClearCache hc hreceived hs =>
    cases hs with
    | clearCache =>
      exact .steps (.head (.hear rfl hc) (steps_foldl steps_clearType _ _))
  | receiveStruct hc hreceived hs =>
    cases hs with
    | registerStruct hregister =>
      exact .steps (.head (.hear rfl hc) (steps_onNewType_of_new hregister))
  | transportFailed hc error =>
    rw [Connection.value_transportFailed]
    exact .steps (.single (.act hc (.close _)))
  | publish hok => exact .steps (steps_publishAsHost b _ _ _)
  | remove hschema hs =>
    cases hs with
    | publish hok => exact .steps (steps_publishAsHost b _ _ _)
  | clearCache typeNames => exact .steps (steps_foldl steps_clearType _ b)
  | registerStruct hregister => exact .steps (steps_onNewType_of_new hregister)
  | sweep hc => exact .steps (.head (.forgetClosed (.inl rfl)) (steps_retract _ _ _ _ _))
  | farewells => exact .steps (steps_farewells b)
  | shutdown hs =>
    cases hs with
    | sweep hc =>
      refine .trans (.trans (.steps (steps_farewells b)) (.drain _)) (.steps ?_)
      exact .head (.forgetClosed (.inr rfl)) (steps_retract _ _ _ _ _)

/-! ## Whole calls -/

/-- A call leads from one state to another by steps that follow its last drain, or by steps
alone. -/
def Drains (call : BrokerCall) (now : Instant) (b b' : Broker) : Prop :=
  (∃ s, DrainsAt now b call s ∧ Steps call now (s.drain now).value b') ∨ Steps call now b b'

namespace Drains

/-- A call that ends with a drain. -/
theorem of_drain (h : DrainsAt now b call s) : Drains call now b (s.drain now).value :=
  .inl ⟨s, h, .refl⟩

theorem of_steps (h : Steps call now b b') : Drains call now b b' := .inr h

theorem refl (call : BrokerCall) (now : Instant) (b : Broker) : Drains call now b b := .inr .refl

end Drains

theorem drains_receive (b : Broker) (peer : PeerId) (t : Transmission) :
    Drains (.receive peer t) now b (b.receive peer t now).value.1 := by
  unfold receive
  cases hc : b.connections.find? peer with
  | none => exact .refl _ now b
  | some c => exact .of_drain (.receive hc t)

theorem drains_transportFailed (b : Broker) (peer : PeerId) (error : TransportError) :
    Drains (.transportFailed peer error) now b (b.transportFailed peer error now).value := by
  unfold transportFailed
  cases hc : b.connections.find? peer with
  | none => exact .refl _ now b
  | some c => exact .of_drain (.transportFailed hc error)

/-- A publication that fails is not followed by a drain. -/
theorem publish_cases (b : Broker) (o : Object) (included : Option PropertySet) (remove : Bool)
    (now : Instant) :
    (∃ s, DrainsAt now b (.publish o included remove) s ∧
      (b.publish o included remove now).value.1 = (s.drain now).value) ∨
    (b.publish o included remove now).value.1 =
      (b.publishAsHost o included remove now).value.1 := by
  unfold publish
  simp only [Noted.value_bind]
  split
  · exact .inr rfl
  · rename_i hok
    exact .inl ⟨_, .publish hok, rfl⟩

theorem drains_publish (b : Broker) (o : Object) (included : Option PropertySet) (remove : Bool) :
    Drains (.publish o included remove) now b (b.publish o included remove now).value.1 := by
  rcases b.publish_cases o included remove now with ⟨s, hs, heq⟩ | heq
  · rw [heq]
    exact .of_drain hs
  · rw [heq]
    exact .of_steps (steps_publishAsHost b o included remove)

theorem drains_remove (b : Broker) (o : Object) :
    Drains (.remove o) now b (b.remove o now).value.1 := by
  unfold Broker.remove
  split
  · exact .refl _ now b
  · rename_i schema hschema
    rcases b.publish_cases o (some schema.keyProperties) true now with ⟨s, hs, heq⟩ | heq
    · rw [heq]
      exact .of_drain (.remove hschema hs)
    · rw [heq]
      exact .of_steps (steps_publishAsHost b o _ true)

theorem drains_clearCache (b : Broker) (typeNames : List String) :
    Drains (.clearCache typeNames) now b (b.clearCache typeNames now).value := by
  unfold clearCache
  simp only [Noted.value_bind, Noted.value_foldlM]
  exact .of_drain (.clearCache b typeNames)

theorem drains_registerStruct (b : Broker) (schema : StructSchema) :
    Drains (.registerStruct schema) now b (b.registerStruct schema now).value.1 := by
  unfold registerStruct
  split
  · exact .refl _ now b
  · exact .refl _ now b
  · rename_i registry hregister
    exact .of_drain (.registerStruct hregister)

/-- A sweep without records of peers does nothing after forgetting the closed connections. -/
theorem sweep_cases (b : Broker) (now : Instant) :
    (∃ s, DrainsAt now b .sweep s ∧ (b.sweep now).value = (s.drain now).value) ∨
      (b.sweep now).value = b.forgetClosed := by
  unfold sweep
  simp only [Noted.value_bind]
  split
  · exact .inr rfl
  · rename_i hc
    exact .inl ⟨_, .sweep hc, rfl⟩

theorem drains_sweep (b : Broker) : Drains .sweep now b (b.sweep now).value := by
  rcases b.sweep_cases now with ⟨s, hs, heq⟩ | heq
  · rw [heq]
    exact .of_drain hs
  · rw [heq]
    exact .of_steps (.single (.forgetClosed (.inl rfl)))

theorem drains_shutdown (b : Broker) : Drains .shutdown now b (b.shutdown now).value := by
  rw [value_shutdown]
  -- A sweep that drains makes this drain the second one of the call.
  rcases ((b.farewells now).drain now).value.sweep_cases now with ⟨s, hs, heq⟩ | heq
  · rw [heq]
    exact .of_drain (.shutdown hs)
  · rw [heq]
    exact .inl ⟨_, .farewells b, .single (.forgetClosed (.inr rfl))⟩

theorem drains_subscribe (b : Broker) (typeName : String) :
    Drains call now b (b.subscribe typeName now).1 := by
  unfold subscribe
  split
  · exact .refl _ now b
  · exact .of_steps (.single (.subscribe _))

theorem drains_disturb (b : Broker) (peer : PeerId)
    (refusal : List ChannelAction → Transmission → Option TransportError) :
    Drains call now b (b.disturb peer refusal) := by
  unfold disturb
  cases hc : b.connections.find? peer with
  | none => exact .refl _ now b
  | some c => exact .of_steps (.single (.act hc (.disturb refusal)))

/-- After its last drain a call does nothing but steps. -/
theorem perform_drains (b : Broker) (call : BrokerCall) (now : Instant) :
    Drains call now b (b.perform call now) := by
  cases call with
  | accept channel => exact .of_drain (.accept b channel)
  | receive peer t => exact drains_receive b peer t
  | transportFailed peer error => exact drains_transportFailed b peer error
  | publish o included remove => exact drains_publish b o included remove
  | remove o => exact drains_remove b o
  | clearCache typeNames => exact drains_clearCache b typeNames
  | registerStruct schema => exact drains_registerStruct b schema
  | registerEnum schema => exact .of_steps (steps_registerEnum b schema)
  | subscribe typeName => exact drains_subscribe b typeName
  | unsubscribe id => exact .of_steps (.single (.unsubscribe id))
  | sweep => exact drains_sweep b
  | shutdown => exact drains_shutdown b
  | disturb peer refusal => exact drains_disturb b peer refusal

/-- In a reachable broker no closed connection has anything queued. -/
theorem Reachable.buried (hb : b.Reachable) : b.Buried := by
  induction hb with
  | start hbuilt name eventCapacity now =>
    refine ofRegistry_induction (I := fun _ b => b.Buried) hbuilt.wellFormed (fun peer c hc => ?_)
      (fun h _ => h) fun h hstep => h.step hstep
    cases hc
  | @perform b hb call now ih =>
    rcases perform_drains b call now with ⟨s, hs, hsteps⟩ | hsteps
    · exact ih.strand (.trans (.trans hs.strand (.drain s)) (.steps hsteps)) hb.rested.queued
    · exact ih.strand (.steps hsteps) hb.rested.queued

/-! ## Every drain ends -/

/-- In every state in which a call drains there is an end to the rounds, whatever the channels do
and in whichever order each round looks at the connections: there are at most as many rounds as
connections in the table, and one. When nothing waits any more, all that waited and all that was
queued meanwhile has been processed once and in order. The drain of the broker consists of such
rounds and ends when nothing waits. -/
theorem Reachable.drain_finishes (hb : b.Reachable) (hs : DrainsAt now b call s) :
    (∀ rounds b', Rounds now s rounds b' → rounds.length ≤ s.connections.size + 1 ∧
      (b'.pending = [] → Finished s rounds b')) ∧
    ∃ rounds, Rounds now s rounds (s.drain now).value ∧ (s.drain now).value.pending = [] := by
  have hstrand := hs.strand
  -- Both hold between calls, and steps and drains keep them.
  have hq : s.Queued [] := (hstrand.works hb.rested.queued).2
  have hburied : s.Buried := hb.buried.strand hstrand hb.rested.queued
  refine ⟨fun rounds b' h => ⟨h.length_le hq, h.finished hq hburied⟩, ?_⟩
  obtain ⟨rounds, hrounds⟩ := rounds_drainWithin (s.connections.size + 2) s
  refine ⟨rounds, hrounds, pending_drainWithin hq ?_⟩
  have hle := length_openPeers_le s
  omega

/-- The lobby when its guest watches the records of peers over a channel that has begun to fail, and
another guest has come. -/
def watchedLobby : Broker :=
  lobby.after
    [(.receive 2 (.ofControl (.member peerStateType .join) default), default),
      (.accept (.reliable "other"), default),
      (.disturb 2 fun _ _ => some .closed, default)]

/-- The other guest is lost. When its record is to be handed to the first one, that closes too, and
its closing is processed in the same drain. -/
theorem drain_finishes_in_watchedLobby : ∃ s rounds,
    DrainsAt default watchedLobby (.transportFailed 3 .closed) s ∧
    Rounds default s rounds (s.drain default).value ∧ rounds.length ≤ 3 ∧
    Finished s rounds (s.drain default).value ∧
    (takenOf 3 rounds.flatten).map (·.state) = [.closed] ∧
    (takenOf 2 rounds.flatten).map (·.state) = [.closed] := by
  have hs : DrainsAt default watchedLobby (.transportFailed 3 .closed) _ :=
    .transportFailed rfl .closed
  obtain ⟨hall, rounds, hrounds, hnothing⟩ :=
    Reachable.drain_finishes (reachable_lobby.after _) hs
  obtain ⟨hlength, hfinished⟩ := hall rounds _ hrounds
  have htold := (hfinished hnothing).told
  -- Observers learn of two closings in this drain, so these are what it has processed.
  have hclosing : ∀ {b b' : Broker} {peer : PeerId} {taken : List (PeerId × Transition)},
      b'.toldOf peer = b.toldOf peer ++ takenOf peer taken →
      (b'.toldOf peer).map (·.state) = (b.toldOf peer).map (·.state) ++ [.closed] →
      (takenOf peer taken).map (·.state) = [.closed] := by
    intro b b' peer taken hgrows hknown
    rw [hgrows, List.map_append] at hknown
    exact List.append_cancel_left hknown
  exact ⟨_, rounds, hs, hrounds, hlength, hfinished hnothing, hclosing (htold 3) rfl,
    hclosing (htold 2) rfl⟩

end ObjectBus.Broker
