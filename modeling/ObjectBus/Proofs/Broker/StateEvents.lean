import ObjectBus.Proofs.Broker.Lives

/-!
# What observers are told of a peer

Whatever a broker is called to do, the lives of its connections go on by what the broker does as
their host and by what their guests send, and between calls observers have been told all of each
life. So they are told of the states of a peer what the queue of its connection would hold if
nothing had ever been taken from it.

* `Broker.Recounts`: in a part of a call a life goes on, and what has to be told of it is told;
* `recounts_perform`, `Shows.receive`: so it is in calls that do not hear the guest, and in those
  that do;
* `Shows.unknown_after`, `shows_accept`, `Shows.after`: before a guest arrives, when it arrives, and
  in any calls after that;
* `handshake_monotonic`: so observers are told the states of each peer in the order of the
  protocol.
-/

namespace ObjectBus

/-- What a guest sent, if the call is about that. -/
def BrokerCall.heardFrom? (peer : PeerId) : BrokerCall → Option Transmission
  | .receive q t => if q = peer then some t else none
  | _ => none

namespace Broker

variable {call : BrokerCall} {now : Instant} {b b' b'' : Broker} {peer sender : PeerId}
variable {c : Connection} {taken : List (PeerId × Transition)} {life life' : Option Connection}

/-! ## Parts of calls -/

/-- A part of a call in which the life of a peer's connection goes on by what the host does, and
observers are told what has to be told of it. -/
def Recounts (peer : PeerId) (b b' : Broker) : Prop :=
  ∀ life, Shows peer [] b life → OrderlyLife life →
    ∃ life', GoesOn life life' ∧ Shows peer [] b' life'

namespace Recounts

theorem refl (peer : PeerId) (b : Broker) : Recounts peer b b :=
  fun life h _ => ⟨life, rel_refl .refl life, h⟩

theorem trans (h : Recounts peer b b') (h' : Recounts peer b' b'') : Recounts peer b b'' := by
  intro life hshows hlife
  obtain ⟨life₁, hfirst, hshows₁⟩ := h life hshows hlife
  obtain ⟨life₂, hrest, hshows₂⟩ := h' life₁ hshows₁ (hfirst.orderly hlife)
  exact ⟨life₂, rel_trans Connection.Hosted.trans hfirst hrest, hshows₂⟩

theorem of_serves (h : Serves peer b b') (htold : b'.toldOf peer = b.toldOf peer) :
    Recounts peer b b' :=
  fun _ hshows _ => hshows.served h htold

/-- Steps that can belong to any call and tell nothing of the peer. -/
theorem of_steps (now : Instant) (h : Steps (.clearCache []) now b b')
    (htold : b'.toldOf peer = b.toldOf peer) : Recounts peer b b' :=
  of_serves (serves_of_steps h peer) htold

theorem drain (peer : PeerId) (b : Broker) (now : Instant) :
    Recounts peer b (b.drain now).value :=
  fun _ hshows hlife => hshows.drain hlife now

end Recounts

theorem recounts_publish (b : Broker) (o : Object) (included : Option PropertySet)
    (remove : Bool) : Recounts peer b (b.publish o included remove now).value.1 := by
  have hpublished : Recounts peer b (b.publishAsHost o included remove now).value.1 :=
    .of_steps now (steps_publishAsHost b o included remove) (toldOf_publishAsHost _ _ _ _ _ _)
  unfold publish
  simp only [Noted.value_bind]
  split
  · exact hpublished
  · exact hpublished.trans (.drain peer _ now)

theorem recounts_remove (b : Broker) (o : Object) :
    Recounts peer b (b.remove o now).value.1 := by
  unfold Broker.remove
  split
  · exact .refl peer b
  · exact recounts_publish b o _ true

theorem recounts_clearCache (b : Broker) (typeNames : List String) :
    Recounts peer b (b.clearCache typeNames now).value := by
  unfold clearCache
  simp only [Noted.value_bind, Noted.value_foldlM]
  refine .trans (.of_steps now (steps_foldl steps_clearType typeNames b) ?_) (.drain peer _ now)
  exact toldOf_foldl (fun b typeName => toldOf_clearType b typeName now peer) _ _

theorem recounts_registerStruct (b : Broker) (schema : StructSchema) :
    Recounts peer b (b.registerStruct schema now).value.1 := by
  unfold registerStruct
  cases hregister : b.registry.registerStruct schema with
  | error e => exact .refl peer b
  | ok r =>
    obtain ⟨registry, outcome⟩ := r
    obtain ⟨hcheck, ⟨rfl, -, -⟩ | ⟨rfl, rfl, hnew⟩⟩ := Registry.registerStruct_cases hregister
    · exact .refl peer b
    · simp only [Noted.value_bind, Noted.value_pure]
      exact .trans (.of_steps now (steps_onNewType hcheck hnew) (toldOf_onNewType _ _ _ _))
        (.drain peer _ now)

theorem recounts_registerEnum (b : Broker) (schema : EnumSchema) :
    Recounts peer b (b.registerEnum schema).value.1 := by
  refine .of_steps default (steps_registerEnum b schema) ?_
  unfold registerEnum
  split <;> rfl

theorem recounts_forward (b : Broker) (group : String) (h : Header) (message : ControlMessage) :
    Recounts peer b (b.forward group ⟨h, .control message⟩).value :=
  .of_steps default (.single (.forward group h message)) rfl

theorem recounts_confirmImport (b : Broker) (q : PeerId) (typeName : String) :
    Recounts peer b (b.confirmImport q typeName) := by
  refine .of_steps default (steps_confirmImport b q typeName) ?_
  unfold confirmImport
  split <;> rfl

theorem recounts_settle (r : Broker × Outcome Unit) (q : PeerId) :
    Recounts peer r.1 (settle q now r).value :=
  .of_steps now (steps_settle q r) (toldOf_settle r q now peer)

theorem recounts_report (b : Broker) (q : PeerId) (e : BrokerError) :
    Recounts peer b (b.report q e now).value :=
  .of_steps now (steps_report b q e) (toldOf_report b q e now peer)

/-- Doing the control work that a connection hands on. -/
theorem recounts_acceptRequest {t : Transmission} {request : ControlRequest}
    (hpayload : t.payload = .control request.message)
    (hc : b.connections.find? sender = some c) :
    Recounts peer b (b.acceptRequest sender request now).value.1 := by
  -- Even if a step of the call were to hear the guest, that would change nothing.
  have hhear : ∀ t', BrokerCall.receive sender t = .receive peer t' →
      ∀ c : Connection, (c.receive t' now).value.1 = c := by
    intro t' heq c
    cases heq
    exact Connection.receive_fst_of_request hpayload c
  cases request with
  | member group event =>
    have hsteps : Steps (.receive sender t) now b
        (b.changeMembership sender group event now).value.1 :=
      steps_changeMembership rfl hpayload hc
    exact .of_serves (hsteps.serves rfl hhear) (toldOf_changeMembership _ _ _ _ _ _)
  | descriptorRequest whitelist blacklist =>
    exact .of_steps now (steps_discover b sender _ _) (toldOf_discover _ _ _ _ _ _)
  | clearCache typeNames h =>
    simp only [acceptRequest, Noted.value_bind, Noted.value_pure]
    exact (recounts_clearCache b typeNames).trans (recounts_forward _ _ h _)
  | importStruct schema h =>
    simp only [acceptRequest, Noted.value_bind]
    have hregister : Recounts peer b (b.registerStruct schema now).value.1 :=
      recounts_registerStruct b schema
    split
    · exact hregister
    -- Whether the type is new makes a difference to the notes only.
    · refine hregister.trans
        ((recounts_confirmImport _ sender schema.name).trans ?_)
      split <;> exact recounts_forward _ _ h _
  | importEnum schema h =>
    simp only [acceptRequest, Noted.value_bind]
    have hregister : Recounts peer b (b.registerEnum schema).value.1 :=
      recounts_registerEnum b schema
    split
    · exact hregister
    · simp only [Noted.value_bind, Noted.value_pure]
      exact hregister.trans ((recounts_confirmImport _ sender schema.name).trans
        (recounts_forward _ _ h _))

/-- Everything that follows from what a guest sent, once its connection has processed it. -/
theorem recounts_acceptReceived {t : Transmission} (hc : b.connections.find? sender = some c) :
    Recounts peer (b.putConnection sender (c.receive t now).value.1)
      ((b.putConnection sender (c.receive t now).value.1).acceptReceived sender
        (c.receive t now).value.2 now).value := by
  cases hreceived : (c.receive t now).value.2 with
  | handled => exact .refl peer _
  | rejected violation => exact recounts_report _ sender _
  | fatal e => exact recounts_report _ sender _
  -- What is handed on leaves the connection as it was.
  | object h o =>
    obtain ⟨hsame, hpayload, -⟩ := Connection.receive_eq_object hreceived
    rw [hsame, putConnection_self hc]
    have hsteps : Steps (.receive sender t) now b (b.acceptObject h o now).value.1 :=
      steps_acceptObject rfl hc hreceived
    have hserves : Serves peer b (b.acceptObject h o now).value.1 := by
      refine hsteps.serves rfl fun t' heq c => ?_
      cases heq
      exact Connection.receive_fst_of_object hpayload c
    exact .trans (.of_serves hserves (toldOf_acceptObject _ _ _ _ _)) (recounts_settle _ sender)
  | control request =>
    obtain ⟨hsame, -⟩ := Connection.receive_eq_control hreceived
    have hpayload := Connection.payload_of_receive hreceived
    rw [hsame, putConnection_self hc]
    exact (recounts_acceptRequest hpayload hc).trans (recounts_settle _ sender)

theorem recounts_transportFailed (b : Broker) (q : PeerId) (error : TransportError) :
    Recounts peer b (b.transportFailed q error now).value := by
  unfold transportFailed
  cases hc : b.connections.find? q with
  | none => exact .refl peer b
  | some c =>
    simp only [Noted.value_bind, Connection.value_transportFailed]
    exact .trans (.of_steps now (.single (.act hc (.close _))) rfl) (.drain peer _ now)

theorem recounts_disturb (b : Broker) (q : PeerId)
    (refusal : List ChannelAction → Transmission → Option TransportError) :
    Recounts peer b (b.disturb q refusal) := by
  unfold disturb
  cases hc : b.connections.find? q with
  | none => exact .refl peer b
  | some c => exact .of_steps default (.single (.act hc (.disturb refusal))) rfl

theorem recounts_sweep (b : Broker) : Recounts peer b (b.sweep now).value := by
  have hforget : Recounts peer b b.forgetClosed :=
    fun life hshows _ => ⟨life, rel_refl .refl life, hshows.forgetClosed⟩
  unfold sweep
  simp only [Noted.value_bind]
  split
  · exact hforget
  · refine hforget.trans (.trans (.of_steps now (steps_retract _ _ _ _ _) ?_) (.drain peer _ now))
    exact toldOf_retract _ _ _ _ _ _ _

theorem recounts_shutdown (b : Broker) : Recounts peer b (b.shutdown now).value := by
  have htold : ∀ (b : Broker) q, (b.farewell q now).value.toldOf peer = b.toldOf peer := by
    intro b q
    unfold farewell
    split <;> rfl
  unfold shutdown
  simp only [Noted.value_bind, Noted.value_foldlM]
  refine .trans (.of_steps now (steps_foldl steps_farewell b.connections.keys b) ?_) ?_
  · exact toldOf_foldl htold _ _
  · exact (Recounts.drain peer _ now).trans (recounts_sweep _)

theorem recounts_subscribe (b : Broker) (typeName : String) :
    Recounts peer b (b.subscribe typeName now).1 := by
  unfold subscribe
  split
  · exact .refl peer b
  · exact .of_steps now (.single (.subscribe _)) rfl

/-! ## Whole calls -/

/-- The arrival of a guest under another number. -/
theorem recounts_accept (channel : Channel) (hne : peer ≠ b.nextPeer) :
    Recounts peer b (b.perform (.accept channel) now) := by
  have hgreets : Recounts peer b
      ({ b with nextPeer := b.nextPeer + 1 }.putConnection b.nextPeer (b.greeted channel now)) := by
    refine .of_serves (.of_eq ?_ rfl rfl) rfl
    rw [find?_putConnection, if_neg hne]
  exact hgreets.trans (.drain peer _ now)

/-- What another guest sent. -/
theorem recounts_receive (t : Transmission) (hne : peer ≠ sender) :
    Recounts peer b (b.perform (.receive sender t) now) := by
  show Recounts peer b (b.receive sender t now).value.1
  unfold receive
  cases hc : b.connections.find? sender with
  | none => exact .refl peer b
  | some c =>
    exact .trans (.of_serves (serves_putConnection b _ hne) rfl)
      (.trans (recounts_acceptReceived hc) (.drain peer _ now))

/-- Every call but one on behalf of the peer itself. -/
theorem recounts_perform (b : Broker) (call : BrokerCall) (now : Instant)
    (hothers : ∀ channel, call = .accept channel → peer ≠ b.nextPeer)
    (hquiet : ∀ t, call ≠ .receive peer t) : Recounts peer b (b.perform call now) := by
  cases call with
  | accept channel => exact recounts_accept channel (hothers channel rfl)
  | receive sender t =>
    refine recounts_receive t ?_
    rintro rfl
    exact hquiet t rfl
  | transportFailed q error => exact recounts_transportFailed b q error
  | publish o included remove => exact recounts_publish b o included remove
  | remove o => exact recounts_remove b o
  | clearCache typeNames => exact recounts_clearCache b typeNames
  | registerStruct schema => exact recounts_registerStruct b schema
  | registerEnum schema => exact recounts_registerEnum b schema
  | subscribe typeName => exact recounts_subscribe b typeName
  | unsubscribe id => exact .of_steps now (.single (.unsubscribe id)) rfl
  | sweep => exact recounts_sweep b
  | shutdown => exact recounts_shutdown b
  | disturb q refusal => exact recounts_disturb b q refusal

/-! ## Whole runs -/

/-- What a guest sent in the calls, and when it was received. -/
def heardFrom (peer : PeerId) (calls : List (BrokerCall × Instant)) :
    List (Transmission × Instant) :=
  calls.filterMap fun call => (call.1.heardFrom? peer).map (·, call.2)

theorem heardFrom_cons (peer : PeerId) (call : BrokerCall × Instant)
    (calls : List (BrokerCall × Instant)) :
    heardFrom peer (call :: calls) = heardFrom peer [call] ++ heardFrom peer calls :=
  List.filterMap_append (l := [call])

/-- Nothing is heard of a guest that is not there. -/
theorem perform_receive_of_none (hc : b.connections.find? peer = none) (t : Transmission)
    (now : Instant) : b.perform (.receive peer t) now = b := by
  show (b.receive peer t now).value.1 = b
  unfold Broker.receive
  rw [hc]
  rfl

/-- What the guest of the connection itself sends. -/
theorem Shows.receive {w : Connection} (h : Shows peer [] b (some w)) (hw : w.Orderly)
    (t : Transmission) (now : Instant) :
    ∃ w', (w.perform (.receive t) now).Hosted w' ∧
      Shows peer [] (b.perform (.receive peer t) now) (some w') := by
  have horderly : (w.perform (.receive t) now).Orderly := hw.after [(.receive t, now)]
  cases h with
  | @present c hc =>
    -- First the connection hears its guest, and then everything follows as for any other peer.
    let heard := b.putConnection peer (c.receive t now).value.1
    have hfollows : Recounts peer heard (b.perform (.receive peer t) now) := by
      have heq : b.perform (.receive peer t) now =
          ((heard.acceptReceived peer (c.receive t now).value.2 now).value.drain now).value := by
        show (b.receive peer t now).value.1 = _
        unfold Broker.receive
        rw [hc]
        rfl
      rw [heq]
      exact (recounts_acceptReceived hc).trans (.drain peer _ now)
    have hshows : Shows peer [] heard (some ((c.remembering (b.toldOf peer ++
        takenOf peer [])).perform (.receive t) now)) := by
      rw [Connection.perform_remembering]
      exact .present (b := heard) (by simp [heard, Connection.perform])
    obtain ⟨life', hlife', hshows'⟩ := hfollows _ hshows fun w' hw' =>
      Option.some.inj hw' ▸ horderly
    cases hlife' with
    | some hhosted => exact ⟨_, hhosted, hshows'⟩
  | @gone c hc hclosed hqueue htaken hkept =>
    -- A closed connection hears nothing, and neither does the broker on its behalf.
    have hconnection : (c.remembering (b.toldOf peer)).perform (.receive t) now =
        c.remembering (b.toldOf peer) := by
      rw [Connection.perform_remembering, Connection.perform, Connection.receive, if_pos hclosed]
      rfl
    rw [perform_receive_of_none hc, hconnection]
    exact ⟨_, .refl _, .gone hc hclosed hqueue htaken hkept⟩

/-- Before a guest arrives nothing is told of its connection. -/
theorem Shows.unknown_after {arrived : Nat} (h : Shows peer [] b none) (hb : b.Reachable)
    (hn : b.Numbered arrived) (calls : List (BrokerCall × Instant))
    (hpeer : arrived + calls.countP (·.1.accepts) + 2 ≤ peer.toNat) :
    Shows peer [] (b.after calls) none := by
  have hsize : peer.toNat < UInt32.size := peer.toNat_lt_size
  induction calls generalizing b arrived with
  | nil => exact h
  | cons call rest ih =>
    rw [List.countP_cons] at hpeer
    have hnumbered := hn.perform hb call.1 call.2 (by omega)
    -- A guest that arrives meanwhile is given a smaller number.
    have hothers : ∀ channel, call.1 = .accept channel → peer ≠ b.nextPeer := by
      rintro channel heq rfl
      have hnext := hn.next
      simp only [heq, BrokerCall.accepts, if_true] at hpeer
      omega
    have hrecounts : Recounts peer b (b.perform call.1 call.2) := by
      by_cases hquiet : ∀ t, call.1 ≠ .receive peer t
      · exact recounts_perform b call.1 call.2 hothers hquiet
      · obtain ⟨t, ht⟩ := not_forall_not.1 hquiet
        cases h with
        | unknown hassigned =>
          have hnone : b.connections.find? peer = none := by
            by_contra hsome
            exact hassigned (assigned_iff.2 (.inl hsome))
          rw [ht, perform_receive_of_none hnone]
          exact .refl peer b
    obtain ⟨life', hlife', hshows⟩ := hrecounts none h fun w hw => by cases hw
    cases hlife' with
    | none => exact ih hshows (hb.perform call.1 call.2) hnumbered (by omega)

theorem Shows.assigned {w : Connection} (h : Shows peer taken b (some w)) : b.Assigned peer := by
  cases h with
  | present hc => exact assigned_of_open hc
  | gone _ _ _ _ hkept =>
    rcases hkept with hclosed | ⟨-, hreleased⟩
    · exact assigned_iff.2 (.inr (.inl (by simp [hclosed])))
    · exact assigned_iff.2 (.inr (.inr (by simp [hreleased])))

/-- One call, on whichever peer's behalf. -/
theorem Shows.perform {w : Connection} {arrived : Nat} (h : Shows peer [] b (some w))
    (hw : w.Orderly) (hn : b.Numbered arrived) (call : BrokerCall) (now : Instant) :
    ∃ w', w.ServedWith (heardFrom peer [(call, now)]) w' ∧
      Shows peer [] (b.perform call now) (some w') := by
  by_cases hquiet : ∀ t, call ≠ .receive peer t
  -- The number of the peer is assigned, so that no guest who arrives is given it again.
  · have hothers : ∀ channel, call = .accept channel → peer ≠ b.nextPeer := by
      rintro channel - rfl
      have hless := hn.assigned _ h.assigned
      have hnext := hn.next
      omega
    have hnothing : heardFrom peer [(call, now)] = [] := by
      cases call with
      | receive q t =>
        have hq : q ≠ peer := fun heq => hquiet t (heq ▸ rfl)
        simp [heardFrom, BrokerCall.heardFrom?, hq]
      | accept | transportFailed | publish | remove | clearCache | registerStruct | registerEnum |
        subscribe | unsubscribe | sweep | shutdown | disturb => rfl
    obtain ⟨life', hlife', hshows⟩ := recounts_perform b call now hothers hquiet _ h fun w' hw' =>
      Option.some.inj hw' ▸ hw
    rw [hnothing]
    cases hlife' with
    | some hhosted => exact ⟨_, .of_hosted hhosted, hshows⟩
  · obtain ⟨t, rfl⟩ := not_forall_not.1 hquiet
    obtain ⟨w', hhosted, hshows⟩ := h.receive hw t now
    have hheard : heardFrom peer [(.receive peer t, now)] = [(t, now)] := by
      simp [heardFrom, BrokerCall.heardFrom?]
    rw [hheard]
    exact ⟨w', .trans (.receive w t now) (.of_hosted hhosted), hshows⟩

/-- Any calls, until the numbers run out. -/
theorem Shows.after {w : Connection} {arrived : Nat} (h : Shows peer [] b (some w))
    (hw : w.Orderly) (hb : b.Reachable) (hn : b.Numbered arrived)
    (calls : List (BrokerCall × Instant))
    (hroom : arrived + calls.countP (·.1.accepts) + 2 < UInt32.size) :
    ∃ w', w.ServedWith (heardFrom peer calls) w' ∧ Shows peer [] (b.after calls) (some w') := by
  induction calls generalizing b w arrived with
  | nil => exact ⟨w, .of_hosted (.refl w), h⟩
  | cons call rest ih =>
    rw [List.countP_cons] at hroom
    obtain ⟨w₁, hfirst, hshows⟩ := h.perform hw hn call.1 call.2
    obtain ⟨w₂, hrest, hshows'⟩ := ih hshows (hfirst.orderly hw) (hb.perform call.1 call.2)
      (hn.perform hb call.1 call.2 (by omega)) (by omega)
    rw [heardFrom_cons]
    exact ⟨w₂, hfirst.trans hrest, hshows'⟩

/-- A guest arrives, and the life of its connection begins. -/
theorem shows_accept (h : Shows b.nextPeer [] b none) (channel : Channel) (now : Instant) :
    ∃ w, (Connection.begun b.nextPeer channel b.name now).Hosted w ∧
      Shows b.nextPeer [] (b.perform (.accept channel) now) (some w) := by
  let greeting : Broker :=
    { b with nextPeer := b.nextPeer + 1 }.putConnection b.nextPeer (b.greeted channel now)
  have hbegun : b.greeted channel now = Connection.begun b.nextPeer channel b.name now := rfl
  cases h with
  | unknown hassigned _ hnothing =>
    have htold : greeting.toldOf b.nextPeer = [] := hnothing
    have hshows : Shows b.nextPeer [] greeting
        (some ((b.greeted channel now).remembering (greeting.toldOf b.nextPeer ++ []))) :=
      .present (by simp [greeting])
    -- Nothing was told of the number before, so that the life is the connection itself.
    have hsame : (b.greeted channel now).remembering (greeting.toldOf b.nextPeer ++ []) =
        b.greeted channel now := by
      rw [htold]
      rfl
    rw [hsame] at hshows
    obtain ⟨life', hlife', hshows'⟩ := Recounts.drain b.nextPeer greeting now _ hshows
      fun w hw => Option.some.inj hw ▸ hbegun ▸ Connection.orderly_begun _ _ _ _
    cases hlife' with
    | some hhosted => exact ⟨_, hhosted, hshows'⟩

/-- A broker that was started has told of nobody. -/
theorem toldOf_ofRegistry {registry : Registry} (hwf : registry.WellFormed) (name : String)
    (eventCapacity : Nat) (start : Instant) (peer : PeerId) :
    (ofRegistry name registry eventCapacity start).value.toldOf peer = [] :=
  ofRegistry_onNewType_induction (I := fun _ b => b.toldOf peer = []) hwf rfl
    fun htold _ => (toldOf_onNewType _ _ _ _).trans htold

/-- Between calls everything that a connection queued has been told. -/
theorem Shows.told {w : Connection} (h : Shows peer [] b (some w)) (hb : b.Rested) :
    b.toldOf peer = w.transitions ∧ b.channel? peer = some w.channel ∧
      (b.connection? peer = some w.drained ∨ b.connection? peer = none ∧ w.isClosed = true) := by
  cases h with
  | @present c hc =>
    obtain ⟨hqueue, -⟩ := hb peer c hc
    have hconnection : b.connection? peer = some c := by simp [connection?, hc]
    have hsame : (c.remembering (b.toldOf peer ++ takenOf peer [])).drained = c := by
      simp [Connection.remembering, Connection.drained, ← hqueue]
    refine ⟨?_, ?_, .inl (hsame.symm ▸ hconnection)⟩
    · simp [Connection.remembering, hqueue, takenOf]
    · simp [channel?, hconnection, Connection.remembering]
  | @gone c hc hclosed hqueue _ hkept =>
    have hsame : (c.remembering (b.toldOf peer)).drained = c := by
      simp [Connection.remembering, Connection.drained, ← hqueue]
    have htold : b.toldOf peer = (c.remembering (b.toldOf peer)).transitions := by
      simp [Connection.remembering, hqueue]
    rcases hkept with hkept | ⟨hnone, hkept⟩
    · have hconnection : b.connection? peer = some c := by simp [connection?, hc, hkept]
      refine ⟨htold, ?_, .inl (hsame.symm ▸ hconnection)⟩
      simp [channel?, hconnection, Connection.remembering]
    · have hconnection : b.connection? peer = none := by simp [connection?, hc, hnone]
      refine ⟨htold, ?_, .inr ⟨hconnection, hclosed⟩⟩
      simp [channel?, hconnection, hkept, Connection.remembering]

/-- Whatever is done with a connection after its handshake has begun, it goes through its states in
the order of the protocol and queues them all, and the handshake cannot begin again. In every run of
a broker, what observers are told of a guest since it arrived is what a connection would have queued
to which the guest sent what the broker received from it, and nothing of that is left out. The
broker keeps that connection until a sweep forgets it, and its channel for good. -/
theorem handshake_monotonic {registry : Registry} (hbuilt : registry.Built) (name : String)
    (eventCapacity : Nat) (start : Instant) (before : List (BrokerCall × Instant))
    (channel : Channel) (arrival : Instant) (calls : List (BrokerCall × Instant))
    (hroom : (before ++ calls).countP (·.1.accepts) + 3 < UInt32.size) :
    (∀ peer channel hostName now calls,
      let c := (Connection.begun peer channel hostName now).after calls
      c.Orderly ∧ ∀ hostName now,
        (c.beginHandshake hostName now).value = (c, .error .handshakeAlreadyStarted)) ∧
    let b := (ofRegistry name registry eventCapacity start).value.after before
    let final := (b.perform (.accept channel) arrival).after calls
    ∃ c, (Connection.begun b.nextPeer channel b.name arrival).ServedWith
        (heardFrom b.nextPeer calls) c ∧
      c.Orderly ∧ final.toldOf b.nextPeer = c.transitions ∧
      final.channel? b.nextPeer = some c.channel ∧
      (final.connection? b.nextPeer = some c.drained ∨
        final.connection? b.nextPeer = none ∧ c.isClosed = true) := by
  constructor
  · intro peer channel hostName now calls c
    have horderly : c.Orderly := (Connection.orderly_begun peer channel hostName now).after calls
    exact ⟨horderly, Connection.value_beginHandshake_of_started horderly.started⟩
  · intro b final
    rw [List.countP_append] at hroom
    have hstart : (ofRegistry name registry eventCapacity start).value.Reachable :=
      .start hbuilt name eventCapacity start
    have hnumbered := numbered_ofRegistry hbuilt.wellFormed name eventCapacity start
    have hb : b.Reachable := hstart.after before
    have hn : b.Numbered (0 + before.countP (·.1.accepts)) :=
      numbered_after hstart hnumbered before (by omega)
    -- Before the guest arrives its number is not assigned and nothing was told of it.
    have hunassigned : ¬(ofRegistry name registry eventCapacity start).value.Assigned b.nextPeer :=
      fun hassigned => by
        have hless := hnumbered.assigned _ hassigned
        have hnext := hn.next
        omega
    have hnothing := toldOf_ofRegistry hbuilt.wellFormed name eventCapacity start b.nextPeer
    have hbefore : Shows b.nextPeer [] b none :=
      Shows.unknown_after (.unknown hunassigned rfl hnothing) hstart hnumbered before
        (by rw [hn.next])
    -- Its life begins when it is accepted, and goes on with the calls that follow.
    obtain ⟨w, hhosted, harrived⟩ := shows_accept hbefore channel arrival
    have hw : w.Orderly := hhosted.orderly (Connection.orderly_begun _ _ _ _)
    have hroom' : 0 + before.countP (·.1.accepts) + 1 + 2 < UInt32.size := by omega
    have hnumbered' : (b.perform (.accept channel) arrival).Numbered
        (0 + before.countP (·.1.accepts) + 1) := hn.perform hb (.accept channel) arrival hroom'
    obtain ⟨c, hserved, hshows⟩ := harrived.after hw (hb.perform _ arrival) hnumbered' calls
      (by omega)
    have hfinal : final.Rested := ((hb.perform _ arrival).after calls).rested
    exact ⟨c, .trans (.of_hosted hhosted) hserved, hserved.orderly hw, hshows.told hfinal⟩

/-- What observers are told of the reader on the board, who names itself at once. -/
theorem handshake_of_reader : ∃ c,
    (Connection.begun 2 (.reliable "reader") "board" default).ServedWith
      [(.ofControl (.connectAs "reader" false) default, default)] c ∧
    c.Orderly ∧ (boardWithReader false).toldOf 2 = c.transitions ∧
    c.transitions = [⟨.connecting, none⟩, ⟨.connected, none⟩] ∧
    (boardWithReader false).connection? 2 = some c.drained := by
  have hbuilt : (Registry.empty.addStruct noteSchema).Built :=
    .registerStruct .empty (Registry.registerStruct_of_new rfl rfl)
  obtain ⟨-, c, hserved, horderly, htold, -, hconnection⟩ :=
    handshake_monotonic hbuilt "board" 1 default [(.publish (note 1 "welcome") none false, default)]
      (.reliable "reader") default
      [(.receive 2 (.ofControl (.connectAs "reader" false) default), default)] (by decide)
  have hstates : (boardWithReader false).toldOf 2 =
      [⟨.connecting, none⟩, ⟨.connected, none⟩] := rfl
  refine ⟨c, hserved, horderly, htold, htold.symm.trans hstates, ?_⟩
  rcases hconnection with hopen | ⟨hnone, -⟩
  · exact hopen
  · cases hnone

end Broker

end ObjectBus
