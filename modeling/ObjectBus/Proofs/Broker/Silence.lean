import ObjectBus.Proofs.Broker.Convergence

/-!
# Calls that do not hear a guest

A call hears one guest at most. For the guests that it does not hear it consists of objects and
control messages that are handed to groups, and of changes of state that are processed. So whatever
is kept by those parts, and by what concerns the other guests only, is kept by the whole call.

* `Broker.Concerns`: parts of a call that concern one guest only;
* `Broker.KeptByObjects`: what is kept whenever an object is passed on;
* `Broker.Forwards`: which control messages are handed on, and to which groups;
* `Broker.KeptInSilence`: what is kept by all parts of the calls in which some guests are silent;
* `Broker.addressee?`: the guest that a call is about;
* `KeptInSilence.perform`: so it is kept by whole calls.
-/

namespace ObjectBus

namespace Broker

variable {now : Instant} {b b' b'' : Broker} {sender : PeerId}

/-! ## What concerns one guest only -/

/-- Between two states everybody but one guest keeps the connection and the memberships, and no
connection leaves the table. -/
structure Concerns (sender : PeerId) (b b' : Broker) : Prop where
  /-- The connections of the others. -/
  connection : ∀ q, q ≠ sender → b'.connections.find? q = b.connections.find? q
  /-- The memberships of the others. -/
  membership : ∀ q group, q ≠ sender →
    b'.groups.hasMember group q = b.groups.hasMember group q
  /-- The connections that have closed. -/
  closed : b'.closed = b.closed
  /-- The channels of those that are forgotten. -/
  released : b'.released = b.released

namespace Concerns

/-- What changes neither connections nor memberships concerns nobody. -/
theorem of_eq (hconnections : b'.connections = b.connections) (hgroups : b'.groups = b.groups)
    (hclosed : b'.closed = b.closed) (hreleased : b'.released = b.released) :
    Concerns sender b b' :=
  ⟨fun _ _ => by rw [hconnections], fun _ _ _ => by rw [hgroups], hclosed, hreleased⟩

theorem refl (sender : PeerId) (b : Broker) : Concerns sender b b := .of_eq rfl rfl rfl rfl

theorem trans (h : Concerns sender b b') (h' : Concerns sender b' b'') : Concerns sender b b'' where
  connection q hq := (h'.connection q hq).trans (h.connection q hq)
  membership q group hq := (h'.membership q group hq).trans (h.membership q group hq)
  closed := h'.closed.trans h.closed
  released := h'.released.trans h.released

end Concerns

theorem concerns_putConnection (b : Broker) (sender : PeerId) (c : Connection) :
    Concerns sender b (b.putConnection sender c) :=
  ⟨fun q hq => by rw [find?_putConnection, if_neg hq], fun _ _ _ => rfl, rfl, rfl⟩

theorem concerns_report (b : Broker) (sender : PeerId) (e : BrokerError) :
    Concerns sender b (b.report sender e now).value := by
  unfold report
  cases b.connections.find? sender with
  | none => exact .refl sender b
  | some c =>
    simp only
    split <;> exact concerns_putConnection b sender _

theorem concerns_settle (sender : PeerId) (r : Broker × Outcome Unit) :
    Concerns sender r.1 (settle sender now r).value := by
  unfold settle
  split
  · exact .refl sender r.1
  · exact concerns_report r.1 sender _

theorem concerns_discover (b : Broker) (sender : PeerId) (whitelist blacklist : List String) :
    Concerns sender b (b.discover sender whitelist blacklist now).value.1 := by
  unfold discover
  cases b.connections.find? sender with
  | none => exact .refl sender b
  | some c => exact concerns_putConnection b sender _

theorem concerns_confirmImport (b : Broker) (sender : PeerId) (typeName : String) :
    Concerns sender b (b.confirmImport sender typeName) := by
  unfold confirmImport
  cases b.connections.find? sender with
  | none => exact .refl sender b
  | some c => exact concerns_putConnection b sender _

theorem concerns_replayTo (b : Broker) (sender : PeerId) (schema : StructSchema) :
    Concerns sender b (b.replayTo sender schema now).value.1 := by
  cases hc : b.connections.find? sender with
  | none =>
    unfold replayTo
    simp only [hc]
    exact .of_eq rfl rfl rfl rfl
  | some c =>
    have htouch : Concerns sender b { b with
        dispatcher := { b.dispatcher with pool := b.dispatcher.pool.touch schema } } :=
      .of_eq rfl rfl rfl rfl
    rw [value_replayTo b schema now hc]
    exact htouch.trans (concerns_putConnection _ sender _)

theorem concerns_changeMembership (b : Broker) (sender : PeerId) (group : String)
    (event : MemberEvent) :
    Concerns sender b (b.changeMembership sender group event now).value.1 := by
  unfold changeMembership
  cases event with
  | join =>
    have hjoin : Concerns sender b
        { b with groups := (b.groups.join group sender).value.1 } := by
      refine ⟨fun _ _ => rfl, fun q group' hq => ?_, rfl, rfl⟩
      simp [GroupTable.hasMember_join, hq]
    simp only [Noted.value_bind]
    split
    · split
      · exact hjoin.trans (concerns_replayTo _ sender _)
      · exact hjoin
    · exact hjoin
  | leave =>
    refine ⟨fun _ _ => rfl, fun q group' hq => ?_, rfl, rfl⟩
    simp [GroupTable.hasMember_leave, hq]
  | kill => exact .refl sender b

/-! ## What is kept whenever an object is passed on -/

/-- A relation between two states of a broker that is kept whenever an object is passed on, and
by everything that leaves connections and memberships alone. -/
structure KeptByObjects (R : Broker → Broker → Prop) : Prop where
  /-- One part after the other keeps it. -/
  trans : ∀ {b b' b''}, R b b' → R b' b'' → R b b''
  /-- Whatever leaves connections, old and new, and groups alone keeps it. -/
  idle : ∀ {b b' : Broker}, b'.connections = b.connections → b'.groups = b.groups →
    b'.closed = b.closed → b'.released = b.released → R b b'
  /-- Passing on an object keeps it. -/
  dispatch : ∀ (b : Broker) schema h o now, R b (b.dispatch schema h o now).value.1

namespace KeptByObjects

variable {R : Broker → Broker → Prop} (hR : KeptByObjects R)
include hR

theorem refl (b : Broker) : R b b := hR.idle rfl rfl rfl rfl

theorem foldl {α : Type} {f : Broker → α → Broker} (hf : ∀ b a, R b (f b a)) (l : List α)
    (b : Broker) : R b (l.foldl f b) := by
  induction l generalizing b with
  | nil => exact hR.refl b
  | cons a rest ih => exact hR.trans (hf b a) (ih (f b a))

theorem publishAsHost (b : Broker) (o : Object) (included : Option PropertySet) (remove : Bool)
    (now : Instant) : R b (b.publishAsHost o included remove now).value.1 := by
  rcases b.publishAsHost_cases o now included remove with ⟨schema, -, -, heq⟩ | heq
  · rw [heq]
    exact hR.dispatch b schema _ o now
  · rw [heq]
    exact hR.refl b

theorem retract (b : Broker) (objects : List Object) (keys : PropertySet) (failure : String)
    (fields : List (String × NoteValue)) (now : Instant) :
    R b (b.retract objects keys failure fields now).value := by
  rw [value_retract]
  exact hR.foldl (fun b o => hR.publishAsHost b o _ true now) objects b

theorem clearType (b : Broker) (typeName : String) (now : Instant) :
    R b (b.clearType typeName now).value := by
  unfold Broker.clearType
  split
  · exact hR.refl b
  · exact hR.retract b _ _ _ _ now

theorem cleanUpType (b : Broker) (peer : PeerId) (typeName : String) (now : Instant) :
    R b (b.cleanUpType peer typeName now).value := by
  unfold Broker.cleanUpType
  split
  · exact hR.refl b
  · simp only
    split
    · exact hR.refl b
    · exact hR.retract b _ _ _ _ now

/-- Processing a change of state keeps it, if the leaving of the connection that has closed does. -/
theorem onTransition (b : Broker) (peer : PeerId) (t : Transition) (now : Instant)
    (haside : t.closes = true → R b (b.setAside peer)) :
    R b (b.onTransition peer t now).value := by
  have hleft : R b (b.leftBy peer t now) := by
    unfold leftBy
    split
    · rename_i hcloses
      unfold onClosed
      rw [Noted.value_foldlM]
      exact hR.trans (haside hcloses) (hR.foldl (fun b _ => hR.cleanUpType b peer _ now) _ _)
    · exact hR.refl b
  have htell : ∀ e, R (b.leftBy peer t now) ((b.leftBy peer t now).emit e) :=
    fun e => hR.idle rfl rfl rfl rfl
  rw [value_onTransition]
  exact hR.trans (hR.trans hleft (htell _)) (hR.publishAsHost _ _ _ _ now)

/-- Processing the changes of state that wait keeps it, if the taking of the queues and the leaving
of connections do. -/
theorem drain (htake : ∀ b : Broker, R b b.takePending)
    (haside : ∀ (b : Broker) peer, R b (b.setAside peer)) (b : Broker) (now : Instant) :
    R b (b.drain now).value := by
  refine drain_induction (I := fun _ s => R b s) ?_ ?_ (hR.refl b)
  · intro s hs
    exact hR.trans hs (htake s)
  -- Only now is it processed that connections have closed while something was handed on.
  · intro s x _ hs
    exact hR.trans hs (hR.onTransition s x.1 x.2 now fun _ => haside s x.1)

end KeptByObjects

/-! ## What is kept while some guests are silent -/

/-- What is handed on to groups besides objects: what guests ask and announce. -/
inductive Forwards : String → Transmission → Prop
  /-- A request to clear caches. -/
  | clearCache (h : Header) (typeNames : List String) :
      Forwards clearCacheGroup ⟨h, .control (.clearCache typeNames)⟩
  /-- A struct type. -/
  | structSchema (h : Header) (schema : StructSchema) :
      Forwards structSchemaGroup ⟨h, .control (.structSchema schema)⟩
  /-- An enum type. -/
  | enumSchema (h : Header) (schema : EnumSchema) :
      Forwards enumSchemaGroup ⟨h, .control (.enumSchema schema)⟩

/-- A relation between two states of a broker that is kept by all parts of the calls that hear
none of certain guests and do nothing else with their connections. -/
structure KeptInSilence (silent : PeerId → Prop) (R : Broker → Broker → Prop) : Prop
    extends KeptByObjects R where
  /-- Handing a control message on to a group keeps it. -/
  forward : ∀ (b : Broker) group t, Forwards group t → R b (b.forward group t).value
  /-- What concerns only a guest that is not silent keeps it. -/
  concerns : ∀ {b b' sender}, ¬silent sender → Concerns sender b b' → R b b'
  /-- Processing the changes of state that wait keeps it. -/
  drain : ∀ (b : Broker) now, R b (b.drain now).value

namespace KeptInSilence

variable {silent : PeerId → Prop} {R : Broker → Broker → Prop} (hR : KeptInSilence silent R)
include hR

/-! ### Types, objects and caches -/

theorem publish (b : Broker) (o : Object) (included : Option PropertySet) (remove : Bool) :
    R b (b.publish o included remove now).value.1 := by
  have hpublished : R b (b.publishAsHost o included remove now).value.1 :=
    hR.publishAsHost b o included remove now
  unfold Broker.publish
  simp only [Noted.value_bind]
  split
  · exact hpublished
  · exact hR.trans hpublished (hR.drain _ now)

theorem remove (b : Broker) (o : Object) : R b (b.remove o now).value.1 := by
  unfold Broker.remove
  split
  · exact hR.refl b
  · exact hR.publish b o _ true

theorem registerStruct (b : Broker) (schema : StructSchema) :
    R b (b.registerStruct schema now).value.1 := by
  unfold Broker.registerStruct
  split
  · exact hR.refl b
  · exact hR.refl b
  · rename_i registry hregister
    let adopted : Broker := { b with registry := registry }.adoptType schema
    have hadopt : ∀ e, R b (adopted.emit e) := fun e => hR.idle rfl rfl rfl rfl
    simp only [Noted.value_bind, Noted.value_pure, onNewType, value_publishOrNote]
    exact hR.trans (hR.trans (hadopt _) (hR.publishAsHost _ _ _ _ now)) (hR.drain _ now)

theorem registerEnum (b : Broker) (schema : EnumSchema) :
    R b (b.registerEnum schema).value.1 := by
  unfold Broker.registerEnum
  split
  · exact hR.refl b
  · exact hR.refl b
  · exact hR.idle rfl rfl rfl rfl

theorem clearCache (b : Broker) (typeNames : List String) :
    R b (b.clearCache typeNames now).value := by
  unfold Broker.clearCache
  simp only [Noted.value_bind, Noted.value_foldlM]
  exact hR.trans (hR.foldl (fun b _ => hR.clearType b _ now) typeNames b) (hR.drain _ now)

/-- Forgetting closed connections may end memberships of a silent guest; what a sweep does after
that keeps it. -/
theorem sweep (b : Broker) : R b.forgetClosed (b.sweep now).value := by
  unfold Broker.sweep
  simp only [Noted.value_bind]
  split
  · exact hR.refl _
  · exact hR.trans (hR.retract _ _ _ _ _ now) (hR.drain _ now)

/-! ### Frames of the other guests -/

theorem acceptObject (b : Broker) (h : Header) (o : Object) :
    R b (b.acceptObject h o now).value.1 := by
  unfold Broker.acceptObject
  split
  · exact hR.refl b
  · split
    · exact hR.refl b
    · split
      · exact hR.refl b
      · exact hR.dispatch b _ _ o now

theorem acceptRequest (hsender : ¬silent sender) (b : Broker) (request : ControlRequest) :
    R b (b.acceptRequest sender request now).value.1 := by
  have hconfirm : ∀ (b : Broker) typeName, R b (b.confirmImport sender typeName) :=
    fun b typeName => hR.concerns hsender (concerns_confirmImport b sender typeName)
  cases request with
  | member group event =>
    exact hR.concerns hsender (concerns_changeMembership b sender group event)
  | descriptorRequest whitelist blacklist =>
    exact hR.concerns hsender (concerns_discover b sender _ _)
  | clearCache typeNames h =>
    exact hR.trans (hR.clearCache b typeNames) (hR.forward _ _ _ (.clearCache h typeNames))
  | importStruct schema h =>
    have hregister : R b (b.registerStruct schema now).value.1 := hR.registerStruct b schema
    simp only [Broker.acceptRequest, Noted.value_bind]
    split
    · exact hregister
    -- Whether the type is new makes a difference to the notes only.
    · refine hR.trans (hR.trans hregister (hconfirm _ schema.name)) ?_
      split <;> exact hR.forward _ _ _ (.structSchema h schema)
  | importEnum schema h =>
    have hregister : R b (b.registerEnum schema).value.1 := hR.registerEnum b schema
    simp only [Broker.acceptRequest, Noted.value_bind]
    split
    · exact hregister
    · exact hR.trans (hR.trans hregister (hconfirm _ schema.name))
        (hR.forward _ _ _ (.enumSchema h schema))

theorem acceptReceived (hsender : ¬silent sender) (b : Broker) (received : Received) :
    R b (b.acceptReceived sender received now).value := by
  have hsettle : ∀ r : Broker × Outcome Unit, R r.1 (settle sender now r).value :=
    fun r => hR.concerns hsender (concerns_settle sender r)
  have hreport : ∀ e, R b (b.report sender e now).value :=
    fun e => hR.concerns hsender (concerns_report b sender e)
  cases received with
  | handled => exact hR.refl b
  | object h o => exact hR.trans (hR.acceptObject b h o) (hsettle _)
  | control request => exact hR.trans (hR.acceptRequest hsender b request) (hsettle _)
  | rejected violation => exact hreport _
  | fatal e => exact hreport e

theorem receive (hsender : ¬silent sender) (b : Broker) (t : Transmission) :
    R b (b.receive sender t now).value.1 := by
  unfold Broker.receive
  cases b.connections.find? sender with
  | none => exact hR.refl b
  | some c =>
    have hheard : R b (b.putConnection sender (c.receive t now).value.1) :=
      hR.concerns hsender (concerns_putConnection b sender _)
    exact hR.trans hheard (hR.trans (hR.acceptReceived hsender _ _) (hR.drain _ now))

end KeptInSilence

/-! ## Whole calls -/

/-- The guest that a call is about: the one that is accepted, heard or whose channel fails. -/
def addressee? (b : Broker) : BrokerCall → Option PeerId
  | .accept _ => some b.nextPeer
  | .receive peer _ => some peer
  | .transportFailed peer _ => some peer
  | .disturb peer _ => some peer
  | _ => none

/-- What is kept while some guests are silent is kept by every call that is about none of them,
unless it forgets guests or says goodbye to all. -/
theorem KeptInSilence.perform {silent : PeerId → Prop} {R : Broker → Broker → Prop}
    (hR : KeptInSilence silent R) (b : Broker) (call : BrokerCall)
    (hother : ∀ peer, b.addressee? call = some peer → ¬silent peer) (hsweep : call ≠ .sweep)
    (hshutdown : call ≠ .shutdown) (now : Instant) : R b (b.perform call now) := by
  cases call with
  | accept channel =>
    have hnext : R b { b with nextPeer := b.nextPeer + 1 } := hR.idle rfl rfl rfl rfl
    have hput : R { b with nextPeer := b.nextPeer + 1 }
        ({ b with nextPeer := b.nextPeer + 1 }.putConnection b.nextPeer
          (b.greeted channel now)) :=
      hR.concerns (hother _ rfl) (concerns_putConnection _ _ _)
    exact hR.trans (hR.trans hnext hput) (hR.drain _ now)
  | receive sender t => exact hR.receive (hother sender rfl) b t
  | transportFailed peer error =>
    show R b (b.transportFailed peer error now).value
    unfold Broker.transportFailed
    cases b.connections.find? peer with
    | none => exact hR.refl b
    | some c =>
      exact hR.trans (hR.concerns (hother peer rfl) (concerns_putConnection b peer _))
        (hR.drain _ now)
  | publish o included remove => exact hR.publish b o included remove
  | remove o => exact hR.remove b o
  | clearCache typeNames => exact hR.clearCache b typeNames
  | registerStruct schema => exact hR.registerStruct b schema
  | registerEnum schema => exact hR.registerEnum b schema
  -- Subscriptions concern no guest.
  | subscribe typeName =>
    show R b (b.subscribe typeName now).1
    unfold Broker.subscribe
    split <;> exact hR.idle rfl rfl rfl rfl
  | unsubscribe id => exact hR.idle rfl rfl rfl rfl
  | sweep => exact absurd rfl hsweep
  | shutdown => exact absurd rfl hshutdown
  | disturb peer refusal =>
    show R b (b.disturb peer refusal)
    unfold Broker.disturb
    cases b.connections.find? peer with
    | none => exact hR.refl b
    | some c => exact hR.concerns (hother peer rfl) (concerns_putConnection b peer _)

end Broker

end ObjectBus
