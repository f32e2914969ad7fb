import ObjectBus.Proofs.Broker.Deeds
import ObjectBus.Proofs.Broker.Evolution

/-!
# Refused frames

A frame that breaks the rules is refused: its guest is told so by one notice, and nothing else
changes. The rules are those of the protocol, which says what a guest may send in which state,
and those of the types, which say what may be sent as an object or announced.

* `ConnectionState.expects`: the control messages that a guest may send in a state;
* `Connection.Admits`: the objects that a connection hands on;
* `Refused`: the causes of a refusal, with their errors;
* `refused_of_complaint`: these are all violations of which a guest is ever told;
* `acceptReceived_of_refused`: nothing is done before the refusal;
* `Reachable.refusal_atomic`: what a refused frame comes to.
-/

namespace ObjectBus

/-! ## Errors by which a guest broke a rule -/

namespace StructSchema

variable {s : StructSchema} {o : Object} {e : BrokerError}

/-- A check of a list fails with the error of one of its members. -/
theorem exists_of_forM_eq_error {α ε : Type} {f : α → Except ε Unit} {l : List α} {e : ε}
    (h : l.forM f = .error e) : ∃ a ∈ l, f a = .error e := by
  induction l with
  | nil => cases h
  | cons a rest ih =>
    change (f a >>= fun _ => rest.forM f) = .error e at h
    cases ha : f a with
    | error e' =>
      rw [ha] at h
      cases h
      exact ⟨a, List.mem_cons_self, ha⟩
    | ok u =>
      rw [ha] at h
      obtain ⟨a', ha', herror⟩ := ih h
      exact ⟨a', List.mem_cons_of_mem _ ha', herror⟩

/-- An object that does not conform breaks a rule. -/
theorem isViolation_of_validate (h : s.validate o = .error e) : e.isViolation = true := by
  unfold validate at h
  split at h
  · cases h
    rfl
  · obtain ⟨binding, -, herror⟩ := exists_of_forM_eq_error h
    unfold validateValue at herror
    split at herror
    · cases herror
      rfl
    · split at herror
      · cases herror
      · cases herror
        rfl

/-- An object without its key breaks a rule. -/
theorem isViolation_of_keyOf (h : s.keyOf o = .error e) : e.isViolation = true := by
  obtain ⟨tag, -, -, rfl⟩ := exists_missing_of_keyOf_eq_error h
  rfl

theorem isViolation_of_checkProperties {typeName : String} {seen : PropertySet}
    {properties : List PropertySchema} (h : checkProperties typeName seen properties = .error e) :
    e.isViolation = true := by
  induction properties generalizing seen with
  | nil => cases h
  | cons p rest ih =>
    unfold checkProperties at h
    split at h
    · cases h
      rfl
    · split at h
      · cases h
        rfl
      · exact ih h

end StructSchema

namespace Registry

variable {r : Registry} {e : BrokerError}

/-- A struct type that cannot be registered breaks a rule. -/
theorem isViolation_of_registerStruct {s : StructSchema} (h : r.registerStruct s = .error e) :
    e.isViolation = true := by
  unfold registerStruct at h
  cases hcheck : s.checkDefinition with
  | error e' =>
    rw [hcheck] at h
    cases h
    exact StructSchema.isViolation_of_checkProperties hcheck
  | ok u =>
    simp only [hcheck, bind, Except.bind] at h
    split at h
    · split at h
      · cases h
      · cases h
        rfl
    · cases h

/-- An enum type that cannot be registered breaks a rule. -/
theorem isViolation_of_registerEnum {s : EnumSchema} (h : r.registerEnum s = .error e) :
    e.isViolation = true := by
  unfold registerEnum at h
  split at h
  · split at h
    · cases h
    · cases h
      rfl
  · cases h

end Registry

/-! ## What a guest may send -/

/-- Whether a frame is the notice of a violation. -/
def Transmission.isViolationNotice (f : Transmission) : Bool :=
  match f.payload with
  | .control (.error code _) => code == NoticeCode.violation.number
  | _ => false

/-- Whether a control message asks for control work of the broker. -/
def ControlMessage.isRequest : ControlMessage → Bool
  | member .. => true
  | descriptorRequest .. => true
  | clearCache .. => true
  | structSchema .. => true
  | enumSchema .. => true
  | _ => false

/-- Whether a control message names the guest that sent it. -/
def ControlMessage.introduces : ControlMessage → Bool
  | connect (some _) _ finished => !finished
  | _ => false

theorem ControlMessage.eq_connect_of_introduces {message : ControlMessage}
    (h : message.introduces = true) :
    ∃ name preload, message = .connect (some name) preload false := by
  cases message with
  | connect name preload finished =>
    cases name with
    | none => cases h
    | some name =>
      cases finished with
      | true => cases h
      | false => exact ⟨name, preload, rfl⟩
  | hello | connectResponse | member | descriptorRequest | clearCache | cacheInfo | structSchema |
    enumSchema | error => cases h

/-- The control messages that a guest may send in a state: notices in any; its name while it is
connecting; requests once it has named itself; and while it preloads also that it has finished. -/
def ConnectionState.expects (state : ConnectionState) (message : ControlMessage) : Bool :=
  message.isNotice ||
    match state with
    | .connecting => message.introduces
    | .earlySubscribe => message.finishesPreload || message.isRequest
    | .connected => message.isRequest
    | .suspended => false
    | .closed => false

namespace Connection

variable {c : Connection} {t : Transmission} {now : Instant}

/-- Whether a connection hands on an object: in the control namespace if the object is no host
record and the guest has named itself, and otherwise if the guest takes part fully. -/
def Admits (c : Connection) (h : Header) (o : Object) : Prop :=
  if h.isControl then
    isHostRecord o.typeName = false ∧ (c.state = .earlySubscribe ∨ c.state = .connected)
  else c.state = .connected

/-- An object leaves the connection as it is. -/
theorem receive_of_object (hopen : c.isClosed = false) {o : Object}
    (hpayload : t.payload = .object o) :
    (c.receive t now).value =
      (c, if t.header.isControl then c.classifyInternal (c.stamp t.header now) o
        else c.classifyObject (c.stamp t.header now) o) := by
  unfold receive
  simp only [hopen, Bool.false_eq_true, if_false, hpayload]
  rfl

/-- An object that is admitted is handed on under its stamped header. -/
theorem receive_of_admits (hopen : c.isClosed = false) {o : Object}
    (hpayload : t.payload = .object o) (hadmits : c.Admits t.header o) :
    (c.receive t now).value = (c, .object (c.stamp t.header now) o) := by
  rw [receive_of_object hopen hpayload]
  unfold Admits at hadmits
  split at hadmits
  · rename_i hcontrol
    obtain ⟨hordinary, hstate⟩ := hadmits
    rw [if_pos hcontrol]
    unfold classifyInternal
    rw [if_neg (by simp [hordinary])]
    rcases hstate with hstate | hstate <;> simp [hstate]
  · rename_i hcontrol
    rw [if_neg hcontrol]
    unfold classifyObject
    rw [if_pos hadmits]

/-- A control message outside the control namespace leaves the connection as it is. -/
theorem receive_of_outside (hopen : c.isClosed = false) {message : ControlMessage}
    (hpayload : t.payload = .control message) (hspace : t.header.isControl = false) :
    (c.receive t now).value = (c, .rejected (.controlOutsideNamespace message.typeName)) := by
  have hstamp : (c.stamp t.header now).isControl = false := hspace
  unfold receive
  simp only [hopen, Bool.false_eq_true, if_false, hpayload, hstamp]
  rfl

/-- A notice is dealt with by the connection. -/
theorem receive_of_notice (hopen : c.isClosed = false) {message : ControlMessage}
    (hpayload : t.payload = .control message) (hspace : t.header.isControl = true)
    (hnotice : message.isNotice = true) : (c.receive t now).value.2 = .handled := by
  have hstamp : (c.stamp t.header now).isControl = true := hspace
  unfold receive
  simp only [hopen, Bool.false_eq_true, if_false, hpayload, hstamp, if_true]
  cases message with
  | error code text => rfl
  | hello | connect | connectResponse | member | descriptorRequest | clearCache | cacheInfo |
    structSchema | enumSchema => cases hnotice

/-- A control message that is no notice is processed according to the state. -/
theorem receive_of_message (hopen : c.isClosed = false) {message : ControlMessage}
    (hpayload : t.payload = .control message) (hspace : t.header.isControl = true)
    (hnotice : message.isNotice = false) :
    (c.receive t now).value =
      (c.receiveMessage (c.stamp t.header now) message now).value := by
  have hstamp : (c.stamp t.header now).isControl = true := hspace
  unfold receive
  simp only [hopen, Bool.false_eq_true, if_false, hpayload, hstamp, if_true]
  cases message with
  | error code text => cases hnotice
  | hello | connect | connectResponse | member | descriptorRequest | clearCache | cacheInfo |
    structSchema | enumSchema => rfl

/-- A control message that is no request is not handed on. -/
theorem receiveMessage_of_no_request {message : ControlMessage} (h : Header)
    (hrequest : message.isRequest = false) :
    (do
      let received ← c.classifyControl h message
      pure (c, received) : Noted (Connection × Received)).value = (c, c.unexpected message) := by
  cases message with
  | member | descriptorRequest | clearCache | structSchema | enumSchema => cases hrequest
  | hello | connect | connectResponse | cacheInfo | error => rfl

/-- In a state that does not expect a control message the connection stays as it is. -/
theorem receiveMessage_of_unexpected {message : ControlMessage} (h : Header)
    (hunexpected : c.state.expects message = false) :
    (c.receiveMessage h message now).value = (c, c.unexpected message) := by
  obtain ⟨-, hstays⟩ := Bool.or_eq_false_iff.1 hunexpected
  -- In each state what is not expected rules out the branches that do something.
  unfold receiveMessage
  cases hstate : c.state with
  | connecting =>
    simp only [hstate] at hstays
    simp only
    split
    · cases hstays
    · rfl
  | earlySubscribe =>
    simp only [hstate, Bool.or_eq_false_iff] at hstays
    obtain ⟨hpreload, hrequest⟩ := hstays
    simp only [hpreload, Bool.false_eq_true, if_false]
    exact receiveMessage_of_no_request h hrequest
  | connected =>
    simp only [hstate] at hstays
    exact receiveMessage_of_no_request h hstays
  | suspended => rfl
  | closed => rfl

/-- What is expected is dealt with by the connection, unless it is a request. -/
theorem receiveMessage_of_expected {message : ControlMessage} (h : Header)
    (hnotice : message.isNotice = false) (hexpected : c.state.expects message = true) :
    (c.receiveMessage h message now).value.2 = .handled ∨
      message.isRequest = true ∧ (c.state = .earlySubscribe ∨ c.state = .connected) := by
  simp only [ConnectionState.expects, hnotice, Bool.false_or] at hexpected
  unfold receiveMessage
  cases hstate : c.state with
  | connecting =>
    simp only [hstate] at hexpected
    refine .inl ?_
    simp only
    split
    · rfl
    · rename_i hother
      obtain ⟨name, preload, rfl⟩ := ControlMessage.eq_connect_of_introduces hexpected
      exact absurd rfl (hother name preload)
  | earlySubscribe =>
    simp only [hstate, Bool.or_eq_true] at hexpected
    rcases hexpected with hpreload | hrequest
    · refine .inl ?_
      simp only [hpreload, if_true]
      rfl
    · exact .inr ⟨hrequest, .inl rfl⟩
  | connected =>
    simp only [hstate] at hexpected
    exact .inr ⟨hexpected, .inr rfl⟩
  | suspended | closed => simp only [hstate, Bool.false_eq_true] at hexpected

/-- A connection that takes part sends what its channel takes, and nothing else about it changes. -/
theorem value_send_of_taken (hstate : c.state ≠ .closed ∧ c.state ≠ .suspended)
    (htaken : c.channel.refusal c.channel.trace t = none) :
    (c.send t).value =
      { c with channel := { c.channel with trace := c.channel.trace ++ [.sent t] } } := by
  unfold send
  split
  · exact absurd ‹_› hstate.1
  · exact absurd ‹_› hstate.2
  · simp only [Channel.send, htaken]
    rfl

/-- A connection whose channel does not take a transmission sends nothing. -/
theorem sends_send_of_not_taken {allowed : Transmission → Prop}
    (htaken : c.channel.refusal c.channel.trace t ≠ none) :
    c.channel.Sends allowed (c.send t).value.channel := by
  obtain ⟨error, herror⟩ := Option.ne_none_iff_exists'.1 htaken
  have hsent : (c.channel.send t).1.sent = c.channel.sent := by
    rw [Channel.sent_send, if_neg (by simp [Channel.send, herror])]
  unfold send
  split
  · exact .refl _ _
  · exact .refl _ _
  · simp only [Channel.send, herror] at hsent ⊢
    -- The connection closes, and the channel with it.
    obtain ⟨frames, hframes, hallowed⟩ :=
      (advances_transportFailed allowed { c with channel := _ } error).sends
    exact ⟨frames, by rw [hframes, hsent], hallowed⟩

/-- A request is handed on, unless it announces a type once more. -/
theorem classifyControl_of_request {message : ControlMessage} (c : Connection) (h : Header)
    (hrequest : message.isRequest = true) :
    (c.classifyControl h message).value = .handled ∨
      ∃ request, (c.classifyControl h message).value = .control request := by
  have hannounced : ∀ (typeName : String) (request : ControlRequest),
      (c.announced typeName request).value = .handled ∨
        (c.announced typeName request).value = .control request := by
    intro typeName request
    unfold announced
    split
    · exact .inl rfl
    · exact .inr rfl
  cases message with
  | member | descriptorRequest | clearCache => exact .inr ⟨_, rfl⟩
  | structSchema schema => exact (hannounced _ _).imp_right fun hcontrol => ⟨_, hcontrol⟩
  | enumSchema schema => exact (hannounced _ _).imp_right fun hcontrol => ⟨_, hcontrol⟩
  | hello | connect | connectResponse | cacheInfo | error => cases hrequest

/-- A request is handed on as soon as the guest has named itself. -/
theorem receiveMessage_of_request {message : ControlMessage} (h : Header)
    (hstate : c.state = .earlySubscribe ∨ c.state = .connected)
    (hrequest : message.isRequest = true) :
    (c.receiveMessage h message now).value = (c, (c.classifyControl h message).value) := by
  have hpreload : message.finishesPreload = false := by
    cases message <;> first | rfl | cases hrequest
  unfold receiveMessage
  rcases hstate with hstate | hstate
  · simp [hstate, hpreload]
  · simp [hstate]

end Connection

/-! ## Causes of a refusal -/

namespace Broker

variable {now : Instant} {b b' : Broker} {peer : PeerId} {c : Connection} {t : Transmission}
variable {e : BrokerError}

/-- Why a broker does not accept an object that came under the name of a type, in the control
namespace or outside it. -/
inductive Unacceptable (b : Broker) (typeName : String) (control : Bool) (o : Object) :
    BrokerError → Prop
  /-- The type is not known. -/
  | unknownType (hschema : b.registry.findStruct? typeName = none) :
      Unacceptable b typeName control o (.unknownType typeName)
  /-- It is the wrong namespace for the type. -/
  | wrongNamespace {schema : StructSchema}
      (hschema : b.registry.findStruct? typeName = some schema)
      (hspace : control ≠ schema.flags.internal) :
      Unacceptable b typeName control o (.protocol (.wrongNamespace schema.name))
  /-- The object does not conform to the type. -/
  | nonConforming {schema : StructSchema} {e : BrokerError}
      (hschema : b.registry.findStruct? typeName = some schema)
      (hspace : control = schema.flags.internal) (he : schema.validate o = .error e) :
      Unacceptable b typeName control o e
  /-- The type is cached and the object lacks its key. -/
  | missingKey {schema : StructSchema} {e : BrokerError}
      (hschema : b.registry.findStruct? typeName = some schema)
      (hspace : control = schema.flags.internal) (hvalid : schema.validate o = .ok ())
      (hcached : schema.flags.cached = true) (he : schema.keyOf o = .error e) :
      Unacceptable b typeName control o e

/-- Why a broker refuses a frame, with the error of which the guest is told. -/
inductive Refused (b : Broker) (c : Connection) (t : Transmission) : BrokerError → Prop
  /-- A control message came outside the control namespace. -/
  | outside {message : ControlMessage} (hpayload : t.payload = .control message)
      (hspace : t.header.isControl = false) :
      Refused b c t (.protocol (.controlOutsideNamespace message.typeName))
  /-- A control message is not expected in the state of the connection. -/
  | message {message : ControlMessage} (hpayload : t.payload = .control message)
      (hspace : t.header.isControl = true) (hstate : c.state.expects message = false) :
      Refused b c t (.protocol (.controlInState message.typeName c.state))
  /-- An object came before the guest takes part fully. -/
  | object {o : Object} (hpayload : t.payload = .object o)
      (hspace : t.header.isControl = false) (hstate : c.state ≠ .connected) :
      Refused b c t (.protocol (.objectInState t.header.typeName c.state))
  /-- An object of an internal type came before the guest has named itself. -/
  | internal {o : Object} (hpayload : t.payload = .object o)
      (hspace : t.header.isControl = true) (hordinary : isHostRecord o.typeName = false)
      (hstate : c.state ≠ .earlySubscribe ∧ c.state ≠ .connected) :
      Refused b c t (.protocol (.internalObjectInState o.typeName c.state))
  /-- An object that was handed on is not acceptable. -/
  | unacceptable {o : Object} {e : BrokerError} (hpayload : t.payload = .object o)
      (hadmits : c.Admits t.header o)
      (he : Unacceptable b t.header.typeName t.header.isControl o e) : Refused b c t e
  /-- The definition of a struct type is not in order or contradicts the known one. -/
  | structSchema {schema : StructSchema} {e : BrokerError}
      (hpayload : t.payload = .control (.structSchema schema))
      (hspace : t.header.isControl = true)
      (hstate : c.state = .earlySubscribe ∨ c.state = .connected)
      (himported : c.imported.contains schema.name = false)
      (he : b.registry.registerStruct schema = .error e) : Refused b c t e
  /-- The definition of an enum type contradicts the known one. -/
  | enumSchema {schema : EnumSchema} {e : BrokerError}
      (hpayload : t.payload = .control (.enumSchema schema))
      (hspace : t.header.isControl = true)
      (hstate : c.state = .earlySubscribe ∨ c.state = .connected)
      (himported : c.imported.contains schema.name = false)
      (he : b.registry.registerEnum schema = .error e) : Refused b c t e

theorem Unacceptable.isViolation {typeName : String} {control : Bool} {o : Object}
    (h : Unacceptable b typeName control o e) : e.isViolation = true := by
  cases h with
  | unknownType | wrongNamespace => rfl
  | nonConforming _ _ he => exact StructSchema.isViolation_of_validate he
  | missingKey _ _ _ _ he => exact StructSchema.isViolation_of_keyOf he

/-- Whoever is refused broke a rule. -/
theorem Refused.isViolation (h : Refused b c t e) : e.isViolation = true := by
  cases h with
  | outside | message | object | internal => rfl
  | unacceptable _ _ he => exact he.isViolation
  | structSchema _ _ _ _ he => exact Registry.isViolation_of_registerStruct he
  | enumSchema _ _ _ _ he => exact Registry.isViolation_of_registerEnum he

/-! ## Nothing is changed before the refusal -/

/-- A type that has a container is not given another one. -/
theorem touch_of_stocked {schema : StructSchema} {p : ContainerPool}
    (hc : p.find? schema.name ≠ none) : p.touch schema = p := by
  obtain ⟨c, hc⟩ := Option.ne_none_iff_exists'.1 hc
  have hsame : p.containers.insert schema.name c = p.containers := by
    refine SortedMap.ext fun name => ?_
    rw [SortedMap.find?_insert]
    split
    · rename_i hname
      rw [hname]
      exact hc.symm
    · rfl
  rw [ContainerPool.touch, ContainerPool.getD, hc, Option.getD_some, ContainerPool.put, hsame]

/-- An object without its key is not applied to the container of its type. -/
theorem dispatch_of_keyOf_error {schema : StructSchema} {o : Object} (hb : b.Sound)
    (hs : b.registry.findStruct? schema.name = some schema)
    (hstock : b.container? schema.name ≠ none) (hcached : schema.flags.cached = true)
    (he : schema.keyOf o = .error e) (h : Header) (now : Instant) :
    (b.dispatch schema h o now).value = (b, .error e) := by
  have hkey : (b.dispatcher.pool.getD schema).schema.keyOf o = .error e := by
    rw [show (b.dispatcher.pool.getD schema).schema = schema from (hb.cacheOf hs).1, he]
  have happly : b.dispatcher.applyCached schema h o h.isFromMyself now =
      (b.dispatcher, .error e) := by
    unfold Dispatcher.applyCached Container.remove Container.insert
    rw [touch_of_stocked hstock]
    simp only [hkey]
    split <;> rfl
  unfold dispatch Dispatcher.apply
  simp only [Noted.value_bind, hcached, if_true, happly, Noted.value_pure]

/-- An object that is not acceptable changes nothing. -/
theorem acceptObject_of_unacceptable (hb : b.Sound) (hstock : b.Stocked) {h : Header}
    {o : Object} (he : Unacceptable b h.typeName h.isControl o e) (now : Instant) :
    (b.acceptObject h o now).value = (b, .error e) := by
  unfold acceptObject Registry.resolve
  cases he with
  | unknownType hschema =>
    rw [hschema]
    rfl
  | wrongNamespace hschema hspace =>
    simp only [hschema, if_pos hspace, Noted.value_pure]
  | nonConforming hschema hspace he =>
    simp only [hschema, if_neg (not_not.2 hspace), he, Noted.value_pure]
  | missingKey hschema hspace hvalid hcached he =>
    obtain ⟨-, hs⟩ := hb.findStruct?_name hschema
    simp only [hschema, if_neg (not_not.2 hspace), hvalid]
    exact dispatch_of_keyOf_error hb hs (hstock _ _ hs hcached) hcached he _ now

/-- A call on a container fails only for want of a key. -/
theorem keyOf_of_perform_error {cache : Container} {call : CacheCall}
    (h : (cache.perform call).2 = .error e) : cache.schema.keyOf call.object = .error e := by
  cases hkey : cache.schema.keyOf call.object with
  | error e' =>
    rw [Container.perform_of_keyOf_error hkey] at h
    cases h
    rfl
  | ok key =>
    obtain ⟨answer, hanswer, -⟩ := Container.perform_of_keyOf_ok hkey
    rw [hanswer] at h
    cases h

/-- An object that is not accepted is not acceptable. -/
theorem unacceptable_of_acceptObject (hb : b.Sound) {h : Header} {o : Object}
    (he : (b.acceptObject h o now).value.2 = .error e) :
    Unacceptable b h.typeName h.isControl o e := by
  unfold acceptObject Registry.resolve at he
  cases hschema : b.registry.findStruct? h.typeName with
  | none =>
    rw [hschema] at he
    cases he
    exact .unknownType hschema
  | some schema =>
    simp only [hschema] at he
    split at he
    · rename_i hspace
      cases he
      exact .wrongNamespace hschema hspace
    · rename_i hspace
      split at he
      · rename_i e' hinvalid
        cases he
        exact .nonConforming hschema (not_not.1 hspace) hinvalid
      · rename_i hvalid
        obtain ⟨-, hs⟩ := hb.findStruct?_name hschema
        -- Passing it on fails only when its type is cached and the call on the container fails.
        rw [outcome_dispatch, applied, Dispatcher.outcome_apply] at he
        split at he
        · rename_i hcached
          generalize hanswer : ((b.dispatcher.pool.getD schema).perform _).2 = answer at he
          cases answer with
          | ok entry => cases he
          | error e' =>
            cases he
            have hkey := keyOf_of_perform_error hanswer
            rw [show (b.dispatcher.pool.getD schema).schema = schema from (hb.cacheOf hs).1] at hkey
            exact .missingKey hschema (not_not.1 hspace) hvalid hcached hkey
        · cases he

/-- What a refused frame comes to: the guest is told of the error, and nothing was done
before. -/
theorem acceptReceived_of_refused (hb : b.Sound) (hstock : b.Stocked) (hr : b.Rested)
    (hc : b.connections.find? peer = some c) (h : Refused b c t e) (now : Instant) :
    ((b.putConnection peer (c.receive t now).value.1).acceptReceived peer
      (c.receive t now).value.2 now).value = (b.report peer e now).value := by
  obtain ⟨-, hopen⟩ := hr peer c hc
  have hrejected : ∀ violation, (c.receive t now).value = (c, .rejected violation) →
      e = .protocol violation →
      ((b.putConnection peer (c.receive t now).value.1).acceptReceived peer
        (c.receive t now).value.2 now).value = (b.report peer e now).value := by
    intro violation hreceive he
    rw [hreceive, putConnection_self hc, he]
    rfl
  cases h with
  | outside hpayload hspace =>
    exact hrejected _ (Connection.receive_of_outside hopen hpayload hspace) rfl
  | @message message hpayload hspace hstate =>
    have hnotice : message.isNotice = false := (Bool.or_eq_false_iff.1 hstate).1
    refine hrejected _ ?_ rfl
    rw [Connection.receive_of_message hopen hpayload hspace hnotice,
      Connection.receiveMessage_of_unexpected _ hstate]
    rfl
  | object hpayload hspace hstate =>
    refine hrejected _ ?_ rfl
    rw [Connection.receive_of_object hopen hpayload, hspace, Connection.classifyObject,
      if_neg hstate]
    rfl
  | internal hpayload hspace hordinary hstate =>
    refine hrejected _ ?_ rfl
    rw [Connection.receive_of_object hopen hpayload, if_pos hspace, Connection.classifyInternal,
      if_neg (by simp [hordinary])]
    cases hstate' : c.state with
    | earlySubscribe => exact absurd hstate' hstate.1
    | connected => exact absurd hstate' hstate.2
    | connecting | suspended | closed => rfl
  | @unacceptable o _ hpayload hadmits he =>
    -- The stamp changes neither the name of the type nor the namespace.
    have hstamped : Unacceptable b (c.stamp t.header now).typeName
      (c.stamp t.header now).isControl o e := he
    have haccept := acceptObject_of_unacceptable hb hstock hstamped now
    rw [Connection.receive_of_admits hopen hpayload hadmits, putConnection_self hc]
    simp only [acceptReceived, Noted.value_bind, haccept, settle]
  | @structSchema schema _ hpayload hspace hstate himported he =>
    have hreceive : (c.receive t now).value =
        (c, .control (.importStruct schema (c.stamp t.header now))) := by
      rw [Connection.receive_of_message hopen hpayload hspace rfl,
        Connection.receiveMessage_of_request _ hstate rfl]
      simp only [Connection.classifyControl, Connection.announced, himported, Bool.false_eq_true,
        if_false, Noted.value_pure]
    rw [hreceive, putConnection_self hc]
    simp only [acceptReceived, acceptRequest, registerStruct, he, Noted.value_bind,
      Noted.value_pure, settle]
  | @enumSchema schema _ hpayload hspace hstate himported he =>
    have hreceive : (c.receive t now).value =
        (c, .control (.importEnum schema (c.stamp t.header now))) := by
      rw [Connection.receive_of_message hopen hpayload hspace rfl,
        Connection.receiveMessage_of_request _ hstate rfl]
      simp only [Connection.classifyControl, Connection.announced, himported, Bool.false_eq_true,
        if_false, Noted.value_pure]
    rw [hreceive, putConnection_self hc]
    simp only [acceptReceived, acceptRequest, registerEnum, he, Noted.value_bind,
      Noted.value_pure, settle]

/-! ## Nothing else is refused -/

/-- Control work fails only when a type cannot be registered. -/
theorem acceptRequest_eq_error {request : ControlRequest}
    (hc : b.connections.find? peer = some c)
    (he : (b.acceptRequest peer request now).value.2 = .error e) :
    (∃ schema h, request = .importStruct schema h ∧
      b.registry.registerStruct schema = .error e) ∨
    ∃ schema h, request = .importEnum schema h ∧ b.registry.registerEnum schema = .error e := by
  unfold acceptRequest at he
  cases request with
  | member group event =>
    unfold changeMembership at he
    cases event with
    | join =>
      let joined : Broker := { b with groups := (b.groups.join group peer).value.1 }
      have hjoined : joined.connections.find? peer = some c := hc
      -- The guest is there, so that the replay cannot fail.
      simp only [Noted.value_bind] at he
      split at he
      · split at he
        · rw [value_replayTo _ _ _ hjoined] at he
          cases he
        · cases he
      · cases he
    | leave | kill => cases he
  | descriptorRequest whitelist blacklist =>
    unfold discover at he
    rw [hc] at he
    cases he
  | clearCache typeNames h => cases he
  | importStruct schema h =>
    simp only [registerStruct, Noted.value_bind] at he
    cases hregister : b.registry.registerStruct schema with
    | error e' =>
      simp only [hregister, Noted.value_pure] at he
      cases he
      exact .inl ⟨schema, h, rfl, hregister⟩
    | ok r =>
      obtain ⟨registry, outcome⟩ := r
      cases outcome <;> simp [hregister] at he
  | importEnum schema h =>
    simp only [registerEnum, Noted.value_bind] at he
    cases hregister : b.registry.registerEnum schema with
    | error e' =>
      simp only [hregister, Noted.value_pure] at he
      cases he
      exact .inr ⟨schema, h, rfl, hregister⟩
    | ok r =>
      obtain ⟨registry, outcome⟩ := r
      cases outcome <;> simp [hregister] at he

theorem eq_error_of_failure? {outcome : Outcome Unit} (h : failure? outcome = some e) :
    outcome = .error e := by
  cases outcome with
  | ok u => cases h
  | error e' =>
    cases h
    rfl

/-- What becomes of an object: it is a forged host record, it is refused, or it is handed on. -/
theorem receive_object_cases (hopen : c.isClosed = false) {o : Object}
    (hpayload : t.payload = .object o) (b : Broker) (now : Instant) :
    (c.receive t now).value.2 = .fatal (.invalidOperation (.hostRecord o.typeName)) ∨
    (∃ violation, (c.receive t now).value.2 = .rejected violation ∧
      Refused b c t (.protocol violation)) ∨
    c.Admits t.header o ∧ (c.receive t now).value.2 = .object (c.stamp t.header now) o := by
  have hhandedOn : c.Admits t.header o → (c.receive t now).value.2 = .object _ o :=
    fun hadmits => by rw [Connection.receive_of_admits hopen hpayload hadmits]
  rw [Connection.receive_of_object hopen hpayload] at hhandedOn ⊢
  cases hspace : t.header.isControl with
  | true =>
    simp only [hspace, if_true] at hhandedOn ⊢
    -- A forged record is found before the state of the connection is looked at.
    by_cases hforged : isHostRecord o.typeName = true
    · exact .inl (if_pos hforged)
    · have hordinary : isHostRecord o.typeName = false := by simpa using hforged
      by_cases hstate : c.state = .earlySubscribe ∨ c.state = .connected
      · have hadmits : c.Admits t.header o := by simp [Connection.Admits, hspace, hordinary, hstate]
        exact .inr (.inr ⟨hadmits, hhandedOn hadmits⟩)
      · obtain ⟨hpreload, hconnected⟩ := not_or.1 hstate
        refine .inr (.inl ⟨.internalObjectInState o.typeName c.state, ?_,
          .internal hpayload hspace hordinary ⟨hpreload, hconnected⟩⟩)
        unfold Connection.classifyInternal
        rw [if_neg hforged]
        cases hstate' : c.state with
        | earlySubscribe => exact absurd hstate' hpreload
        | connected => exact absurd hstate' hconnected
        | connecting | suspended | closed => rfl
  | false =>
    simp only [hspace, Bool.false_eq_true, if_false] at hhandedOn ⊢
    by_cases hstate : c.state = .connected
    · have hadmits : c.Admits t.header o := by simp [Connection.Admits, hspace, hstate]
      exact .inr (.inr ⟨hadmits, hhandedOn hadmits⟩)
    · exact .inr (.inl ⟨_, if_neg hstate, .object hpayload hspace hstate⟩)

/-- What becomes of a control message: it is dealt with, it is refused, or it is handed on. -/
theorem receive_message_cases (hopen : c.isClosed = false) {message : ControlMessage}
    (hpayload : t.payload = .control message) (b : Broker) (now : Instant) :
    (c.receive t now).value.2 = .handled ∨
    (∃ violation, (c.receive t now).value.2 = .rejected violation ∧
      Refused b c t (.protocol violation)) ∨
    (t.header.isControl = true ∧ (c.state = .earlySubscribe ∨ c.state = .connected)) ∧
      ∃ request, (c.classifyControl (c.stamp t.header now) message).value = .control request ∧
        (c.receive t now).value.2 = .control request := by
  by_cases hspace : t.header.isControl = true
  · by_cases hnotice : message.isNotice = true
    · -- Whatever the guest reports, it is not told of an error in return.
      exact .inl (Connection.receive_of_notice hopen hpayload hspace hnotice)
    · have hnotice : message.isNotice = false := by simpa using hnotice
      rw [Connection.receive_of_message hopen hpayload hspace hnotice]
      by_cases hexpected : c.state.expects message = true
      · rcases Connection.receiveMessage_of_expected (c.stamp t.header now) hnotice hexpected with
          hhandled | ⟨hrequest, hstate⟩
        · exact .inl hhandled
        · rw [Connection.receiveMessage_of_request _ hstate hrequest]
          have hclassify := c.classifyControl_of_request (c.stamp t.header now) hrequest
          refine hclassify.imp_right fun ⟨request, hcontrol⟩ => ?_
          exact .inr ⟨⟨hspace, hstate⟩, request, hcontrol, hcontrol⟩
      · have hunexpected : c.state.expects message = false := by simpa using hexpected
        rw [Connection.receiveMessage_of_unexpected _ hunexpected]
        exact .inr (.inl ⟨_, rfl, .message hpayload hspace hunexpected⟩)
  · have hspace : t.header.isControl = false := by simpa using hspace
    rw [Connection.receive_of_outside hopen hpayload hspace]
    exact .inr (.inl ⟨_, rfl, .outside hpayload hspace⟩)

/-- A connection hands on control work only from a guest that has named itself, and only if it came
in the control namespace. -/
theorem named_of_receive (hopen : c.isClosed = false) {request : ControlRequest}
    (hreceived : (c.receive t now).value.2 = .control request) (b : Broker) :
    t.header.isControl = true ∧ (c.state = .earlySubscribe ∨ c.state = .connected) := by
  have hpayload := Connection.payload_of_receive hreceived
  rcases receive_message_cases hopen hpayload b now with hhandled | ⟨violation, hrejected, -⟩ |
    ⟨hnamed, -⟩
  · cases hreceived.symm.trans hhandled
  · cases hreceived.symm.trans hrejected
  · exact hnamed

/-- Control work fails only if the frame is refused. -/
theorem refused_of_acceptRequest {message : ControlMessage} {h : Header}
    {request : ControlRequest} (hc : b.connections.find? peer = some c)
    (hpayload : t.payload = .control message) (hspace : t.header.isControl = true)
    (hstate : c.state = .earlySubscribe ∨ c.state = .connected)
    (hclassify : (c.classifyControl h message).value = .control request)
    (he : (b.acceptRequest peer request now).value.2 = .error e) : Refused b c t e := by
  obtain rfl := Connection.message_of_classifyControl hclassify
  rcases acceptRequest_eq_error hc he with ⟨schema, h', rfl, hregister⟩ |
    ⟨schema, h', rfl, hregister⟩
  · exact .structSchema hpayload hspace hstate (Connection.imported_of_announced hclassify).1
      hregister
  · exact .enumSchema hpayload hspace hstate (Connection.imported_of_announced hclassify).1
      hregister

/-- A guest is told of a violation only if its frame is refused. -/
theorem refused_of_complaint (hb : b.Sound) (hr : b.Rested)
    (hc : b.connections.find? peer = some c) (he : b.complaint? peer c t now = some e)
    (hviolation : e.isViolation = true) : Refused b c t e := by
  obtain ⟨-, hopen⟩ := hr peer c hc
  unfold complaint? at he
  cases hpayload : t.payload with
  | object o =>
    rcases receive_object_cases hopen hpayload b now with
      hforged | ⟨violation, hrejected, hrefused⟩ | ⟨hadmits, hobject⟩
    · -- A forged host record closes the connection, so that it is no violation.
      rw [hforged] at he
      cases he
      cases hviolation
    · rw [hrejected] at he
      cases he
      exact hrefused
    · rw [hobject] at he
      have hfailed := unacceptable_of_acceptObject hb (eq_error_of_failure? he)
      exact .unacceptable hpayload hadmits hfailed
  | control message =>
    rcases receive_message_cases hopen hpayload b now with
      hhandled | ⟨violation, hrejected, hrefused⟩ | ⟨⟨hspace, hstate⟩, request, hclassify, hcontrol⟩
    · rw [hhandled] at he
      cases he
    · rw [hrejected] at he
      cases he
      exact hrefused
    · rw [hcontrol] at he
      exact refused_of_acceptRequest hc hpayload hspace hstate hclassify (eq_error_of_failure? he)

/-! ## What a refusal comes to -/

/-- A broker stays at rest when an open connection with nothing queued is put in its place. -/
theorem Rested.putConnection (hr : b.Rested) (hqueue : c.transitions = [])
    (hopen : c.isClosed = false) : (b.putConnection peer c).Rested := by
  intro q d hd
  rw [find?_putConnection] at hd
  split at hd
  · obtain rfl := Option.some.inj hd
    exact ⟨hqueue, hopen⟩
  · exact hr q d hd

/-- The broker goes on reading from a guest whose connection is open. -/
theorem flow_putConnection (b : Broker) (hopen : c.isClosed = false) :
    (b.putConnection peer c).flow peer = .proceed := by
  unfold flow
  rw [find?_putConnection, if_pos rfl]
  exact if_neg (by simp [hopen])

/-- The guest of a connection is handed a frame, and nothing else changes. -/
def handing (b : Broker) (peer : PeerId) (c : Connection) (t : Transmission) : Broker :=
  b.putConnection peer
    { c with channel := { c.channel with trace := c.channel.trace ++ [.sent t] } }

/-- The notice of a violation. -/
def violationNotice (e : BrokerError) (now : Instant) : Transmission :=
  .ofControl (.notice .violation e.message) now

/-- Telling a guest of a violation, when its channel takes the notice. -/
theorem report_of_taken (hc : b.connections.find? peer = some c)
    (hstate : c.state ≠ .closed ∧ c.state ≠ .suspended) (hviolation : e.isViolation = true)
    (htaken : c.channel.refusal c.channel.trace (violationNotice e now) = none) :
    (b.report peer e now).value = b.handing peer c (violationNotice e now) := by
  have hsend := Connection.value_send_of_taken hstate htaken
  unfold report
  simp only [hc, if_pos hviolation, Noted.value_bind, Noted.value_pure]
  rw [handing, ← hsend]
  rfl

/-- A refused frame: the guest is handed the notice, nothing else changes, and the broker goes on
reading. -/
theorem Reachable.receive_of_refused (hb : b.Reachable)
    (hc : b.connections.find? peer = some c) (hrefused : Refused b c t e)
    (htaken : c.channel.refusal c.channel.trace (violationNotice e now) = none) :
    (b.receive peer t now).value = (b.handing peer c (violationNotice e now), .proceed) := by
  obtain ⟨hqueue, hopen⟩ := hb.rested peer c hc
  have hstate : c.state ≠ .closed ∧ c.state ≠ .suspended :=
    ⟨Connection.isClosed_eq_false_iff.1 hopen, hb.state_ne_suspended hc⟩
  have hreport := report_of_taken hc hstate hrefused.isViolation htaken
  have hrests : (b.handing peer c (violationNotice e now)).Rested :=
    hb.rested.putConnection hqueue hopen
  have hflow : (b.handing peer c (violationNotice e now)).flow peer = .proceed :=
    flow_putConnection b hopen
  unfold receive
  simp only [hc, Noted.value_bind, Noted.value_pure,
    acceptReceived_of_refused hb.sound hb.stocked hb.rested hc hrefused now, hreport,
    drain_of_rested hrests now, hflow]

/-! ## Who is told of a violation -/

/-- A guest whose channel does not take the notice is handed nothing. -/
theorem effects_report_of_not_taken {passed : Passage → Prop}
    {sent : PeerId → Transmission → Prop} (hc : b.connections.find? peer = some c)
    (hviolation : e.isViolation = true)
    (htaken : c.channel.refusal c.channel.trace (violationNotice e now) ≠ none) :
    Effects passed sent b (b.report peer e now).value := by
  have hnothing : c.channel.Sends (sent peer) (c.send (violationNotice e now)).value.channel :=
    Connection.sends_send_of_not_taken htaken
  unfold report
  simp only [hc, if_pos hviolation]
  exact effects_putConnection hc hnothing

/-- Objects, answers and replays hold no notice of a violation. -/
theorem isViolationNotice_replayFrames (b : Broker) (schema : StructSchema) (now : Instant) :
    ∀ f ∈ b.replayFrames schema now, f.isViolationNotice = false := by
  intro f hf
  rcases List.mem_append.1 hf with hf | hf
  · obtain ⟨e, -, left, rfl⟩ := Container.exists_of_mem_replayOf hf
    rfl
  · obtain rfl := List.mem_singleton.1 hf
    rfl

/-- A guest that is told of no violation is handed no notice of one. -/
theorem answers_of_no_violation
    (hnone : ∀ e, b.complaint? peer c t now = some e → e.isViolation = false) :
    Answers (fun _ f => f.isViolationNotice = false) b peer c t now where
  answer q f hf := by
    obtain ⟨message, hpayload, hmessage⟩ := hf
    unfold Transmission.isViolationNotice
    rw [hpayload]
    cases message with
    | error code text => cases hmessage
    | hello | connect | connectResponse | member | descriptorRequest | clearCache | cacheInfo |
      structSchema | enumSchema => rfl
  notice e he := by
    rw [noticeOf, hnone e he]
    rfl
  replay group schema _ _ := isViolationNotice_replayFrames b schema now

/-- A guest is handed the notice of a violation only if its frame is refused and its channel takes
the notice. -/
theorem Reachable.refused_of_newFrames (hb : b.Reachable)
    (hc : b.connections.find? peer = some c) {f : Transmission}
    (hf : f ∈ b.newFrames (b.perform (.receive peer t) now) peer)
    (hnotice : f.isViolationNotice = true) :
    ∃ e, Refused b c t e ∧
      c.channel.refusal c.channel.trace (violationNotice e now) = none := by
  by_contra hno
  suffices hdoes : Does now (fun _ => True) (fun _ => True)
      (fun _ f => f.isViolationNotice = false) b (b.perform (.receive peer t) now) by
    -- What is passed on is an object, and nothing else that is sent is such a notice.
    rcases hdoes.frames.of_mem_newFrames hf with hother | ⟨p, -, -, rfl⟩
    · rw [hnotice] at hother
      cases hother
    · cases hnotice
  by_cases hviolation : ∃ e, b.complaint? peer c t now = some e ∧ e.isViolation = true
  · obtain ⟨e, he, hviolation⟩ := hviolation
    have hrefused : Refused b c t e := refused_of_complaint hb.sound hb.rested hc he hviolation
    have htaken : c.channel.refusal c.channel.trace (violationNotice e now) ≠ none :=
      fun htaken => hno ⟨e, hrefused, htaken⟩
    have hreport : Course (.receive peer t) now (fun _ => True) (fun _ => True)
        (fun _ f => f.isViolationNotice = false) b (b.report peer e now).value :=
      .steps (steps_report b peer e) fun _ => effects_report_of_not_taken hc hviolation htaken
    have hperform : b.perform (.receive peer t) now =
        ((b.report peer e now).value.drain now).value := by
      rw [← acceptReceived_of_refused hb.sound hb.stocked hb.rested hc hrefused now]
      unfold Broker.perform receive
      simp only [hc, Noted.value_bind, Noted.value_pure]
    rw [hperform]
    exact (hreport.trans (.drain _)).does (by simp) hb.tidy hb.rested.queued
  · have hnone : ∀ e, b.complaint? peer c t now = some e → e.isViolation = false :=
      fun e he => by simpa using fun htrue => hviolation ⟨e, he, htrue⟩
    exact hb.does_receive hc (answers_of_no_violation hnone) (fun _ _ _ _ => trivial)
      fun _ _ _ _ _ _ _ => trivial

/-- Refusals are atomic: a guest is handed the notice of a violation only if its frame is refused
for one of the known causes, and then that notice is all that changes, provided that its channel
takes it. -/
theorem Reachable.refusal_atomic (hb : b.Reachable) (hc : b.connections.find? peer = some c)
    (t : Transmission) (now : Instant) :
    ((∃ f ∈ b.newFrames (b.perform (.receive peer t) now) peer, f.isViolationNotice = true) →
      ∃ e, Refused b c t e ∧
        c.channel.refusal c.channel.trace (violationNotice e now) = none) ∧
    ∀ e, Refused b c t e → c.channel.refusal c.channel.trace (violationNotice e now) = none →
      (b.receive peer t now).value = (b.handing peer c (violationNotice e now), .proceed) := by
  refine ⟨?_, fun e hrefused htaken => hb.receive_of_refused hc hrefused htaken⟩
  rintro ⟨f, hf, hnotice⟩
  exact hb.refused_of_newFrames hc hf hnotice

/-- A note without a number. -/
def unnumberedNote : Transmission :=
  .ofObject { typeName := noteSchema.name } ((Object.empty noteSchema.name).set 2 (.str "lost"))

/-- The reader is told that its note lacks its key. -/
theorem refusal_of_unnumbered_note : ∃ c e,
    (boardWithReader false).connections.find? 2 = some c ∧ Refused (boardWithReader false) c
      unnumberedNote e ∧
    ((boardWithReader false).receive 2 unnumberedNote default).value =
      ((boardWithReader false).handing 2 c (violationNotice e default), .proceed) := by
  have hreachable : (boardWithReader false).Reachable := reachable_board.perform _ _
  obtain ⟨c, hc, hstate, htaken⟩ : ∃ c, (boardWithReader false).connections.find? 2 = some c ∧
      c.state = .connected ∧ ∀ f, c.channel.refusal c.channel.trace f = none :=
    ⟨_, rfl, rfl, fun _ => rfl⟩
  obtain ⟨-, hatomic⟩ := Reachable.refusal_atomic hreachable hc unnumberedNote default
  have hrefused : Refused (boardWithReader false) c unnumberedNote _ :=
    .unacceptable rfl hstate (.missingKey rfl rfl rfl rfl rfl)
  exact ⟨c, _, hc, hrefused, hatomic _ hrefused (htaken _)⟩

end Broker

end ObjectBus
