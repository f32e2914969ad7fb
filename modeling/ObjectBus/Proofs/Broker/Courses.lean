import ObjectBus.Proofs.Broker.Authority

/-!
# The courses of calls

A call either accepts guests or forgets them, or it is a course: all that it passes on are deeds of
the host and what the call itself brings, the object that is to be published or that a guest has
sent. What it sends besides removes nothing. What holds of both kinds of parts of a course therefore
holds of all such calls at once.

* `BrokerCall.rearranges`: the calls that are more than a course;
* `BrokerCall.Clears`, `Broker.Brings`: the caches that a call asks to clear, and what it brings;
* `Broker.RemovesNothing`: what guests are sent besides objects that are passed on;
* `Reachable.course_perform`: every other call is a course.
-/

namespace ObjectBus

/-- Whether a call may put guests into the tables or forget closed ones. -/
def BrokerCall.rearranges : BrokerCall → Bool
  | .accept .. => true
  | .sweep => true
  | .shutdown => true
  | _ => false

theorem BrokerCall.ne_accept {call : BrokerCall} (h : call.rearranges = false) (channel : Channel) :
    call ≠ .accept channel := by
  rintro rfl
  cases h

/-- A call asks to clear the cache of a type, on its own account or for a guest. -/
def BrokerCall.Clears : BrokerCall → String → Prop
  | .clearCache typeNames, typeName => typeName ∈ typeNames
  | .receive _ t, typeName => Broker.Clears t typeName
  | _, _ => False

/-- Whether a transmission removes an object. -/
def Transmission.removes (t : Transmission) : Bool := t.object?.isSome && t.header.remove

theorem Transmission.NoObject.removes {t : Transmission} (h : t.NoObject) : t.removes = false := by
  rw [Transmission.removes, h]
  rfl

@[simp]
theorem Passage.removes_frame (p : Passage) : p.frame.removes = p.header.remove := rfl

@[simp]
theorem CachedObject.removes_removalFrame (x : CachedObject) (now : Instant) :
    (x.removalFrame now).removes = true := rfl

namespace Broker

open Relation (ReflTransGen)

variable {call : BrokerCall} {now : Instant} {b b' : Broker} {peer : PeerId} {c c' : Connection}
variable {cleared : String → Prop} {given : Passage → Prop} {o : Object}
variable {sent : PeerId → Transmission → Prop}

/-- What guests are sent besides objects that are passed on removes nothing. -/
def RemovesNothing (_ : PeerId) (t : Transmission) : Prop := t.removes = false

theorem removesNothing_of_noObject (q : PeerId) (t : Transmission) (h : t.NoObject) :
    RemovesNothing q t := h.removes

/-- A replay removes nothing. -/
theorem removesNothing_replayFrames (b : Broker) (schema : StructSchema) (now : Instant)
    (q : PeerId) : ∀ t ∈ b.replayFrames schema now, RemovesNothing q t := by
  intro t ht
  rcases List.mem_append.1 ht with hitem | hmark
  · obtain ⟨e, -, left, rfl⟩ := Container.exists_of_mem_replayOf hitem
    rfl
  · obtain rfl := List.mem_singleton.1 hmark
    rfl

/-- What a call brings to be passed on: the object that the host is to publish or to remove, or the
object that a guest has authored. -/
def Brings (b : Broker) (now : Instant) (p : Passage) : BrokerCall → Prop
  | .publish o _ _ => p.object = o
  | .remove o => p.object = o
  | .receive peer t => ∃ c, b.connections.find? peer = some c ∧ b.Authored peer c t now p
  | _ => False

/-- Doing something with a connection. -/
theorem course_acts (hsent : ∀ q t, t.NoObject → sent q t)
    (hc : b.connections.find? peer = some c) (hacts : ReflTransGen (Connection.Acts now) c c') :
    Course call now cleared given sent b (b.putConnection peer c') := by
  refine .steps (steps_acts hc hacts) fun _ => effects_putConnection hc ?_
  induction hacts with
  | refl => exact .refl _ _
  | tail _ hact ih => exact ih.trans (hact.advances.sends.mono fun t => hsent peer t)

/-- Saying goodbye to a guest. -/
theorem course_farewell (hsent : ∀ q t, t.NoObject → sent q t) (b : Broker) (peer : PeerId) :
    Course call now cleared given sent b (b.farewell peer now).value := by
  unfold farewell
  cases hc : b.connections.find? peer with
  | none => exact .refl call now cleared given sent b
  | some c => exact course_acts hsent hc (.tail (.single (acts_sendControl c _ now)) (.close none))

/-- The transport of a guest fails. -/
theorem course_transportFailed (hsent : ∀ q t, t.NoObject → sent q t) (b : Broker) (peer : PeerId)
    (error : TransportError) :
    Course call now cleared given sent b (b.transportFailed peer error now).value := by
  unfold transportFailed
  cases hc : b.connections.find? peer with
  | none => exact .refl call now cleared given sent b
  | some c =>
    simp only [Noted.value_bind, Connection.value_transportFailed]
    exact .trans (course_acts hsent hc (.single (.close _))) (.drain _)

/-- The channel of a guest fails in another way. -/
theorem course_disturb (hsent : ∀ q t, t.NoObject → sent q t) (b : Broker) (peer : PeerId)
    (refusal : List ChannelAction → Transmission → Option TransportError) :
    Course call now cleared given sent b (b.disturb peer refusal) := by
  unfold disturb
  cases hc : b.connections.find? peer with
  | none => exact .refl call now cleared given sent b
  | some c => exact course_acts hsent hc (.single (.disturb refusal))

/-- Publishing an object as the host. -/
theorem course_publish (hgiven : ∀ p, p.object = o → given p) (b : Broker)
    (included : Option PropertySet) (remove : Bool) :
    Course call now cleared given sent b
      (b.publish o included remove now).value.1 := by
  have hpublish : Course call now cleared given sent b
      (b.publishAsHost o included remove now).value.1 := by
    refine .steps (steps_publishAsHost b o included remove) fun hb => ?_
    exact effects_publishAsHost hb o included remove now fun _ _ => .inl (hgiven _ rfl)
  unfold publish
  simp only [Noted.value_bind]
  split
  -- A publication that failed has left nothing to process.
  · exact hpublish
  · exact hpublish.trans (.drain _)

/-- Removing an object as the host. -/
theorem course_remove (hgiven : ∀ p, p.object = o → given p) (b : Broker) :
    Course call now cleared given sent b (b.remove o now).value.1 := by
  unfold Broker.remove
  split
  · exact .refl call now cleared given sent b
  · exact course_publish hgiven b _ true

/-- Subscriptions concern only the subscribers. -/
theorem course_subscribe (b : Broker) (typeName : String) :
    Course call now cleared given sent b (b.subscribe typeName now).1 := by
  unfold subscribe
  split
  · exact .refl call now cleared given sent b
  · refine .steps (.single (.subscribe _)) fun _ => ?_
    exact .of_sends (fun _ _ => id) rfl (fun _ _ => rfl) (.of_eq _ fun _ => rfl)

theorem course_unsubscribe (b : Broker) (id : SubscriptionId) :
    Course call now cleared given sent b (b.unsubscribe id).1 := by
  refine .steps (.single (.unsubscribe id)) fun _ => ?_
  refine .of_sends (fun _ _ hs => hs) rfl (fun typeName key => ?_) (.of_eq _ fun _ => rfl)
  rw [cachedAt?, cachedAt?, container?, container?, Broker.unsubscribe, Dispatcher.unsubscribe]
  split <;> rfl

/-- Processing a frame. -/
theorem Reachable.course_receive (hb : b.Reachable) (peer : PeerId) (t : Transmission)
    (now : Instant) :
    Course (.receive peer t) now (BrokerCall.receive peer t).Clears
      (b.Brings now · (.receive peer t)) RemovesNothing b
      (b.perform (.receive peer t) now) := by
  show Course _ _ _ _ _ b (b.receive peer t now).value.1
  unfold receive
  cases hc : b.connections.find? peer with
  | none => exact .refl _ now _ _ _ b
  | some c =>
    simp only [Noted.value_bind, Noted.value_pure]
    refine .trans (course_acceptReceived hc ⟨fun q f hf => hf.noObject.removes, fun _ _ => rfl,
      fun _ schema _ _ => removesNothing_replayFrames b schema now peer⟩ ?_ ?_) (.drain _)
    · exact fun typeNames hpayload typeName hmem => ⟨typeNames, hpayload, hmem⟩
    · exact fun h o schema hr hs hspace hvalid =>
        ⟨c, hc, authored_of_receive hb.sound hc hr hs hspace hvalid⟩

/-- A call that does not rearrange the tables is a course. -/
theorem Reachable.course_perform (hb : b.Reachable) (hcall : call.rearranges = false)
    (now : Instant) :
    Course call now call.Clears (b.Brings now · call) RemovesNothing b
      (b.perform call now) := by
  cases call with
  | accept | sweep | shutdown => cases hcall
  | receive peer t => exact hb.course_receive peer t now
  | transportFailed peer error =>
    exact course_transportFailed removesNothing_of_noObject b peer error
  | publish o included remove => exact course_publish (fun _ => id) b included remove
  | remove o => exact course_remove (fun _ => id) b
  | clearCache typeNames => exact course_clearCache (fun _ => id) b
  | registerStruct schema => exact course_registerStruct b schema
  | registerEnum schema =>
    exact .steps (steps_registerEnum b schema) fun _ => effects_registerEnum b schema
  | subscribe typeName => exact course_subscribe b typeName
  | unsubscribe id => exact course_unsubscribe b id
  | disturb peer refusal => exact course_disturb removesNothing_of_noObject b peer refusal

end Broker

end ObjectBus
