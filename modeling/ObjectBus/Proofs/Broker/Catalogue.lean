import ObjectBus.Proofs.Broker.Roster

/-!
# The catalogue of types

What a broker keeps of its types apart from their caches: the registry, the numbers of the struct
types and what observers were told of them. Nothing that a broker does changes it but registering a
type.

* `Broker.catalogue`: the catalogue of a broker, with one lemma for each operation that leaves it
  as it is;
* `Keeps`: no struct type becomes known, and enum types stay known;
* `keeps_perform`: so it is with every call that registers no struct type.
-/

namespace ObjectBus

/-- What an event says of a type that has become known. -/
def BrokerEvent.newType? : BrokerEvent → Option (UInt32 × String)
  | .typeAnnounced id name => some (id, name)
  | .peerState .. => none
  | .object _ => none

/-- The types of a broker. -/
structure Catalogue where
  /-- Their definitions. -/
  registry : Registry
  /-- Their numbers. -/
  typeIds : SortedMap String UInt32
  /-- The number of the next type. -/
  nextTypeId : UInt32
  /-- What observers were told of them, in order. -/
  told : List (UInt32 × String)

namespace Broker

variable {call : BrokerCall} {now : Instant} {b b' b'' : Broker} {peer : PeerId} {c : Connection}
variable {t : Transmission}

/-- The catalogue of a broker. -/
def catalogue (b : Broker) : Catalogue where
  registry := b.registry
  typeIds := b.typeIds
  nextTypeId := b.nextTypeId
  told := b.events.filterMap (·.newType?)

/-! ## Operations that leave the catalogue as it is -/

theorem catalogue_foldl {α : Type} {f : Broker → α → Broker}
    (hf : ∀ b a, (f b a).catalogue = b.catalogue) (l : List α) (b : Broker) :
    (l.foldl f b).catalogue = b.catalogue := by
  induction l generalizing b with
  | nil => rfl
  | cons a rest ih => rw [List.foldl_cons, ih, hf]

@[simp]
theorem catalogue_dispatch (b : Broker) (schema : StructSchema) (h : Header) (o : Object)
    (now : Instant) : (b.dispatch schema h o now).value.1.catalogue = b.catalogue := by
  have hobject : (b.eventsOf schema h o now).filterMap (·.newType?) = [] := by
    unfold eventsOf
    split <;> rfl
  rw [value_dispatch]
  simp only [catalogue, List.filterMap_append, hobject, List.append_nil]

@[simp]
theorem catalogue_publishAsHost (b : Broker) (o : Object) (included : Option PropertySet)
    (remove : Bool) (now : Instant) :
    (b.publishAsHost o included remove now).value.1.catalogue = b.catalogue := by
  rcases b.publishAsHost_cases o now included remove with ⟨schema, -, -, heq⟩ | heq
  · rw [heq, catalogue_dispatch]
  · rw [heq]

@[simp]
theorem catalogue_retract (b : Broker) (objects : List Object) (keys : PropertySet)
    (failure : String) (fields : List (String × NoteValue)) (now : Instant) :
    (b.retract objects keys failure fields now).value.catalogue = b.catalogue := by
  rw [value_retract]
  exact catalogue_foldl (fun b o => catalogue_publishAsHost b o _ _ now) _ _

@[simp]
theorem catalogue_setAside (b : Broker) (q : PeerId) :
    (b.setAside q).catalogue = b.catalogue := by
  unfold setAside
  split <;> rfl

@[simp]
theorem catalogue_onClosed (b : Broker) (q : PeerId) (now : Instant) :
    (b.onClosed q now).value.catalogue = b.catalogue := by
  unfold onClosed
  rw [Noted.value_foldlM, catalogue_foldl (fun b typeName => ?_), catalogue_setAside]
  unfold cleanUpType
  split
  · rfl
  · simp only
    split
    · rfl
    · exact catalogue_retract _ _ _ _ _ _

@[simp]
theorem catalogue_onTransition (b : Broker) (q : PeerId) (t : Transition) (now : Instant) :
    (b.onTransition q t now).value.catalogue = b.catalogue := by
  have hleft : (b.leftBy q t now).catalogue = b.catalogue := by
    unfold leftBy
    split
    · exact catalogue_onClosed b q now
    · rfl
  have htell : ∀ name, ((b.leftBy q t now).emit (.peerState q name t.state t.cause)).catalogue =
      b.catalogue := by
    intro name
    rw [← hleft]
    simp [catalogue, emit, BrokerEvent.newType?]
  rw [value_onTransition, catalogue_publishAsHost, htell]

@[simp]
theorem catalogue_drain (b : Broker) (now : Instant) :
    (b.drain now).value.catalogue = b.catalogue :=
  drain_induction (I := fun _ s => s.catalogue = b.catalogue) (fun _ hs => hs)
    (fun s x _ hs => (catalogue_onTransition s x.1 x.2 now).trans hs) rfl

@[simp]
theorem catalogue_report (b : Broker) (peer : PeerId) (e : BrokerError) (now : Instant) :
    (b.report peer e now).value.catalogue = b.catalogue := by
  unfold report
  split
  · rfl
  · split <;> rfl

@[simp]
theorem catalogue_settle (peer : PeerId) (now : Instant) (r : Broker × Outcome Unit) :
    (settle peer now r).value.catalogue = r.1.catalogue := by
  unfold settle
  split
  · rfl
  · exact catalogue_report _ _ _ now

theorem catalogue_acceptObject (b : Broker) (h : Header) (o : Object) (now : Instant) :
    (b.acceptObject h o now).value.1.catalogue = b.catalogue := by
  unfold acceptObject
  split
  · rfl
  · split
    · rfl
    · split
      · rfl
      · exact catalogue_dispatch _ _ _ _ now

theorem catalogue_replayTo (b : Broker) (peer : PeerId) (schema : StructSchema) (now : Instant) :
    (b.replayTo peer schema now).value.1.catalogue = b.catalogue := by
  unfold replayTo
  simp only
  split <;> rfl

theorem catalogue_changeMembership (b : Broker) (peer : PeerId) (group : String)
    (event : MemberEvent) (now : Instant) :
    (b.changeMembership peer group event now).value.1.catalogue = b.catalogue := by
  unfold changeMembership
  cases event with
  | join =>
    simp only [Noted.value_bind]
    split
    · split
      · exact catalogue_replayTo _ peer _ now
      · rfl
    · rfl
  | leave | kill => rfl

theorem catalogue_discover (b : Broker) (peer : PeerId) (whitelist blacklist : List String)
    (now : Instant) :
    (b.discover peer whitelist blacklist now).value.1.catalogue = b.catalogue := by
  unfold discover
  split <;> rfl

@[simp]
theorem catalogue_forward (b : Broker) (group : String) (t : Transmission) :
    (b.forward group t).value.catalogue = b.catalogue := rfl

@[simp]
theorem catalogue_confirmImport (b : Broker) (peer : PeerId) (typeName : String) :
    (b.confirmImport peer typeName).catalogue = b.catalogue := by
  unfold confirmImport
  split <;> rfl

@[simp]
theorem catalogue_clearCache (b : Broker) (typeNames : List String) (now : Instant) :
    (b.clearCache typeNames now).value.catalogue = b.catalogue := by
  unfold clearCache
  simp only [Noted.value_bind, Noted.value_foldlM]
  rw [catalogue_drain, catalogue_foldl fun b typeName => ?_]
  unfold clearType
  split
  · rfl
  · exact catalogue_retract _ _ _ _ _ now

theorem catalogue_publish (b : Broker) (o : Object) (included : Option PropertySet)
    (remove : Bool) (now : Instant) :
    (b.publish o included remove now).value.1.catalogue = b.catalogue := by
  unfold publish
  simp only [Noted.value_bind]
  split
  · exact catalogue_publishAsHost _ _ _ _ now
  · exact (catalogue_drain _ now).trans (catalogue_publishAsHost _ _ _ _ now)

theorem catalogue_remove (b : Broker) (o : Object) (now : Instant) :
    (b.remove o now).value.1.catalogue = b.catalogue := by
  unfold Broker.remove
  split
  · rfl
  · exact catalogue_publish _ _ _ _ now

theorem catalogue_sweep (b : Broker) (now : Instant) :
    (b.sweep now).value.catalogue = b.catalogue := by
  unfold sweep
  simp only [Noted.value_bind]
  split
  · rfl
  · exact (catalogue_drain _ now).trans (catalogue_retract _ _ _ _ _ now)

theorem catalogue_shutdown (b : Broker) (now : Instant) :
    (b.shutdown now).value.catalogue = b.catalogue := by
  unfold shutdown
  simp only [Noted.value_bind, Noted.value_foldlM]
  rw [catalogue_sweep, catalogue_drain, catalogue_foldl fun b peer => ?_]
  unfold farewell
  split <;> rfl

/-! ## Calls that register no struct type -/

/-- No struct type becomes known, and the enum types stay known. -/
structure Keeps (b b' : Broker) : Prop where
  /-- The struct types are the same. -/
  structs : b'.registry.structs = b.registry.structs
  /-- The enum types that were known are known by the same definitions. -/
  enums : ∀ name s, b.registry.findEnum? name = some s → b'.registry.findEnum? name = some s
  /-- The numbers are the same. -/
  typeIds : b'.typeIds = b.typeIds
  /-- So is the next one. -/
  nextTypeId : b'.nextTypeId = b.nextTypeId
  /-- Observers are told of no type. -/
  told : b'.catalogue.told = b.catalogue.told

namespace Keeps

theorem of_catalogue (h : b'.catalogue = b.catalogue) : Keeps b b' where
  structs := congrArg (·.registry.structs) h
  enums name s hs := by
    have hregistry : b'.registry = b.registry := congrArg (·.registry) h
    rwa [hregistry]
  typeIds := congrArg (·.typeIds) h
  nextTypeId := congrArg (·.nextTypeId) h
  told := congrArg (·.told) h

theorem trans (h : Keeps b b') (h' : Keeps b' b'') : Keeps b b'' where
  structs := h'.structs.trans h.structs
  enums name s hs := h'.enums name s (h.enums name s hs)
  typeIds := h'.typeIds.trans h.typeIds
  nextTypeId := h'.nextTypeId.trans h.nextTypeId
  told := h'.told.trans h.told

/-- Observers are told of no type meanwhile. -/
theorem not_announced (h : Keeps b b') (hevents : b.events <+: b'.events) {id : UInt32}
    {name : String} : .typeAnnounced id name ∉ b.newEvents b' := by
  obtain ⟨events, hsplit⟩ := hevents
  have htold := h.told
  simp only [catalogue, ← hsplit, List.filterMap_append, List.append_right_eq_self] at htold
  rw [newEvents_of_append hsplit.symm]
  intro hmem
  have hnone := List.filterMap_eq_nil_iff.1 htold _ hmem
  cases hnone

end Keeps

/-- Registering an enum type adds it under a name that was free, or changes nothing. -/
theorem keeps_registerEnum (b : Broker) (schema : EnumSchema) :
    Keeps b (b.registerEnum schema).value.1 := by
  unfold registerEnum
  cases hfind : b.registry.findEnum? schema.name with
  | some known =>
    by_cases heq : known = schema
    · have hregister : b.registry.registerEnum schema = .ok (b.registry, .unchanged) := by
        simp [Registry.registerEnum, hfind, heq]
      rw [hregister]
      exact .of_catalogue rfl
    · have hregister : b.registry.registerEnum schema =
          .error (.schemaConflict (.otherEnum schema.name)) := by
        simp [Registry.registerEnum, hfind, heq]
      rw [hregister]
      exact .of_catalogue rfl
  | none =>
    have hregister : b.registry.registerEnum schema = .ok (b.registry.addEnum schema, .new) := by
      simp [Registry.registerEnum, hfind]
    rw [hregister]
    refine ⟨rfl, fun name s hs => ?_, rfl, rfl, rfl⟩
    have hne : name ≠ schema.name := by
      rintro rfl
      rw [hfind] at hs
      cases hs
    simpa [Registry.findEnum?, Registry.addEnum, hne] using hs

/-- Doing control work other than registering a struct type. -/
theorem keeps_acceptRequest {request : ControlRequest}
    (hrequest : ∀ schema h, request ≠ .importStruct schema h) (b : Broker) (peer : PeerId)
    (now : Instant) : Keeps b (b.acceptRequest peer request now).value.1 := by
  unfold acceptRequest
  cases request with
  | member group event => exact .of_catalogue (catalogue_changeMembership b peer group event now)
  | descriptorRequest whitelist blacklist =>
    exact .of_catalogue (catalogue_discover b peer _ _ now)
  | clearCache typeNames h => exact .of_catalogue (catalogue_clearCache b typeNames now)
  | importStruct schema h => exact absurd rfl (hrequest schema h)
  | importEnum schema h =>
    simp only [Noted.value_bind]
    have hregister := keeps_registerEnum b schema
    split
    · exact hregister
    · exact hregister.trans (.of_catalogue (catalogue_confirmImport _ peer schema.name))

/-- A call makes the broker register a struct type, on its own account or for a guest. -/
def Registers (b : Broker) (schema : StructSchema) (now : Instant) : BrokerCall → Prop
  | .registerStruct s => s = schema
  | .receive peer t => ∃ c h, b.connections.find? peer = some c ∧
      (c.receive t now).value.2 = .control (.importStruct schema h)
  | _ => False

/-- Processing what a guest sent, unless that is the definition of a struct type. -/
theorem keeps_receive (hcall : ∀ schema, ¬b.Registers schema now (.receive peer t)) :
    Keeps b (b.receive peer t now).value.1 := by
  unfold receive
  cases hc : b.connections.find? peer with
  | none => exact .of_catalogue rfl
  | some c =>
    simp only [Noted.value_bind, Noted.value_pure]
    have hhear : Keeps b (b.putConnection peer (c.receive t now).value.1) := .of_catalogue rfl
    suffices haccept : Keeps (b.putConnection peer (c.receive t now).value.1)
        ((b.putConnection peer (c.receive t now).value.1).acceptReceived peer
          (c.receive t now).value.2 now).value from
      (hhear.trans haccept).trans (.of_catalogue (catalogue_drain _ now))
    unfold acceptReceived
    cases hreceived : (c.receive t now).value.2 with
    | handled => exact .of_catalogue rfl
    | rejected violation => exact .of_catalogue (catalogue_report _ peer _ now)
    | fatal e => exact .of_catalogue (catalogue_report _ peer e now)
    | object h o =>
      exact .of_catalogue ((catalogue_settle peer now _).trans (catalogue_acceptObject _ h o now))
    | control request =>
      have hother : ∀ schema h, request ≠ .importStruct schema h := by
        rintro schema h rfl
        exact hcall schema ⟨c, h, hc, hreceived⟩
      exact (keeps_acceptRequest hother _ peer now).trans
        (.of_catalogue (catalogue_settle peer now _))

/-- A call that registers no struct type leaves the struct types as they are. -/
theorem keeps_perform (hcall : ∀ schema, ¬b.Registers schema now call) :
    Keeps b (b.perform call now) := by
  cases call with
  | accept channel => exact .of_catalogue (catalogue_drain _ now)
  | receive peer t => exact keeps_receive hcall
  | transportFailed peer error =>
    refine .of_catalogue ?_
    show (b.transportFailed peer error now).value.catalogue = b.catalogue
    unfold transportFailed
    split
    · rfl
    · exact catalogue_drain _ now
  | publish o included remove => exact .of_catalogue (catalogue_publish b o included remove now)
  | remove o => exact .of_catalogue (catalogue_remove b o now)
  | clearCache typeNames => exact .of_catalogue (catalogue_clearCache b typeNames now)
  | registerStruct schema => exact absurd rfl (hcall schema)
  | registerEnum schema => exact keeps_registerEnum b schema
  | subscribe typeName =>
    refine .of_catalogue ?_
    show (b.subscribe typeName now).1.catalogue = b.catalogue
    unfold subscribe
    split <;> rfl
  | unsubscribe id => exact .of_catalogue rfl
  | sweep => exact .of_catalogue (catalogue_sweep b now)
  | shutdown => exact .of_catalogue (catalogue_shutdown b now)
  | disturb peer refusal =>
    refine .of_catalogue ?_
    show (b.disturb peer refusal).catalogue = b.catalogue
    unfold disturb
    split <;> rfl

end Broker

end ObjectBus
