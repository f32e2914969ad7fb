import ObjectBus.Proofs.Broker.Deeds
import ObjectBus.Proofs.Broker.Numbers
import ObjectBus.Proofs.Broker.Refusal

/-!
# Who writes what

A guest speaks for itself only. Whatever its header declares, its object is passed on under its own
number, at a time that the host vouches for, and only if the guest takes part; and no guest writes
the records that are reserved to the host. So the broker can tell of every cached object who created
it and who wrote it last.

* `Reserved`: the types whose objects only the host writes;
* `Authored`: what a guest has passed on by a frame;
* `Authentic`: a frame passes on nothing but what its guest authored and deeds of the host;
* `Attributed`: every cached object was created and last written by the host or by a guest, and by
  the host if its type is reserved;
* `Reachable.authentic_receive`, `Reachable.attributed`: so it is for all frames and in all states.
-/

namespace ObjectBus

namespace Broker

variable {call : BrokerCall} {now : Instant} {b b' : Broker} {peer : PeerId}
variable {c : Connection} {t : Transmission} {typeName : String} {key : ObjectKey} {e : Entry}

/-! ## Reserved types -/

/-- A type whose objects only the host writes: it has the name of a built-in type and is internal,
as the built-in types are. -/
def Reserved (b : Broker) (typeName : String) : Prop :=
  isHostRecord typeName = true ∧
    ∀ s, b.registry.findStruct? typeName = some s → s.flags.internal = true

/-- The broker knows the built-in types, as one does that was started with them. -/
def KnowsBuiltin (b : Broker) : Prop :=
  ∀ s ∈ builtinStructs, b.registry.findStruct? s.name = some s

/-- To a broker that knows the built-in types, exactly these are reserved. -/
theorem KnowsBuiltin.reserved_iff (hb : b.KnowsBuiltin) :
    b.Reserved typeName ↔ typeName = peerStateType ∨ typeName = typeAnnounceType := by
  have hnames : isHostRecord typeName = true ↔
      typeName = peerStateType ∨ typeName = typeAnnounceType := by simp [isHostRecord]
  refine ⟨fun h => hnames.1 h.1, fun hname => ⟨hnames.2 hname, fun s hs => ?_⟩⟩
  rcases hname with rfl | rfl
  · have hknown := hb PeerState.schema (by simp [builtinStructs])
    obtain rfl := Option.some.inj (hknown.symm.trans hs)
    rfl
  · have hknown := hb TypeAnnounce.schema (by simp [builtinStructs])
    obtain rfl := Option.some.inj (hknown.symm.trans hs)
    rfl

/-- A broker that knows the built-in types goes on knowing them. -/
theorem KnowsBuiltin.perform (hb : b.KnowsBuiltin) (hr : b.Rested) (call : BrokerCall)
    (now : Instant) : (b.perform call now).KnowsBuiltin := by
  refine Moves.induction (I := KnowsBuiltin) (fun hI h s hs => h.findStruct? (hI s hs))
    (fun hI => hI) (fun hI _ s hs => ?_) hb (perform_moves hr call now)
  rw [registry_setAside]
  exact hI s hs

theorem KnowsBuiltin.after (hb : b.KnowsBuiltin) (hr : b.Reachable)
    (calls : List (BrokerCall × Instant)) : (b.after calls).KnowsBuiltin := by
  induction calls generalizing b with
  | nil => exact hb
  | cons call rest ih => exact ih (hb.perform hr.rested call.1 call.2) (hr.perform call.1 call.2)

/-- The registry of built-in types has them all. -/
theorem findStruct?_builtin :
    ∀ s ∈ builtinStructs, Registry.builtin.findStruct? s.name = some s := by
  intro s hs
  simp only [builtinStructs, List.mem_cons, List.not_mem_nil, or_false] at hs
  rcases hs with rfl | rfl
  · rfl
  · rfl

/-- A broker that was started around a registry with the built-in types knows them. -/
theorem knowsBuiltin_ofRegistry {registry : Registry}
    (h : ∀ s ∈ builtinStructs, registry.findStruct? s.name = some s) (name : String)
    (eventCapacity : Nat) (now : Instant) :
    (ofRegistry name registry eventCapacity now).value.KnowsBuiltin := by
  intro s hs
  rw [registry_ofRegistry]
  exact h s hs

/-! ## What a guest has passed on -/

/-- What a guest has passed on by a frame: the object of the frame, of a registered type that is not
reserved, under a header that names the guest and was stamped by the host. The guest takes part
fully, or it preloads and the type is internal. -/
structure Authored (b : Broker) (peer : PeerId) (c : Connection) (t : Transmission) (now : Instant)
    (p : Passage) : Prop where
  /-- It is the object of the frame. -/
  payload : t.payload = .object p.object
  /-- Its type is registered. -/
  registered : b.registry.findStruct? t.header.typeName = some p.schema
  /-- It conforms to the type. -/
  conforms : p.schema.validate p.object = .ok ()
  /-- It came in the namespace of its type. -/
  space : t.header.isControl = p.schema.flags.internal
  /-- The guest takes part. -/
  state : c.state = .connected ∨ c.state = .earlySubscribe ∧ p.schema.flags.internal = true
  /-- The type is not reserved. -/
  ordinary : ¬b.Reserved p.schema.name
  /-- The host vouches for the sender and the time. -/
  header : p.header = { t.header with
    sender := some peer
    serverSentTime := some now
    sentTime := some (t.header.sentTime.getD now)
    isFromMyself := false
    attributes := acceptedAttributes p.schema t.header p.object }

/-- An object that a connection hands on was admitted. -/
theorem admits_of_receive (b : Broker) {h : Header} {o : Object}
    (hr : (c.receive t now).value.2 = .object h o) : c.Admits t.header o := by
  obtain ⟨-, hpayload, -⟩ := Connection.receive_eq_object hr
  by_cases hclosed : c.isClosed = true
  · unfold Connection.receive at hr
    rw [if_pos hclosed] at hr
    cases hr
  · have hopen : c.isClosed = false := by simpa using hclosed
    rcases receive_object_cases hopen hpayload b now with
      hforged | ⟨violation, hrejected, -⟩ | ⟨hadmits, -⟩
    · rw [hr] at hforged
      cases hforged
    · rw [hr] at hrejected
      cases hrejected
    · exact hadmits

/-- An object that a connection hands on, and that is found to be in order, is its guest's. -/
theorem authored_of_receive (hb : b.Sound) (hc : b.connections.find? peer = some c) {h : Header}
    {o : Object} {schema : StructSchema} (hr : (c.receive t now).value.2 = .object h o)
    (hs : b.registry.findStruct? h.typeName = some schema)
    (hspace : h.isControl = schema.flags.internal) (hvalid : schema.validate o = .ok ()) :
    b.Authored peer c t now
      ⟨schema, { h with attributes := acceptedAttributes schema h o }, o⟩ := by
  have hadmits := admits_of_receive b hr
  obtain ⟨-, hpayload, rfl⟩ := Connection.receive_eq_object hr
  have hspace' : t.header.isControl = schema.flags.internal := hspace
  have htype : o.typeName = schema.name := (StructSchema.validate_eq_ok_iff.1 hvalid).1
  have hname : schema.name = t.header.typeName := (hb.findStruct?_name hs).1
  unfold Connection.Admits at hadmits
  refine ⟨hpayload, hs, hvalid, hspace', ?_, ?_, ?_⟩
  · split at hadmits
    · rename_i hcontrol
      exact hadmits.2.symm.imp_right fun hstate => ⟨hstate, hspace' ▸ hcontrol⟩
    · exact .inl hadmits
  · -- Of a reserved type the object would be internal, and then its name would have been refused.
    rintro ⟨hrecord, hinternal⟩
    have hcontrol : t.header.isControl = true := hspace'.trans (hinternal schema (hname ▸ hs))
    rw [if_pos hcontrol, htype] at hadmits
    rw [hadmits.1] at hrecord
    cases hrecord
  · rw [Connection.stamp, hb.numbered peer c hc]
    rfl

/-! ## Frames -/

/-- The types of which a frame asks to clear the caches. -/
def Clears (t : Transmission) (typeName : String) : Prop :=
  ∃ typeNames, t.payload = .control (.clearCache typeNames) ∧ typeName ∈ typeNames

/-- What is passed on while a frame is processed: what its guest authored, and deeds of the host. -/
def Attributable (b b' : Broker) (peer : PeerId) (c : Connection) (t : Transmission) (now : Instant)
    (p : Passage) : Prop :=
  b.Authored peer c t now p ∨ Deed now b b' (Clears t) p

/-- The objects with which a guest is brought up to date that asks to join a group. -/
def Replayed (b : Broker) (peer : PeerId) (t : Transmission) (now : Instant) (q : PeerId)
    (f : Transmission) : Prop :=
  q = peer ∧ ∃ group schema, t.payload = .control (.member group .join) ∧
    b.registry.findStruct? group = some schema ∧ f ∈ b.replayFrames schema now

/-- A frame passes on nothing but what its guest authored and deeds of the host: that is what
observers and subscribers are told of, what guests are handed, and what is written to the caches. -/
structure Authentic (b b' : Broker) (peer : PeerId) (c : Connection) (t : Transmission)
    (now : Instant) : Prop where
  /-- Events about objects tell of it, with its sender as the last writer and, if the object was
  created, as its creator. -/
  told : ∀ e, .object e ∈ b.newEvents b' → ∃ p, Attributable b b' peer c t now p ∧ e.Tells p
  /-- Frames with objects carry it, unless the frame was a request to join a group and they are the
  replay that the guest gets. -/
  handed : ∀ q, ∀ f ∈ b.newFrames b' q, f.object? ≠ none →
    (∃ p, Attributable b b' peer c t now p ∧ f = p.frame) ∨ b.Replayed peer t now q f
  /-- Entries change under its key only. -/
  changed : ∀ typeName key, b'.cachedAt? typeName key = b.cachedAt? typeName key ∨
    ∃ p, Attributable b b' peer c t now p ∧ p.schema.name = typeName ∧
      p.schema.keyOf p.object = .ok key
  /-- Entries that are new name its sender as the last writer and, if the object was created, as
  its creator. -/
  written : ∀ typeName key e, b'.cachedAt? typeName key = some e →
    b.cachedAt? typeName key = some e ∨ ∃ p, Attributable b b' peer c t now p ∧
      p.header.typeName = typeName ∧ e.provenance.lastUpdateFrom = p.header.origin ∧
        (e.provenance.lastOperation = .create → e.provenance.createdFrom = p.header.origin)

/-- What is told of an object that was passed on tells the same of the entry it left. -/
theorem Authentic.of_does (h : Does now (Clears t) (b.Authored peer c t now)
    (fun q f => f.object? = none ∨ b.Replayed peer t now q f) b b') :
    Authentic b b' peer c t now where
  told e he := by
    obtain ⟨p, hp, -, htells⟩ := h.told e he
    exact ⟨p, hp, htells⟩
  handed q f hf hobject := by
    rcases h.frames.of_mem_newFrames hf with hother | ⟨p, hp, -, hframe⟩
    · exact .inr (hother.resolve_left hobject)
    · exact .inl ⟨p, hp, hframe⟩
  changed typeName key := by
    refine (h.entries typeName key).imp_right ?_
    rintro ⟨p, hp, -, hplace⟩
    exact ⟨p, hp, hplace⟩
  written typeName key e he := by
    refine (h.written typeName key e he).imp_right ?_
    rintro ⟨event, hevent, htype, -, hprovenance⟩
    -- The event that tells of the entry has its provenance, and it tells of something passed on.
    obtain ⟨p, hp, -, htells⟩ := h.told event hevent
    refine ⟨p, hp, ?_, hprovenance ▸ htells.writer, fun hcreate => ?_⟩
    · rw [← htells.header]
      exact htype
    · rw [← hprovenance] at hcreate ⊢
      exact htells.creator hcreate

/-- What follows from a frame of a guest. -/
theorem Reachable.does_frame (hb : b.Reachable) (hc : b.connections.find? peer = some c)
    (t : Transmission) (now : Instant) :
    Does now (Clears t) (b.Authored peer c t now)
      (fun q f => f.object? = none ∨ b.Replayed peer t now q f) b
      (b.perform (.receive peer t) now) := by
  refine hb.does_receive hc ?_ (fun typeNames hpayload typeName hmem => ⟨typeNames, hpayload, hmem⟩)
    fun h o schema hr hs hspace hvalid => authored_of_receive hb.sound hc hr hs hspace hvalid
  exact ⟨fun q f hf => .inl hf.noObject, fun e _ => .inl rfl,
    fun group schema hjoin hs f hf => .inr ⟨rfl, group, schema, hjoin, hs, hf⟩⟩

/-- Every frame of a guest is authentic. -/
theorem Reachable.authentic_receive (hb : b.Reachable)
    (hc : b.connections.find? peer = some c) (t : Transmission) (now : Instant) :
    Authentic b (b.perform (.receive peer t) now) peer c t now :=
  .of_does (hb.does_frame hc t now)

/-! ## States -/

/-- A number by which the broker names somebody: the host's, or one that it has assigned. -/
def Names (b : Broker) (writer : PeerId) : Prop := writer = hostId ∨ b.Assigned writer

/-- Every cached object was created and last written by the host or by a guest, and by the host if
its type is reserved. -/
structure Attributed (b : Broker) : Prop where
  /-- The creator and the last writer are known. -/
  known : ∀ typeName key e, b.cachedAt? typeName key = some e →
    b.Names e.provenance.createdFrom ∧ b.Names e.provenance.lastUpdateFrom
  /-- Of an object of a reserved type both are the host. -/
  reserved : ∀ typeName key e, b.Reserved typeName → b.cachedAt? typeName key = some e →
    e.provenance.createdFrom = hostId ∧ e.provenance.lastUpdateFrom = hostId

/-- An entry that passing on an object left names the sender as its last writer, and as its creator
unless that was known before. -/
theorem writer_of_dispatch {schema : StructSchema} (hb : b.Sound)
    (hs : b.registry.findStruct? schema.name = some schema) {h : Header} {o : Object}
    (he : (b.dispatch schema h o now).value.1.cachedAt? typeName key = some e) :
    b.cachedAt? typeName key = some e ∨
      typeName = schema.name ∧ e.provenance.lastUpdateFrom = h.origin ∧
        (e.provenance.createdFrom = h.origin ∨ ∃ old, b.cachedAt? typeName key = some old ∧
          e.provenance.createdFrom = old.provenance.createdFrom) := by
  rw [cachedAt?_dispatch_eq hb hs] at he
  split at he
  · rename_i hplace
    split at he
    -- A removal leaves no entry, and a write keeps the creator of the entry that it finds.
    · cases he
    · obtain rfl := Option.some.inj he
      refine .inr ⟨hplace.1.2, ?_⟩
      cases hold : b.cachedAt? typeName key with
      | none => exact ⟨rfl, .inl rfl⟩
      | some old => exact ⟨rfl, .inr ⟨old, rfl, rfl⟩⟩
  · exact .inl he

/-- Passing on an object keeps everything attributed, if its sender is known and is the host where
that is required. -/
theorem Attributed.dispatch {schema : StructSchema} {h : Header} {o : Object} (ha : b.Attributed)
    (hb : b.Sound) (hs : b.registry.findStruct? schema.name = some schema)
    (hsender : b.Names h.origin) (hreserved : b.Reserved schema.name → h.origin = hostId)
    {b' : Broker} (hb' : b' = (b.dispatch schema h o now).value.1)
    (hassigned : ∀ q, b.Assigned q → b'.Assigned q) : b'.Attributed := by
  have hnames : ∀ q, b.Names q → b'.Names q := fun q hq => hq.imp_right (hassigned q)
  have hsame : ∀ typeName, b'.Reserved typeName → b.Reserved typeName := by
    intro typeName hr
    rwa [Reserved, hb', registry_dispatch] at hr
  constructor
  · intro typeName key e he
    rw [hb'] at he
    rcases writer_of_dispatch hb hs he with hold | ⟨-, hwriter, hcreator⟩
    · obtain ⟨hcreator, hwriter⟩ := ha.known typeName key e hold
      exact ⟨hnames _ hcreator, hnames _ hwriter⟩
    · refine ⟨hnames _ ?_, hnames _ (hwriter ▸ hsender)⟩
      rcases hcreator with hnew | ⟨old, hold, hsame⟩
      · exact hnew ▸ hsender
      · exact hsame ▸ (ha.known typeName key old hold).1
  · intro typeName key e hr he
    rw [hb'] at he
    rcases writer_of_dispatch hb hs he with hold | ⟨rfl, hwriter, hcreator⟩
    · exact ha.reserved typeName key e (hsame _ hr) hold
    · have hhost : h.origin = hostId := hreserved (hsame _ hr)
      refine ⟨?_, hwriter.trans hhost⟩
      rcases hcreator with hnew | ⟨old, hold, hkept⟩
      · exact hnew.trans hhost
      · exact hkept.trans (ha.reserved _ key old (hsame _ hr) hold).1

/-- A step leaves all entries as they are, or it passes on an object of the host or one that a guest
authored. -/
theorem Step.passes (h : Step call now b b') (hb : b.Sound) :
    (∀ typeName key, b'.cachedAt? typeName key = b.cachedAt? typeName key) ∨
    ∃ p : Passage, p.IsOf b.registry ∧ b' = (b.dispatch p.schema p.header p.object now).value.1 ∧
      (p.header.sender = some hostId ∨ ∃ peer t c, call = .receive peer t ∧
        b.connections.find? peer = some c ∧ b.Authored peer c t now p) := by
  cases h with
  -- Two kinds of steps pass on an object; all others are only about connections, groups and types.
  | @publish schema o hschema hvalid included remove =>
    obtain ⟨-, hs⟩ := hb.findStruct?_name hschema
    exact .inr ⟨⟨schema, hostHeader schema o included remove now, o⟩, ⟨hs, rfl, hvalid⟩, rfl,
      .inl rfl⟩
  | @dispatch peer t c schema h o hcall hc hreceived hschema hspace hvalid =>
    obtain ⟨hname, hs⟩ := hb.findStruct?_name hschema
    have hauthored := authored_of_receive hb hc hreceived hschema hspace hvalid
    exact .inr ⟨_, ⟨hs, hname.symm, hvalid⟩, rfl, .inr ⟨peer, t, c, hcall, hc, hauthored⟩⟩
  | replay hcall hmessage hschema hcached hc =>
    rw [value_replayTo _ _ _ hc]
    exact .inl (cachedAt?_of_touch rfl)
  | @learn schema hcheck hnew => exact .inl (cachedAt?_adoptType _ schema)
  | unsubscribe id =>
    refine .inl fun typeName key => ?_
    rw [Broker.cachedAt?, Broker.cachedAt?, container?, container?, Dispatcher.unsubscribe]
    split <;> rfl
  | accept | hear | act | forward | join | leave | learnEnum | announce | subscribe |
    forgetClosed => exact .inl fun _ _ => rfl

/-- Entries that stay as they are stay attributed. -/
theorem Attributed.of_same (ha : b.Attributed)
    (hregistry : ∀ name s, b.registry.findStruct? name = some s →
      b'.registry.findStruct? name = some s)
    (hassigned : ∀ q, b.Assigned q → b'.Assigned q)
    (hsame : ∀ typeName key, b'.cachedAt? typeName key = b.cachedAt? typeName key) :
    b'.Attributed := by
  constructor
  · intro typeName key e he
    obtain ⟨hcreator, hwriter⟩ := ha.known typeName key e (hsame typeName key ▸ he)
    exact ⟨hcreator.imp_right (hassigned _), hwriter.imp_right (hassigned _)⟩
  · rintro typeName key e ⟨hrecord, hinternal⟩ he
    refine ha.reserved typeName key e ⟨hrecord, fun s hs => ?_⟩ (hsame typeName key ▸ he)
    exact hinternal s (hregistry _ _ hs)

/-- Every step keeps everything attributed. -/
theorem Attributed.step (ha : b.Attributed) (hb : b.Sound) (h : Step call now b b') :
    b'.Attributed := by
  rcases h.passes hb with hsame | ⟨p, hof, rfl, hsender⟩
  · exact ha.of_same (fun _ _ => h.findStruct?) (fun _ => h.assigned) hsame
  · refine ha.dispatch hb hof.registered ?_ ?_ rfl fun _ => h.assigned
    · rcases hsender with hhost | ⟨peer, t, c, -, hc, hauthored⟩
      · exact .inl (by rw [Header.origin, hhost, Option.getD_some])
      · refine .inr ?_
        rw [hauthored.header]
        exact assigned_of_open hc
    · intro hreserved
      rcases hsender with hhost | ⟨peer, t, c, -, -, hauthored⟩
      · rw [Header.origin, hhost, Option.getD_some]
      · exact absurd hreserved hauthored.ordinary

/-- In every reachable state everything is attributed. -/
theorem Reachable.attributed (hb : b.Reachable) : b.Attributed := by
  -- A step that passes on an object finds its type by the name, for which the state must be sound.
  have hboth : b.Sound ∧ b.Attributed := by
    refine Reachable.induction (I := fun b => b.Sound ∧ b.Attributed) ?_ ?_ ?_ ?_ ?_ hb
    · intro registry name eventCapacity hbuilt
      refine ⟨.bare hbuilt name eventCapacity, ⟨?_, ?_⟩⟩
      · intro typeName key e he
        cases he
      · intro typeName key e _ he
        cases he
    · rintro b schema ⟨hb, ha⟩ hs
      exact ⟨hb.adoptType hs,
        ha.of_same (fun _ _ => id) (fun _ => id) (cachedAt?_adoptType b schema)⟩
    · rintro call now b b' ⟨hb, ha⟩ h
      exact ⟨hb.step h, ha.step hb h⟩
    · rintro b ⟨hb, ha⟩
      exact ⟨hb.takePending,
        ha.of_same (fun _ _ => id) (fun _ => assigned_takePending.2) fun _ _ => rfl⟩
    · rintro b peer ⟨hb, ha⟩ -
      refine ⟨hb.setAside peer, ha.of_same (fun name s hs => ?_) (fun _ => (assigned_setAside _).2)
        fun typeName key => ?_⟩
      · rwa [registry_setAside]
      · rw [Broker.cachedAt?, container?_setAside, Broker.cachedAt?]
  exact hboth.2

end Broker

end ObjectBus
