import ObjectBus.Proofs.Broker.Cleanup

/-!
# Effects

Whatever a broker does, what others can see of it comes from the objects that it passes on: a
cached entry changes only under the key of such an object, an event about an object tells of one,
and a frame with an object carries one. Everything else that guests are sent is a matter of the
protocol.

* `Passage`: an object that is passed on, with its type and its header;
* `Effects`: what may change when some objects are passed on and some frames are sent besides;
* `cachedAt?_dispatch_eq`: what passing on one object does to the caches;
* `effects_dispatch`: that this is all that passing on one object does.
-/

namespace ObjectBus

/-- An object that is passed on: its type, the header under which it goes, and itself. -/
structure Passage where
  /-- The type. -/
  schema : StructSchema
  /-- The header. -/
  header : Header
  /-- The object. -/
  object : Object

namespace Passage

/-- What members of the group are sent. -/
def frame (p : Passage) : Transmission := .ofObject p.header p.object

/-- The host publishes an object with all properties that are set. -/
def publication (schema : StructSchema) (o : Object) (now : Instant) : Passage :=
  ⟨schema, Broker.hostHeader schema o none false now, o⟩

/-- The host publishes the removal of an object. -/
def removal (schema : StructSchema) (o : Object) (now : Instant) : Passage :=
  ⟨schema, Broker.hostHeader schema o (some schema.keyProperties) true now, o⟩

/-- The object conforms to its type, which is registered and named by the header. -/
structure IsOf (p : Passage) (r : Registry) : Prop where
  /-- The type is registered. -/
  registered : r.findStruct? p.schema.name = some p.schema
  /-- The header names it. -/
  typeName : p.header.typeName = p.schema.name
  /-- The object conforms to it. -/
  conforms : p.schema.validate p.object = .ok ()

theorem IsOf.mono {p : Passage} {r r' : Registry} (hp : p.IsOf r)
    (h : ∀ name s, r.findStruct? name = some s → r'.findStruct? name = some s) : p.IsOf r' :=
  ⟨h _ _ hp.registered, hp.typeName, hp.conforms⟩

/-- The object names its type. -/
theorem IsOf.typeName_object {p : Passage} {r : Registry} (hp : p.IsOf r) :
    p.object.typeName = p.schema.name :=
  (StructSchema.validate_eq_ok_iff.1 hp.conforms).1

end Passage

/-- An event tells of an object that was passed on. -/
structure ObjectEvent.Tells (e : ObjectEvent) (p : Passage) : Prop where
  /-- It has the header. -/
  header : e.header = p.header
  /-- It has the object as it came. -/
  transmitted : e.transmitted = p.object
  /-- It says whether the host itself published it. -/
  isFromMyself : e.isFromMyself = p.header.isFromMyself
  /-- It says whether the object was removed. -/
  removal : e.operation = .remove ↔ p.header.remove = true
  /-- It names the sender as the last writer. -/
  writer : e.provenance.lastUpdateFrom = p.header.origin
  /-- It names the sender as the creator, if the object was created. -/
  creator : e.operation = .create → e.provenance.createdFrom = p.header.origin

/-- A channel was handed some more frames, all of which are allowed. -/
def Channel.Sends (allowed : Transmission → Prop) (c c' : Channel) : Prop :=
  ∃ frames, c'.sent = c.sent ++ frames ∧ ∀ t ∈ frames, allowed t

namespace Channel.Sends

variable {allowed allowed' : Transmission → Prop} {c c' c'' : Channel}

theorem refl (allowed : Transmission → Prop) (c : Channel) : c.Sends allowed c := ⟨[], by simp⟩

theorem trans (h : c.Sends allowed c') (h' : c'.Sends allowed c'') : c.Sends allowed c'' := by
  obtain ⟨frames, hsent, hallowed⟩ := h
  obtain ⟨frames', hsent', hallowed'⟩ := h'
  refine ⟨frames ++ frames', by rw [hsent', hsent, List.append_assoc], fun t ht => ?_⟩
  exact (List.mem_append.1 ht).elim (hallowed t) (hallowed' t)

theorem mono (h : c.Sends allowed c') (himp : ∀ t, allowed t → allowed' t) :
    c.Sends allowed' c' := by
  obtain ⟨frames, hsent, hallowed⟩ := h
  exact ⟨frames, hsent, fun t ht => himp t (hallowed t ht)⟩

end Channel.Sends

theorem Connection.Advances.sends {allowed : Transmission → Prop} {c c' : Connection}
    (h : c.Advances allowed c') : c.channel.Sends allowed c'.channel := by
  obtain ⟨frames, hsent, hallowed, -⟩ := h.sent
  exact ⟨frames, hsent, hallowed⟩

/-- A connection is sent nothing but what it is offered. -/
theorem Connection.sends_offeredAll {allowed : Transmission → Prop} {ts : List Transmission}
    (hts : ∀ t ∈ ts, allowed t) (c : Connection) :
    c.channel.Sends allowed (c.offeredAll ts).channel := by
  induction ts generalizing c with
  | nil => exact .refl allowed c.channel
  | cons t rest ih =>
    obtain ⟨ht, hrest⟩ := List.forall_mem_cons.1 hts
    exact (c.advances_offered ht).sends.trans (ih hrest (c.offered t))

namespace Container

variable {c : Container} {call : CacheCall} {key : ObjectKey}

/-- A write creates or updates an entry. -/
theorem lastOperation_afterWrite (c : Container) (call : CacheCall) (old : Option Entry) :
    (c.afterWrite call old).provenance.lastOperation ≠ .remove := by
  cases old with
  | none => exact fun h => by cases h
  | some e => exact fun h => by cases h

/-- The entry that a call gives back names the sender as its last writer, and as its creator if
it was created; and it says whether it was removed. -/
theorem provenance_of_perform {e : Entry} (h : (c.perform call).2 = .ok (some e)) :
    (e.provenance.lastOperation = .remove ↔ call.removal = true) ∧
      e.provenance.lastUpdateFrom = call.header.origin ∧
      (e.provenance.lastOperation = .create →
        e.provenance.createdFrom = call.header.origin) := by
  cases hkey : c.schema.keyOf call.object with
  | error failure =>
    rw [perform_of_keyOf_error hkey] at h
    cases h
  | ok key =>
    cases hkind : call.removal with
    | false =>
      rw [perform_write hkind hkey] at h
      obtain rfl : c.afterWrite call (c.find? key) = e := by simpa using h
      refine ⟨iff_of_false (c.lastOperation_afterWrite call _) (by simp), ?_⟩
      cases c.find? key with
      | none => exact ⟨rfl, fun _ => rfl⟩
      | some old => exact ⟨rfl, fun hcreate => by cases hcreate⟩
    | true =>
      cases hfind : c.find? key with
      | none =>
        rw [perform_removal_of_none hkind hkey hfind] at h
        cases h
      | some old =>
        rw [perform_removal_of_some hkind hkey hfind] at h
        obtain rfl : c.writtenEntry old .remove call.header call.object call.now = e := by
          simpa using h
        exact ⟨iff_of_true rfl rfl, rfl, fun hcreate => by cases hcreate⟩

/-- A call concerns one key: what is found under it is gone after a removal and written after a
write. -/
theorem find?_perform_of_concerns (c : Container) (call : CacheCall) (key : ObjectKey) :
    (c.perform call).1.find? key =
      if call.concerns c.schema key then
        if call.removal then none else some (c.afterWrite call (c.find? key))
      else c.find? key := by
  rw [find?_perform, CacheCall.removes, CacheCall.inserts]
  cases call.removal <;> simp

end Container

namespace Broker

variable {call : BrokerCall} {now : Instant} {b b' b'' : Broker} {peer : PeerId}
variable {passed passed' : Passage → Prop} {sent sent' : PeerId → Transmission → Prop}

/-- The events that one state of a broker has and an earlier one has not. -/
def newEvents (b b' : Broker) : List BrokerEvent := b'.events.drop b.events.length

theorem newEvents_of_append {events : List BrokerEvent} (h : b'.events = b.events ++ events) :
    b.newEvents b' = events := by
  rw [newEvents, h, List.drop_left]

/-! ## What guests are sent -/

/-- Every guest is sent only what is allowed. -/
def Sends (allowed : PeerId → Transmission → Prop) (b b' : Broker) : Prop :=
  ∀ q channel', b'.channel? q = some channel' →
    ∃ channel, b.channel? q = some channel ∧ channel.Sends (allowed q) channel'

namespace Sends

variable {allowed allowed' : PeerId → Transmission → Prop}

theorem of_eq (allowed : PeerId → Transmission → Prop)
    (h : ∀ q, b'.channel? q = b.channel? q) : Sends allowed b b' :=
  fun q channel' hchannel => ⟨channel', h q ▸ hchannel, .refl _ _⟩

theorem trans (h : Sends allowed b b') (h' : Sends allowed b' b'') : Sends allowed b b'' := by
  intro q channel'' hchannel''
  obtain ⟨channel', hchannel', hsends'⟩ := h' q channel'' hchannel''
  obtain ⟨channel, hchannel, hsends⟩ := h q channel' hchannel'
  exact ⟨channel, hchannel, hsends.trans hsends'⟩

theorem mono (h : Sends allowed b b') (himp : ∀ q t, allowed q t → allowed' q t) :
    Sends allowed' b b' := by
  intro q channel' hchannel'
  obtain ⟨channel, hchannel, hsends⟩ := h q channel' hchannel'
  exact ⟨channel, hchannel, hsends.mono (himp q)⟩

end Sends

/-- The frames that a guest was handed so far. -/
def framesTo (b : Broker) (peer : PeerId) : List Transmission :=
  ((b.channel? peer).map (·.sent)).getD []

/-- The frames that a guest was handed between two states of a broker. -/
def newFrames (b b' : Broker) (peer : PeerId) : List Transmission :=
  (b'.framesTo peer).drop (b.framesTo peer).length

/-- What a guest was handed is what was allowed. -/
theorem Sends.of_mem_newFrames {allowed : PeerId → Transmission → Prop} {t : Transmission}
    (h : Sends allowed b b') (ht : t ∈ b.newFrames b' peer) : allowed peer t := by
  unfold newFrames framesTo at ht
  cases hchannel' : b'.channel? peer with
  | none => simp [hchannel'] at ht
  | some channel' =>
    obtain ⟨channel, hchannel, frames, hsent, hallowed⟩ := h peer channel' hchannel'
    simp only [hchannel', hchannel, Option.map_some, Option.getD_some, hsent,
      List.drop_left] at ht
    exact hallowed t ht

/-- The channel of a guest whose connection is in the table. -/
theorem channel?_of_open {c : Connection} (hc : b.connections.find? peer = some c) :
    b.channel? peer = some c.channel := by
  simp [channel?, connection?, hc]

/-- The channel of a guest whose connection is not in the table. -/
theorem channel?_of_gone (hc : b.connections.find? peer = none) :
    b.channel? peer = ((b.closed.find? peer).map (·.channel) <|> b.released.find? peer) := by
  simp [channel?, connection?, hc]

/-- Guests are sent what their connections in the table are sent. -/
theorem sends_of_connections {allowed : PeerId → Transmission → Prop}
    (hclosed : b'.closed = b.closed) (hreleased : b'.released = b.released)
    (hconnections : ∀ q, Option.Rel (fun c c' => c.channel.Sends (allowed q) c'.channel)
      (b.connections.find? q) (b'.connections.find? q)) : Sends allowed b b' := by
  intro q channel' hchannel'
  cases hc : b.connections.find? q with
  | none =>
    have hc' := (eq_none_iff_of_rel (hconnections q)).2 hc
    rw [channel?_of_gone hc', hclosed, hreleased, ← channel?_of_gone hc] at hchannel'
    exact ⟨channel', hchannel', .refl _ _⟩
  | some c =>
    obtain ⟨c', hc', hsends⟩ := exists_after_of_rel (hconnections q) hc
    rw [channel?_of_open hc'] at hchannel'
    obtain rfl := Option.some.inj hchannel'
    exact ⟨c.channel, channel?_of_open hc, hsends⟩

/-- Offering a transmission to some connections sends them nothing else. -/
theorem rel_sends_offered {allowed : Transmission → Prop} {t : Transmission} (ht : allowed t)
    (o : Option Connection) :
    Option.Rel (fun c c' : Connection => c.channel.Sends allowed c'.channel) o
      (o.map (·.offered t)) :=
  rel_map (fun c => (c.advances_offered ht).sends) o

/-- A connection that is put in its place is sent what it was sent. -/
theorem sends_putConnection {allowed : PeerId → Transmission → Prop} {c c' : Connection}
    (hc : b.connections.find? peer = some c)
    (hsends : c.channel.Sends (allowed peer) c'.channel) :
    Sends allowed b (b.putConnection peer c') := by
  refine sends_of_connections rfl rfl fun q => ?_
  rw [find?_putConnection]
  split
  · rename_i hq
    rw [hq, hc]
    exact .some hsends
  · exact rel_refl (fun _ => .refl _ _) _

@[simp]
theorem channel?_setAside (b : Broker) (peer q : PeerId) :
    (b.setAside peer).channel? q = b.channel? q := by
  unfold setAside
  cases hc : b.connections.find? peer with
  | none => rfl
  | some c =>
    by_cases hq : q = peer
    · simp [channel?, connection?, hq, hc]
    · simp [channel?, connection?, hq]

@[simp]
theorem channel?_takePending (b : Broker) (q : PeerId) :
    b.takePending.channel? q = b.channel? q := by
  cases hc : b.connections.find? q with
  | none =>
    rw [channel?_of_gone hc, channel?_of_gone (by rw [find?_takePending, hc, Option.map_none])]
    rfl
  | some c =>
    rw [channel?_of_open hc,
      channel?_of_open (by rw [find?_takePending, hc, Option.map_some])]
    rfl

/-! ## Effects -/

/-- What may change when objects are passed on, each of which satisfies `passed`, and guests are
sent other frames besides, each of which satisfies `sent`. -/
structure Effects (passed : Passage → Prop) (sent : PeerId → Transmission → Prop)
    (b b' : Broker) : Prop where
  /-- Known types stay known. -/
  registry : ∀ name s, b.registry.findStruct? name = some s →
    b'.registry.findStruct? name = some s
  /-- Events are only appended. -/
  events : b.events <+: b'.events
  /-- New events about objects tell of what was passed on. -/
  told : ∀ e, .object e ∈ b.newEvents b' → ∃ p, passed p ∧ p.IsOf b'.registry ∧ e.Tells p
  /-- New frames carry what was passed on, unless they are sent besides. -/
  frames : Sends (fun q t => sent q t ∨ ∃ p, passed p ∧ p.IsOf b'.registry ∧ t = p.frame) b b'
  /-- Entries change only under the keys of what was passed on. -/
  entries : ∀ typeName key, b'.cachedAt? typeName key = b.cachedAt? typeName key ∨
    ∃ p, passed p ∧ p.IsOf b'.registry ∧ p.schema.name = typeName ∧
      p.schema.keyOf p.object = .ok key
  /-- Entries that are new are told. -/
  written : ∀ typeName key e, b'.cachedAt? typeName key = some e →
    b.cachedAt? typeName key = some e ∨ ∃ event, .object event ∈ b.newEvents b' ∧
      event.typeName = typeName ∧ event.object = e.object ∧ event.provenance = e.provenance

/-- The new events of two parts are those of the first and then those of the second. -/
theorem newEvents_append (h : b.events <+: b'.events) (h' : b'.events <+: b''.events) :
    b.newEvents b'' = b.newEvents b' ++ b'.newEvents b'' := by
  obtain ⟨events, hevents⟩ := h
  obtain ⟨events', hevents'⟩ := h'
  rw [newEvents_of_append hevents.symm, newEvents_of_append hevents'.symm]
  refine newEvents_of_append ?_
  rw [← hevents', ← hevents, List.append_assoc]

namespace Effects

/-- Nothing changes but the frames that guests are sent. -/
theorem of_sends (hregistry : ∀ name s, b.registry.findStruct? name = some s →
      b'.registry.findStruct? name = some s) (hevents : b'.events = b.events)
    (hentries : ∀ typeName key, b'.cachedAt? typeName key = b.cachedAt? typeName key)
    (hsends : Sends sent b b') : Effects passed sent b b' := by
  have hnone : b.newEvents b' = [] := newEvents_of_append (by rw [hevents, List.append_nil])
  refine ⟨hregistry, ⟨[], by rw [hevents, List.append_nil]⟩, ?_, ?_, ?_, ?_⟩
  · intro e he
    rw [hnone] at he
    cases he
  · exact hsends.mono fun _ _ => .inl
  · exact fun typeName key => .inl (hentries typeName key)
  · exact fun typeName key e he => .inl (hentries typeName key ▸ he)

theorem refl (passed : Passage → Prop) (sent : PeerId → Transmission → Prop) (b : Broker) :
    Effects passed sent b b :=
  of_sends (fun _ _ => id) rfl (fun _ _ => rfl) (.of_eq _ fun _ => rfl)

theorem mono (h : Effects passed sent b b') (hpassed : ∀ p, passed p → passed' p)
    (hsent : ∀ q t, sent q t → sent' q t) : Effects passed' sent' b b' where
  registry := h.registry
  events := h.events
  told e he := by
    obtain ⟨p, hp, hrest⟩ := h.told e he
    exact ⟨p, hpassed p hp, hrest⟩
  frames := by
    refine h.frames.mono fun q t ht => ?_
    rcases ht with ht | ⟨p, hp, hrest⟩
    · exact .inl (hsent q t ht)
    · exact .inr ⟨p, hpassed p hp, hrest⟩
  entries typeName key := by
    refine (h.entries typeName key).imp_right ?_
    rintro ⟨p, hp, hrest⟩
    exact ⟨p, hpassed p hp, hrest⟩
  written := h.written

theorem trans (h : Effects passed sent b b') (h' : Effects passed sent b' b'') :
    Effects passed sent b b'' := by
  have hnew : b.newEvents b'' = b.newEvents b' ++ b'.newEvents b'' :=
    newEvents_append h.events h'.events
  refine ⟨fun name s hs => h'.registry name s (h.registry name s hs),
    h.events.trans h'.events, fun e he => ?_, ?_, fun typeName key => ?_,
    fun typeName key e he => ?_⟩
  · rw [hnew, List.mem_append] at he
    rcases he with he | he
    · obtain ⟨p, hp, hof, htells⟩ := h.told e he
      exact ⟨p, hp, hof.mono h'.registry, htells⟩
    · exact h'.told e he
  · refine .trans (h.frames.mono fun q t ht => ?_) h'.frames
    refine ht.imp_right ?_
    rintro ⟨p, hp, hof, hframe⟩
    exact ⟨p, hp, hof.mono h'.registry, hframe⟩
  · rcases h'.entries typeName key with hsame' | hchanged
    · rcases h.entries typeName key with hsame | ⟨p, hp, hof, hplace⟩
      · exact .inl (hsame'.trans hsame)
      · exact .inr ⟨p, hp, hof.mono h'.registry, hplace⟩
    · exact .inr hchanged
  · rw [hnew]
    rcases h'.written typeName key e he with hold | ⟨event, hmem, htold⟩
    · rcases h.written typeName key e hold with hold | ⟨event, hmem, htold⟩
      · exact .inl hold
      · exact .inr ⟨event, List.mem_append_left _ hmem, htold⟩
    · exact .inr ⟨event, List.mem_append_right _ hmem, htold⟩

/-- Entries of a type of which nothing is passed on stay as they are. -/
theorem spares (h : Effects passed sent b b') {typeName : String} {key : ObjectKey}
    (hnone : ∀ p, passed p → p.IsOf b'.registry → p.schema.name = typeName →
      p.schema.keyOf p.object ≠ .ok key) :
    b'.cachedAt? typeName key = b.cachedAt? typeName key := by
  rcases h.entries typeName key with hsame | ⟨p, hp, hof, hname, hkey⟩
  · exact hsame
  · exact absurd hkey (hnone p hp hof hname)

end Effects

/-! ## Passing on one object -/

/-- The event of an object of a cached type tells of the entry that the call on its container
gives back. -/
theorem eventsOf_of_cached {schema : StructSchema} (hcached : schema.flags.cached = true)
    (b : Broker) (h : Header) (o : Object) (now : Instant) :
    b.eventsOf schema h o now =
      match ((b.cacheOf schema).perform (Dispatcher.callOf h o now)).2 with
      | .ok (some e) => [.object (Dispatcher.eventOf h o h.isFromMyself e)]
      | _ => [] := by
  unfold eventsOf applied cacheOf
  rw [Dispatcher.outcome_apply, if_pos hcached]
  cases ((b.dispatcher.pool.getD schema).perform (Dispatcher.callOf h o now)).2 with
  | error e => rfl
  | ok answer => cases answer <;> rfl

/-- The event of an object whose type is not cached. -/
theorem eventsOf_of_uncached {schema : StructSchema} (hcached : schema.flags.cached ≠ true)
    (b : Broker) (h : Header) (o : Object) (now : Instant) :
    b.eventsOf schema h o now =
      if h.remove then []
      else [.object (Dispatcher.uncachedEvent h o h.isFromMyself now)] := by
  unfold eventsOf applied
  rw [Dispatcher.outcome_apply, if_neg hcached]
  cases h.remove <;> rfl

/-- The events of passing on an object tell of it. -/
theorem tells_of_mem_eventsOf {p : Passage} {e : ObjectEvent}
    (he : .object e ∈ b.eventsOf p.schema p.header p.object now) : e.Tells p := by
  by_cases hcached : p.schema.flags.cached = true
  · rw [eventsOf_of_cached hcached] at he
    split at he
    · rename_i entry hanswer
      obtain rfl : e = Dispatcher.eventOf p.header p.object p.header.isFromMyself entry := by
        simpa using he
      obtain ⟨hremoval, hwriter, hcreator⟩ := Container.provenance_of_perform hanswer
      exact ⟨rfl, rfl, rfl, hremoval, hwriter, hcreator⟩
    · cases he
  · rw [eventsOf_of_uncached hcached] at he
    split at he
    · cases he
    · rename_i hwrite
      obtain rfl : e = Dispatcher.uncachedEvent p.header p.object p.header.isFromMyself now := by
        simpa using he
      exact ⟨rfl, rfl, rfl, iff_of_false (fun hremove => by cases hremove) hwrite, rfl,
        fun _ => rfl⟩

/-- Passing on an object concerns the entry under its key, if its type is cached: a removal takes
it out, and anything else is written to it. -/
theorem cachedAt?_dispatch_eq {schema : StructSchema} (hb : b.Sound)
    (hs : b.registry.findStruct? schema.name = some schema) (h : Header) (o : Object)
    (now : Instant) (typeName : String) (key : ObjectKey) :
    (b.dispatch schema h o now).value.1.cachedAt? typeName key =
      if (schema.flags.cached = true ∧ typeName = schema.name) ∧
          (Dispatcher.callOf h o now).concerns schema key = true then
        if h.remove then none
        else some ((b.cacheOf schema).afterWrite (Dispatcher.callOf h o now)
          (b.cachedAt? typeName key))
      else b.cachedAt? typeName key := by
  obtain ⟨hschema, -⟩ := hb.cacheOf hs
  rw [cachedAt?, container?_dispatch]
  by_cases hboth : schema.flags.cached = true ∧ typeName = schema.name
  · obtain ⟨hcached, rfl⟩ := hboth
    rw [if_pos ⟨hcached, rfl⟩, Option.bind_some, Container.find?_perform_of_concerns, hschema,
      find?_cacheOf]
    simp only [hcached, true_and]
    rfl
  · rw [if_neg hboth, if_neg fun hall => hboth hall.1, cachedAt?]

/-- What passing on an object writes is told. -/
theorem written_dispatch {p : Passage} (hb : b.Sound) (hof : p.IsOf b.registry) {key : ObjectKey}
    (hcached : p.schema.flags.cached = true) (hkey : p.schema.keyOf p.object = .ok key)
    (hwrite : p.header.remove = false) (now : Instant) :
    b.eventsOf p.schema p.header p.object now =
      [.object (Dispatcher.eventOf p.header p.object p.header.isFromMyself
        ((b.cacheOf p.schema).afterWrite (Dispatcher.callOf p.header p.object now)
          (b.cachedAt? p.schema.name key)))] := by
  obtain ⟨hschema, -⟩ := hb.cacheOf hof.registered
  have hcall : (b.cacheOf p.schema).schema.keyOf
      (Dispatcher.callOf p.header p.object now).object = .ok key := by
    rw [hschema]
    exact hkey
  rw [eventsOf_of_cached hcached, Container.perform_write hwrite hcall, find?_cacheOf]

/-- Passing on an object that conforms to its type. -/
theorem effects_dispatch (hb : b.Sound) {p : Passage} (hof : p.IsOf b.registry)
    (hpassed : passed p) (now : Instant) :
    Effects passed sent b (b.dispatch p.schema p.header p.object now).value.1 := by
  have hevents := b.events_dispatch p.schema p.header p.object now
  have hnew : b.newEvents (b.dispatch p.schema p.header p.object now).value.1 =
      b.eventsOf p.schema p.header p.object now := newEvents_of_append hevents
  have hplaced : p.IsOf (b.dispatch p.schema p.header p.object now).value.1.registry := by
    rw [registry_dispatch]
    exact hof
  have hentry := cachedAt?_dispatch_eq hb hof.registered p.header p.object now
  refine ⟨fun name s hs => by rwa [registry_dispatch], ⟨_, hevents.symm⟩, fun e he => ?_, ?_,
    fun typeName key => ?_, fun typeName key e he => ?_⟩
  · rw [hnew] at he
    exact ⟨p, hpassed, hplaced, tells_of_mem_eventsOf he⟩
  · refine sends_of_connections ?_ ?_ fun q => ?_
    · rw [value_dispatch]
    · rw [value_dispatch]
    · rw [find?_dispatch]
      split
      · exact rel_sends_offered (.inr ⟨p, hpassed, hplaced, rfl⟩) _
      · exact rel_refl (fun _ => .refl _ _) _
  · rw [hentry]
    split
    · rename_i hplace
      exact .inr ⟨p, hpassed, hplaced, hplace.1.2.symm,
        CacheCall.concerns_eq_true_iff.1 hplace.2⟩
    · exact .inl rfl
  · rw [hentry] at he
    split at he
    · rename_i hplace
      obtain ⟨⟨hcached, rfl⟩, hconcerns⟩ := hplace
      have hkey : p.schema.keyOf p.object = .ok key := CacheCall.concerns_eq_true_iff.1 hconcerns
      split at he
      · cases he
      · rename_i hwrite
        -- What is found under the key of the object is the entry of which the event tells.
        obtain rfl := Option.some.inj he
        have htold := written_dispatch hb hof hcached hkey (by simpa using hwrite) now
        refine .inr ⟨Dispatcher.eventOf p.header p.object p.header.isFromMyself
          ((b.cacheOf p.schema).afterWrite (Dispatcher.callOf p.header p.object now)
            (b.cachedAt? p.schema.name key)), ?_, hof.typeName, rfl, rfl⟩
        rw [hnew, htold]
        exact List.mem_singleton_self _
    · exact .inl he

end Broker

end ObjectBus
