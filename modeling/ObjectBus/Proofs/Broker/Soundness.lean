import ObjectBus.Proofs.Broker.Run

/-!
# Sound brokers

In every reachable broker the caches hold what they should: each container belongs to a cached
type under its registered definition, and each entry conforms to it and is kept under its own
key (`Reachable.sound`).
-/

namespace ObjectBus.Broker

variable {call : BrokerCall} {now : Instant} {b b' : Broker} {schema : StructSchema}
variable {h : Header} {o : Object}

/-- A broker whose types, connections and caches are in order. -/
structure Sound (b : Broker) : Prop where
  /-- Types are known under their names. -/
  registry : b.registry.WellFormed
  /-- Connections are kept under their numbers. -/
  numbered : ∀ peer c, b.connections.find? peer = some c → c.peer = peer
  /-- Containers belong to registered cached types. -/
  schemas : ∀ typeName c, b.container? typeName = some c →
    b.registry.findStruct? typeName = some c.schema ∧ c.schema.flags.cached = true
  /-- Entries conform and are kept under their keys. -/
  valid : ∀ typeName c, b.container? typeName = some c → c.Valid

namespace Sound

theorem bare {registry : Registry} (hbuilt : registry.Built) (name : String)
    (eventCapacity : Nat) : (bare name registry eventCapacity).Sound where
  registry := hbuilt.wellFormed
  numbered _ _ hc := by cases hc
  schemas _ _ hc := by cases hc
  valid _ _ hc := by cases hc

/-- A type that is found under some name is found under its own. -/
theorem findStruct?_name (hb : b.Sound) {typeName : String}
    (hs : b.registry.findStruct? typeName = some schema) :
    schema.name = typeName ∧ b.registry.findStruct? schema.name = some schema := by
  obtain ⟨rfl, -⟩ := hb.registry typeName schema hs
  exact ⟨rfl, hs⟩

/-- The container of a registered type is of that type and valid. -/
theorem cacheOf (hb : b.Sound) (hs : b.registry.findStruct? schema.name = some schema) :
    (b.cacheOf schema).schema = schema ∧ (b.cacheOf schema).Valid := by
  unfold Broker.cacheOf ContainerPool.getD
  cases hc : b.dispatcher.pool.find? schema.name with
  | none => exact ⟨rfl, Container.valid_empty schema⟩
  | some c =>
    obtain ⟨hschema, -⟩ := hb.schemas schema.name c hc
    exact ⟨Option.some.inj (hschema.symm.trans hs), hb.valid schema.name c hc⟩

/-- A type that is not registered has no objects. -/
theorem cacheOf_of_unknown (hb : b.Sound) (hs : b.registry.findStruct? schema.name = none) :
    b.cacheOf schema = Container.empty schema := by
  unfold Broker.cacheOf ContainerPool.getD
  cases hc : b.dispatcher.pool.find? schema.name with
  | none => rfl
  | some c =>
    obtain ⟨hschema, -⟩ := hb.schemas schema.name c hc
    rw [hs] at hschema
    cases hschema

end Sound

/-! ## What steps do to types and containers -/

/-- Registered types stay well-formed. -/
theorem Step.wellFormed (h : Step call now b b') (hwf : b.registry.WellFormed) :
    b'.registry.WellFormed := by
  cases h with
  | learn hcheck hnew => exact Registry.wellFormed_addStruct hwf hcheck
  | publish => rwa [registry_dispatch]
  | dispatch => rwa [registry_dispatch]
  | replay hcall hmessage hschema hcached hc => rwa [value_replayTo _ _ _ hc]
  | accept | hear | act | forward | join | leave | learnEnum | announce | subscribe |
    unsubscribe | forgetClosed => exact hwf

/-- A connection that is new or has changed is kept under its number. -/
theorem Step.numbered (h : Step call now b b')
    (hnumbered : ∀ peer c, b.connections.find? peer = some c → c.peer = peer) :
    ∀ peer c, b'.connections.find? peer = some c → c.peer = peer := by
  intro peer c' hc'
  rcases h.connection peer with ⟨channel, -, rfl, hfresh⟩ | hrel
  · obtain rfl : b.greeted channel now = c' := Option.some.inj (hfresh.symm.trans hc')
    exact (Connection.advances_beginHandshake b.nextPeer channel b.name now).peer
  · -- A connection that was there keeps the peer that it was made for.
    obtain ⟨c, hc, hadvances, -⟩ := exists_before_of_rel hrel hc'
    exact hadvances.peer.trans (hnumbered peer c hc)

/-- A type is adopted by making sure that it has a container if it is cached. -/
theorem container?_adoptType (b : Broker) (schema : StructSchema) (typeName : String) :
    (b.adoptType schema).container? typeName =
      if schema.flags.cached = true ∧ typeName = schema.name then some (b.cacheOf schema)
      else b.container? typeName := by
  unfold adoptType container?
  by_cases hcached : schema.flags.cached = true
  · simp [hcached, cacheOf]
  · simp [hcached]

/-- How the containers may change: not at all, or by calls with conforming objects on the
container of one registered cached type. -/
def Caches (b b' : Broker) : Prop :=
  (∀ typeName, b'.container? typeName = b.container? typeName) ∨
    ∃ schema calls, b'.registry.findStruct? schema.name = some schema ∧
      schema.flags.cached = true ∧
      (∀ call ∈ calls, schema.validate call.object = .ok ()) ∧
      ∀ typeName, b'.container? typeName =
        if typeName = schema.name then some ((b.cacheOf schema).after calls)
        else b.container? typeName

/-- Adopting a registered type changes the containers as it may. -/
theorem caches_adoptType (schema : StructSchema)
    (hs : b'.registry.findStruct? schema.name = some schema)
    (hpool : ∀ typeName, b'.container? typeName = (b.adoptType schema).container? typeName) :
    Caches b b' := by
  by_cases hcached : schema.flags.cached = true
  · refine .inr ⟨schema, [], hs, hcached, by simp, fun typeName => ?_⟩
    rw [hpool, container?_adoptType]
    simp [hcached]
  · refine .inl fun typeName => ?_
    rw [hpool, container?_adoptType]
    simp [hcached]

theorem caches_of_adoptType (hs : b.registry.findStruct? schema.name = some schema) :
    Caches b (b.adoptType schema) :=
  caches_adoptType schema hs fun _ => rfl

/-- Accepting a conforming object changes the containers as it may. -/
theorem caches_dispatch (hs : b.registry.findStruct? schema.name = some schema)
    (hvalid : schema.validate o = .ok ()) :
    Caches b (b.dispatch schema h o now).value.1 := by
  by_cases hcached : schema.flags.cached = true
  · refine .inr ⟨schema, [Dispatcher.callOf h o now], ?_, hcached, ?_, fun typeName => ?_⟩
    · rwa [registry_dispatch]
    · simpa [Dispatcher.callOf] using hvalid
    · rw [container?_dispatch]
      simp [hcached, Container.after]
  · refine .inl fun typeName => ?_
    rw [container?_dispatch]
    simp [hcached]

/-- Every step changes the containers as it may. -/
theorem Step.caches (h : Step call now b b') (hwf : b.registry.WellFormed) : Caches b b' := by
  cases h with
  | publish hschema hvalid included remove =>
    obtain ⟨hname, -⟩ := hwf _ _ hschema
    exact caches_dispatch (hname ▸ hschema) hvalid
  | dispatch hcall hc hreceived hschema hspace hvalid =>
    obtain ⟨hname, -⟩ := hwf _ _ hschema
    exact caches_dispatch (hname ▸ hschema) hvalid
  | @replay peer t group c schema hcall hmessage hschema hcached hc =>
    obtain ⟨hname, -⟩ := hwf _ _ hschema
    rw [value_replayTo _ _ _ hc]
    refine .inr ⟨schema, [], hname ▸ hschema, hcached, by simp, fun typeName => ?_⟩
    exact ContainerPool.find?_touch _ _ _
  | @learn schema hcheck hnew =>
    exact caches_adoptType schema (by simp [adoptType]) fun typeName => rfl
  | unsubscribe id =>
    refine .inl fun typeName => ?_
    unfold container? Dispatcher.unsubscribe
    split <;> rfl
  | accept | hear | act | forward | join | leave | learnEnum | announce | subscribe |
    forgetClosed => exact .inl fun typeName => rfl

/-! ## All reachable brokers are sound -/

namespace Sound

/-- A broker stays sound when its types, its connections and its containers change as they
may. -/
theorem of_caches (hb : b.Sound) (hwf : b'.registry.WellFormed)
    (hregistry : ∀ name s, b.registry.findStruct? name = some s →
      b'.registry.findStruct? name = some s)
    (hnumbered : ∀ peer c, b'.connections.find? peer = some c → c.peer = peer)
    (hcaches : Caches b b') : b'.Sound := by
  have hold : ∀ typeName c, b.container? typeName = some c →
      (b'.registry.findStruct? typeName = some c.schema ∧ c.schema.flags.cached = true) ∧
        c.Valid := by
    intro typeName c hc
    obtain ⟨hschema, hcached⟩ := hb.schemas typeName c hc
    exact ⟨⟨hregistry _ _ hschema, hcached⟩, hb.valid typeName c hc⟩
  have hall : ∀ typeName c, b'.container? typeName = some c →
      (b'.registry.findStruct? typeName = some c.schema ∧ c.schema.flags.cached = true) ∧
        c.Valid := by
    intro typeName c hc
    rcases hcaches with hsame | ⟨schema, calls, hs, hcached, hconform, hpool⟩
    · exact hold typeName c (hsame typeName ▸ hc)
    · rw [hpool] at hc
      split at hc
      · rename_i hname
        obtain rfl := Option.some.inj hc
        -- The container of the type, before the calls, is of that type and valid.
        have hcache : (b.cacheOf schema).schema = schema ∧ (b.cacheOf schema).Valid := by
          unfold Broker.cacheOf ContainerPool.getD
          cases hfind : b.dispatcher.pool.find? schema.name with
          | none => exact ⟨rfl, Container.valid_empty schema⟩
          | some c =>
            obtain ⟨⟨hschema, -⟩, hvalid⟩ := hold schema.name c hfind
            exact ⟨Option.some.inj (hschema.symm.trans hs), hvalid⟩
        refine ⟨⟨?_, ?_⟩, hcache.2.after ?_⟩
        · rw [hname, Container.schema_after, hcache.1, hs]
        · rw [Container.schema_after, hcache.1, hcached]
        · rw [hcache.1]
          exact hconform
      · exact hold typeName c hc
  exact ⟨hwf, hnumbered, fun typeName c hc => (hall typeName c hc).1,
    fun typeName c hc => (hall typeName c hc).2⟩

theorem adoptType (hb : b.Sound) (hs : b.registry.findStruct? schema.name = some schema) :
    (b.adoptType schema).Sound :=
  hb.of_caches hb.registry (fun _ _ => id) hb.numbered (caches_of_adoptType hs)

/-- Every step keeps a broker sound. -/
theorem step (hb : b.Sound) (h : Step call now b b') : b'.Sound :=
  hb.of_caches (h.wellFormed hb.registry) (fun _ _ => h.findStruct?) (h.numbered hb.numbered)
    (h.caches hb.registry)

theorem takePending (hb : b.Sound) : b.takePending.Sound where
  registry := hb.registry
  numbered peer c hc := by
    rw [find?_takePending, Option.map_eq_some_iff] at hc
    obtain ⟨c, hc, rfl⟩ := hc
    exact hb.numbered peer c hc
  schemas := hb.schemas
  valid := hb.valid

theorem setAside (hb : b.Sound) (peer : PeerId) : (b.setAside peer).Sound where
  registry := by
    rw [registry_setAside]
    exact hb.registry
  numbered q c hc := by
    rw [find?_setAside] at hc
    split at hc
    · cases hc
    · exact hb.numbered q c hc
  schemas typeName c hc := by
    rw [container?_setAside] at hc
    rw [registry_setAside]
    exact hb.schemas typeName c hc
  valid typeName c hc := by
    rw [container?_setAside] at hc
    exact hb.valid typeName c hc

end Sound

/-- Every reachable broker is sound. -/
theorem Reachable.sound (h : b.Reachable) : b.Sound :=
  Reachable.induction (fun name eventCapacity hbuilt => .bare hbuilt name eventCapacity)
    Sound.adoptType Sound.step Sound.takePending (fun hb _ => hb.setAside _) h

/-! ## Every cached type has a container -/

/-- No container disappears. -/
theorem Caches.persists (h : Caches b b') {typeName : String}
    (hc : b.container? typeName ≠ none) : b'.container? typeName ≠ none := by
  rcases h with hsame | ⟨schema, calls, -, -, -, hpool⟩
  · rwa [hsame]
  · rw [hpool]
    split
    · exact Option.some_ne_none _
    · exact hc

/-- Every registered cached type has a container. -/
def Stocked (b : Broker) : Prop :=
  ∀ typeName s, b.registry.findStruct? typeName = some s → s.flags.cached = true →
    b.container? typeName ≠ none

/-- A type that a step registers is adopted at once. -/
theorem Stocked.step (hstock : b.Stocked) (hwf : b.registry.WellFormed)
    (h : Step call now b b') : b'.Stocked := by
  have hcaches := h.caches hwf
  intro typeName s hs hcached
  -- A type that was known before had a container already, and that is still there.
  have hold : b.registry.findStruct? typeName = some s → b'.container? typeName ≠ none :=
    fun hs => hcaches.persists (hstock typeName s hs hcached)
  cases h with
  | @learn learned hcheck hnew =>
    by_cases hname : typeName = learned.name
    · subst hname
      have hsame : s = learned := by simpa [Broker.adoptType] using hs.symm
      rw [container?_adoptType, if_pos ⟨hsame ▸ hcached, rfl⟩]
      exact Option.some_ne_none _
    · exact hold (by simpa [Broker.adoptType, hname] using hs)
  | publish => exact hold (by rwa [registry_dispatch] at hs)
  | dispatch => exact hold (by rwa [registry_dispatch] at hs)
  | replay _ _ _ _ hc => exact hold (by rwa [value_replayTo _ _ _ hc] at hs)
  | accept | hear | act | forward | join | leave | learnEnum | announce | subscribe |
    unsubscribe | forgetClosed => exact hold hs

/-- A broker that was started has adopted all types of its registry. -/
theorem stocked_ofRegistry {registry : Registry} (hwf : registry.WellFormed) (name : String)
    (eventCapacity : Nat) (now : Instant) :
    (ofRegistry name registry eventCapacity now).value.Stocked := by
  have hadopted : (ofRegistry name registry eventCapacity now).value.registry.WellFormed ∧
      ∀ s ∈ registry.structs.values, s.flags.cached = true →
        (ofRegistry name registry eventCapacity now).value.container? s.name ≠ none := by
    refine ofRegistry_induction (I := fun adopted b => b.registry.WellFormed ∧
      ∀ s ∈ adopted, s.flags.cached = true → b.container? s.name ≠ none) hwf ⟨hwf, by simp⟩ ?_ ?_
    · rintro adopted b schema ⟨hwf, hall⟩ hs
      refine ⟨hwf, fun s hmem hcached => ?_⟩
      rcases List.mem_append.1 hmem with hmem | hmem
      · exact (caches_of_adoptType hs).persists (hall s hmem hcached)
      · obtain rfl := List.mem_singleton.1 hmem
        rw [container?_adoptType, if_pos ⟨hcached, rfl⟩]
        exact Option.some_ne_none _
    · rintro adopted b b' ⟨hwf, hall⟩ h
      exact ⟨h.wellFormed hwf, fun s hmem hcached =>
        (h.caches hwf).persists (hall s hmem hcached)⟩
  intro typeName s hs hcached
  rw [registry_ofRegistry] at hs
  obtain ⟨rfl, -⟩ := hwf typeName s hs
  exact hadopted.2 s (SortedMap.mem_values_iff.2 ⟨_, hs⟩) hcached

/-- In a reachable broker every registered cached type has a container. -/
theorem Reachable.stocked (h : b.Reachable) : b.Stocked := by
  induction h with
  | start hbuilt name eventCapacity now =>
    exact stocked_ofRegistry hbuilt.wellFormed name eventCapacity now
  | @perform b hb call now ih =>
    -- That types keep their containers needs the registry to be well-formed, hence both at once.
    have hkept : (b.perform call now).Sound ∧ (b.perform call now).Stocked := by
      refine Moves.induction (I := fun b => b.Sound ∧ b.Stocked)
        (fun hI h => ⟨hI.1.step h, hI.2.step hI.1.registry h⟩)
        (fun hI => ⟨hI.1.takePending, hI.2⟩) (fun {b peer} hI _ => ⟨hI.1.setAside peer, ?_⟩)
        ⟨hb.sound, ih⟩ (perform_moves hb.rested call now)
      intro typeName s hs hcached
      rw [registry_setAside] at hs
      rw [container?_setAside]
      exact hI.2 typeName s hs hcached
    exact hkept.2

end ObjectBus.Broker
