import ObjectBus.Proofs.Broker.Retraction

/-!
# Cleaning up after guests

When the connection of a guest has closed, the host retracts the cached objects that the guest
wrote last, as far as their types ask for it. So whatever is cached of such a type was written
last by the host or by a guest that is still there.

* `orphans`: what goes with a guest;
* `retracts_onClosed`: exactly that is retracted when its connection has closed;
* `Tidy`: the types that ask for clean-up are known, and their objects have their writers;
* `Tidy.drain_induction`: what each change of state keeps in a tidy broker;
* `Parted`, `Leaves`: guests whose connections leave the table;
* `Tidy.departure`: what happens when the connection of a guest has closed.
-/

namespace ObjectBus.Broker

open Relation (ReflTransGen)

variable {call : BrokerCall} {now : Instant} {b b' : Broker} {peer : PeerId}
variable {schema : StructSchema} {x : CachedObject} {typeName : String} {key : ObjectKey}

/-! ## What goes with a guest -/

/-- The cached objects of a type that a guest wrote last. -/
def orphansOf (b : Broker) (peer : PeerId) (typeName : String) : List CachedObject :=
  match b.container? typeName with
  | none => []
  | some c => (c.entries.toList.filter fun e => e.2.provenance.lastUpdateFrom == peer).map
      fun e => ⟨c.schema, e.1, e.2⟩

/-- The cached objects that go with a guest. -/
def orphans (b : Broker) (peer : PeerId) : List CachedObject :=
  b.cleanupTypes.flatMap (b.orphansOf peer)

/-- What a guest wrote last of a type is some of what is cached of it. -/
theorem orphansOf_eq (b : Broker) (peer : PeerId) (typeName : String) :
    b.orphansOf peer typeName =
      (b.cachedOf typeName).filter fun x => x.entry.provenance.lastUpdateFrom == peer := by
  unfold orphansOf cachedOf
  cases b.container? typeName with
  | none => rfl
  | some c =>
    rw [List.filter_map]
    rfl

theorem mem_orphansOf_iff (hb : b.Sound) : x ∈ b.orphansOf peer typeName ↔
    x.IsIn b ∧ x.schema.name = typeName ∧ x.entry.provenance.lastUpdateFrom = peer := by
  rw [orphansOf_eq, List.mem_filter, mem_cachedOf_iff hb, and_assoc, beq_iff_eq]

/-- No place occurs twice. -/
theorem nodup_orphansOf (b : Broker) (peer : PeerId) (typeName : String) :
    ((b.orphansOf peer typeName).map (·.place)).Nodup := by
  rw [orphansOf_eq]
  exact (nodup_cachedOf b typeName).sublist (List.filter_sublist.map _)

/-- Cleaning up one type publishes the removals of what the guest wrote last. -/
theorem value_cleanUpType (b : Broker) (peer : PeerId) (typeName : String) (now : Instant) :
    (b.cleanUpType peer typeName now).value =
      b.afterRemovals (b.orphansOf peer typeName) now := by
  unfold cleanUpType orphansOf
  cases hc : b.container? typeName with
  | none => rfl
  | some c =>
    -- The broker retracts the bare objects, in the order of their entries.
    have howned : c.writtenBy peer =
        (c.entries.toList.filter fun e => e.2.provenance.lastUpdateFrom == peer).map
          (·.2.object) := by
      rw [Container.writtenBy, Container.snapshot, KeyedList.values, List.filter_map,
        List.map_map]
      rfl
    simp only
    split
    · rename_i hempty
      rw [List.isEmpty_iff, howned, List.map_eq_nil_iff] at hempty
      rw [hempty]
      rfl
    · simp only [Noted.value_bind, value_retract]
      rw [howned, List.foldl_map, afterRemovals, List.foldl_map]

/-- Clearing the cache of a type publishes the removals of all that is cached of it. -/
theorem value_clearType (b : Broker) (typeName : String) (now : Instant) :
    (b.clearType typeName now).value = b.afterRemovals (b.cachedOf typeName) now := by
  unfold clearType cachedOf
  cases hc : b.container? typeName with
  | none => rfl
  | some c =>
    simp only [Noted.value_bind, value_retract]
    rw [Container.objects, Container.snapshot, KeyedList.values, afterRemovals, List.foldl_map,
      List.foldl_map, List.foldl_map]

/-- The cached objects that go with a guest are those that it wrote last of some types. -/
theorem mem_orphans_iff (hb : b.Sound) : x ∈ b.orphans peer ↔
    x.IsIn b ∧ x.schema.name ∈ b.cleanupTypes ∧ x.entry.provenance.lastUpdateFrom = peer := by
  unfold orphans
  simp only [List.mem_flatMap, mem_orphansOf_iff hb]
  constructor
  · rintro ⟨typeName, hclean, hx, rfl, hwriter⟩
    exact ⟨hx, hclean, hwriter⟩
  · rintro ⟨hx, hclean, hwriter⟩
    exact ⟨x.schema.name, hclean, hx, rfl, hwriter⟩

/-- No place occurs twice among the objects of different types. -/
theorem nodup_flatMap_orphansOf (hb : b.Sound) (peer : PeerId) {typeNames : List String}
    (hnodup : typeNames.Nodup) :
    ((typeNames.flatMap (b.orphansOf peer)).map (·.place)).Nodup := by
  induction typeNames with
  | nil => exact List.nodup_nil
  | cons typeName rest ih =>
    obtain ⟨hfresh, hrest⟩ := List.nodup_cons.1 hnodup
    rw [List.flatMap_cons, List.map_append, List.nodup_append]
    refine ⟨nodup_orphansOf b peer typeName, ih hrest, fun place hplace place' hplace' => ?_⟩
    obtain ⟨x, hx, rfl⟩ := List.mem_map.1 hplace
    obtain ⟨y, hy, rfl⟩ := List.mem_map.1 hplace'
    obtain ⟨typeName', hmem, hy⟩ := List.mem_flatMap.1 hy
    -- The places of objects of different types differ in the type.
    have hname : x.schema.name = typeName := ((mem_orphansOf_iff hb).1 hx).2.1
    have hname' : y.schema.name = typeName' := ((mem_orphansOf_iff hb).1 hy).2.1
    intro hsame
    have htypes : x.schema.name = y.schema.name := congrArg Prod.fst hsame
    rw [hname, hname'] at htypes
    exact hfresh (htypes ▸ hmem)

/-- What a guest wrote last of a type is the same after retracting objects of other types. -/
theorem Retracts.orphansOf_eq {l : List CachedObject} (h : Retracts now l b b')
    (hother : typeName ∉ l.map (·.schema.name)) :
    b'.orphansOf peer typeName = b.orphansOf peer typeName := by
  rw [orphansOf, orphansOf, h.others typeName hother]

/-- Cleaning up some types retracts what the guest wrote last of them. -/
theorem retracts_cleanUpTypes (hb : b.Sound) (peer : PeerId) (now : Instant)
    {typeNames : List String} (hnodup : typeNames.Nodup) :
    Retracts now (typeNames.flatMap (b.orphansOf peer)) b
      (typeNames.foldl (fun b typeName => (b.cleanUpType peer typeName now).value) b) := by
  induction typeNames generalizing b with
  | nil => exact .refl now b
  | cons typeName rest ih =>
    obtain ⟨hfresh, hrest⟩ := List.nodup_cons.1 hnodup
    have hfirst : Retracts now (b.orphansOf peer typeName) b
        (b.afterRemovals (b.orphansOf peer typeName) now) :=
      retracts_afterRemovals hb (fun x hx => ((mem_orphansOf_iff hb).1 hx).1)
        (nodup_orphansOf b peer typeName) now
    have hsteps : Steps .sweep now b (b.afterRemovals (b.orphansOf peer typeName) now) :=
      steps_afterRemovals .sweep _ b
    have hlater := ih (Steps.induction Sound.step hb hsteps) hrest
    -- The first type is none of the others, so that theirs are as they were.
    have hsame : rest.flatMap ((b.afterRemovals (b.orphansOf peer typeName) now).orphansOf peer) =
        rest.flatMap (b.orphansOf peer) := by
      refine List.flatMap_congr fun typeName' hmem => hfirst.orphansOf_eq fun hname => ?_
      obtain ⟨x, hx, hx'⟩ := List.mem_map.1 hname
      have htypes : x.schema.name = typeName := ((mem_orphansOf_iff hb).1 hx).2.1
      exact hfresh (htypes ▸ hx' ▸ hmem)
    rw [hsame] at hlater
    rw [List.flatMap_cons, List.foldl_cons, value_cleanUpType]
    exact hfirst.trans hlater

/-- When a connection has closed it leaves the table, and then exactly what goes with its guest
is retracted. -/
theorem retracts_onClosed (hb : b.Sound) (hnodup : b.cleanupTypes.Nodup) (peer : PeerId)
    (now : Instant) :
    Retracts now (b.orphans peer) (b.setAside peer) (b.onClosed peer now).value := by
  have horphans : (b.setAside peer).cleanupTypes.flatMap ((b.setAside peer).orphansOf peer) =
      b.orphans peer := by
    unfold orphans orphansOf
    simp only [cleanupTypes_setAside, container?_setAside]
  unfold onClosed
  rw [Noted.value_foldlM, ← horphans]
  exact retracts_cleanUpTypes (hb.setAside peer) peer now (by rwa [cleanupTypes_setAside])

/-! ## Types that ask for clean-up -/

/-- The types with clean-up are the registered cached types that ask for it, each listed once. -/
def Listed (b : Broker) : Prop :=
  b.cleanupTypes.Nodup ∧ ∀ typeName, typeName ∈ b.cleanupTypes ↔
    ∃ s, b.registry.findStruct? typeName = some s ∧ s.flags.cached = true ∧
      s.flags.cleanup = true

/-- A type that a step registers is listed if it asks for clean-up. -/
theorem Listed.step (hl : b.Listed) (h : Step call now b b') : b'.Listed := by
  obtain ⟨hnodup, hiff⟩ := hl
  cases h with
  | @learn learned hcheck hnew =>
    -- A type that is learned was not registered before, and so not listed.
    have hfresh : learned.name ∉ b.cleanupTypes := by
      rw [hiff]
      rintro ⟨s, hs, -⟩
      rw [hnew] at hs
      cases hs
    unfold Listed adoptType
    by_cases hasks : (learned.flags.cached && learned.flags.cleanup) = true
    · simp only [hasks, if_true, Registry.findStruct?_addStruct]
      refine ⟨List.nodup_append.2 ⟨hnodup, by simp, ?_⟩, fun typeName => ?_⟩
      · rintro name hmem name' hmem' rfl
        exact hfresh (List.mem_singleton.1 hmem' ▸ hmem)
      · rw [List.mem_append, List.mem_singleton, hiff]
        by_cases hname : typeName = learned.name
        · simpa [hname] using hasks
        · simp [hname]
    · simp only [hasks, Bool.false_eq_true, if_false, Registry.findStruct?_addStruct]
      refine ⟨hnodup, fun typeName => ?_⟩
      by_cases hname : typeName = learned.name
      · subst hname
        simpa [hfresh] using hasks
      · simp [hname, hiff]
  | publish =>
    rw [Listed, cleanupTypes_dispatch, registry_dispatch]
    exact ⟨hnodup, hiff⟩
  | dispatch =>
    rw [Listed, cleanupTypes_dispatch, registry_dispatch]
    exact ⟨hnodup, hiff⟩
  | replay _ _ _ _ hc =>
    rw [value_replayTo _ _ _ hc]
    exact ⟨hnodup, hiff⟩
  | accept | hear | act | forward | join | leave | learnEnum | announce | subscribe |
    unsubscribe | forgetClosed => exact ⟨hnodup, hiff⟩

theorem cleanupTypes_publishAsHost (b : Broker) (o : Object) (included : Option PropertySet)
    (remove : Bool) (now : Instant) :
    (b.publishAsHost o included remove now).value.1.cleanupTypes = b.cleanupTypes := by
  rcases b.publishAsHost_cases o now included remove with ⟨schema, -, -, heq⟩ | heq
  · rw [heq, cleanupTypes_dispatch]
  · rw [heq]

/-- A broker that was started has listed the types of its registry that ask for clean-up. -/
theorem cleanupTypes_ofRegistry (name : String) (registry : Registry) (eventCapacity : Nat)
    (now : Instant) : (ofRegistry name registry eventCapacity now).value.cleanupTypes =
      (registry.structs.values.filter fun s => s.flags.cached && s.flags.cleanup).map (·.name) := by
  have hfold : ∀ (l : List StructSchema) (b : Broker),
      (l.foldl (fun b schema => (b.onNewType schema now).value) b).cleanupTypes =
        b.cleanupTypes ++ (l.filter fun s => s.flags.cached && s.flags.cleanup).map (·.name) := by
    intro l
    induction l with
    | nil => exact fun b => (List.append_nil _).symm
    | cons schema rest ih =>
      intro b
      have hadopted : (b.onNewType schema now).value.cleanupTypes =
          (b.adoptType schema).cleanupTypes := by
        unfold onNewType
        simp only [Noted.value_bind, value_publishOrNote]
        exact cleanupTypes_publishAsHost _ _ _ _ now
      rw [List.foldl_cons, ih, hadopted, adoptType, List.filter_cons]
      by_cases hasks : (schema.flags.cached && schema.flags.cleanup) = true
      · simp only [hasks, if_true, List.append_assoc, List.singleton_append, List.map_cons]
      · simp only [hasks, Bool.false_eq_true, if_false]
  unfold ofRegistry
  rw [Noted.value_foldlM, hfold]
  rfl

/-- A broker that was started lists its types. -/
theorem listed_ofRegistry {registry : Registry} (hwf : registry.WellFormed) (name : String)
    (eventCapacity : Nat) (now : Instant) :
    (ofRegistry name registry eventCapacity now).value.Listed := by
  unfold Listed
  rw [cleanupTypes_ofRegistry, registry_ofRegistry]
  refine ⟨?_, fun typeName => ?_⟩
  · have hsub := List.filter_sublist (p := fun s : StructSchema =>
      s.flags.cached && s.flags.cleanup) (l := registry.structs.values)
    exact hwf.nodup_names.sublist (hsub.map _)
  · simp only [List.mem_map, List.mem_filter, hwf.findStruct?_eq_some_iff, Bool.and_eq_true]
    constructor
    · rintro ⟨s, ⟨hs, hasks⟩, hname⟩
      exact ⟨s, ⟨hs, hname⟩, hasks⟩
    · rintro ⟨s, ⟨hs, hname⟩, hasks⟩
      exact ⟨s, ⟨hs, hasks⟩, hname⟩

/-! ## Writers -/

/-- Whether an entry was written last by the host or by a guest whose connection is in the
table. -/
def Accounted (b : Broker) (e : Entry) : Prop :=
  e.provenance.lastUpdateFrom = hostId ∨
    ∃ c, b.connections.find? e.provenance.lastUpdateFrom = some c

theorem Accounted.step {e : Entry} (he : b.Accounted e) (h : Step call now b b') :
    b'.Accounted e := by
  rcases he with hhost | hguest
  · exact .inl hhost
  · exact .inr (h.stays hguest)

/-- Every entry of a type with clean-up was written last by the host or by a guest whose
connection is in the table. -/
def Owned (b : Broker) : Prop :=
  ∀ typeName key e, typeName ∈ b.cleanupTypes → b.cachedAt? typeName key = some e → b.Accounted e

theorem find?_cacheOf (b : Broker) (schema : StructSchema) (key : ObjectKey) :
    (b.cacheOf schema).find? key = b.cachedAt? schema.name key := by
  rw [cacheOf_eq, cachedAt?]
  cases b.container? schema.name <;> rfl

/-- After accepting an object every entry is as before or was written by the sender. -/
theorem cachedAt?_dispatch {h : Header} {o : Object} {e : Entry}
    (he : (b.dispatch schema h o now).value.1.cachedAt? typeName key = some e) :
    b.cachedAt? typeName key = some e ∨ e.provenance.lastUpdateFrom = h.origin := by
  rw [cachedAt?, container?_dispatch] at he
  split at he
  · rename_i hboth
    obtain ⟨-, rfl⟩ := hboth
    rw [Option.bind_some, Container.find?_perform] at he
    split at he
    · cases he
    · split at he
      · -- The entry that a write leaves behind names its sender, new or not.
        obtain rfl := Option.some.inj he
        refine .inr ?_
        cases (b.cacheOf schema).find? key <;> rfl
      · rw [find?_cacheOf] at he
        exact .inl he
  · exact .inl he

/-- Making sure that a type has a container leaves all entries as they are. -/
theorem cachedAt?_of_touch (hpool : b'.dispatcher.pool = b.dispatcher.pool.touch schema)
    (typeName : String) (key : ObjectKey) :
    b'.cachedAt? typeName key = b.cachedAt? typeName key := by
  rw [cachedAt?, container?, hpool, ContainerPool.find?_touch]
  split
  · rename_i hname
    rw [hname]
    exact find?_cacheOf b schema key
  · rfl

/-- Adopting a type leaves all entries as they are. -/
theorem cachedAt?_adoptType (b : Broker) (schema : StructSchema) (typeName : String)
    (key : ObjectKey) : (b.adoptType schema).cachedAt? typeName key = b.cachedAt? typeName key := by
  by_cases hcached : schema.flags.cached = true
  · exact cachedAt?_of_touch (by rw [adoptType, if_pos hcached]) typeName key
  · rw [cachedAt?, cachedAt?, container?, container?, adoptType, if_neg hcached]

/-- After a step every entry is as before or was written by the host or by a guest whose
connection is in the table. -/
theorem Step.cachedAt? (h : Step call now b b') (hb : b.Sound) {e : Entry}
    (he : b'.cachedAt? typeName key = some e) :
    b.cachedAt? typeName key = some e ∨ b.Accounted e := by
  cases h with
  | publish hschema hvalid included remove =>
    rcases cachedAt?_dispatch he with hold | hhost
    · exact .inl hold
    · exact .inr (.inl hhost)
  | @dispatch q t c accepted h o hcall hc hreceived hschema hspace hvalid =>
    rcases cachedAt?_dispatch he with hold | hguest
    · exact .inl hold
    · -- The header that a connection passes on names the guest at its other end.
      obtain ⟨-, -, rfl⟩ := Connection.receive_eq_object hreceived
      have hwriter : e.provenance.lastUpdateFrom = q := hguest.trans (hb.numbered q c hc)
      exact .inr (.inr ⟨c, hwriter ▸ hc⟩)
  | @replay q t group c replayed hcall hmessage hschema hcached hc =>
    refine .inl ?_
    rw [value_replayTo _ _ _ hc] at he
    exact (cachedAt?_of_touch rfl typeName key).symm.trans he
  | @learn learned hcheck hnew =>
    rw [cachedAt?_adoptType] at he
    exact .inl he
  | unsubscribe id =>
    refine .inl ?_
    rw [← he, Broker.cachedAt?, Broker.cachedAt?, container?, container?, Dispatcher.unsubscribe]
    split <;> rfl
  | accept | hear | act | forward | join | leave | learnEnum | announce | subscribe |
    forgetClosed => exact .inl he

/-! ## All states in between -/

/-- A sound broker that lists the types with clean-up, and in which their objects have their
writers. -/
structure Tidy (b : Broker) : Prop where
  /-- The broker is sound. -/
  sound : b.Sound
  /-- The types with clean-up are listed. -/
  listed : b.Listed
  /-- Their objects have their writers. -/
  owned : b.Owned

namespace Tidy

/-- Every step keeps a broker tidy. -/
theorem step (hb : b.Tidy) (h : Step call now b b') : b'.Tidy := by
  have hlisted : b'.Listed := hb.listed.step h
  refine ⟨hb.sound.step h, hlisted, fun typeName key e hclean he => ?_⟩
  rcases h.cachedAt? hb.sound he with hold | haccounted
  · -- An entry that was there before is of a type that was registered, and so listed, before.
    obtain ⟨c, hc, -⟩ := Option.bind_eq_some_iff.1 hold
    obtain ⟨hschema, hcached⟩ := hb.sound.schemas typeName c hc
    obtain ⟨s, hs, hasks⟩ := (hlisted.2 typeName).1 hclean
    obtain rfl : c.schema = s := Option.some.inj ((h.findStruct? hschema).symm.trans hs)
    exact (hb.owned typeName key e ((hb.listed.2 typeName).2 ⟨_, hschema, hasks⟩) hold).step h
  · exact haccounted.step h

theorem takePending (hb : b.Tidy) : b.takePending.Tidy where
  sound := hb.sound.takePending
  listed := hb.listed
  owned typeName key e hclean he := by
    rcases hb.owned typeName key e hclean he with hhost | ⟨c, hc⟩
    · exact .inl hhost
    · exact .inr ⟨c.drained, by rw [find?_takePending, hc, Option.map_some]⟩

/-- The departure of a guest, with all that goes with it, keeps a broker tidy. -/
theorem onClosed (hb : b.Tidy) (peer : PeerId) (now : Instant) :
    (b.onClosed peer now).value.Tidy := by
  have hretracts := retracts_onClosed hb.sound hb.listed.1 peer now
  have hsteps : Steps .sweep now (b.setAside peer) (b.onClosed peer now).value :=
    onClosed_steps b peer
  have hlisted : (b.setAside peer).Listed := by
    rw [Listed, cleanupTypes_setAside, registry_setAside]
    exact hb.listed
  refine ⟨Steps.induction Sound.step (hb.sound.setAside peer) hsteps,
    Steps.induction Listed.step hlisted hsteps, fun typeName key e hclean he => ?_⟩
  rw [hretracts.cleanupTypes, cleanupTypes_setAside] at hclean
  rw [hretracts.entries] at he
  split at he
  · cases he
  · rename_i hkept
    rw [Broker.cachedAt?, container?_setAside] at he
    rcases hb.owned typeName key e hclean he with hhost | ⟨c, hc⟩
    · exact .inl hhost
    · -- An entry that was kept was not written last by the guest that has left.
      have hother : e.provenance.lastUpdateFrom ≠ peer := by
        intro hwriter
        obtain ⟨x, hin, hplace, rfl⟩ := exists_isIn hb.sound he
        obtain ⟨rfl, rfl⟩ := Prod.mk.inj hplace
        exact hkept (List.mem_map.2 ⟨x, (mem_orphans_iff hb.sound).2 ⟨hin, hclean, hwriter⟩, rfl⟩)
      refine .inr ?_
      rw [hretracts.frames, find?_setAside, if_neg hother, hc]
      exact ⟨_, rfl⟩

/-- Every move keeps a broker tidy. -/
theorem move (hb : b.Tidy) (h : Move call now b b') : b'.Tidy := by
  cases h with
  | step h => exact hb.step h
  | take => exact hb.takePending
  | closing _ => exact hb.onClosed _ now

theorem moves (hb : b.Tidy) (h : Moves call now b b') : b'.Tidy := by
  induction h with
  | refl => exact hb
  | tail _ h ih => exact ih.move h

/-- What is kept when the queues of a tidy broker are taken and when the first of the changes of
state that were taken is processed holds after draining. -/
theorem drain_induction {I : List (PeerId × Transition) → Broker → Prop} (hb : b.Tidy)
    (hq : b.Queued []) (htake : ∀ b, b.Tidy → I [] b → I b.pending b.takePending)
    (hprocess : ∀ b x taken, b.Tidy → I (x :: taken) b →
      I taken (b.onTransition x.1 x.2 now).value)
    (h : I [] b) : I [] (b.drain now).value := by
  refine (Broker.drain_induction (I := fun taken s => s.Tidy ∧ s.Queued taken ∧ I taken s) ?_ ?_
    ⟨hb, hq, h⟩).2.2
  · rintro s ⟨hs, hqueued, hI⟩
    exact ⟨hs.takePending, hqueued.takePending, htake s hs hI⟩
  · rintro s ⟨peer, t⟩ taken ⟨hs, hqueued, hI⟩
    obtain ⟨hmoves, -, hrest⟩ := onTransition_spec .sweep now hqueued
    exact ⟨hs.moves hmoves, hrest, hprocess s (peer, t) taken hs hI⟩

end Tidy

/-- Before any guest has come, every entry was written by the host. -/
theorem owned_ofRegistry {registry : Registry} (hbuilt : registry.Built) (name : String)
    (eventCapacity : Nat) (now : Instant) :
    (ofRegistry name registry eventCapacity now).value.Owned := by
  -- Before any guest has come this is so of the entries of all types, listed or not.
  have hall : (ofRegistry name registry eventCapacity now).value.Sound ∧
      ∀ typeName key e,
        (ofRegistry name registry eventCapacity now).value.cachedAt? typeName key = some e →
          (ofRegistry name registry eventCapacity now).value.Accounted e := by
    refine ofRegistry_induction (I := fun _ b => b.Sound ∧
      ∀ typeName key e, b.cachedAt? typeName key = some e → b.Accounted e) hbuilt.wellFormed
      ⟨.bare hbuilt name eventCapacity, fun typeName key e he => by cases he⟩ ?_ ?_
    · rintro adopted b schema ⟨hb, hall⟩ hs
      refine ⟨hb.adoptType hs, fun typeName key e he => ?_⟩
      rw [cachedAt?_adoptType] at he
      exact hall typeName key e he
    · rintro adopted b b' ⟨hb, hall⟩ h
      refine ⟨hb.step h, fun typeName key e he => ?_⟩
      rcases h.cachedAt? hb he with hold | haccounted
      · exact (hall typeName key e hold).step h
      · exact haccounted.step h
  exact fun typeName key e _ he => hall.2 typeName key e he

/-- Every reachable broker is tidy. -/
theorem Reachable.tidy (h : b.Reachable) : b.Tidy := by
  induction h with
  | start hbuilt name eventCapacity now =>
    exact ⟨(Reachable.start hbuilt name eventCapacity now).sound,
      listed_ofRegistry hbuilt.wellFormed name eventCapacity now,
      owned_ofRegistry hbuilt name eventCapacity now⟩
  | perform hb call now ih => exact ih.moves (perform_moves hb.rested call now)

/-! ## Guests that part -/

/-- The connection of a guest is in the table in one state, and no longer in a later one. -/
def Parted (q : PeerId) (b b' : Broker) : Prop :=
  b.connections.find? q ≠ none ∧ b'.connections.find? q = none

/-- No connection enters the table between two states. -/
def Leaves (b b' : Broker) : Prop :=
  ∀ q, b.connections.find? q = none → b'.connections.find? q = none

theorem Leaves.refl (b : Broker) : Leaves b b := fun _ hnone => hnone

theorem Leaves.trans {b'' : Broker} (h : Leaves b b') (h' : Leaves b' b'') : Leaves b b'' :=
  fun q hnone => h' q (h q hnone)

theorem Parted.later {b'' : Broker} (h : Parted peer b b') (hleaves : Leaves b' b'') :
    Parted peer b b'' :=
  ⟨h.1, hleaves peer h.2⟩

theorem Parted.earlier {b'' : Broker} (h : Parted peer b' b'') (hleaves : Leaves b b') :
    Parted peer b b'' :=
  ⟨fun hnone => h.1 (hleaves peer hnone), h.2⟩

/-- Unless somebody is accepted, no step puts a connection into the table. -/
theorem Step.leaves (h : Step call now b b') (hquiet : ∀ channel, call ≠ .accept channel) :
    Leaves b b' := by
  intro q hnone
  rcases h.connection q with ⟨channel, hcall, -⟩ | hrel
  · exact absurd hcall (hquiet channel)
  · exact (eq_none_iff_of_rel hrel).2 hnone

theorem Steps.leaves (h : Steps call now b b') (hquiet : ∀ channel, call ≠ .accept channel) :
    Leaves b b' :=
  Steps.induction (I := Leaves b) (fun hI hstep => hI.trans (hstep.leaves hquiet)) (.refl b) h

/-- No step takes a connection out of the table. -/
theorem Steps.not_parted (h : Steps call now b b') : ¬Parted peer b b' := by
  rintro ⟨hthere, hnone⟩
  obtain ⟨c, hc⟩ := Steps.induction (I := fun b' => ∃ c, b'.connections.find? peer = some c)
    (fun hI hstep => hstep.stays hI) (Option.ne_none_iff_exists'.1 hthere) h
  rw [hnone] at hc
  cases hc

theorem leaves_takePending (b : Broker) : Leaves b b.takePending := by
  intro q hnone
  rw [find?_takePending, hnone, Option.map_none]

theorem leaves_setAside (b : Broker) (peer : PeerId) : Leaves b (b.setAside peer) := by
  intro q hnone
  rw [find?_setAside, hnone, ite_self]

theorem Moves.leaves (h : Moves call now b b') (hquiet : ∀ channel, call ≠ .accept channel) :
    Leaves b b' :=
  Moves.induction (I := Leaves b) (fun hI hstep => hI.trans (hstep.leaves hquiet))
    (fun hI => hI.trans (leaves_takePending _)) (fun hI _ => hI.trans (leaves_setAside _ _))
    (.refl b) h

/-! ## The departure of a guest -/

/-- What happens when the connection of a guest has closed: of each type with clean-up exactly
the objects that the guest wrote last are removed, each once, with one event and with one frame
for each connected member of the group of the type. -/
structure Departure (peer : PeerId) (now : Instant) (orphans : List CachedObject)
    (before after : Broker) : Prop where
  /-- The connection leaves the table. -/
  gone : after.connections.find? peer = none
  /-- No object is removed twice. -/
  once : (orphans.map (·.place)).Nodup
  /-- Those are removed that the guest wrote last and whose types ask for it. -/
  exactly : ∀ x, x ∈ orphans ↔ x.IsIn before ∧ x.schema.flags.cleanup = true ∧
    x.entry.provenance.lastUpdateFrom = peer
  /-- All others stay as they are. -/
  entries : ∀ typeName key, after.cachedAt? typeName key =
    if (typeName, key) ∈ orphans.map (·.place) then none else before.cachedAt? typeName key
  /-- There is one event for each, and no other. -/
  events : after.events = before.events ++ orphans.map fun x => .object (x.removal now)
  /-- A connected member is sent one frame for each object of its groups, unless it closes on the
  way, and nobody else is sent anything. -/
  frames : ∀ q, q ≠ peer → ∀ c, before.connections.find? q = some c →
    ∃ c' frames, after.connections.find? q = some c' ∧
      c'.channel.sent = c.channel.sent ++ frames ∧
      frames <+: (orphans.filter fun x => before.groups.hasMember x.schema.name q).map
        (·.removalFrame now) ∧
      (c.state = .connected → c'.isClosed = false →
        frames = (orphans.filter fun x => before.groups.hasMember x.schema.name q).map
          (·.removalFrame now)) ∧
      (c.state ≠ .connected → c' = c)

/-- When the connection of a guest has closed, a tidy broker does that. -/
theorem Tidy.departure (hb : b.Tidy) (peer : PeerId) (now : Instant) :
    Departure peer now (b.orphans peer) b (b.onClosed peer now).value := by
  have hretracts := retracts_onClosed hb.sound hb.listed.1 peer now
  refine ⟨?_, nodup_flatMap_orphansOf hb.sound peer hb.listed.1, fun x => ?_,
    fun typeName key => ?_, ?_, fun q hq c hc => ?_⟩
  · rw [hretracts.frames, find?_setAside, if_pos rfl, Option.map_none]
  · rw [mem_orphans_iff hb.sound, hb.listed.2]
    constructor
    · rintro ⟨hx, ⟨s, hs, -, hasks⟩, hwriter⟩
      obtain rfl : x.schema = s := Option.some.inj (hx.registered.symm.trans hs)
      exact ⟨hx, hasks, hwriter⟩
    · rintro ⟨hx, hasks, hwriter⟩
      exact ⟨hx, ⟨x.schema, hx.registered, hx.cached, hasks⟩, hwriter⟩
  · rw [hretracts.entries, cachedAt?, cachedAt?, container?_setAside]
  · rw [hretracts.events, events_setAside]
  · have hstays : (b.setAside peer).connections.find? q = some c := by
      rw [find?_setAside, if_neg hq, hc]
    have hsent := hretracts.sent hstays
    rwa [groups_setAside] at hsent

end ObjectBus.Broker
