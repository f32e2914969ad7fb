import ObjectBus.Proofs.Broker.Soundness

/-!
# Retracting cached objects

The host takes cached objects out by publishing their removal, one after the other: when a guest
is gone, when caches are cleared and when stale records are swept. In a sound broker no such
removal fails.

* `CachedObject`: a cached object in its place, with the event and the frame of its removal;
* `Retracts`: exactly some cached objects were taken out, each with its event and its frame;
* `outcome_removal`: publishing the removal of a cached object succeeds;
* `retracts_afterRemovals`: that is what publishing their removals does.
-/

namespace ObjectBus

namespace Connection

variable {c : Connection}

/-- A connection that does not take part in traffic is left alone. -/
theorem offered_of_ne_connected (hstate : c.state ≠ .connected) (t : Transmission) :
    c.offered t = c := by
  unfold offered
  split
  · rename_i hreceives
    -- A suspended connection is offered traffic too but drops it.
    have hsuspended : c.state = .suspended := by
      cases h : c.state <;> simp_all [ConnectionState.receivesFanout]
    rcases c.send_cases t with ⟨hsame, -⟩ | ⟨⟨-, hother⟩, -⟩
    · exact hsame
    · exact absurd hsuspended hother
  · rfl

/-- A connected connection is sent what it is offered, or closes without being sent it. -/
theorem offered_cases (hstate : c.state = .connected) (t : Transmission) :
    (c.offered t).state = .connected ∧ (c.offered t).channel.sent = c.channel.sent ++ [t] ∨
      (c.offered t).state = .closed ∧ (c.offered t).channel.sent = c.channel.sent := by
  have hoffered : c.offered t = (c.send t).value := by
    rw [offered, hstate]
    rfl
  rw [hoffered]
  rcases c.send_cases t with ⟨-, hother⟩ | ⟨-, ⟨channel, heq, hsent⟩ |
    ⟨channel, error, heq, hsent⟩⟩
  · rw [hstate] at hother
    simp at hother
  · rw [heq]
    exact .inl ⟨hstate, hsent⟩
  · rw [heq]
    refine .inr ⟨state_transportFailed _ _, ?_⟩
    obtain ⟨frames, hframes, hnone, -⟩ :=
      (advances_transportFailed (fun _ => False) { c with channel := channel } error).sent
    rw [hframes, List.eq_nil_iff_forall_not_mem.2 hnone, List.append_nil]
    exact hsent

/-- A connection after some transmissions of its groups were offered to it in order. -/
def offeredAll (c : Connection) (ts : List Transmission) : Connection := ts.foldl offered c

theorem offeredAll_of_ne_connected (hstate : c.state ≠ .connected) (ts : List Transmission) :
    c.offeredAll ts = c := by
  induction ts with
  | nil => rfl
  | cons t rest ih =>
    rw [offeredAll, List.foldl_cons, offered_of_ne_connected hstate t]
    exact ih

/-- A connected connection is sent what it is offered in order, and all of it unless that closes
it. -/
theorem sent_offeredAll (hstate : c.state = .connected) (ts : List Transmission) :
    ∃ frames, (c.offeredAll ts).channel.sent = c.channel.sent ++ frames ∧ frames <+: ts ∧
      ((c.offeredAll ts).isClosed = false → frames = ts) := by
  induction ts generalizing c with
  | nil => exact ⟨[], by simp [offeredAll]⟩
  | cons t rest ih =>
    have hfirst : c.offeredAll (t :: rest) = (c.offered t).offeredAll rest := rfl
    rw [hfirst]
    rcases offered_cases hstate t with ⟨hconnected, hsent⟩ | ⟨hclosed, hsent⟩
    · obtain ⟨frames, hframes, hprefix, hall⟩ := ih hconnected
      refine ⟨t :: frames, ?_, List.cons_prefix_cons.2 ⟨rfl, hprefix⟩, fun hopen => ?_⟩
      · rw [hframes, hsent, List.append_assoc, List.singleton_append]
      · rw [hall hopen]
    · -- Nothing more reaches a connection that has closed.
      rw [offeredAll_of_ne_connected (by simp [hclosed])]
      refine ⟨[], by rw [hsent, List.append_nil], List.nil_prefix, fun hopen => ?_⟩
      simp [isClosed, hclosed] at hopen

end Connection

/-- A cached object: its type, its key and its entry. -/
structure CachedObject where
  /-- The type. -/
  schema : StructSchema
  /-- The key. -/
  key : ObjectKey
  /-- The entry. -/
  entry : Entry

namespace CachedObject

/-- Where the object is kept. -/
def place (x : CachedObject) : String × ObjectKey := (x.schema.name, x.key)

/-- The header under which the host removes the object. -/
def removalHeader (x : CachedObject) (now : Instant) : Header :=
  Broker.hostHeader x.schema x.entry.object (some x.schema.keyProperties) true now

/-- What observers are told when the host removes the object. -/
def removal (x : CachedObject) (now : Instant) : ObjectEvent where
  header := x.removalHeader now
  object := x.entry.object
  transmitted := x.entry.object
  provenance := x.entry.provenance.next .remove (x.removalHeader now) now
  isFromMyself := true

/-- What members of the group of the type are sent when the host removes the object. -/
def removalFrame (x : CachedObject) (now : Instant) : Transmission :=
  .ofObject (x.removalHeader now) x.entry.object

/-- The object is cached in a broker under a registered type. -/
structure IsIn (x : CachedObject) (b : Broker) : Prop where
  /-- The type is registered. -/
  registered : b.registry.findStruct? x.schema.name = some x.schema
  /-- It is cached. -/
  cached : x.schema.flags.cached = true
  /-- The entry is in its place. -/
  entry : b.cachedAt? x.schema.name x.key = some x.entry

end CachedObject

namespace Broker

variable {now : Instant} {b b' b'' : Broker} {x : CachedObject} {l l' : List CachedObject}

/-- Exactly some cached objects were taken out, in order, each with one event and with one frame
for every member of its group. -/
structure Retracts (now : Instant) (l : List CachedObject) (b b' : Broker) : Prop where
  /-- The types are the same. -/
  registry : b'.registry = b.registry
  /-- The groups are the same. -/
  groups : b'.groups = b.groups
  /-- The types with clean-up are the same. -/
  cleanupTypes : b'.cleanupTypes = b.cleanupTypes
  /-- Containers of other types are the same. -/
  others : ∀ typeName, typeName ∉ l.map (·.schema.name) →
    b'.container? typeName = b.container? typeName
  /-- Exactly the objects are gone. -/
  entries : ∀ typeName key, b'.cachedAt? typeName key =
    if (typeName, key) ∈ l.map (·.place) then none else b.cachedAt? typeName key
  /-- Each has one event. -/
  events : b'.events = b.events ++ l.map fun x => .object (x.removal now)
  /-- Each has one frame for each member of its group. -/
  frames : ∀ q, b'.connections.find? q = (b.connections.find? q).map
    (·.offeredAll ((l.filter fun x => b.groups.hasMember x.schema.name q).map
      (·.removalFrame now)))

namespace Retracts

theorem refl (now : Instant) (b : Broker) : Retracts now [] b b where
  registry := rfl
  groups := rfl
  cleanupTypes := rfl
  others _ _ := rfl
  entries _ _ := by simp
  events := by simp
  frames q := by
    cases b.connections.find? q <;> rfl

theorem trans (h : Retracts now l b b') (h' : Retracts now l' b' b'') :
    Retracts now (l ++ l') b b'' where
  registry := h'.registry.trans h.registry
  groups := h'.groups.trans h.groups
  cleanupTypes := h'.cleanupTypes.trans h.cleanupTypes
  others typeName hnot := by
    rw [List.map_append, List.mem_append, not_or] at hnot
    rw [h'.others typeName hnot.2, h.others typeName hnot.1]
  entries typeName key := by
    rw [h'.entries, h.entries, List.map_append]
    by_cases hmem' : (typeName, key) ∈ l'.map (·.place)
    · simp [hmem']
    · simp [hmem']
  events := by rw [h'.events, h.events, List.map_append, List.append_assoc]
  frames q := by
    rw [h'.frames, h.frames, h.groups, List.filter_append, List.map_append, Option.map_map]
    congr 1
    funext c
    exact (List.foldl_append ..).symm

/-- A connected member is sent one frame for each object of its groups, in order, unless it closes
on the way, and nobody else is sent anything. -/
theorem sent (h : Retracts now l b b') {q : PeerId} {c : Connection}
    (hc : b.connections.find? q = some c) :
    ∃ c' frames, b'.connections.find? q = some c' ∧
      c'.channel.sent = c.channel.sent ++ frames ∧
      frames <+: (l.filter fun x => b.groups.hasMember x.schema.name q).map (·.removalFrame now) ∧
      (c.state = .connected → c'.isClosed = false →
        frames = (l.filter fun x => b.groups.hasMember x.schema.name q).map
          (·.removalFrame now)) ∧
      (c.state ≠ .connected → c' = c) := by
  have hafter := h.frames q
  rw [hc, Option.map_some] at hafter
  -- Only connected members are offered the removals.
  by_cases hstate : c.state = .connected
  · obtain ⟨frames, hsent, hprefix, hall⟩ := Connection.sent_offeredAll hstate
      ((l.filter fun x => b.groups.hasMember x.schema.name q).map (·.removalFrame now))
    exact ⟨_, frames, hafter, hsent, hprefix, fun _ => hall, fun hne => absurd hstate hne⟩
  · rw [Connection.offeredAll_of_ne_connected hstate] at hafter
    exact ⟨c, [], hafter, (List.append_nil _).symm, List.nil_prefix,
      fun hconnected => absurd hconnected hstate, fun _ => rfl⟩

end Retracts

/-- What is cached in a sound broker is in the container of its type, conforms and has its
key. -/
theorem container?_of_isIn (hb : b.Sound) (hx : x.IsIn b) :
    ∃ c, b.container? x.schema.name = some c ∧ c.schema = x.schema ∧
      c.find? x.key = some x.entry ∧ x.schema.validate x.entry.object = .ok () ∧
      x.schema.keyOf x.entry.object = .ok x.key := by
  obtain ⟨c, hc, hfind⟩ := Option.bind_eq_some_iff.1 hx.entry
  obtain ⟨hschema, -⟩ := hb.schemas _ c hc
  obtain hsame : x.schema = c.schema := Option.some.inj (hx.registered.symm.trans hschema)
  obtain ⟨hvalid, hkey⟩ := hb.valid _ c hc x.key x.entry hfind
  rw [← hsame] at hvalid hkey
  exact ⟨c, hc, hsame.symm, hfind, hvalid, hkey⟩

/-- Every entry is that of a cached object. -/
theorem exists_isIn (hb : b.Sound) {typeName : String} {key : ObjectKey} {e : Entry}
    (he : b.cachedAt? typeName key = some e) :
    ∃ x : CachedObject, x.IsIn b ∧ x.place = (typeName, key) ∧ x.entry = e := by
  obtain ⟨c, hc, -⟩ := Option.bind_eq_some_iff.1 he
  obtain ⟨hschema, hcached⟩ := hb.schemas typeName c hc
  obtain ⟨rfl, hs⟩ := hb.findStruct?_name hschema
  exact ⟨⟨c.schema, key, e⟩, ⟨hs, hcached, he⟩, rfl, rfl⟩

/-! ## The cached objects of one type -/

/-- The cached objects of a type, in the order of their entries. -/
def cachedOf (b : Broker) (typeName : String) : List CachedObject :=
  match b.container? typeName with
  | none => []
  | some c => c.entries.toList.map fun e => ⟨c.schema, e.1, e.2⟩

theorem cachedOf_of_container {typeName : String} {c : Container}
    (hc : b.container? typeName = some c) :
    b.cachedOf typeName = c.entries.toList.map fun e => ⟨c.schema, e.1, e.2⟩ := by
  unfold cachedOf
  rw [hc]

/-- What is cached under a type is cached of that type. -/
theorem mem_cachedOf_iff (hb : b.Sound) {typeName : String} :
    x ∈ b.cachedOf typeName ↔ x.IsIn b ∧ x.schema.name = typeName := by
  unfold cachedOf
  constructor
  · intro hx
    split at hx
    · cases hx
    · rename_i c hc
      obtain ⟨⟨key, e⟩, hmem, rfl⟩ := List.mem_map.1 hx
      obtain ⟨hschema, hcached⟩ := hb.schemas typeName c hc
      obtain ⟨rfl, hs⟩ := hb.findStruct?_name hschema
      have hfind : c.find? key = some e := KeyedList.find?_eq_some_iff.2 hmem
      exact ⟨⟨hs, hcached, by rw [cachedAt?, hc]; exact hfind⟩, rfl⟩
  · rintro ⟨hx, rfl⟩
    obtain ⟨c, hc, hschema, hfind, -⟩ := container?_of_isIn hb hx
    rw [hc]
    refine List.mem_map.2 ⟨(x.key, x.entry), KeyedList.find?_eq_some_iff.1 hfind, ?_⟩
    rw [hschema]

/-- No place occurs twice: the places are the keys under the name of one type, and keys are
distinct. -/
theorem nodup_cachedOf (b : Broker) (typeName : String) :
    ((b.cachedOf typeName).map (·.place)).Nodup := by
  unfold cachedOf
  split
  · exact List.nodup_nil
  · rename_i c hc
    have hplaces : (c.entries.toList.map fun e => (⟨c.schema, e.1, e.2⟩ : CachedObject)).map
        (·.place) = (c.entries.toList.map (·.1)).map (Prod.mk c.schema.name) := by
      rw [List.map_map, List.map_map]
      rfl
    rw [hplaces]
    exact c.entries.nodup.map fun _ _ hplace => (Prod.mk.inj hplace).2

/-! ## Publishing a removal -/

/-- A cached object conforms to its type, so that the host may publish its removal. -/
theorem publishAsHost_removal (hb : b.Sound) (hx : x.IsIn b) (now : Instant) :
    b.publishAsHost x.entry.object (some x.schema.keyProperties) true now =
      b.dispatch x.schema (x.removalHeader now) x.entry.object now := by
  obtain ⟨-, -, -, -, hvalid, -⟩ := container?_of_isIn hb hx
  have htype : x.entry.object.typeName = x.schema.name :=
    (StructSchema.validate_eq_ok_iff.1 hvalid).1
  unfold publishAsHost Registry.resolve
  simp only [htype, hx.registered, hvalid]
  rfl

/-- The removal finds the entry, so that the call on the container succeeds. -/
theorem perform_removal (hb : b.Sound) (hx : x.IsIn b) (now : Instant) :
    (b.cacheOf x.schema).perform
        (Dispatcher.callOf (x.removalHeader now) x.entry.object now) =
      ({ b.cacheOf x.schema with entries := (b.cacheOf x.schema).entries.erase x.key },
        .ok (some ⟨x.entry.object, (x.removal now).provenance⟩)) := by
  obtain ⟨c, hc, hschema, hfind, -, hkey⟩ := container?_of_isIn hb hx
  have hcache : b.cacheOf x.schema = c := by
    rw [cacheOf_eq, hc]
    rfl
  -- Removing merges the entry with itself, so that the answer tells the object as it was.
  have hmerged : c.writtenEntry x.entry .remove (x.removalHeader now) x.entry.object now =
      ⟨x.entry.object, (x.removal now).provenance⟩ := by
    rw [Container.writtenEntry, Object.merge_self]
    rfl
  have hcall : c.perform (Dispatcher.callOf (x.removalHeader now) x.entry.object now) =
      ({ c with entries := c.entries.erase x.key },
        .ok (some (c.writtenEntry x.entry .remove (x.removalHeader now) x.entry.object now))) :=
    Container.perform_removal_of_some rfl (hschema.symm ▸ hkey) hfind
  rw [hcache, hcall, hmerged]

theorem applied_removal (hb : b.Sound) (hx : x.IsIn b) (now : Instant) :
    b.applied x.schema (x.removalHeader now) x.entry.object now =
      .ok ⟨true, some (x.removal now)⟩ := by
  have hanswer := congrArg Prod.snd (perform_removal hb hx now)
  rw [applied, Dispatcher.outcome_apply, if_pos hx.cached]
  exact congrArg (Except.map _) hanswer

/-- Publishing the removal of a cached object succeeds. -/
theorem outcome_removal (hb : b.Sound) (hx : x.IsIn b) (now : Instant) :
    (b.publishAsHost x.entry.object (some x.schema.keyProperties) true now).value.2 = .ok () := by
  rw [publishAsHost_removal hb hx, outcome_dispatch, applied_removal hb hx]
  rfl

/-- Publishing the removal of a cached object takes it out, with one event and with one frame for
each member of its group. -/
theorem retracts_publishAsHost (hb : b.Sound) (hx : x.IsIn b) (now : Instant) :
    Retracts now [x] b
      (b.publishAsHost x.entry.object (some x.schema.keyProperties) true now).value.1 := by
  have happlied := applied_removal hb hx now
  have happlies : b.applies x.schema (x.removalHeader now) x.entry.object now = true := by
    rw [applies, happlied]
    rfl
  have hcontainer : ∀ typeName, (b.dispatch x.schema (x.removalHeader now) x.entry.object
      now).value.1.container? typeName = if typeName = x.schema.name then
        some { b.cacheOf x.schema with entries := (b.cacheOf x.schema).entries.erase x.key }
      else b.container? typeName := by
    intro typeName
    rw [container?_dispatch, perform_removal hb hx]
    simp only [hx.cached, true_and]
  rw [publishAsHost_removal hb hx]
  refine ⟨registry_dispatch .., groups_dispatch .., cleanupTypes_dispatch .., ?_, ?_, ?_, ?_⟩
  · intro typeName hnot
    rw [hcontainer, if_neg (by simpa using hnot)]
  · intro typeName key
    obtain ⟨c, hc, -⟩ := container?_of_isIn hb hx
    have hcache : b.cacheOf x.schema = c := by
      rw [cacheOf_eq, hc]
      rfl
    rw [cachedAt?, hcontainer, cachedAt?, hcache]
    by_cases hname : typeName = x.schema.name
    · subst hname
      by_cases hsame : key = x.key
      · simp [hsame, CachedObject.place, Container.find?]
      · simp [hsame, CachedObject.place, Container.find?, hc]
    · simp [hname, CachedObject.place]
  · rw [events_dispatch, eventsOf, happlied]
    rfl
  · intro q
    have hgroup : (x.removalHeader now).group = x.schema.name := rfl
    rw [find?_dispatch, hgroup]
    simp only [happlies, true_and, List.filter_cons, List.filter_nil]
    split
    · rfl
    · cases b.connections.find? q <;> rfl

/-- What is cached elsewhere stays cached. -/
theorem Retracts.isIn (h : Retracts now l b b') (hx : x.IsIn b)
    (hother : x.place ∉ l.map (·.place)) : x.IsIn b' where
  registered := by rw [h.registry, hx.registered]
  cached := hx.cached
  entry := by
    rw [h.entries]
    exact (if_neg hother).trans hx.entry

/-- What is in its place after a retraction was there before, and was not retracted. -/
theorem Retracts.isIn_iff (h : Retracts now l b b') :
    x.IsIn b' ↔ x.IsIn b ∧ x.place ∉ l.map (·.place) := by
  refine ⟨fun hx => ?_, fun ⟨hx, hother⟩ => h.isIn hx hother⟩
  have hentry := hx.entry
  rw [h.entries] at hentry
  split at hentry
  · cases hentry
  · rename_i hother
    exact ⟨⟨h.registry ▸ hx.registered, hx.cached, hentry⟩, hother⟩

/-- The broker after the host has published the removal of some cached objects. -/
def afterRemovals (b : Broker) (l : List CachedObject) (now : Instant) : Broker :=
  l.foldl (fun b x =>
    (b.publishAsHost x.entry.object (some x.schema.keyProperties) true now).value.1) b

theorem steps_afterRemovals (call : BrokerCall) (l : List CachedObject) (b : Broker) :
    Steps call now b (b.afterRemovals l now) :=
  steps_foldl (fun b _ => steps_publishAsHost b _ _ _) l b

/-- Publishing the removals of cached objects in different places takes out exactly those. -/
theorem retracts_afterRemovals (hb : b.Sound) (hl : ∀ x ∈ l, x.IsIn b)
    (hnodup : (l.map (·.place)).Nodup) (now : Instant) :
    Retracts now l b (b.afterRemovals l now) := by
  induction l generalizing b with
  | nil => exact .refl now b
  | cons x rest ih =>
    obtain ⟨hfresh, hrest⟩ := List.nodup_cons.1 (List.map_cons ▸ hnodup)
    -- The first removal leaves the others where they were cached.
    have hfirst := retracts_publishAsHost hb (hl x List.mem_cons_self) now
    have hsteps : Steps .sweep now b (b.afterRemovals [x] now) := steps_afterRemovals .sweep [x] b
    have hsound := Steps.induction Sound.step hb hsteps
    refine hfirst.trans (ih hsound (fun y hy => ?_) hrest)
    -- The others are in other places.
    refine hfirst.isIn (hl y (List.mem_cons_of_mem _ hy)) ?_
    rw [List.map_singleton, List.mem_singleton]
    intro hsame
    exact hfresh (List.mem_map.2 ⟨y, hy, hsame⟩)

end Broker

end ObjectBus
