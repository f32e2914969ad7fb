import ObjectBus.Proofs.Broker.Call
import ObjectBus.Proofs.Dispatcher.Subscribers

/-!
# Subscribers mirror the cache

A subscriber that keeps a map of objects, setting the object of every event that creates or updates
one and deleting that of every event that removes one, always has what the cache of its type has.
What it is told of one key are whole lives of objects, from creation through updates to removal, and
perhaps the beginning of one more.

* `Operation.Lives`: lives of objects one after the other, cut anywhere;
* `mirror`: the map of a subscriber;
* `UpToDate`: the events that a subscriber was told so far against the cache;
* `Container.turn_perform`: what one call on a container means for a subscriber;
* `Dispatcher.subscriber_mirrors_cache`: what a subscriber is told in any run.
-/

namespace ObjectBus

/-! ## Lives of objects -/

namespace Operation

/-- What happens to an object from its creation to its removal, with some updates in between. -/
def life (updates : Nat) : List Operation :=
  .create :: (List.replicate updates .update ++ [.remove])

/-- Lives of objects one after the other, cut anywhere. -/
def Lives (operations : List Operation) : Prop :=
  ∃ updates : List Nat, operations <+: updates.flatMap life

/-- Whole lives of objects and, if an object is there, the beginning of one more. -/
inductive Lived : Bool → List Operation → Prop
  /-- There was no object yet. -/
  | unborn : Lived false []
  /-- An object is created. -/
  | create {operations : List Operation} (h : Lived false operations) :
      Lived true (operations ++ [.create])
  /-- The object is updated. -/
  | update {operations : List Operation} (h : Lived true operations) :
      Lived true (operations ++ [.update])
  /-- The object is removed. -/
  | remove {operations : List Operation} (h : Lived true operations) :
      Lived false (operations ++ [.remove])

variable {isThere : Bool} {operations : List Operation}

/-- The whole lives, and what the object that is there has been through. -/
theorem Lived.parts (h : Lived isThere operations) : ∃ updates : List Nat,
    (isThere = false → operations = updates.flatMap life) ∧
    (isThere = true → ∃ n, operations =
      updates.flatMap life ++ .create :: List.replicate n .update) := by
  induction h with
  | unborn => exact ⟨[], fun _ => rfl, fun h => (by cases h)⟩
  | create _ ih =>
    obtain ⟨updates, hwhole, -⟩ := ih
    exact ⟨updates, fun h => (by cases h), fun _ => ⟨0, by rw [hwhole rfl]; rfl⟩⟩
  | update _ ih =>
    obtain ⟨updates, -, hcut⟩ := ih
    obtain ⟨n, rfl⟩ := hcut rfl
    refine ⟨updates, fun h => (by cases h), fun _ => ⟨n + 1, ?_⟩⟩
    rw [List.replicate_succ', List.append_assoc, List.cons_append]
  | remove _ ih =>
    obtain ⟨updates, -, hcut⟩ := ih
    obtain ⟨n, rfl⟩ := hcut rfl
    refine ⟨updates ++ [n], fun _ => ?_, fun h => (by cases h)⟩
    rw [List.flatMap_append, List.flatMap_singleton, List.append_assoc]
    rfl

theorem Lived.lives (h : Lived isThere operations) : Lives operations := by
  obtain ⟨updates, hwhole, hcut⟩ := h.parts
  cases isThere with
  | false => exact ⟨updates, hwhole rfl ▸ List.prefix_rfl⟩
  | true =>
    -- The life that has begun may end with the next operation.
    obtain ⟨n, rfl⟩ := hcut rfl
    refine ⟨updates ++ [n], [.remove], ?_⟩
    rw [List.flatMap_append, List.flatMap_singleton, List.append_assoc]
    rfl

end Operation

/-! ## What a subscriber keeps -/

/-- Whether an event is about the object of a key. -/
def ObjectEvent.concerns (schema : StructSchema) (key : ObjectKey) (e : ObjectEvent) : Bool :=
  match schema.keyOf e.object with
  | .ok k => k = key
  | .error _ => false

theorem ObjectEvent.concerns_of_keyOf {schema : StructSchema} {key : ObjectKey} {e : ObjectEvent}
    (h : schema.keyOf e.object = .ok key) (key' : ObjectKey) :
    e.concerns schema key' = decide (key = key') := by
  simp [concerns, h]

/-- What some events say was done to the object of a key, in order. -/
def operationsOn (schema : StructSchema) (key : ObjectKey) (events : List ObjectEvent) :
    List Operation :=
  (events.filter (·.concerns schema key)).map (·.operation)

/-- What a subscriber makes of one event. -/
def mirrorOne (schema : StructSchema) (objects : KeyedList ObjectKey Object) (e : ObjectEvent) :
    KeyedList ObjectKey Object :=
  match schema.keyOf e.object with
  | .error _ => objects
  | .ok key =>
    match e.operation with
    | .create | .update => objects.insert key e.object
    | .remove => objects.erase key

/-- The objects that a subscriber knows of after some events. -/
def mirror (schema : StructSchema) (events : List ObjectEvent) : KeyedList ObjectKey Object :=
  events.foldl (mirrorOne schema) .empty

/-- What one event says about the objects of a type: one was created that was not there, or
updated or removed while it was there. -/
inductive Turn (schema : StructSchema) (e : ObjectEvent)
    (objects objects' : ObjectKey → Option Object) : Prop
  /-- An object was created. -/
  | create {key : ObjectKey} (hkey : schema.keyOf e.object = .ok key)
      (hdone : e.operation = .create) (habsent : objects key = none)
      (hnow : ∀ k, objects' k = if k = key then some e.object else objects k) :
      Turn schema e objects objects'
  /-- An object was updated. -/
  | update {key : ObjectKey} (hkey : schema.keyOf e.object = .ok key)
      (hdone : e.operation = .update) (hpresent : objects key ≠ none)
      (hnow : ∀ k, objects' k = if k = key then some e.object else objects k) :
      Turn schema e objects objects'
  /-- An object was removed. -/
  | remove {key : ObjectKey} (hkey : schema.keyOf e.object = .ok key)
      (hdone : e.operation = .remove) (hpresent : objects key ≠ none)
      (hnow : ∀ k, objects' k = if k = key then none else objects k) :
      Turn schema e objects objects'

/-- A subscriber that was told of some events knows certain objects, and has seen whole lives of
objects and the beginnings of those that are there. -/
structure UpToDate (schema : StructSchema) (objects : ObjectKey → Option Object)
    (events : List ObjectEvent) : Prop where
  /-- What was done to each key. -/
  lived : ∀ key, Operation.Lived (objects key).isSome (operationsOn schema key events)
  /-- What it knows of. -/
  known : ∀ key, (mirror schema events).find? key = objects key

section UpToDate

variable {schema : StructSchema} {objects objects' : ObjectKey → Option Object}
variable {events : List ObjectEvent} {e : ObjectEvent} {key : ObjectKey}

theorem operationsOn_concat (hkey : schema.keyOf e.object = .ok key) (key' : ObjectKey) :
    operationsOn schema key' (events ++ [e]) =
      if key' = key then operationsOn schema key' events ++ [e.operation]
      else operationsOn schema key' events := by
  unfold operationsOn
  rw [List.filter_append, List.map_append]
  by_cases h : key' = key
  · simp [ObjectEvent.concerns_of_keyOf hkey, h]
  · simp [ObjectEvent.concerns_of_keyOf hkey, h, Ne.symm h]

theorem find?_mirror_concat (hkey : schema.keyOf e.object = .ok key) (key' : ObjectKey) :
    (mirror schema (events ++ [e])).find? key' =
      if key' = key then (if e.operation = .remove then none else some e.object)
      else (mirror schema events).find? key' := by
  unfold mirror
  rw [List.foldl_append, List.foldl_cons, List.foldl_nil, mirrorOne, hkey]
  cases e.operation <;> simp

theorem upToDate_nil : UpToDate schema (fun _ => none) [] :=
  ⟨fun _ => .unborn, fun _ => rfl⟩

/-- An event says what became of the object of its key, and nothing about the others. -/
theorem UpToDate.concat (h : UpToDate schema objects events)
    (hkey : schema.keyOf e.object = .ok key)
    (hlived : Operation.Lived (objects' key).isSome
      (operationsOn schema key events ++ [e.operation]))
    (hnow : ∀ k, objects' k =
      if k = key then (if e.operation = .remove then none else some e.object) else objects k) :
    UpToDate schema objects' (events ++ [e]) := by
  refine ⟨fun k => ?_, fun k => ?_⟩
  · rw [operationsOn_concat hkey]
    by_cases hk : k = key
    · rw [if_pos hk, hk]
      exact hlived
    · rw [if_neg hk, hnow, if_neg hk]
      exact h.lived k
  · rw [find?_mirror_concat hkey, hnow, h.known]

/-- A subscriber that is told of what happens goes on knowing what there is. -/
theorem UpToDate.turn (h : UpToDate schema objects events)
    (hturn : Turn schema e objects objects') : UpToDate schema objects' (events ++ [e]) := by
  cases hturn with
  | @create key hkey hdone habsent hnow =>
    have hlived := h.lived key
    rw [habsent] at hlived
    refine h.concat hkey ?_ fun k => ?_
    · rw [hnow, if_pos rfl, hdone]
      exact .create hlived
    · simp [hnow, hdone]
  | @update key hkey hdone hpresent hnow =>
    have hlived := h.lived key
    rw [Option.isSome_iff_ne_none.2 hpresent] at hlived
    refine h.concat hkey ?_ fun k => ?_
    · rw [hnow, if_pos rfl, hdone]
      exact .update hlived
    · simp [hnow, hdone]
  | @remove key hkey hdone hpresent hnow =>
    have hlived := h.lived key
    rw [Option.isSome_iff_ne_none.2 hpresent] at hlived
    refine h.concat hkey ?_ fun k => ?_
    · rw [hnow, if_pos rfl, hdone]
      exact .remove hlived
    · simp [hnow, hdone]

end UpToDate

/-! ## What a container shows a subscriber -/

namespace Container

variable {c : Container} {call : CacheCall} {key : ObjectKey}

/-- The object of a key. -/
def objectAt? (c : Container) (key : ObjectKey) : Option Object := (c.find? key).map (·.object)

/-- Every entry is kept under its own key. -/
def Keyed (c : Container) : Prop :=
  ∀ key e, c.find? key = some e → c.schema.keyOf e.object = .ok key

theorem keyed_empty (schema : StructSchema) : (empty schema).Keyed := by
  intro key e he
  cases he

/-- A write to an entry leaves its key as it is. -/
theorem Keyed.writtenEntry (hc : c.Keyed) {e : Entry} (he : c.find? key = some e)
    (operation : Operation) (h : Header) (o : Object) (now : Instant) :
    c.schema.keyOf (c.writtenEntry e operation h o now).object = .ok key := by
  refine StructSchema.keyOf_congr (fun tag htag => ?_) (hc key e he)
  simp [Container.writtenEntry, htag]

theorem keyOf_createdEntry {h : Header} {o : Object} (hkey : c.schema.keyOf o = .ok key)
    (now : Instant) : c.schema.keyOf (c.createdEntry h o now).object = .ok key := by
  refine StructSchema.keyOf_congr (fun tag htag => ?_) hkey
  simp [createdEntry, htag]

/-- What a call means for a subscriber: the entry that it gives back tells of what was done to the
container, and a call that gives nothing back has left the container as it was. -/
theorem turn_perform (hc : c.Keyed) (call : CacheCall) (h : Header) (o : Object) (mine : Bool) :
    (∃ e, (c.perform call).2 = .ok (some e) ∧
      Turn c.schema (Dispatcher.eventOf h o mine e) c.objectAt? (c.perform call).1.objectAt?) ∨
    (c.perform call).2.toOption.join = none ∧ (c.perform call).1 = c := by
  cases hkey : c.schema.keyOf call.object with
  | error e =>
    -- Without a key the call fails.
    rw [perform_of_keyOf_error hkey]
    exact .inr ⟨rfl, rfl⟩
  | ok key =>
    cases hkind : call.removal with
    | false =>
      -- A write creates the entry or updates it, and gives it back either way.
      rw [perform_write hkind hkey]
      refine .inl ⟨_, rfl, ?_⟩
      have hnow : ∀ e k, objectAt? { c with entries := c.entries.insert key e } k =
          if k = key then some e.object else c.objectAt? k := by
        intro e k
        unfold objectAt? find?
        rw [KeyedList.find?_insert]
        split <;> rfl
      cases hfind : c.find? key with
      | none =>
        have habsent : c.objectAt? key = none := by
          rw [objectAt?, hfind]
          rfl
        exact .create (keyOf_createdEntry hkey call.now) rfl habsent (hnow _)
      | some e =>
        exact .update (hc.writtenEntry hfind .update call.header call.object call.now) rfl
          (by simp [objectAt?, hfind]) (hnow _)
    | true =>
      cases hfind : c.find? key with
      | none =>
        -- What is not there cannot be removed.
        rw [perform_removal_of_none hkind hkey hfind]
        exact .inr ⟨rfl, rfl⟩
      | some e =>
        rw [perform_removal_of_some hkind hkey hfind]
        refine .inl ⟨_, rfl, .remove
          (hc.writtenEntry hfind .remove call.header call.object call.now) rfl
          (by simp [objectAt?, hfind]) fun k => ?_⟩
        unfold objectAt? find?
        rw [KeyedList.find?_erase]
        split <;> rfl

/-- A call leaves every entry under its own key. -/
theorem Keyed.perform (hc : c.Keyed) (call : CacheCall) : (c.perform call).1.Keyed := by
  intro key e he
  rw [schema_perform]
  rw [find?_perform] at he
  split at he
  · cases he
  · split at he
    · rename_i hinserts
      obtain rfl := Option.some.inj he
      have hkey := CacheCall.concerns_eq_true_iff.1 (Bool.and_eq_true _ _ ▸ hinserts).2
      cases hfind : c.find? key with
      | none => exact keyOf_createdEntry hkey _
      | some e => exact hc.writtenEntry hfind _ _ _ _
    · exact hc key e he

/-- What a new subscriber is told of a container. -/
def welcome (c : Container) (now : Instant) : List ObjectEvent :=
  (c.replay now).filterMap fun t => t.object?.map fun o => Dispatcher.replayEvent c t.header o now

/-- Telling of one entry after the other, as if each were being created. -/
theorem upToDate_replayOf {entries : List (ObjectKey × Entry)} {now : Instant}
    (hkeys : ∀ x ∈ entries, c.schema.keyOf x.2.object = .ok x.1)
    (hnodup : (entries.map (·.1)).Nodup) {objects : ObjectKey → Option Object}
    {events : List ObjectEvent} (h : UpToDate c.schema objects events)
    (hnew : ∀ x ∈ entries, objects x.1 = none) :
    UpToDate c.schema
      (fun key => ((KeyedList.lookup key entries).map (·.object)).or (objects key))
      (events ++ (c.replayOf now (entries.map (·.2))).filterMap fun t =>
        t.object?.map fun o => Dispatcher.replayEvent c t.header o now) := by
  induction entries generalizing objects events with
  | nil => simpa [replayOf, KeyedList.lookup] using h
  | cons x rest ih =>
    obtain ⟨hfirst, hrest⟩ := List.nodup_cons.1 (List.map_cons ▸ hnodup)
    -- The first entry is told of as a creation, since its key is not known yet.
    have hturn : Turn c.schema
        (Dispatcher.replayEvent c (c.replayHeader x.2 (rest.map (·.2)).length now) x.2.object now)
        objects (fun k => if k = x.1 then some x.2.object else objects k) :=
      .create (hkeys x List.mem_cons_self) rfl (hnew x List.mem_cons_self) fun _ => rfl
    have htold : ((c.replayOf now ((x :: rest).map (·.2))).filterMap fun t =>
          t.object?.map fun o => Dispatcher.replayEvent c t.header o now) =
        Dispatcher.replayEvent c (c.replayHeader x.2 (rest.map (·.2)).length now) x.2.object now ::
          (c.replayOf now (rest.map (·.2))).filterMap fun t =>
            t.object?.map fun o => Dispatcher.replayEvent c t.header o now := rfl
    have hlater := ih (fun y hy => hkeys y (List.mem_cons_of_mem _ hy)) hrest (h.turn hturn)
      fun y hy => ?_
    · rw [htold, List.append_cons]
      convert hlater using 1
      funext key
      by_cases hkey : key = x.1
      · -- The key is not bound again.
        have hnone : KeyedList.lookup key rest = none := by
          cases hlookup : KeyedList.lookup key rest with
          | none => rfl
          | some e =>
            have hmem := (KeyedList.lookup_eq_some_iff hrest).1 hlookup
            exact absurd (hkey ▸ List.mem_map_of_mem hmem) hfirst
        simp [KeyedList.lookup, hkey, hkey ▸ hnone]
      · simp [KeyedList.lookup, hkey]
    · have hne : y.1 ≠ x.1 := fun heq => hfirst (heq ▸ List.mem_map_of_mem hy)
      rw [if_neg hne]
      exact hnew y (List.mem_cons_of_mem _ hy)

/-- A new subscriber knows what there is. -/
theorem upToDate_welcome (hc : c.Keyed) (now : Instant) :
    UpToDate c.schema c.objectAt? (c.welcome now) := by
  have hkeys : ∀ x ∈ c.entries.toList, c.schema.keyOf x.2.object = .ok x.1 :=
    fun x hx => hc x.1 x.2 (KeyedList.find?_eq_some_iff.2 hx)
  have h : UpToDate c.schema
      (fun key => ((KeyedList.lookup key c.entries.toList).map (·.object)).or none)
      ([] ++ c.welcome now) :=
    upToDate_replayOf hkeys c.entries.nodup upToDate_nil fun _ _ => rfl
  simp only [Option.or_none, List.nil_append] at h
  exact h

end Container

/-! ## Dispatchers -/

/-- The call names its type by the one definition that goes with the name. -/
def DispatcherCall.Follows (types : String → StructSchema) : DispatcherCall → Prop
  | .apply schema h _ _ => h.typeName = schema.name ∧ types schema.name = schema
  | .subscribe schema => types schema.name = schema
  | .unsubscribe _ => True

namespace Dispatcher

variable {types : String → StructSchema} {d : Dispatcher} {call : DispatcherCall} {now : Instant}
variable {schema : StructSchema}

/-- The containers are of the types that go with their names and keep entries under their own
keys. -/
def Pooled (types : String → StructSchema) (d : Dispatcher) : Prop :=
  ∀ typeName c, d.pool.find? typeName = some c → c.schema = types typeName ∧ c.Keyed

theorem Pooled.getD (hd : d.Pooled types) (hschema : types schema.name = schema) :
    (d.pool.getD schema).schema = schema ∧ (d.pool.getD schema).Keyed := by
  unfold ContainerPool.getD
  cases hc : d.pool.find? schema.name with
  | none => exact ⟨rfl, Container.keyed_empty schema⟩
  | some c => exact ⟨(hd schema.name c hc).1.trans hschema, (hd schema.name c hc).2⟩

theorem Pooled.perform (hd : d.Pooled types) (hcall : call.Follows types) :
    (d.perform call now).Pooled types := by
  intro typeName c hc
  cases call with
  | apply schema h o mine =>
    rw [Dispatcher.perform, find?_apply] at hc
    split at hc
    · rename_i hboth
      obtain rfl := Option.some.inj hc
      obtain ⟨hschema, hkeyed⟩ := hd.getD hcall.2
      exact ⟨by rw [Container.schema_perform, hschema, hboth.2, hcall.2], hkeyed.perform _⟩
    · exact hd typeName c hc
  | subscribe schema => exact hd typeName c hc
  | unsubscribe id =>
    rw [Dispatcher.perform, (d.unsubscribe_keeps id).1] at hc
    exact hd typeName c hc

theorem Pooled.after (hd : d.Pooled types) {calls : List (DispatcherCall × Instant)}
    (hcalls : ∀ call ∈ calls, call.1.Follows types) : (d.after calls).Pooled types := by
  induction calls generalizing d with
  | nil => exact hd
  | cons call rest ih =>
    exact ih (hd.perform (hcalls call List.mem_cons_self)) fun c hc =>
      hcalls c (List.mem_cons_of_mem _ hc)

/-- What happens to an object is told under the name in its header. -/
theorem typeName_of_event? {h : Header} {o : Object} {mine : Bool} {e : ObjectEvent}
    (he : d.event? (.apply schema h o mine) now = some e) : e.typeName = h.typeName := by
  rw [event?, outcome_apply] at he
  by_cases hcached : schema.flags.cached = true
  · rw [if_pos hcached] at he
    cases hanswer : ((d.pool.getD schema).perform (callOf h o now)).2 with
    | error _ => simp [hanswer, Except.map, Except.toOption] at he
    | ok answer =>
      obtain ⟨entry, -, rfl⟩ : ∃ entry, answer = some entry ∧ eventOf h o mine entry = e := by
        simpa [hanswer, Except.map, Except.toOption] using he
      rfl
  · rw [if_neg hcached] at he
    obtain ⟨-, rfl⟩ : h.remove = false ∧ uncachedEvent h o mine now = e := by
      simpa [Except.toOption] using he
    rfl

/-- What a new subscription is told first is what there is of its type. -/
theorem Pooled.upToDate_replayEvents (hd : d.Pooled types) (hschema : types schema.name = schema)
    (now : Instant) :
    UpToDate schema (d.pool.getD schema).objectAt? (d.replayEvents schema.name now) := by
  obtain ⟨hsame, hkeyed⟩ := hd.getD hschema
  have hwelcome : d.replayEvents schema.name now = (d.pool.getD schema).welcome now := by
    unfold replayEvents ContainerPool.getD Container.welcome
    cases d.pool.find? schema.name <;> rfl
  have hmirrors := Container.upToDate_welcome hkeyed now
  rwa [hsame, ← hwelcome] at hmirrors

/-- What a new subscription is told first is of its type. -/
theorem Pooled.typeName_of_mem_replayEvents (hd : d.Pooled types)
    (hschema : types schema.name = schema) {e : ObjectEvent}
    (he : e ∈ d.replayEvents schema.name now) : e.typeName = schema.name := by
  unfold replayEvents at he
  split at he
  · cases he
  · rename_i c hc
    obtain ⟨t, ht, hevent⟩ := List.mem_filterMap.1 he
    obtain ⟨entry, -, left, rfl⟩ := Container.exists_of_mem_replayOf ht
    obtain rfl := Option.some.inj hevent
    exact congrArg StructSchema.name ((hd schema.name c hc).1.trans hschema)

/-- A call on a dispatcher tells the subscribers of a cached type what it did to the cache. -/
theorem upToDate_perform (hd : d.Pooled types) (hschema : types schema.name = schema)
    (hcached : schema.flags.cached = true) (hcall : call.Follows types)
    {events : List ObjectEvent} (h : UpToDate schema (d.pool.getD schema).objectAt? events) :
    UpToDate schema ((d.perform call now).pool.getD schema).objectAt?
      (events ++ (d.event? call now).toList.filter
        fun e => decide (some schema.name = some e.typeName)) := by
  cases call with
  | apply other header o mine =>
    have hpool : ((d.apply other header o mine now).value.1.pool.getD schema) =
        if other.flags.cached = true ∧ schema.name = other.name then
          ((d.pool.getD other).perform (callOf header o now)).1
        else d.pool.getD schema := by
      unfold ContainerPool.getD
      rw [find?_apply]
      split <;> rfl
    by_cases hname : schema.name = other.name
    · -- Of two types of one name there is only one.
      obtain rfl : schema = other := by rw [← hschema, hname, hcall.2]
      obtain ⟨hsame, hkeyed⟩ := hd.getD hschema
      rw [Dispatcher.perform, hpool, if_pos ⟨hcached, rfl⟩, event?, outcome_apply, if_pos hcached]
      rcases Container.turn_perform hkeyed (callOf header o now) header o mine with
        ⟨e, hanswer, hturn⟩ | ⟨hanswer, hkept⟩
      · have hwanted : (eventOf header o mine e).typeName = schema.name := hcall.1
        rw [hsame] at hturn
        simpa [hanswer, Except.map, Except.toOption, hwanted] using h.turn hturn
      · rw [hkept]
        cases hresult : ((d.pool.getD schema).perform (callOf header o now)).2 with
        | error e => simpa [Except.map, Except.toOption] using h
        | ok answer =>
          rw [hresult] at hanswer
          obtain rfl : answer = none := hanswer
          simpa [Except.map, Except.toOption] using h
    · -- An object of another type concerns other subscribers.
      have hnone : ((d.event? (.apply other header o mine) now).toList.filter
          fun e => decide (some schema.name = some e.typeName)) = [] := by
        refine List.filter_eq_nil_iff.2 fun e he => ?_
        have htype : e.typeName = other.name :=
          (typeName_of_event? (Option.mem_toList.1 he)).trans hcall.1
        simp [htype, hname]
      rw [Dispatcher.perform, hpool, if_neg fun hboth => hname hboth.2, hnone, List.append_nil]
      exact h
  | subscribe other => exact (List.append_nil events).symm ▸ h
  | unsubscribe id =>
    rw [Dispatcher.perform, (d.unsubscribe_keeps id).1]
    simpa [event?] using h

theorem upToDate_after (hd : d.Pooled types) (hschema : types schema.name = schema)
    (hcached : schema.flags.cached = true) {calls : List (DispatcherCall × Instant)}
    (hcalls : ∀ call ∈ calls, call.1.Follows types) {events : List ObjectEvent}
    (h : UpToDate schema (d.pool.getD schema).objectAt? events) :
    UpToDate schema ((d.after calls).pool.getD schema).objectAt?
      (events ++
        (d.eventsOf calls).filter fun e => decide (some schema.name = some e.typeName)) := by
  induction calls generalizing d events with
  | nil => simpa [eventsOf, after] using h
  | cons call rest ih =>
    have hfirst := hcalls call List.mem_cons_self
    have htold : UpToDate schema ((d.perform call.1 call.2).pool.getD schema).objectAt?
        (events ++ (d.event? call.1 call.2).toList.filter
          fun e => decide (some schema.name = some e.typeName)) :=
      upToDate_perform hd hschema hcached hfirst h
    have hlater := ih (hd.perform hfirst) (fun c hc => hcalls c (List.mem_cons_of_mem _ hc)) htold
    rw [eventsOf, List.filter_append, ← List.append_assoc]
    exact hlater

/-! ## Any run -/

/-- Whatever is applied, subscribed to and unsubscribed before and after a subscription begins, with
one definition for each type name, as long as it has not ended:

* it has been told of what there was of its type, and then of what happened to the objects of its
  type according to the answers, each once and in order, and of nothing of another type;
* if the type is cached, what it was told of one key are lives of objects, the last of them perhaps
  cut off, and the objects that it knows of are those that are cached;
* once it ends it is told of nothing more.

No subscription is told of an object that could not be applied, nor of the removal of one that is
not cached. -/
theorem subscriber_mirrors_cache (types : String → StructSchema)
    (before during : List (DispatcherCall × Instant)) (schema : StructSchema) (start : Instant)
    (hbefore : ∀ call ∈ before, call.1.Follows types) (hschema : types schema.name = schema)
    (hduring : ∀ call ∈ during, call.1.Follows types) {begun : Dispatcher} {id : SubscriptionId}
    (hbegun : (empty.after before).subscribe schema start = (begun, id))
    (hstays : ∀ call ∈ during, call.1 ≠ .unsubscribe id) :
    (empty.after before).heard id = [] ∧
    (begun.after during).heard id = (empty.after before).replayEvents schema.name start ++
      (begun.eventsOf during).filter (fun e => decide (e.typeName = schema.name)) ∧
    (∀ e ∈ (begun.after during).heard id, e.typeName = schema.name) ∧
    (schema.flags.cached = true → ∀ key,
      Operation.Lives (operationsOn schema key ((begun.after during).heard id)) ∧
      (mirror schema ((begun.after during).heard id)).find? key =
        ((begun.after during).pool.getD schema).objectAt? key) ∧
    (∀ later, (((begun.after during).unsubscribe id).1.after later).heard id =
      (begun.after during).heard id) ∧
    ∀ (d : Dispatcher) (other : StructSchema) (h : Header) (o : Object) (mine : Bool)
      (now : Instant),
      ((∃ e, (d.apply other h o mine now).value.2 = .error e) ∨
        h.remove = true ∧ (d.pool.getD other).findObject? o = none) →
      (d.apply other h o mine now).value.1.told = d.told := by
  have hnumbered : (empty.after before).Numbered := numbered_empty.after before
  have hpooled : (empty.after before).Pooled types :=
    Pooled.after (fun _ _ hc => by cases hc) hbefore
  have hpool : begun.pool = (empty.after before).pool :=
    (congrArg (fun r => r.1.pool) hbegun).symm
  have hlistens := hnumbered.listensTo schema start
  have hwelcome := hnumbered.heard_subscribe schema start
  have hunheard := hnumbered.heard_next
  rw [← show id = ⟨(empty.after before).nextSubscription⟩ from (congrArg Prod.snd hbegun).symm]
    at hunheard
  rw [hbegun] at hlistens hwelcome
  have hkept := hlistens.after during fun _ => hstays
  have hheard := hkept.2
  rw [hwelcome] at hheard
  refine ⟨hunheard, ?_, fun e he => ?_, fun hcached key => ?_, fun later => ?_,
    fun d => d.told_apply_of_nothing⟩
  · rw [hheard]
    simp only [Option.some.injEq, eq_comm]
  · rw [hheard] at he
    rcases List.mem_append.1 he with he | he
    · exact hpooled.typeName_of_mem_replayEvents hschema he
    · simpa [eq_comm] using (List.mem_filter.1 he).2
  · have hbegun' : begun.Pooled types := fun typeName c hc => hpooled typeName c (hpool ▸ hc)
    have hfirst := hpooled.upToDate_replayEvents hschema start
    rw [← hpool] at hfirst
    have hmirrors := upToDate_after hbegun' hschema hcached hduring hfirst
    rw [← hheard] at hmirrors
    exact ⟨(hmirrors.lived key).lives, hmirrors.known key⟩
  · have hended := (hkept.1.unsubscribe.after later fun h => absurd rfl h).2
    rw [hended, heard, (unsubscribe_keeps _ id).2.1, ← heard]
    simp

/-- The header with which a note is written or taken out. -/
def noteHeader (remove : Bool) : Header :=
  .forObject Broker.noteSchema Broker.noteSchema.allProperties remove default

/-- The first note is written. -/
def firstNote : List (DispatcherCall × Instant) :=
  [(.apply Broker.noteSchema (noteHeader false) (Broker.note 1 "welcome") true, default)]

/-- The first note is written again, another subscriber comes, a second note is written, the first
is taken out, and a third that is not there is to be taken out too. -/
def laterNotes : List (DispatcherCall × Instant) :=
  [(.apply Broker.noteSchema (noteHeader false) (Broker.note 1 "hello") true, default),
    (.subscribe Broker.noteSchema, default),
    (.apply Broker.noteSchema (noteHeader false) (Broker.note 2 "news") false, default),
    (.apply Broker.noteSchema (noteHeader true) (Broker.note 1 "") false, default),
    (.apply Broker.noteSchema (noteHeader true) (Broker.note 3 "") false, default)]

/-- A subscriber that comes after the first note sees its whole life, and in the end knows of the
second note only. -/
theorem mirror_of_notes : ∃ begun id,
    (empty.after firstNote).subscribe Broker.noteSchema default = (begun, id) ∧
    (∀ call ∈ laterNotes, call.1 ≠ .unsubscribe id) ∧
    operationsOn Broker.noteSchema [.uint 1] ((begun.after laterNotes).heard id) =
      [.create, .update, .remove] ∧
    (mirror Broker.noteSchema ((begun.after laterNotes).heard id)).find? [.uint 1] = none ∧
    (mirror Broker.noteSchema ((begun.after laterNotes).heard id)).find? [.uint 2] =
      some (Broker.note 2 "news") := by
  have hfirst : ∀ call ∈ firstNote, call.1.Follows fun _ => Broker.noteSchema := by
    simp [firstNote, DispatcherCall.Follows, noteHeader, Header.forObject]
  have hlater : ∀ call ∈ laterNotes, call.1.Follows fun _ => Broker.noteSchema := by
    simp [laterNotes, DispatcherCall.Follows, noteHeader, Header.forObject]
  obtain ⟨begun, id, hbegun⟩ : ∃ begun id,
    (empty.after firstNote).subscribe Broker.noteSchema default = (begun, id) := ⟨_, _, rfl⟩
  have hstays : ∀ call ∈ laterNotes, call.1 ≠ .unsubscribe id := by simp [laterNotes]
  obtain ⟨-, -, -, hmirror, -⟩ := subscriber_mirrors_cache (fun _ => Broker.noteSchema) firstNote
    laterNotes Broker.noteSchema default hfirst rfl hlater hbegun hstays
  refine ⟨begun, id, hbegun, hstays, ?_, ?_, ?_⟩
  · obtain ⟨rfl, rfl⟩ := Prod.mk.inj hbegun.symm
    rfl
  · rw [(hmirror rfl [.uint 1]).2]
    obtain ⟨rfl, rfl⟩ := Prod.mk.inj hbegun.symm
    rfl
  · rw [(hmirror rfl [.uint 2]).2]
    obtain ⟨rfl, rfl⟩ := Prod.mk.inj hbegun.symm
    rfl

end Dispatcher

end ObjectBus
