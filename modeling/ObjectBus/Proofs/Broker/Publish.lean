import ObjectBus.Broker.Frame
import ObjectBus.Proofs.Cache.Container
import ObjectBus.Proofs.Group

/-!
# What accepting an object changes

Accepting an object makes one call on the container of its type, if that is cached, and offers
the object once to each member of its group, unless the call failed. Nothing else changes but
what observers and local subscribers were told.

* `container?_dispatch`, `find?_dispatch`, `events_dispatch`: the three effects;
* `publishAsHost_cases`: publishing as the host is accepting under the host's own header;
* `value_replayTo`: a replay hands the cache to one peer.
-/

namespace ObjectBus

/-! ## Containers of types -/

namespace ContainerPool

variable (p : ContainerPool) (schema : StructSchema) (typeName : String) (c : Container)

@[simp]
theorem find?_put (name : String) :
    (p.put typeName c).find? name = if name = typeName then some c else p.find? name := by
  simp [put, find?]

@[simp]
theorem find?_touch :
    (p.touch schema).find? typeName =
      if typeName = schema.name then some (p.getD schema) else p.find? typeName := by
  simp [touch]

@[simp]
theorem getD_touch : (p.touch schema).getD schema = p.getD schema := by
  simp [getD]

end ContainerPool

namespace Dispatcher

variable (d : Dispatcher) (schema : StructSchema) (h : Header) (o : Object) (mine : Bool)
variable (now : Instant)

/-- The call by which an object is applied to the container of its type. -/
def callOf (h : Header) (o : Object) (now : Instant) : CacheCall := ⟨h.remove, h, o, now⟩

@[simp]
theorem pool_tell (e : ObjectEvent) : (d.tell e).value.pool = d.pool := by
  unfold tell
  split <;> rfl

/-- Applying an object of a cached type makes one call on its container, which may fail. -/
theorem find?_applyCached (typeName : String) :
    (d.applyCached schema h o mine now).1.pool.find? typeName =
      if typeName = schema.name then some ((d.pool.getD schema).perform (callOf h o now)).1
      else d.pool.find? typeName := by
  unfold applyCached Container.perform callOf
  by_cases hname : typeName = schema.name
  · subst hname
    cases h.remove with
    | false =>
      cases hinsert : (d.pool.getD schema).insert h o now <;> simp [hinsert]
    | true =>
      cases hremove : (d.pool.getD schema).remove h o now <;> simp [hremove]
  · cases h.remove with
    | false =>
      cases hinsert : (d.pool.getD schema).insert h o now <;> simp [hinsert, hname]
    | true =>
      cases hremove : (d.pool.getD schema).remove h o now <;> simp [hremove, hname]

/-- The answer of that call tells what happened. -/
theorem outcome_applyCached :
    (d.applyCached schema h o mine now).2 =
      ((d.pool.getD schema).perform (callOf h o now)).2.map
        (Option.map (eventOf h o mine)) := by
  unfold applyCached Container.perform callOf
  cases h.remove with
  | false =>
    cases hinsert : (d.pool.getD schema).insert h o now <;> simp [hinsert, Except.map]
  | true =>
    cases hremove : (d.pool.getD schema).remove h o now <;> simp [hremove, Except.map]

/-- Applying an object changes no container but that of its type, and that only if it is
cached. -/
theorem find?_apply (typeName : String) :
    (d.apply schema h o mine now).value.1.pool.find? typeName =
      if schema.flags.cached = true ∧ typeName = schema.name then
        some ((d.pool.getD schema).perform (callOf h o now)).1
      else d.pool.find? typeName := by
  unfold apply
  by_cases hcached : schema.flags.cached = true
  · have hpool := d.find?_applyCached schema h o mine now typeName
    simp only [hcached, if_true, true_and]
    rw [← hpool]
    split
    · rename_i happly
      simp [happly]
    · rename_i happly
      simp [happly]
    · rename_i happly
      simp [happly]
  · simp only [hcached, Bool.false_eq_true, if_false, false_and]
    split
    · rfl
    · simp

/-- What became of an object that was applied. -/
theorem outcome_apply :
    (d.apply schema h o mine now).value.2 =
      if schema.flags.cached then
        ((d.pool.getD schema).perform (callOf h o now)).2.map fun e =>
          ⟨true, e.map (eventOf h o mine)⟩
      else .ok ⟨false, if h.remove then none else some (uncachedEvent h o mine now)⟩ := by
  unfold apply
  by_cases hcached : schema.flags.cached = true
  · have houtcome := d.outcome_applyCached schema h o mine now
    simp only [hcached, if_true]
    cases hanswer : ((d.pool.getD schema).perform (callOf h o now)).2 with
    | error e =>
      rw [hanswer] at houtcome
      cases happly : d.applyCached schema h o mine now with
      | mk d' outcome =>
        rw [happly] at houtcome
        obtain rfl : outcome = .error e := houtcome
        rfl
    | ok answer =>
      rw [hanswer] at houtcome
      cases happly : d.applyCached schema h o mine now with
      | mk d' outcome =>
        rw [happly] at houtcome
        obtain rfl : outcome = .ok (answer.map (eventOf h o mine)) := houtcome
        cases answer <;> rfl
  · simp only [hcached, Bool.false_eq_true, if_false]
    split <;> rfl

end Dispatcher

/-! ## Accepting an object -/

namespace Broker

variable (b : Broker) (schema : StructSchema) (h : Header) (o : Object) (now : Instant)

/-- The container of a type, empty if there is none yet. -/
def cacheOf (b : Broker) (schema : StructSchema) : Container := b.dispatcher.pool.getD schema

/-- The entry of a type under a key. -/
def cachedAt? (b : Broker) (typeName : String) (key : ObjectKey) : Option Entry :=
  (b.container? typeName).bind (·.find? key)

/-- What becomes of an object that is applied. -/
def applied (b : Broker) (schema : StructSchema) (h : Header) (o : Object) (now : Instant) :
    Outcome Dispatched :=
  (b.dispatcher.apply schema h o h.isFromMyself now).value.2

/-- Whether an object can be applied, so that it is passed on. -/
def applies (b : Broker) (schema : StructSchema) (h : Header) (o : Object) (now : Instant) :
    Bool :=
  (b.applied schema h o now).toOption.isSome

/-- The events of accepting an object. -/
def eventsOf (b : Broker) (schema : StructSchema) (h : Header) (o : Object) (now : Instant) :
    List BrokerEvent :=
  match b.applied schema h o now with
  | .ok ⟨_, some e⟩ => [.object e]
  | _ => []

/-- The broker after accepting an object: the object is applied, and if that succeeds its
event is told and the object offered to its group. -/
theorem value_dispatch : (b.dispatch schema h o now).value.1 =
    { b with
      dispatcher := (b.dispatcher.apply schema h o h.isFromMyself now).value.1
      events := b.events ++ b.eventsOf schema h o now
      connections :=
        if b.applies schema h o now then
          (b.groups.deliver h.group (.ofObject h o) b.connections).value.1
        else b.connections } := by
  unfold dispatch eventsOf applies applied
  simp only [Noted.value_bind]
  cases happly : (b.dispatcher.apply schema h o h.isFromMyself now).value with
  | mk d outcome =>
    cases outcome with
    | error e => simp [Except.toOption]
    | ok dispatched =>
      obtain ⟨cached, event⟩ := dispatched
      cases event <;> simp [Except.toOption, fanout, emit]

/-- Accepting an object fails when it cannot be applied. -/
theorem outcome_dispatch : (b.dispatch schema h o now).value.2 =
    (b.applied schema h o now).map fun _ => () := by
  unfold dispatch applied
  simp only [Noted.value_bind]
  cases happly : (b.dispatcher.apply schema h o h.isFromMyself now).value with
  | mk d outcome => cases outcome <;> rfl

@[simp]
theorem registry_dispatch : (b.dispatch schema h o now).value.1.registry = b.registry := by
  rw [value_dispatch]

@[simp]
theorem groups_dispatch : (b.dispatch schema h o now).value.1.groups = b.groups := by
  rw [value_dispatch]

@[simp]
theorem cleanupTypes_dispatch :
    (b.dispatch schema h o now).value.1.cleanupTypes = b.cleanupTypes := by
  rw [value_dispatch]

theorem events_dispatch : (b.dispatch schema h o now).value.1.events =
    b.events ++ b.eventsOf schema h o now := by
  rw [value_dispatch]

/-- Accepting an object makes one call on the container of its type, if that is cached, and
leaves all other containers alone. -/
theorem container?_dispatch (typeName : String) :
    (b.dispatch schema h o now).value.1.container? typeName =
      if schema.flags.cached = true ∧ typeName = schema.name then
        some ((b.cacheOf schema).perform (Dispatcher.callOf h o now)).1
      else b.container? typeName := by
  rw [value_dispatch]
  exact b.dispatcher.find?_apply schema h o h.isFromMyself now typeName

theorem cacheOf_eq : b.cacheOf schema = (b.container? schema.name).getD (.empty schema) := rfl

/-- The container of the type is the one on which the call is made. -/
theorem cacheOf_dispatch (hcached : schema.flags.cached = true) :
    (b.dispatch schema h o now).value.1.cacheOf schema =
      ((b.cacheOf schema).perform (Dispatcher.callOf h o now)).1 := by
  rw [cacheOf_eq, container?_dispatch, if_pos ⟨hcached, rfl⟩]
  rfl

theorem cacheOf_dispatch_of_ne {other : StructSchema} (hne : other.name ≠ schema.name) :
    (b.dispatch schema h o now).value.1.cacheOf other = b.cacheOf other := by
  rw [cacheOf_eq, container?_dispatch, if_neg fun hboth => hne hboth.2, cacheOf_eq]

/-- An object that was applied is offered once to each member of its group. -/
theorem find?_dispatch (q : PeerId) :
    (b.dispatch schema h o now).value.1.connections.find? q =
      if b.applies schema h o now = true ∧ b.groups.hasMember h.group q = true then
        (b.connections.find? q).map (·.offered (.ofObject h o))
      else b.connections.find? q := by
  rw [value_dispatch]
  by_cases happlies : b.applies schema h o now = true
  · simp [happlies, GroupTable.find?_deliver]
  · simp [happlies]

/-- An object can be applied unless its type is cached and the call on its container fails. -/
theorem applies_eq_true_iff : b.applies schema h o now = true ↔
    (schema.flags.cached = true →
      ∃ answer, ((b.cacheOf schema).perform (Dispatcher.callOf h o now)).2 = .ok answer) := by
  unfold applies applied cacheOf
  rw [Dispatcher.outcome_apply]
  by_cases hcached : schema.flags.cached = true
  · simp only [hcached, if_true, forall_true_left]
    cases ((b.dispatcher.pool.getD schema).perform (Dispatcher.callOf h o now)).2 with
    | error e => simp [Except.map, Except.toOption]
    | ok answer => simp [Except.map, Except.toOption]
  · simp [hcached, Except.toOption]

/-! ## Publishing as the host -/

/-- Publishing as the host accepts the object under the host's own header, if its type is known
and the object conforms to it; otherwise nothing happens. -/
theorem publishAsHost_cases (included : Option PropertySet) (remove : Bool) :
    (∃ schema, b.registry.findStruct? o.typeName = some schema ∧ schema.validate o = .ok () ∧
      b.publishAsHost o included remove now =
        b.dispatch schema (hostHeader schema o included remove now) o now) ∨
    (b.publishAsHost o included remove now).value.1 = b := by
  unfold publishAsHost Registry.resolve
  cases hschema : b.registry.findStruct? o.typeName with
  | none => exact .inr rfl
  | some schema =>
    simp only
    cases hvalid : schema.validate o with
    | error e => exact .inr rfl
    | ok u => exact .inl ⟨schema, rfl, hvalid, rfl⟩

theorem value_publishOrNote (included : Option PropertySet) (remove : Bool) (failure : String)
    (fields : List (String × NoteValue)) :
    (b.publishOrNote o included remove failure fields now).value =
      (b.publishAsHost o included remove now).value.1 := by
  unfold publishOrNote
  simp only [Noted.value_bind]
  cases (b.publishAsHost o included remove now).value.2 <;> rfl

theorem value_retract (objects : List Object) (keys : PropertySet) (failure : String)
    (fields : List (String × NoteValue)) :
    (b.retract objects keys failure fields now).value =
      objects.foldl (fun b o => (b.publishAsHost o (some keys) true now).value.1) b := by
  unfold retract
  rw [Noted.value_foldlM]
  congr 1
  funext b o
  exact value_publishOrNote b o now (some keys) true failure fields

/-! ## Replaying a cache -/

/-- What a replay sends: the cached objects of a type and the mark of their end. -/
def replayFrames (b : Broker) (schema : StructSchema) (now : Instant) : List Transmission :=
  (b.cacheOf schema).replay now ++ [.ofControl (.endOfReplay schema.name) now]

/-- A replay hands these frames to one peer, one after the other, and changes nothing else. -/
theorem value_replayTo {peer : PeerId} {c : Connection}
    (hc : b.connections.find? peer = some c) :
    (b.replayTo peer schema now).value =
      ({ b with
          dispatcher := { b.dispatcher with pool := b.dispatcher.pool.touch schema } }
        |>.putConnection peer ((b.replayFrames schema now).foldl (fun c t => (c.send t).value) c),
        .ok ()) := by
  unfold replayTo replayFrames
  simp only [hc, Noted.value_bind, Noted.value_pure, Noted.value_foldlM,
    ContainerPool.getD_touch, List.foldl_append, List.foldl_cons, List.foldl_nil]
  rfl

end Broker

end ObjectBus
