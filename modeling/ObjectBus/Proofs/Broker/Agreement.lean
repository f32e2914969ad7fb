import ObjectBus.Proofs.Broker.Frames
import ObjectBus.Proofs.Broker.Outcomes

/-!
# Host and guests publish alike

What the host publishes and what a guest sends take two ways to the cache of their type. The host
takes the properties that it includes as they are; of a guest's header only declared tags count, and
a header that includes nothing at all stands for everything that is set. Both ways come to the same
for an object that conforms, whatever is cached: they leave the same objects under the same keys,
with the same event.

* `StructSchema.meantBy`: what the host has to include to say what a guest's header says;
* `Header.Alike`, `Entry.Alike`, `ObjectEvent.Alike`: the same but for who wrote, and when;
* `Container.perform_alike`, `applied_alike`: a container does the same under such headers;
* `HasNews`, `eventsOf_ne_nil_iff`: when there is something to tell observers;
* `Alike`, `Reachable.host_agrees_with_guest`: and so does the broker.
-/

namespace ObjectBus

variable {schema : StructSchema} {o : Object} {h h' : Header} {now now' : Instant} {tag : Tag}

namespace StructSchema

/-- What the host has to include to say what a guest's header says that includes some properties
and the key. If that is nothing the header stands for all that are set. -/
def meantBy (schema : StructSchema) (included : PropertySet) : Option PropertySet :=
  if (included ∪ schema.keyProperties).isEmpty then none else some included

/-- Under a tag that the type does not declare a conforming object has no property. -/
theorem get?_of_undeclared (hvalid : schema.validate o = .ok ()) (hrange : PropertySet.InRange tag)
    (hnot : schema.allProperties.contains tag = false) : o.get? tag = none := by
  by_contra hset
  obtain ⟨p, hp, htag⟩ := exists_property_of_validate hvalid hset
  have hdeclared := contains_allProperties_iff.2 ⟨hrange, p, hp, htag⟩
  rw [hnot] at hdeclared
  cases hdeclared

end StructSchema

/-! ## Headers -/

/-- Two headers say the same of an object of a type, apart from who sent it and when, except that
the second one includes declared properties only. -/
def Header.Alike (schema : StructSchema) (h h' : Header) : Prop :=
  h' = { h with
    sender := h'.sender
    sentTime := h'.sentTime
    serverSentTime := h'.serverSentTime
    isFromMyself := h'.isFromMyself
    attributes := h.attributes ∩ schema.allProperties }

namespace Header.Alike

theorem remove (hh : h.Alike schema h') : h'.remove = h.remove := by rw [hh]

theorem attributes (hh : h.Alike schema h') :
    h'.attributes = h.attributes ∩ schema.allProperties := by rw [hh]

/-- A tag that only the first header includes is not declared, and so no conforming object has a
property under it. It makes no difference which header decides whether the property comes from one
such object or from another. -/
theorem get?_included {o' : Object} (hh : h.Alike schema h') (hvalid : schema.validate o = .ok ())
    (hvalid' : schema.validate o' = .ok ()) (tag : Tag) :
    (if h'.attributes.contains tag then o.get? tag else o'.get? tag) =
      if h.attributes.contains tag then o.get? tag else o'.get? tag := by
  rw [hh.attributes, PropertySet.contains_inter]
  cases htag : h.attributes.contains tag with
  | false => rfl
  | true =>
    -- The headers differ in undeclared tags only, and there neither object has anything.
    cases hdeclared : schema.allProperties.contains tag with
    | true => rfl
    | false =>
      have hrange := PropertySet.inRange_of_contains htag
      rw [StructSchema.get?_of_undeclared hvalid hrange hdeclared,
        StructSchema.get?_of_undeclared hvalid' hrange hdeclared]
      rfl

end Header.Alike

/-- The properties that a guest's object is taken to include are those that the host means by the
same, as far as they are declared. -/
theorem Broker.acceptedAttributes_eq (schema : StructSchema) (o : Object) (included : PropertySet)
    (hh : h.attributes = included ∪ schema.keyProperties) (remove : Bool) (now : Instant) :
    acceptedAttributes schema h o =
      (hostHeader schema o (schema.meantBy included) remove now).attributes ∩
        schema.allProperties := by
  refine PropertySet.ext_contains fun tag => ?_
  have hkeys : schema.keyProperties.contains tag = true →
      schema.allProperties.contains tag = true := StructSchema.contains_allProperties_of_key
  have hattributes : (hostHeader schema o (schema.meantBy included) remove now).attributes =
      (schema.meantBy included).getD (schema.validProperties o) ∪ schema.keyProperties := rfl
  unfold acceptedAttributes
  rw [hattributes, hh]
  unfold StructSchema.meantBy
  -- The key is declared, so that it makes no difference when it is added.
  split
  · rw [Option.getD_none, StructSchema.validProperties]
    simp only [PropertySet.contains_union, PropertySet.contains_inter]
    cases hkey : schema.keyProperties.contains tag <;> simp_all
  · rw [Option.getD_some]
    simp only [PropertySet.contains_union, PropertySet.contains_inter]
    cases hkey : schema.keyProperties.contains tag <;> simp_all

/-! ## Containers -/

/-- Two entries hold the same object after the same operation. -/
structure Entry.Alike (e e' : Entry) : Prop where
  /-- The objects are the same. -/
  object : e'.object = e.object
  /-- So are the operations. -/
  operation : e'.provenance.lastOperation = e.provenance.lastOperation

namespace Container

variable {c : Container} {e : Entry}

/-- What a write creates does not depend on undeclared tags. -/
theorem createdEntry_alike (hh : h.Alike c.schema h') (hvalid : c.schema.validate o = .ok ()) :
    (c.createdEntry h o now).Alike (c.createdEntry h' o now') := by
  have hempty : c.schema.validate (.empty c.schema.name) = .ok () :=
    StructSchema.validate_eq_ok_iff.2 ⟨rfl, fun tag value hvalue => by cases hvalue⟩
  refine ⟨Object.ext_get? rfl fun tag => ?_, rfl⟩
  -- Creating restricts the object, which is to take the rest from one that has no properties.
  show (o.restrict _).get? tag = (o.restrict _).get? tag
  simp only [Object.get?_restrict, PropertySet.contains_union]
  cases c.schema.keyProperties.contains tag with
  | true => simp
  | false =>
    simp only [Bool.or_false]
    exact hh.get?_included hvalid hempty tag

/-- Neither does what a write leaves of an entry: to merge an undeclared tag would be to take away
a property that is not there. -/
theorem writtenEntry_alike (hh : h.Alike c.schema h') (hvalid : c.schema.validate o = .ok ())
    (he : c.schema.validate e.object = .ok ()) (operation : Operation) :
    (c.writtenEntry e operation h o now).Alike (c.writtenEntry e operation h' o now') := by
  refine ⟨Object.ext_get? ?_ fun tag => ?_, rfl⟩
  · show (e.object.merge _ _).typeName = (e.object.merge _ _).typeName
    rw [Object.typeName_merge, Object.typeName_merge]
  · show (e.object.merge _ _).get? tag = (e.object.merge _ _).get? tag
    simp only [Object.get?_merge, PropertySet.contains_diff]
    cases c.schema.keyProperties.contains tag with
    | true => simp
    | false =>
      simp only [Bool.not_false, Bool.and_true]
      exact hh.get?_included hvalid he tag

/-- So it is for a write, whatever it finds. -/
theorem afterWrite_alike (hh : h.Alike c.schema h') (hc : c.Valid)
    (hvalid : c.schema.validate o = .ok ()) (key : ObjectKey) :
    (c.afterWrite (Dispatcher.callOf h o now) (c.find? key)).Alike
      (c.afterWrite (Dispatcher.callOf h' o now') (c.find? key)) := by
  cases hfind : c.find? key with
  | none => exact createdEntry_alike hh hvalid
  | some e => exact writtenEntry_alike hh hvalid (hc key e hfind).1 .update

/-- A container does the same with an object under headers that are alike: it refuses it for the
same violation, or it gives entries back that are alike, and leaves the same objects. -/
theorem perform_alike (hh : h.Alike c.schema h') (hc : c.Valid)
    (hvalid : c.schema.validate o = .ok ()) (now now' : Instant) :
    ((∃ violation,
        (c.perform (Dispatcher.callOf h o now)).2 = .error (.protocol violation) ∧
        (c.perform (Dispatcher.callOf h' o now')).2 = .error (.protocol violation)) ∨
      ∃ entry entry', (c.perform (Dispatcher.callOf h o now)).2 = .ok entry ∧
        (c.perform (Dispatcher.callOf h' o now')).2 = .ok entry' ∧
        Option.Rel Entry.Alike entry entry') ∧
    ∀ key, ((c.perform (Dispatcher.callOf h' o now')).1.find? key).map (·.object) =
      ((c.perform (Dispatcher.callOf h o now)).1.find? key).map (·.object) := by
  constructor
  · -- The key comes first. Then a write always succeeds, and a removal does if there is an entry.
    cases hkey : c.schema.keyOf o with
    | error failure =>
      -- Whether the key is there does not depend on the header.
      obtain ⟨tag, -, -, rfl⟩ := StructSchema.exists_missing_of_keyOf_eq_error hkey
      exact .inl ⟨_, by rw [perform_of_keyOf_error hkey], by rw [perform_of_keyOf_error hkey]⟩
    | ok key =>
      refine .inr ?_
      cases hremove : h.remove with
      | false =>
        have hremove' : h'.remove = false := hh.remove.trans hremove
        refine ⟨_, _, by rw [perform_write hremove hkey], by rw [perform_write hremove' hkey], ?_⟩
        exact .some (afterWrite_alike hh hc hvalid key)
      | true =>
        have hremove' : h'.remove = true := hh.remove.trans hremove
        cases hfind : c.find? key with
        | none =>
          exact ⟨none, none, by rw [perform_removal_of_none hremove hkey hfind],
            by rw [perform_removal_of_none hremove' hkey hfind], .none⟩
        | some e =>
          refine ⟨_, _, by rw [perform_removal_of_some hremove hkey hfind],
            by rw [perform_removal_of_some hremove' hkey hfind], ?_⟩
          exact .some (writtenEntry_alike hh hvalid (hc key e hfind).1 .remove)
  · intro key
    have hremoval : (Dispatcher.callOf h' o now').removal = (Dispatcher.callOf h o now).removal :=
      hh.remove
    have hconcerns : (Dispatcher.callOf h' o now').concerns c.schema key =
      (Dispatcher.callOf h o now).concerns c.schema key := rfl
    rw [find?_perform_of_concerns, find?_perform_of_concerns, hremoval, hconcerns]
    split
    · split
      · rfl
      · exact congrArg some (afterWrite_alike hh hc hvalid key).object
    · rfl

end Container

/-! ## Events -/

/-- Two events tell the same of an object of a type, apart from who sent it and when. -/
structure ObjectEvent.Alike (schema : StructSchema) (e e' : ObjectEvent) : Prop where
  /-- The headers are alike. -/
  header : e.header.Alike schema e'.header
  /-- The operations are the same. -/
  operation : e'.operation = e.operation
  /-- So are the objects. -/
  object : e'.object = e.object
  /-- They came as the same. -/
  transmitted : e'.transmitted = e.transmitted

namespace Broker

variable {b : Broker} {peer : PeerId} {c : Connection}

/-- The event of accepting an object, if there is one. -/
theorem eventsOf_of_applied {cached : Bool} {event : Option ObjectEvent}
    (happlied : b.applied schema h o now = .ok ⟨cached, event⟩) :
    b.eventsOf schema h o now = event.toList.map .object := by
  unfold eventsOf
  rw [happlied]
  cases event <;> rfl

/-- There is something to tell when an object of a type is published: a write succeeds, or an object
is removed that was cached. -/
def HasNews (b : Broker) (schema : StructSchema) (o : Object) : Bool → Prop
  | false => schema.flags.cached = true → ∃ key, schema.keyOf o = .ok key
  | true => ∃ key, schema.keyOf o = .ok key ∧ b.cachedAt? schema.name key ≠ none

/-- Observers are told of accepting an object exactly if there is something to tell. -/
theorem eventsOf_ne_nil_iff (hb : b.Sound) (hs : b.registry.findStruct? schema.name = some schema)
    (h : Header) (o : Object) (now : Instant) :
    b.eventsOf schema h o now ≠ [] ↔ b.HasNews schema o h.remove := by
  by_cases hcached : schema.flags.cached = true
  · obtain ⟨hschema, -⟩ := hb.cacheOf hs
    rw [eventsOf_of_cached hcached]
    cases hkey : schema.keyOf o with
    | error failure =>
      rw [Container.perform_of_keyOf_error (hschema.symm ▸ hkey)]
      cases h.remove <;> simp [HasNews, hcached, hkey]
    | ok key =>
      have hkey' : (b.cacheOf schema).schema.keyOf o = .ok key := hschema.symm ▸ hkey
      cases hremove : h.remove with
      | false =>
        rw [Container.perform_write hremove hkey']
        simp [HasNews, hkey]
      | true =>
        have hplace := b.find?_cacheOf schema key
        cases hfind : (b.cacheOf schema).find? key with
        | none =>
          rw [Container.perform_removal_of_none hremove hkey' hfind]
          simp [HasNews, hkey, ← hplace, hfind]
        | some e =>
          rw [Container.perform_removal_of_some hremove hkey' hfind]
          simp [HasNews, hkey, ← hplace, hfind]
  · rw [eventsOf_of_uncached hcached]
    cases h.remove with
    | false => simp [HasNews, hcached]
    | true =>
      -- Nothing is cached of the type that could be removed.
      have hnone : ∀ key, b.cachedAt? schema.name key = none := by
        intro key
        rw [cachedAt?]
        cases hc : b.container? schema.name with
        | none => rfl
        | some c =>
          obtain ⟨hfound, hflag⟩ := hb.schemas schema.name c hc
          obtain rfl := Option.some.inj (hs.symm.trans hfound)
          exact absurd hflag hcached
      simp [HasNews, hnone]

/-- An object is applied with the same outcome under headers that are alike. -/
theorem applied_alike (hb : b.Sound) (hs : b.registry.findStruct? schema.name = some schema)
    (hh : h.Alike schema h') (hvalid : schema.validate o = .ok ()) (now now' : Instant) :
    (∃ violation, b.applied schema h o now = .error (.protocol violation) ∧
      b.applied schema h' o now' = .error (.protocol violation)) ∨
    ∃ cached event event', b.applied schema h o now = .ok ⟨cached, event⟩ ∧
      b.applied schema h' o now' = .ok ⟨cached, event'⟩ ∧
      Option.Rel (ObjectEvent.Alike schema) event event' := by
  obtain ⟨hschema, hcache⟩ := hb.cacheOf hs
  -- Whether the object is cached is a matter of its type.
  unfold applied
  rw [Dispatcher.outcome_apply, Dispatcher.outcome_apply]
  by_cases hcached : schema.flags.cached = true
  · simp only [hcached, if_true]
    have halike := (Container.perform_alike (c := b.cacheOf schema) (hschema.symm ▸ hh) hcache
      (hschema.symm ▸ hvalid) now now').1
    rcases halike with ⟨violation, hfails, hfails'⟩ | ⟨entry, entry', hok, hok', hentries⟩
    · unfold cacheOf at hfails hfails'
      exact .inl ⟨violation, by rw [hfails]; rfl, by rw [hfails']; rfl⟩
    · unfold cacheOf at hok hok'
      refine .inr ⟨true, _, _, by rw [hok]; rfl, by rw [hok']; rfl, ?_⟩
      cases hentries with
      | none => exact .none
      | some he => exact .some ⟨hh, he.operation, he.object, rfl⟩
  · -- Of an object that is not cached observers are told as it came.
    simp only [hcached, hh.remove]
    refine .inr ⟨false, _, _, rfl, rfl, ?_⟩
    split
    · exact .none
    · exact .some ⟨hh, rfl, rfl, rfl⟩

/-- What two brokers have made of the same object in the same state comes to the same. -/
structure Alike (schema : StructSchema) (before hosted heard : Broker) : Prop where
  /-- The same objects are cached under the same keys. -/
  cached : ∀ typeName key, heard.cached? typeName key = hosted.cached? typeName key
  /-- The containers of all other types are as they were. -/
  others : ∀ typeName, typeName ≠ schema.name →
    hosted.container? typeName = before.container? typeName ∧
      heard.container? typeName = before.container? typeName
  /-- Observers are told the same, of one event at most. -/
  events : ∃ event event' : Option ObjectEvent,
    hosted.events = before.events ++ event.toList.map .object ∧
    heard.events = before.events ++ event'.toList.map .object ∧
    Option.Rel (ObjectEvent.Alike schema) event event'

/-- Accepting an object comes to the same under headers that are alike. -/
theorem alike_dispatch (hb : b.Sound) (hs : b.registry.findStruct? schema.name = some schema)
    (hh : h.Alike schema h') (hvalid : schema.validate o = .ok ()) (now now' : Instant) :
    Alike schema b (b.dispatch schema h o now).value.1 (b.dispatch schema h' o now').value.1 ∧
    ((b.dispatch schema h o now).value.2 = .ok () ∧
        (b.dispatch schema h' o now').value.2 = .ok () ∨
      ∃ violation, (b.dispatch schema h o now).value.2 = .error (.protocol violation) ∧
        (b.dispatch schema h' o now').value.2 = .error (.protocol violation)) := by
  obtain ⟨hschema, hcache⟩ := hb.cacheOf hs
  have happlied := applied_alike hb hs hh hvalid now now'
  refine ⟨⟨fun typeName key => ?_, fun typeName hother => ?_, ?_⟩, ?_⟩
  · -- The container of the type is the only one that is touched, and it does the same.
    have hobjects := (Container.perform_alike (c := b.cacheOf schema) (hschema.symm ▸ hh) hcache
      (hschema.symm ▸ hvalid) now now').2 key
    unfold cached? cachedAt?
    rw [container?_dispatch, container?_dispatch]
    split
    · exact hobjects
    · rfl
  · have hnot : ¬(schema.flags.cached = true ∧ typeName = schema.name) :=
      fun hboth => hother hboth.2
    rw [container?_dispatch, container?_dispatch, if_neg hnot, if_neg hnot]
    exact ⟨rfl, rfl⟩
  · rw [events_dispatch, events_dispatch]
    rcases happlied with ⟨violation, hfails, hfails'⟩ | ⟨cached, event, event', hok, hok', hevents⟩
    · exact ⟨none, none, by rw [eventsOf, hfails]; rfl, by rw [eventsOf, hfails']; rfl, .none⟩
    · exact ⟨event, event', by rw [eventsOf_of_applied hok], by rw [eventsOf_of_applied hok'],
        hevents⟩
  · rw [outcome_dispatch, outcome_dispatch]
    rcases happlied with ⟨violation, hfails, hfails'⟩ | ⟨cached, event, event', hok, hok', -⟩
    · exact .inr ⟨violation, by rw [hfails]; rfl, by rw [hfails']; rfl⟩
    · exact .inl ⟨by rw [hok]; rfl, by rw [hok']; rfl⟩

/-- Nothing else about a broker matters. -/
theorem Alike.congr {hosted heard heard' : Broker} (halike : Alike schema b hosted heard)
    (hdispatcher : heard'.dispatcher = heard.dispatcher) (hevents : heard'.events = heard.events) :
    Alike schema b hosted heard' := by
  have hcontainers : ∀ typeName, heard'.container? typeName = heard.container? typeName := by
    intro typeName
    rw [container?, container?, hdispatcher]
  refine ⟨fun typeName key => ?_, fun typeName hother => ?_, ?_⟩
  · rw [cached?, cachedAt?, hcontainers]
    exact halike.cached typeName key
  · rw [hcontainers]
    exact halike.others typeName hother
  · rw [hevents]
    exact halike.events

/-! ## The two ways -/

/-- The header for publishing an object is in the namespace of its type. -/
theorem isControl_forObject (schema : StructSchema) (included : PropertySet) (remove : Bool)
    (sent : Instant) :
    (Header.forObject schema included remove sent).isControl = schema.flags.internal := by
  unfold Header.isControl Header.forObject
  cases schema.flags.internal <;> simp

/-- The frame with which a guest publishes an object. -/
def publicationFrame (schema : StructSchema) (included : PropertySet) (remove : Bool)
    (sent : Instant) (o : Object) : Transmission :=
  .ofObject (Header.forObject schema included remove sent) o

/-- The header under which such an object is passed on. -/
def heardHeader (c : Connection) (schema : StructSchema) (included : PropertySet) (remove : Bool)
    (sent : Instant) (o : Object) (now : Instant) : Header :=
  { c.stamp (Header.forObject schema included remove sent) now with
    attributes := acceptedAttributes schema
      (c.stamp (Header.forObject schema included remove sent) now) o }

/-- It is like that under which the host would publish the object. -/
theorem hostHeader_alike (c : Connection) (schema : StructSchema) (included : PropertySet)
    (remove : Bool) (sent : Instant) (o : Object) (now now' : Instant) :
    (hostHeader schema o (schema.meantBy included) remove now).Alike schema
      (heardHeader c schema included remove sent o now') := by
  have hattributes : acceptedAttributes schema
      (c.stamp (Header.forObject schema included remove sent) now') o =
      (hostHeader schema o (schema.meantBy included) remove now).attributes ∩
        schema.allProperties := acceptedAttributes_eq schema o included rfl remove now
  unfold Header.Alike heardHeader
  rw [hattributes]
  rfl

/-- A guest that takes part has its object accepted if the type is not one that only the host
writes. -/
theorem receive_publicationFrame (hs : b.registry.findStruct? schema.name = some schema)
    (hordinary : isHostRecord schema.name = false) (hvalid : schema.validate o = .ok ())
    (hstate : c.state = .connected) (included : PropertySet) (remove : Bool)
    (sent now : Instant) :
    (c.receive (publicationFrame schema included remove sent o) now).value =
        (c, .object (c.stamp (Header.forObject schema included remove sent) now) o) ∧
      b.acceptObject (c.stamp (Header.forObject schema included remove sent) now) o now =
        b.dispatch schema (heardHeader c schema included remove sent o now) o now := by
  have hopen : c.isClosed = false := by rw [Connection.isClosed, hstate]; rfl
  -- The connection admits ordinary objects in either namespace.
  have htype : o.typeName = schema.name := (StructSchema.validate_eq_ok_iff.1 hvalid).1
  have hadmits : c.Admits (Header.forObject schema included remove sent) o := by
    unfold Connection.Admits
    rw [htype]
    split
    · exact ⟨hordinary, .inr hstate⟩
    · exact hstate
  -- The broker knows the type, finds it in the namespace it belongs to and the object conforming.
  have hresolve : b.registry.resolve
      (c.stamp (Header.forObject schema included remove sent) now).typeName = .ok schema := by
    show b.registry.resolve schema.name = .ok schema
    rw [Registry.resolve, hs]
  have hspace : (c.stamp (Header.forObject schema included remove sent) now).isControl =
      schema.flags.internal := isControl_forObject schema included remove sent
  refine ⟨Connection.receive_of_admits hopen rfl hadmits, ?_⟩
  unfold acceptObject
  simp only [hresolve, hspace, ne_eq, not_true_eq_false, if_false, hvalid]
  rfl

/-- Reporting how an operation has ended leaves caches and events alone. -/
theorem settle_same (peer : PeerId) (now : Instant) (r : Broker × Outcome Unit) :
    (settle peer now r).value.dispatcher = r.1.dispatcher ∧
      (settle peer now r).value.events = r.1.events := by
  unfold settle
  split
  · exact ⟨rfl, rfl⟩
  · unfold report
    split
    · exact ⟨rfl, rfl⟩
    · split <;> exact ⟨rfl, rfl⟩

/-- Being told of a violation closes no connection. -/
theorem persists_settle {q : PeerId} {r : Broker × Outcome Unit}
    (hr : r.2 = .ok () ∨ ∃ violation, r.2 = .error (.protocol violation)) :
    Persists q r.1 (settle peer now r).value := by
  obtain ⟨s, outcome⟩ := r
  rcases hr with rfl | ⟨violation, rfl⟩
  · exact .refl q s
  · show Persists q s (s.report peer (.protocol violation) now).value
    unfold report
    cases hc : s.connections.find? peer with
    | none => exact .refl q s
    | some c => exact persists_putConnection hc (c.persists_send _)

/-- The rest of a call that has accepted an object: if no channel of a guest refuses anything in
the whole call nothing else happens, and otherwise what happens comes from guests that part. -/
structure Concludes (now : Instant) (before accepted after : Broker) : Prop where
  /-- What comes from guests that part. -/
  partings : Partings now accepted after
  /-- What happens if none does. -/
  unfailing : (∀ q ∈ before.connections.keys, before.Unfailing after q) → after = accepted

/-- So it is if what accepted the object only served connections and the broker drains then. -/
theorem concludes_drain {call : BrokerCall} {s : Broker} (hb : b.Reachable)
    (hsteps : Steps call now b s) (hserves : ∀ q, Serves q b s) (hpersists : ∀ q, Persists q b s) :
    Concludes now b s (s.drain now).value :=
  ⟨hb.partings_after hsteps hserves,
    fun hunfailing => (drain_of_unfailing hb.rested hserves hpersists hunfailing).2⟩

/-- The host gets the outcome of accepting its object. -/
theorem outcome_publish (b : Broker) (o : Object) (included : Option PropertySet) (remove : Bool)
    (now : Instant) :
    (b.publish o included remove now).value.2 =
      (b.publishAsHost o included remove now).value.2 := by
  unfold publish
  simp only [Noted.value_bind]
  split
  · rename_i hfails
    exact hfails.symm
  · rename_i hok
    exact hok.symm

/-- The call with which the host publishes an object concludes what accepting it began. -/
theorem concludes_publish (hb : b.Reachable) (included : Option PropertySet) (remove : Bool)
    (now : Instant) : Concludes now b (b.publishAsHost o included remove now).value.1
      (b.perform (.publish o included remove) now) := by
  have hsteps : ∀ call, Steps call now b (b.publishAsHost o included remove now).value.1 :=
    fun call => steps_publishAsHost b o included remove
  show Concludes now b _ (b.publish o included remove now).value.1
  rcases b.publish_cases o included remove now with ⟨s, hs, heq⟩ | heq
  · rw [heq]
    cases hs with
    | publish hok =>
      exact concludes_drain hb (hsteps .sweep) (serves_of_steps (hsteps _)) fun q =>
        (keptByObjects_persists q).publishAsHost b o included remove now
  · rw [heq]
    exact ⟨.refl now _, fun _ => rfl⟩

/-- So does the call in which a guest sends one. -/
theorem concludes_receive (hb : b.Reachable) (hc : b.connections.find? peer = some c)
    {f : Transmission} {header : Header} (hreceived : (c.receive f now).value.2 = .object header o)
    (houtcome : (b.acceptObject header o now).value.2 = .ok () ∨
      ∃ violation, (b.acceptObject header o now).value.2 = .error (.protocol violation))
    (hpersists : ∀ q, Persists q b (b.acceptObject header o now).value.1) :
    b.heeding peer c f now = (settle peer now (b.acceptObject header o now).value).value ∧
      Concludes now b (b.heeding peer c f now) (b.perform (.receive peer f) now) := by
  obtain ⟨hsame, hpayload, -⟩ := Connection.receive_eq_object hreceived
  have hheeding : b.heeding peer c f now =
      (settle peer now (b.acceptObject header o now).value).value := by
    unfold heeding
    rw [hsame, putConnection_self hc, hreceived]
    rfl
  have hsteps : Steps (.receive peer f) now b (b.heeding peer c f now) := by
    rw [hheeding]
    exact (steps_acceptObject rfl hc hreceived).trans (steps_settle peer _)
  -- Hearing the guest does nothing with its connection.
  have hhear : ∀ q t, BrokerCall.receive peer f = .receive q t →
      ∀ c : Connection, (c.receive t now).value.1 = c := by
    rintro q t heq d
    obtain ⟨-, rfl⟩ := BrokerCall.receive.inj heq
    exact Connection.receive_fst_of_object hpayload d
  refine ⟨hheeding, ?_⟩
  rw [perform_receive_of_open hc]
  refine concludes_drain hb hsteps (fun q => hsteps.serves rfl (hhear q)) fun q => ?_
  rw [hheeding]
  exact (hpersists q).trans (persists_settle houtcome)

/-- Whether the host publishes an object or a guest that takes part sends it, the same is cached and
observers are told the same, except for the sender, the times and what the host includes without its
being declared. They are told of a write if it succeeds, and of a removal if there was something to
remove. What a guest's header means that includes nothing the host has to spell out. The host gets
the error of which the guest would be told. -/
theorem Reachable.host_agrees_with_guest (hb : b.Reachable)
    (hs : b.registry.findStruct? schema.name = some schema)
    (hordinary : schema.name ≠ peerStateType ∧ schema.name ≠ typeAnnounceType)
    (hvalid : schema.validate o = .ok ()) (hc : b.connections.find? peer = some c)
    (hstate : c.state = .connected) (included : PropertySet) (remove : Bool)
    (sent now now' : Instant) :
    let hosted := (b.publishAsHost o (schema.meantBy included) remove now).value.1
    let heard := b.heeding peer c (publicationFrame schema included remove sent o) now'
    Alike schema b hosted heard ∧ (b.newEvents hosted ≠ [] ↔ b.HasNews schema o remove) ∧
      Concludes now b hosted (b.perform (.publish o (schema.meantBy included) remove) now) ∧
      Concludes now' b heard
        (b.perform (.receive peer (publicationFrame schema included remove sent o)) now') ∧
      failure? (b.publish o (schema.meantBy included) remove now).value.2 =
        b.complaint? peer c (publicationFrame schema included remove sent o) now' := by
  intro hosted heard
  let header := c.stamp (Header.forObject schema included remove sent) now'
  have hrecord : isHostRecord schema.name = false := by simp [isHostRecord, hordinary]
  have htype : o.typeName = schema.name := (StructSchema.validate_eq_ok_iff.1 hvalid).1
  obtain ⟨hreceive, haccept⟩ :=
    receive_publicationFrame hs hrecord hvalid hstate included remove sent now'
  have hreceived := congrArg Prod.snd hreceive
  -- Both ways lead to accepting the object, under headers that are alike.
  have hpublish : b.publishAsHost o (schema.meantBy included) remove now =
      b.dispatch schema (hostHeader schema o (schema.meantBy included) remove now) o now := by
    unfold publishAsHost Registry.resolve
    simp only [htype, hs, hvalid]
  obtain ⟨halike, houtcome⟩ := alike_dispatch hb.sound hs
    (hostHeader_alike c schema included remove sent o now now') hvalid now now'
  rw [← hpublish, ← haccept] at halike houtcome
  have haccepted : (b.acceptObject header o now').value.2 = .ok () ∨
      ∃ violation, (b.acceptObject header o now').value.2 = .error (.protocol violation) := by
    rcases houtcome with ⟨-, hok⟩ | ⟨violation, -, hfails⟩
    · exact .inl hok
    · exact .inr ⟨violation, hfails⟩
  have hpersists : ∀ q, Persists q b (b.acceptObject header o now').value.1 := fun q => by
    rw [haccept]
    exact (keptByObjects_persists q).dispatch b schema _ o now'
  obtain ⟨hheeding, hconcludes⟩ := concludes_receive hb hc hreceived haccepted hpersists
  obtain ⟨hdispatcher, hevents⟩ := settle_same peer now' (b.acceptObject header o now').value
  rw [← hheeding] at hdispatcher hevents
  have hnews : b.newEvents hosted ≠ [] ↔ b.HasNews schema o remove := by
    have htold : hosted.events = b.events ++ b.eventsOf schema
        (hostHeader schema o (schema.meantBy included) remove now) o now := by
      show (b.publishAsHost _ _ _ _).value.1.events = _
      rw [hpublish, events_dispatch]
    rw [newEvents_of_append htold]
    exact eventsOf_ne_nil_iff hb.sound hs _ o now
  refine ⟨halike.congr hdispatcher hevents, hnews, concludes_publish hb _ remove now, hconcludes,
    ?_⟩
  -- The outcomes of accepting the object are those of the two calls.
  have hcomplaint : b.complaint? peer c (publicationFrame schema included remove sent o) now' =
      failure? (b.acceptObject header o now').value.2 := by
    unfold complaint?
    rw [hreceived]
  rw [hcomplaint, outcome_publish]
  rcases houtcome with ⟨hok, hok'⟩ | ⟨violation, hfails, hfails'⟩
  · rw [hok, hok']
  · rw [hfails, hfails']

/-- The reader publishes a note and includes only its text. It is cached and told as if the host had
published it so. -/
theorem host_agrees_with_reader :
    let hosted := (boardWithReader false).perform
      (.publish (note 2 "hi") (some (.single 2)) false) default
    let heard := (boardWithReader false).perform
      (.receive 2 (publicationFrame noteSchema (.single 2) false default (note 2 "hi"))) default
    Alike noteSchema (boardWithReader false) hosted heard ∧
      heard.cached? noteSchema.name [.uint 2] = some (note 2 "hi") := by
  intro hosted heard
  have hb : (boardWithReader false).Reachable := reachable_board.perform _ _
  obtain ⟨c, hc, hstate⟩ : ∃ c, (boardWithReader false).connections.find? 2 = some c ∧
      c.state = .connected := ⟨_, rfl, rfl⟩
  have hnote : noteSchema.validate (note 2 "hi") = .ok () := rfl
  obtain ⟨halike, -, hpublish, hreceive, -⟩ :=
    hb.host_agrees_with_guest rfl (by decide) hnote hc hstate (.single 2) false default default
      default
  -- The reader's channel takes everything.
  have hkeys : (boardWithReader false).connections.keys = [2] := rfl
  have hhosted := hpublish.unfailing (by
    rw [hkeys, List.forall_mem_singleton]
    show ∀ a ∈ newActions _ _ 2, a.isRefusal = false
    decide +kernel)
  have hheard := hreceive.unfailing (by
    rw [hkeys, List.forall_mem_singleton]
    show ∀ a ∈ newActions _ _ 2, a.isRefusal = false
    decide +kernel)
  rw [← hhosted, ← hheard] at halike
  exact ⟨halike, rfl⟩

/-- A type of objects without a key, of which one is cached at most. -/
def tallySchema : StructSchema where
  name := "Tally"
  flags := { cached := true }
  properties := [{ name := "count", tag := 1, kind := .uint }]

/-- A tally. -/
def tally (count : UInt64) : Object := (Object.empty tallySchema.name).set 1 (.uint count)

/-- The board with its reader when tallies are known too. -/
def tallyBoard : Broker := (boardWithReader false).perform (.registerStruct tallySchema) default

/-- The board when its reader watches the notes over a channel that has begun to fail. -/
def fragileBoard : Broker :=
  (boardWithReader false).after
    [(.receive 2 joinNotes, default), (.disturb 2 fun _ _ => some .closed, default)]

/-- Under the same included properties the two ways do not always come to the same. If nothing is
included and there is no key, the host includes nothing and a guest includes everything. What is not
declared stays in the header of the host's event, and not in that of a guest's. And if the guest
parts while its object is passed on, the object goes with it. -/
theorem host_differs_from_guest :
    (tallyBoard.Reachable ∧ tallySchema.validate (tally 3) = .ok () ∧
      tallyBoard.registry.findStruct? tallySchema.name = some tallySchema ∧
      tallyBoard.connectionState? 2 = some .connected ∧
      (tallyBoard.perform (.publish (tally 3) (some .none) false) default).cached?
        tallySchema.name [] = some (.empty tallySchema.name) ∧
      (tallyBoard.perform (.receive 2 (publicationFrame tallySchema .none false default (tally 3)))
        default).cached? tallySchema.name [] = some (tally 3)) ∧
    (∃ e e', (boardWithReader false).Reachable ∧ noteSchema.validate (note 2 "hi") = .ok () ∧
      (boardWithReader false).registry.findStruct? noteSchema.name = some noteSchema ∧
      (boardWithReader false).connectionState? 2 = some .connected ∧
      (boardWithReader false).newEvents ((boardWithReader false).perform
        (.publish (note 2 "hi") (some (.single 5)) false) default) = [.object e] ∧
      (boardWithReader false).newEvents ((boardWithReader false).perform
        (.receive 2 (publicationFrame noteSchema (.single 5) false default (note 2 "hi")))
        default) = [.object e'] ∧
      e.header.attributes.contains 5 = true ∧ e'.header.attributes.contains 5 = false) ∧
    (fragileBoard.Reachable ∧
      fragileBoard.registry.findStruct? noteSchema.name = some noteSchema ∧
      fragileBoard.connectionState? 2 = some .connected ∧
      (fragileBoard.perform (.publish (note 2 "hi") (some (.single 2)) false) default).cached?
        noteSchema.name [.uint 2] = some (note 2 "hi") ∧
      (fragileBoard.perform
        (.receive 2 (publicationFrame noteSchema (.single 2) false default (note 2 "hi")))
        default).cached? noteSchema.name [.uint 2] = none) := by
  have hb : (boardWithReader false).Reachable := reachable_board.perform _ _
  refine ⟨⟨hb.perform _ _, rfl, rfl, rfl, rfl, rfl⟩,
    ⟨_, _, hb, rfl, rfl, rfl, rfl, rfl, by decide, by decide⟩, hb.after _, rfl, rfl, rfl, rfl⟩

end Broker

end ObjectBus
