import ObjectBus.Proofs.Broker.Partings

/-!
# Clearing caches

Whatever is cached conforms to the registered definition of its type and is kept under its own key,
in the middle of a call as well as between two calls. So the host never fails to remove what it has
cached: not when it is asked to clear caches, not when it cleans up after a guest and not when it
sweeps. Clearing the caches of some types removes exactly what was cached under them, and what else
changes comes from guests that have parted meanwhile.

* `RemovesAll`: removals all of which succeed;
* `removesAll_of_sublist`: some of what is cached of one type can be removed like that;
* `RemovalsSucceed`: so it is for all that the host removes on its own account;
* `retracts_clearTypes`: what is removed when caches are cleared;
* `Clearance`, `Reachable.clearance`: what the whole call does.
-/

namespace ObjectBus.Broker

variable {call : BrokerCall} {now : Instant} {b s : Broker} {peer q : PeerId}
variable {x : CachedObject} {l : List CachedObject} {typeName : String} {key : ObjectKey}
variable {objects : List Object} {keys : PropertySet} {c : Container}

/-! ## Removals that succeed -/

/-- The host can publish the removals of some objects, one after the other, and each succeeds. -/
def RemovesAll (keys : PropertySet) (now : Instant) : List Object → Broker → Prop
  | [], _ => True
  | o :: rest, b => (b.publishAsHost o (some keys) true now).value.2 = .ok () ∧
      (b.publishAsHost o (some keys) true now).value.1.RemovesAll keys now rest

/-- Some of what is cached of one type can be removed, one object after the other. -/
theorem removesAll_of_isIn {schema : StructSchema} (hb : b.Sound)
    (hl : ∀ x ∈ l, x.IsIn b ∧ x.schema = schema) (hnodup : (l.map (·.place)).Nodup) :
    b.RemovesAll schema.keyProperties now (l.map (·.entry.object)) := by
  induction l generalizing b with
  | nil => exact trivial
  | cons x rest ih =>
    obtain ⟨hfresh, hrest⟩ := List.nodup_cons.1 (List.map_cons ▸ hnodup)
    obtain ⟨⟨hin, rfl⟩, hothers⟩ := List.forall_mem_cons.1 hl
    have hsteps : Steps .sweep now b
        (b.publishAsHost x.entry.object (some x.schema.keyProperties) true now).value.1 :=
      steps_publishAsHost b _ _ _
    refine ⟨outcome_removal hb hin now,
      ih (Steps.induction Sound.step hb hsteps) (fun y hy => ?_) hrest⟩
    -- The others are in other places, and so the first removal leaves them there.
    refine ⟨(retracts_publishAsHost hb hin now).isIn (hothers y hy).1 ?_, (hothers y hy).2⟩
    rw [List.map_singleton, List.mem_singleton]
    intro hsame
    exact hfresh (List.mem_map.2 ⟨y, hy, hsame⟩)

theorem removesAll_of_sublist (hb : b.Sound) (hc : b.container? typeName = some c)
    (hl : l.Sublist (b.cachedOf typeName)) :
    b.RemovesAll c.schema.keyProperties now (l.map (·.entry.object)) := by
  refine removesAll_of_isIn hb (fun x hx => ?_)
    ((nodup_cachedOf b typeName).sublist (hl.map _))
  have hmem := hl.subset hx
  rw [cachedOf_of_container hc] at hmem
  obtain ⟨e, -, heq⟩ := List.mem_map.1 hmem
  exact ⟨((mem_cachedOf_iff hb).1 (hl.subset hx)).1, heq ▸ rfl⟩

/-! ## The removals of the host -/

/-- The broker when the caches of some types have been cleared. -/
def clearTypes (b : Broker) (typeNames : List String) (now : Instant) : Broker :=
  typeNames.foldl (fun b typeName => (b.clearType typeName now).value) b

/-- The broker when it has cleaned up some types after a guest. -/
def cleanUpTypes (b : Broker) (peer : PeerId) (typeNames : List String) (now : Instant) : Broker :=
  typeNames.foldl (fun b typeName => (b.cleanUpType peer typeName now).value) b

theorem value_clearCache (b : Broker) (typeNames : List String) (now : Instant) :
    (b.clearCache typeNames now).value = ((b.clearTypes typeNames now).drain now).value := by
  unfold clearCache clearTypes
  simp only [Noted.value_bind, Noted.value_foldlM]

theorem steps_clearTypes (b : Broker) (typeNames : List String) :
    Steps call now b (b.clearTypes typeNames now) := steps_foldl steps_clearType typeNames b

theorem steps_cleanUpTypes (b : Broker) (peer : PeerId) (typeNames : List String) :
    Steps call now b (b.cleanUpTypes peer typeNames now) :=
  steps_foldl (fun b typeName => steps_cleanUpType b peer typeName) typeNames b

/-- The loops in which the host removes cached objects on its own account never fail, whichever
types have been dealt with before. -/
structure RemovalsSucceed (now : Instant) (s : Broker) : Prop where
  /-- When caches are cleared. -/
  clear : ∀ done typeName c, (s.clearTypes done now).container? typeName = some c →
    (s.clearTypes done now).RemovesAll c.schema.keyProperties now c.objects
  /-- When the objects of a guest are removed whose connection has closed. -/
  cleanUp : ∀ peer done typeName c,
    ((s.setAside peer).cleanUpTypes peer done now).container? typeName = some c →
      ((s.setAside peer).cleanUpTypes peer done now).RemovesAll c.schema.keyProperties now
        (c.writtenBy peer)
  /-- When stale records are swept. -/
  sweep : ∀ c, s.forgetClosed.container? peerStateType = some c →
    s.forgetClosed.RemovesAll c.schema.keyProperties now (c.objects.filter s.forgetClosed.isStale)

/-- The objects of a container whose entries are chosen in some way can all be removed. -/
theorem removesAll_of_filter (hb : b.Sound) (hc : b.container? typeName = some c)
    (chosen : Entry → Bool) :
    b.RemovesAll c.schema.keyProperties now ((c.snapshot.filter chosen).map (·.object)) := by
  have hobjects : (c.snapshot.filter chosen).map (·.object) =
      ((b.cachedOf typeName).filter fun x => chosen x.entry).map (·.entry.object) := by
    rw [cachedOf_of_container hc, Container.snapshot, KeyedList.values, List.filter_map,
      List.filter_map, List.map_map, List.map_map]
    rfl
  rw [hobjects]
  exact removesAll_of_sublist hb hc List.filter_sublist

theorem Sound.removalsSucceed (hs : s.Sound) (now : Instant) : s.RemovalsSucceed now where
  clear done typeName c hc := by
    have hsteps : Steps .sweep now s (s.clearTypes done now) := steps_clearTypes s done
    have hall : (s.clearTypes done now).RemovesAll c.schema.keyProperties now
        ((c.snapshot.filter fun _ => true).map (·.object)) :=
      removesAll_of_filter (Steps.induction Sound.step hs hsteps) hc _
    rwa [List.filter_true] at hall
  cleanUp peer done typeName c hc := by
    have hsteps : Steps .sweep now (s.setAside peer)
        ((s.setAside peer).cleanUpTypes peer done now) := steps_cleanUpTypes _ peer done
    exact removesAll_of_filter (Steps.induction Sound.step (hs.setAside peer) hsteps) hc _
  sweep c hc := by
    have hstep : Step .sweep now s s.forgetClosed := .forgetClosed (.inl rfl)
    have hstale : c.objects.filter s.forgetClosed.isStale =
        (c.snapshot.filter fun e => s.forgetClosed.isStale e.object).map (·.object) := by
      rw [Container.objects, List.filter_map]
      rfl
    rw [hstale]
    exact removesAll_of_filter (hs.step hstep) hc _

/-! ## Clearing caches -/

/-- Clearing the caches of some types removes what is cached of them, each object once, however
often a type is named and whether it is known. -/
theorem retracts_clearTypes (hb : b.Sound) (typeNames : List String) (now : Instant) :
    ∃ cleared, Retracts now cleared b (b.clearTypes typeNames now) ∧
      (cleared.map (·.place)).Nodup ∧
      ∀ x, x ∈ cleared ↔ x.IsIn b ∧ x.schema.name ∈ typeNames := by
  induction typeNames generalizing b with
  | nil => exact ⟨[], .refl now b, List.nodup_nil, fun x => by simp⟩
  | cons typeName rest ih =>
    have hfirst : Retracts now (b.cachedOf typeName) b (b.clearType typeName now).value := by
      rw [value_clearType]
      exact retracts_afterRemovals hb (fun x hx => ((mem_cachedOf_iff hb).1 hx).1)
        (nodup_cachedOf b typeName) now
    have hsteps : Steps .sweep now b (b.clearType typeName now).value := steps_clearType b typeName
    obtain ⟨cleared, hretracts, hnodup, hmem⟩ := ih (Steps.induction Sound.step hb hsteps)
    refine ⟨b.cachedOf typeName ++ cleared, hfirst.trans hretracts, ?_, fun x => ?_⟩
    · rw [List.map_append, List.nodup_append]
      refine ⟨nodup_cachedOf b typeName, hnodup, fun place hplace place' hplace' hsame => ?_⟩
      -- What the later types clear was left in its place by the first one.
      obtain ⟨x, hx, rfl⟩ := List.mem_map.1 hplace'
      exact (hfirst.isIn_iff.1 ((hmem x).1 hx).1).2 (hsame ▸ hplace)
    · rw [List.mem_append, mem_cachedOf_iff hb, hmem, hfirst.isIn_iff, List.mem_cons]
      constructor
      · rintro (⟨hin, hname⟩ | ⟨⟨hin, -⟩, hname⟩)
        · exact ⟨hin, .inl hname⟩
        · exact ⟨hin, .inr hname⟩
      · rintro ⟨hin, hname⟩
        by_cases hplace : x.place ∈ (b.cachedOf typeName).map (·.place)
        · -- In that place is an object of the first type.
          obtain ⟨y, hy, heq⟩ := List.mem_map.1 hplace
          have htype : x.schema.name = y.schema.name := (congrArg Prod.fst heq).symm
          exact .inl ⟨hin, htype.trans ((mem_cachedOf_iff hb).1 hy).2⟩
        · refine .inr ⟨⟨hin, hplace⟩, hname.resolve_left fun hname => hplace ?_⟩
          exact List.mem_map_of_mem ((mem_cachedOf_iff hb).2 ⟨hin, hname⟩)

/-- What clearing the caches of some types does. First the objects that are cached of them are
removed, and then everything that follows is processed. -/
structure Clearance (now : Instant) (typeNames : List String) (cleared : List CachedObject)
    (before middle after : Broker) : Prop where
  /-- No object is removed twice. -/
  once : (cleared.map (·.place)).Nodup
  /-- Exactly those are removed that were cached of the types. -/
  exactly : ∀ x, x ∈ cleared ↔ x.IsIn before ∧ x.schema.name ∈ typeNames
  /-- Then nothing is cached of these types, and of all others what was cached before. -/
  entries : ∀ typeName key, middle.cachedAt? typeName key =
    if typeName ∈ typeNames then none else before.cachedAt? typeName key
  /-- Observers are told of one removal for each, and of nothing else. -/
  events : middle.events = before.events ++ cleared.map fun x => .object (x.removal now)
  /-- A connected member is sent one removal for each object of its groups, unless it closes on the
  way, and nobody else is sent anything. -/
  frames : ∀ q c, before.connections.find? q = some c →
    ∃ c' frames, middle.connections.find? q = some c' ∧
      c'.channel.sent = c.channel.sent ++ frames ∧
      frames <+: (cleared.filter fun x => before.groups.hasMember x.schema.name q).map
        (·.removalFrame now) ∧
      (c.state = .connected → c'.isClosed = false →
        frames = (cleared.filter fun x => before.groups.hasMember x.schema.name q).map
          (·.removalFrame now)) ∧
      (c.state ≠ .connected → c' = c)
  /-- In the end nothing is cached of the types but what may be records of guests that have parted
  meanwhile. -/
  named : ∀ typeName key, typeName ∈ typeNames → after.cachedAt? typeName key = none ∨
    ∃ q, OnRecord typeName key q before after
  /-- Entries of all others are as they were, unless they belong to guests that have parted
  meanwhile. -/
  others : ∀ typeName key, typeName ∉ typeNames →
    after.cachedAt? typeName key = before.cachedAt? typeName key ∨
      Affected typeName key before after
  /-- After the first part observers are only told more. -/
  later : middle.events <+: after.events
  /-- All further removals are of objects that go with such guests, and not of the types that were
  cleared, unless a guest has the number of the host. -/
  removals : ∀ e, .object e ∈ middle.newEvents after → e.operation = .remove →
    ∃ x q, Follows x q before after ∧ (x.schema.name ∈ typeNames → q = hostId) ∧
      e = x.removal now
  /-- So it is for the frames. -/
  removalFrames : middle.Sends (fun _ t => t.header.remove = true →
    ∃ x q, Follows x q before after ∧ (x.schema.name ∈ typeNames → q = hostId) ∧
      t = x.removalFrame now) after

/-- Whoever parts after the objects have been removed was there before. -/
theorem Retracts.parted {b' b'' : Broker} (h : Retracts now l b b') (hparted : Parted q b' b'') :
    Parted q b b'' := by
  refine ⟨fun hnone => hparted.1 ?_, hparted.2⟩
  rw [h.frames, hnone, Option.map_none]

/-- What goes with such a guest was cached before. -/
theorem Retracts.follows {b' b'' : Broker} (h : Retracts now l b b') (hx : Follows x q b' b'') :
    Follows x q b b'' :=
  ⟨h.parted hx.parted, hx.cleanup, hx.writer,
    hx.origin.imp_left fun hin => (h.isIn_iff.1 hin).1⟩

theorem Retracts.onRecord {b' b'' : Broker} (h : Retracts now l b b')
    (hrecord : OnRecord typeName key q b' b'') : OnRecord typeName key q b b'' :=
  ⟨h.parted hrecord.parted, hrecord.record, hrecord.keyed, hrecord.writer⟩

/-- If all that happens after the caches have been cleared comes from guests that part, that is what
clearing them does. -/
theorem clearance_of_partings (hb : b.Sound) (typeNames : List String) (now : Instant)
    {after : Broker} (hpartings : Partings now (b.clearTypes typeNames now) after) :
    ∃ cleared, Clearance now typeNames cleared b (b.clearTypes typeNames now) after := by
  obtain ⟨cleared, hretracts, hnodup, hmem⟩ := retracts_clearTypes hb typeNames now
  have hentries : ∀ typeName key, (b.clearTypes typeNames now).cachedAt? typeName key =
      if typeName ∈ typeNames then none else b.cachedAt? typeName key := by
    intro typeName key
    rw [hretracts.entries]
    by_cases hplace : (typeName, key) ∈ cleared.map (·.place)
    · obtain ⟨x, hx, heq⟩ := List.mem_map.1 hplace
      obtain ⟨rfl, rfl⟩ := Prod.mk.inj heq
      rw [if_pos hplace, if_pos ((hmem x).1 hx).2]
    · rw [if_neg hplace]
      split
      · rename_i hname
        -- An entry of a named type would have been removed.
        refine Option.eq_none_iff_forall_ne_some.2 fun e he => hplace ?_
        obtain ⟨x, hin, heq, -⟩ := exists_isIn hb he
        have htype : x.schema.name = typeName := congrArg Prod.fst heq
        exact List.mem_map.2 ⟨x, (hmem x).2 ⟨hin, htype ▸ hname⟩, heq⟩
      · rfl
  -- Of the named types nothing is left that could go with a guest, but for new records.
  have hhost : ∀ x q, Follows x q (b.clearTypes typeNames now) after →
      x.schema.name ∈ typeNames → q = hostId := by
    intro x q hx hname
    rcases hx.origin with hin | ⟨-, hhost⟩
    · have hentry := hin.entry
      rw [hentries, if_pos hname] at hentry
      cases hentry
    · exact hhost
  refine ⟨cleared, hnodup, hmem, hentries, hretracts.events, fun q c hc => hretracts.sent hc,
    fun typeName key hname => ?_, fun typeName key hname => ?_, hpartings.events,
    fun e he hremove => ?_, hpartings.frames.mono fun _ t ht hremove => ?_⟩
  · rcases hpartings.entries typeName key with hsame | haffected
    · exact .inl (by rw [hsame, hentries, if_pos hname])
    · cases haffected with
      | gone _ _ _ hnone => exact .inl hnone
      | recorded h => exact .inr ⟨_, hretracts.onRecord h⟩
  · rcases hpartings.entries typeName key with hsame | haffected
    · exact .inl (by rw [hsame, hentries, if_neg hname])
    · refine .inr ?_
      cases haffected with
      | gone hx hin hplace hnone =>
        exact .gone (hretracts.follows hx) (hretracts.isIn_iff.1 hin).1 hplace hnone
      | recorded h => exact .recorded (hretracts.onRecord h)
  · obtain ⟨x, q, hx, heq⟩ := hpartings.removals e he hremove
    exact ⟨x, q, hretracts.follows hx, hhost x q hx, heq⟩
  · obtain ⟨x, q, hx, heq⟩ := ht hremove
    exact ⟨x, q, hretracts.follows hx, hhost x q hx, heq⟩

/-- Whatever is cached at any point of a run conforms to the registered definition of its type and
is kept under its own key, so that the host never fails to remove it; and clearing the caches of
some types removes exactly what is cached of them, while all else that changes comes from guests
that part meanwhile. -/
theorem Reachable.clearance (hb : b.Reachable) :
    (∀ call now s, Moves call now b s →
      (∀ typeName c, s.container? typeName = some c →
        s.registry.findStruct? typeName = some c.schema ∧ c.schema.name = typeName ∧
          c.schema.flags.cached = true ∧
          ∀ key e, c.find? key = some e →
            c.schema.validate e.object = .ok () ∧ c.schema.keyOf e.object = .ok key) ∧
      s.RemovalsSucceed now) ∧
    ∀ typeNames now, ∃ cleared, Clearance now typeNames cleared b (b.clearTypes typeNames now)
      (b.clearCache typeNames now).value := by
  refine ⟨fun call now s hmoves => ?_, fun typeNames now => ?_⟩
  · have hs : s.Sound := (hb.tidy.moves hmoves).sound
    refine ⟨fun typeName c hc => ?_, hs.removalsSucceed now⟩
    obtain ⟨hschema, hcached⟩ := hs.schemas typeName c hc
    exact ⟨hschema, (hs.findStruct?_name hschema).1, hcached, hs.valid typeName c hc⟩
  · have hsteps : ∀ call, Steps call now b (b.clearTypes typeNames now) :=
      fun call => steps_clearTypes b typeNames
    rw [value_clearCache]
    -- Nothing waited when the caches were cleared, so that only closings wait afterwards.
    exact clearance_of_partings hb.sound typeNames now
      (hb.partings_after (hsteps .sweep) (serves_of_steps (hsteps _)))

/-- The lobby when its guest watches the announcements of types over a channel that has begun to
fail. -/
def fragileLobby : Broker :=
  lobby.after
    [(.receive 2 (.ofControl (.member typeAnnounceType .join) default), default),
      (.disturb 2 fun _ _ => some .closed, default)]

/-- The announcements are cleared, named twice and beside a type that nobody knows. The guest is
lost when the first removal is to be handed to it, and so its record is written anew. -/
theorem clearance_in_fragileLobby : ∃ cleared, ∃ after : Broker,
    (fragileLobby.clearCache [typeAnnounceType, "Nothing", typeAnnounceType] default).value =
      after ∧
    Clearance default [typeAnnounceType, "Nothing", typeAnnounceType] cleared fragileLobby
      (fragileLobby.clearTypes [typeAnnounceType, "Nothing", typeAnnounceType] default) after ∧
    cleared.length = 2 ∧ Parted 2 fragileLobby after ∧
    Affected peerStateType [.uint 2] fragileLobby after ∧
    fragileLobby.RemovalsSucceed default := by
  obtain ⟨hkept, hclears⟩ := Reachable.clearance (b := fragileLobby) (reachable_lobby.after _)
  obtain ⟨cleared, hclearance⟩ := hclears [typeAnnounceType, "Nothing", typeAnnounceType] default
  refine ⟨cleared, _, rfl, hclearance, ?_, ?_, ?_, (hkept .sweep default _ .refl).2⟩
  · -- Observers are told of two removals, so these are what has been cleared.
    obtain ⟨first, second, hevents⟩ : ∃ first second, fragileLobby.newEvents
        (fragileLobby.clearTypes [typeAnnounceType, "Nothing", typeAnnounceType] default) =
          [.object first, .object second] := ⟨_, _, rfl⟩
    rw [newEvents_of_append hclearance.events] at hevents
    have hlength := congrArg List.length hevents
    rwa [List.length_map] at hlength
  · exact ⟨by simp [show fragileLobby.connections.find? 2 = some _ from rfl], rfl⟩
  · refine (hclearance.others peerStateType [.uint 2] (by decide)).resolve_left fun hsame => ?_
    have hbefore : (fragileLobby.cachedAt? peerStateType [.uint 2]).map (·.object) =
      some (PeerState.record 2 "guest" .connected) := rfl
    have hafter : ((fragileLobby.clearCache [typeAnnounceType, "Nothing", typeAnnounceType]
      default).value.cachedAt? peerStateType [.uint 2]).map (·.object) =
        some (PeerState.record 2 "guest" .closed) := rfl
    rw [hsame, hbefore] at hafter
    exact absurd (Option.some.inj hafter) (by decide)

end ObjectBus.Broker
