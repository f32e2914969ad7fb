import ObjectBus.Proofs.Broker.Clearing
import ObjectBus.Proofs.Broker.Endurance
import ObjectBus.Proofs.Broker.Frames
import ObjectBus.Proofs.Broker.Replay

/-!
# Sweeping

A sweep forgets the connections that have closed and retracts the records that say so, unless
something else that is cached still names the peer. Which records these are depends on all other
caches, but a retraction changes none of them, so that nothing is left for a second sweep.

* `Broker.Refers`, `Broker.staleRecords`: what keeps a record, and the records that nothing keeps;
* `value_sweep`: a sweep retracts these, and processes what follows;
* `Retracts.handed`: what channels that refuse nothing are handed meanwhile;
* `Swept`, `Rested.swept`: so that this is all that a sweep does;
* `Swept.again`: a second sweep finds nothing to do.
-/

namespace ObjectBus

namespace Connection

variable {c : Connection}

theorem persists_offeredAll (ts : List Transmission) (c : Connection) :
    c.Persists (c.offeredAll ts) := by
  induction ts generalizing c with
  | nil => exact .refl c
  | cons t rest ih => exact (persists_offered c t).trans (ih _)

/-- A connected connection whose channel refuses nothing is handed all that it is offered. -/
theorem offeredAll_of_unfailing (hstate : c.state = .connected) (ts : List Transmission)
    (hunfailing : c.channel.Unfailing (c.offeredAll ts).channel) :
    c.offeredAll ts = { c with channel := c.channel.handed ts } := by
  induction ts generalizing c with
  | nil => simp [offeredAll]
  | cons t rest ih =>
    have hfirst : c.Persists (c.offered t) := persists_offered c t
    have hrest : (c.offered t).Persists (c.offeredAll (t :: rest)) := persists_offeredAll rest _
    obtain ⟨hnow, hlater⟩ := hunfailing.parts hfirst.trace hrest.trace
    cases hrefusal : c.channel.refusal c.channel.trace t with
    | none =>
      have htaken := offered_of_taken hstate hrefusal
      have hconnected : (c.offered t).state = .connected := by rw [htaken, hstate]
      show (c.offered t).offeredAll rest = _
      rw [ih hconnected hlater, htaken, Channel.handed_cons]
    | some error =>
      -- The refusal would show in the trace.
      have hshown : ChannelAction.refused t error ∈
          (c.offered t).channel.trace.drop c.channel.trace.length := by
        simp [offered_of_refused hstate hrefusal]
      cases hnow _ hshown

end Connection

namespace Broker

variable {now now' : Instant} {b b' : Broker} {peer q : PeerId} {o : Object}
variable {l stale : List CachedObject} {x : CachedObject}

/-! ## Stale records -/

/-- Some cached object of an ordinary type was created or last written by a peer. -/
def Refers (b : Broker) (peer : PeerId) : Prop :=
  ∃ typeName key e, typeName ≠ peerStateType ∧ typeName ≠ typeAnnounceType ∧
    b.cachedAt? typeName key = some e ∧
      (e.provenance.createdFrom = peer ∨ e.provenance.lastUpdateFrom = peer)

theorem isReferenced_eq_true_iff (hb : b.Sound) : b.isReferenced peer = true ↔ b.Refers peer := by
  have hordinary : ∀ typeName, (!isHostRecord typeName) = true ↔
      typeName ≠ peerStateType ∧ typeName ≠ typeAnnounceType := by simp [isHostRecord]
  have hnames : ∀ e : Entry, e.provenance.mentions peer = true ↔
      e.provenance.createdFrom = peer ∨ e.provenance.lastUpdateFrom = peer := by
    simp [Provenance.mentions]
  unfold isReferenced Refers
  simp only [List.any_eq_true, Bool.and_eq_true, SortedMap.mem_values_iff, Container.mentions,
    Container.snapshot, KeyedList.values, List.mem_map, hordinary, hnames]
  -- The pool is searched by containers, which are kept under the names of their types.
  constructor
  · rintro ⟨c, ⟨typeName, hc⟩, ⟨hpeer, htype⟩, -, ⟨⟨key, e⟩, hmem, rfl⟩, hnamed⟩
    obtain ⟨hname, -⟩ := hb.findStruct?_name (hb.schemas typeName c hc).1
    have hentry : b.cachedAt? typeName key = some e := by
      rw [cachedAt?, container?, ContainerPool.find?, hc]
      exact KeyedList.find?_eq_some_iff.2 hmem
    exact ⟨typeName, key, e, hname ▸ hpeer, hname ▸ htype, hentry, hnamed⟩
  · rintro ⟨typeName, key, e, hpeer, htype, hentry, hnamed⟩
    obtain ⟨c, hc, hfind⟩ := Option.bind_eq_some_iff.1 hentry
    obtain ⟨hname, -⟩ := hb.findStruct?_name (hb.schemas typeName c hc).1
    exact ⟨c, ⟨typeName, hc⟩, ⟨hname.symm ▸ hpeer, hname.symm ▸ htype⟩, e,
      ⟨(key, e), KeyedList.find?_eq_some_iff.1 hfind, rfl⟩, hnamed⟩

/-- An object is stale if it is the record of a closed peer to which nothing refers. -/
theorem isStale_eq_true_iff (hb : b.Sound) : b.isStale o = true ↔
    ∃ peer, PeerState.ofRecord? o = some (peer, .closed) ∧ ¬b.Refers peer := by
  unfold isStale
  split
  · rename_i peer hrecord
    simp [hrecord, ← isReferenced_eq_true_iff hb]
  · rename_i hother
    simp only [Bool.false_eq_true, false_iff]
    rintro ⟨peer, hrecord, -⟩
    exact hother peer hrecord

/-- The stale records that are cached. -/
def staleRecords (b : Broker) : List CachedObject :=
  (b.cachedOf peerStateType).filter fun x => b.isStale x.entry.object

theorem mem_staleRecords_iff (hb : b.Sound) : x ∈ b.staleRecords ↔
    x.IsIn b ∧ x.schema.name = peerStateType ∧
      ∃ peer, PeerState.ofRecord? x.entry.object = some (peer, .closed) ∧ ¬b.Refers peer := by
  rw [staleRecords, List.mem_filter, mem_cachedOf_iff hb, isStale_eq_true_iff hb, and_assoc]

theorem nodup_staleRecords (b : Broker) : (b.staleRecords.map (·.place)).Nodup :=
  (nodup_cachedOf b peerStateType).sublist (List.filter_sublist.map _)

/-! ## What a sweep does -/

theorem rested_forgetClosed (hr : b.Rested) : b.forgetClosed.Rested := hr

/-- A sweep forgets the closed connections, retracts the stale records and processes what
follows. -/
theorem value_sweep (hr : b.Rested) (now : Instant) :
    (b.sweep now).value = ((b.forgetClosed.afterRemovals b.staleRecords now).drain now).value := by
  have hcached : b.cachedOf peerStateType = b.forgetClosed.cachedOf peerStateType := rfl
  have hstale : b.isStale = b.forgetClosed.isStale := rfl
  unfold sweep
  simp only [Noted.value_bind]
  split
  · -- Without a container of records nothing is stale, and nothing waits to be processed either.
    rename_i hnone
    have hempty : b.staleRecords = [] := by
      rw [staleRecords, hcached, cachedOf, hnone]
      rfl
    rw [hempty]
    exact (drain_of_rested (rested_forgetClosed hr) now).symm
  · rename_i c hc
    simp only [Noted.value_bind, value_retract]
    rw [staleRecords, hcached, hstale, cachedOf_of_container hc, Container.objects,
      Container.snapshot, KeyedList.values, afterRemovals, List.map_map, List.filter_map,
      List.filter_map, List.foldl_map, List.foldl_map]
    rfl

/-- Forgetting the closed connections leaves everything that is cached. -/
theorem retracts_staleRecords (hb : b.Sound) (now : Instant) :
    Retracts now b.staleRecords b.forgetClosed
      (b.forgetClosed.afterRemovals b.staleRecords now) := by
  have hstep : Step .sweep now b b.forgetClosed := .forgetClosed (.inl rfl)
  -- Which records are stale was found before the connections were forgotten.
  refine retracts_afterRemovals (hb.step hstep) (fun x hx => ?_) (nodup_staleRecords b) now
  obtain ⟨⟨hregistered, hcached, hentry⟩, -⟩ := (mem_staleRecords_iff hb).1 hx
  exact ⟨hregistered, hcached, hentry⟩

/-! ## Channels that refuse nothing -/

/-- What a channel that refuses nothing is handed when cached objects are retracted. -/
theorem Retracts.handed (h : Retracts now l b b')
    (hunfailing : ∀ q ∈ b.connections.keys, b.Unfailing b' q) :
    b'.connections.find? q = (b.connections.find? q).map fun c =>
      if c.state = .connected then
        { c with
          channel := c.channel.handed ((l.filter fun x =>
            b.groups.hasMember x.schema.name q).map (·.removalFrame now)) }
      else c := by
  have hafter := h.frames q
  cases hc : b.connections.find? q with
  | none => rw [hafter, hc, Option.map_none, Option.map_none]
  | some c =>
    rw [hc, Option.map_some] at hafter
    rw [hafter, Option.map_some]
    -- Only a connected member is handed anything.
    split
    · rename_i hstate
      have hnone := hunfailing q (SortedMap.mem_keys_iff.2 ⟨c, hc⟩)
      rw [Unfailing, newActions, traceOf_of_open hc, traceOf_of_open hafter] at hnone
      rw [Connection.offeredAll_of_unfailing hstate _ hnone]
    · rename_i hstate
      rw [Connection.offeredAll_of_ne_connected hstate]

/-- A sweep during which no channel refuses anything leaves nothing to be processed. -/
theorem value_sweep_of_unfailing (hr : b.Rested)
    (hunfailing : ∀ q ∈ b.connections.keys, b.Unfailing (b.sweep now).value q) :
    (∀ q ∈ b.connections.keys,
      b.forgetClosed.Unfailing (b.forgetClosed.afterRemovals b.staleRecords now) q) ∧
      (b.sweep now).value = b.forgetClosed.afterRemovals b.staleRecords now := by
  have hforget : ∀ q, Grows q b b.forgetClosed := fun q => .of_eq (channel?_forgetClosed b q)
  have hserves : ∀ q, Serves q b.forgetClosed (b.forgetClosed.afterRemovals b.staleRecords now) :=
    serves_of_steps (steps_afterRemovals _ _ _)
  have hretract : ∀ q,
      Persists q b.forgetClosed (b.forgetClosed.afterRemovals b.staleRecords now) := fun q =>
    (keptByObjects_persists q).foldl
      (fun b _ => (keptByObjects_persists q).publishAsHost b _ _ _ now) b.staleRecords _
  have hrest : ∀ q ∈ b.connections.keys, b.forgetClosed.Unfailing
      ((b.forgetClosed.afterRemovals b.staleRecords now).drain now).value q := by
    intro q hq
    have hwhole := hunfailing q hq
    rw [value_sweep hr] at hwhole
    exact ((hforget q).unfailing ((hretract q).grows.trans (persists_drain q _ now).grows) hwhole).2
  obtain ⟨hparts, heq⟩ := drain_of_unfailing (rested_forgetClosed hr) hserves hretract hrest
  exact ⟨hparts, (value_sweep hr now).trans heq⟩

/-! ## Sweeps -/

/-- What a sweep does that retracts some records. -/
structure Swept (now : Instant) (stale : List CachedObject) (before after : Broker) : Prop where
  /-- No connection is left that has closed. -/
  closed : after.closed = .empty
  /-- The closed ones are in no group any more, and all other memberships are as they were. -/
  members : ∀ group q, after.groups.hasMember group q = true ↔
    before.groups.hasMember group q = true ∧ before.closed.find? q = none
  /-- No record is retracted twice. -/
  once : (stale.map (·.place)).Nodup
  /-- Exactly those records are retracted that say of a peer that it has closed, while nothing
  refers to the peer. -/
  exactly : ∀ x, x ∈ stale ↔ x.IsIn before ∧ x.schema.name = peerStateType ∧
    ∃ peer, PeerState.ofRecord? x.entry.object = some (peer, .closed) ∧ ¬before.Refers peer
  /-- Then they are gone, and everything else is cached as it was. -/
  entries : ∀ typeName key, after.cachedAt? typeName key =
    if (typeName, key) ∈ stale.map (·.place) then none else before.cachedAt? typeName key
  /-- All other containers are the same. -/
  others : ∀ typeName, typeName ≠ peerStateType →
    after.container? typeName = before.container? typeName
  /-- The types are the same. -/
  registry : after.registry = before.registry
  /-- Observers are told of one removal for each record, and of nothing else. -/
  events : after.events = before.events ++ stale.map fun x => .object (x.removal now)
  /-- A connected member of the group of the records is sent one removal for each, and everybody
  else is left alone. -/
  connections : ∀ q, after.connections.find? q = (before.connections.find? q).map fun c =>
    if c.state = .connected ∧ after.groups.hasMember peerStateType q = true then
      { c with channel := c.channel.handed (stale.map (·.removalFrame now)) }
    else c
  /-- Nothing is left to be processed. -/
  rested : after.Rested

theorem hasMember_forgetClosed (b : Broker) (group : String) (q : PeerId) :
    b.forgetClosed.groups.hasMember group q = true ↔
      b.groups.hasMember group q = true ∧ b.closed.find? q = none := by
  have hkeys : q ∉ b.closed.keys ↔ b.closed.find? q = none := by
    rw [SortedMap.mem_keys_iff, Option.eq_none_iff_forall_ne_some, not_exists]
  rw [forgetClosed, GroupTable.hasMember_foldl_drop, Bool.and_eq_true, Bool.not_eq_true',
    decide_eq_false_iff_not, hkeys, and_comm]

/-- This is what a sweep of a broker at rest does during which no channel refuses anything. -/
theorem Rested.swept (hr : b.Rested) (hb : b.Sound)
    (hunfailing : ∀ q ∈ b.connections.keys, b.Unfailing (b.sweep now).value q) :
    Swept now b.staleRecords b (b.sweep now).value := by
  obtain ⟨hparts, heq⟩ := value_sweep_of_unfailing hr hunfailing
  have hretracts := retracts_staleRecords hb now
  have hrested : (b.sweep now).value.Rested := perform_rests hr .sweep now
  have hname : ∀ x ∈ b.staleRecords, x.schema.name = peerStateType :=
    fun x hx => ((mem_staleRecords_iff hb).1 hx).2.1
  rw [heq] at hrested ⊢
  refine ⟨?_, fun group q => ?_, nodup_staleRecords b, fun x => mem_staleRecords_iff hb,
    hretracts.entries, fun typeName hother => ?_, hretracts.registry, hretracts.events,
    fun q => ?_, hrested⟩
  · -- Retracting records leaves the table of closed connections alone.
    have hsteps : Steps (.clearCache []) now b.forgetClosed
        (b.forgetClosed.afterRemovals b.staleRecords now) := steps_afterRemovals _ _ _
    refine SortedMap.ext fun q => ?_
    exact (hsteps.carries rfl q).closed
  · rw [hretracts.groups, hasMember_forgetClosed]
  · refine hretracts.others typeName fun hmem => ?_
    obtain ⟨x, hx, rfl⟩ := List.mem_map.1 hmem
    exact hother (hname x hx)
  · -- All records are of one type, so that a peer gets all removals or none.
    have hall : (b.staleRecords.filter fun x => b.forgetClosed.groups.hasMember x.schema.name q) =
        if b.forgetClosed.groups.hasMember peerStateType q then b.staleRecords else [] := by
      rw [List.filter_congr (fun x hx => by rw [hname x hx])]
      split <;> simp [*]
    rw [hretracts.handed hparts, hall, hretracts.groups]
    show (b.connections.find? q).map _ = _
    congr 1
    funext c
    by_cases hmember : b.forgetClosed.groups.hasMember peerStateType q = true
    · simp [hmember]
    · simp [hmember]

theorem Reachable.swept (hb : b.Reachable)
    (hunfailing : ∀ q ∈ b.connections.keys, b.Unfailing (b.sweep now).value q) :
    Swept now b.staleRecords b (b.sweep now).value :=
  hb.rested.swept hb.sound hunfailing

/-- References are in caches that a sweep does not touch. -/
theorem Swept.refers_iff (h : Swept now stale b b') : b'.Refers peer ↔ b.Refers peer := by
  have hsame : ∀ typeName key, typeName ≠ peerStateType →
      b'.cachedAt? typeName key = b.cachedAt? typeName key := by
    intro typeName key hother
    rw [cachedAt?, cachedAt?, h.others typeName hother]
  unfold Refers
  refine exists_congr fun typeName => exists_congr fun key => exists_congr fun e => ?_
  exact and_congr_right fun hother => by rw [hsame typeName key hother]

/-- After a sweep no record is stale. -/
theorem Swept.staleRecords_eq_nil (h : Swept now stale b b') (hb' : b'.Sound) :
    b'.staleRecords = [] := by
  refine List.eq_nil_iff_forall_not_mem.2 fun x hx => ?_
  obtain ⟨hin, hname, peer, hrecord, hnone⟩ := (mem_staleRecords_iff hb').1 hx
  have hentry := hin.entry
  rw [h.entries] at hentry
  split at hentry
  · cases hentry
  · rename_i hkept
    -- A record that is stale now was stale before the sweep, and would have been retracted.
    have hbefore : x ∈ stale := (h.exactly x).2 ⟨⟨h.registry ▸ hin.registered, hin.cached, hentry⟩,
      hname, peer, hrecord, fun hrefers => hnone (h.refers_iff.2 hrefers)⟩
    exact hkept (List.mem_map_of_mem hbefore)

/-- Where no closed connection is left there is nothing to forget. -/
theorem forgetClosed_of_empty (h : b.closed = .empty) : b.forgetClosed = b := by
  unfold forgetClosed
  rw [h]
  show { b with closed := SortedMap.empty } = b
  rw [← h]

/-- A sweep right after a sweep does nothing, and notes nothing. -/
theorem Swept.again (h : Swept now stale b b') (hb' : b'.Sound) (now' : Instant) :
    b'.sweep now' = pure b' := by
  have hnone := h.staleRecords_eq_nil hb'
  have hquiet : ¬(b'.closed.isEmpty = false) := by
    rw [h.closed]
    decide
  unfold sweep Noted.noteIf
  rw [forgetClosed_of_empty h.closed, if_neg hquiet]
  cases hc : b'.container? peerStateType with
  | none =>
    simp only [hc]
    rfl
  | some c =>
    -- The records that are left are kept by something.
    have hobjects : c.objects.filter b'.isStale = [] := by
      have hmap : c.objects.filter b'.isStale = b'.staleRecords.map (·.entry.object) := by
        rw [staleRecords, cachedOf_of_container hc, Container.objects, Container.snapshot,
          KeyedList.values, List.map_map, List.filter_map, List.filter_map, List.map_map]
        rfl
      rw [hmap, hnone, List.map_nil]
    simp only [hc, hobjects]
    exact drain_eq_pure h.rested now'

end Broker

end ObjectBus
