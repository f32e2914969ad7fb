import ObjectBus.Proofs.Broker.Candour
import ObjectBus.Proofs.Broker.Tables

/-!
# Shutting down

A broker that shuts down says goodbye to every guest, processes the closings and sweeps. What the
closings bring about is handed to guests that are closed themselves, and nothing is handed to those.
So it makes no difference in which order they are processed, nor which channels refuse the goodbye:
nobody is left, and nothing that was kept for the guests alone.

* `Connection.dismissed`: a connection whose host has said goodbye;
* `find?_farewells`: so are all connections before anything is processed;
* `Broker.deserted`: when that has been processed, all have left the table with their goodbyes;
* `swept_of_empty`, `channel?_sweep_of_empty`: the sweep that follows meets no channel at all;
* `ShutDown`, `Truthful.left_by_shutdown`: what is left in the end, and which records are;
* `Reachable.shutdown_leaves_nothing`: so it is from every state that a broker can be in.
-/

namespace ObjectBus

/-- The notice by which a host that shuts down says goodbye. -/
def Transmission.goodbye (now : Instant) : Transmission :=
  .ofControl (.notice .goodbye "host shutting down") now

namespace Connection

variable {c : Connection} {now : Instant} {error : TransportError}

/-- A connection whose host has said goodbye and closed it. -/
def dismissed (c : Connection) (now : Instant) : Connection :=
  ((c.send (.goodbye now)).value.close none).value

theorem isClosed_dismissed (c : Connection) (now : Instant) : (c.dismissed now).isClosed = true :=
  isClosed_eq_true_iff.2 (state_close _ _)

/-- If the channel takes the goodbye, that is the last thing it is handed. -/
theorem trace_dismissed_of_taken (hstate : c.state ≠ .closed ∧ c.state ≠ .suspended)
    (htaken : c.channel.refusal c.channel.trace (.goodbye now) = none) :
    (c.dismissed now).channel.trace = c.channel.trace ++ [.sent (.goodbye now), .closed] := by
  let told : Connection :=
    { c with channel := { c.channel with trace := c.channel.trace ++ [.sent (.goodbye now)] } }
  have hopen : told.isClosed = false := isClosed_eq_false_iff.2 hstate.1
  have htold : (c.send (.goodbye now)).value = told := value_send_of_taken hstate htaken
  rw [dismissed, htold, value_close_of_open hopen]
  exact List.append_assoc _ _ _

/-- If the channel refuses it, the connection has closed already. -/
theorem trace_dismissed_of_refused (hstate : c.state ≠ .closed ∧ c.state ≠ .suspended)
    (hrefused : c.channel.refusal c.channel.trace (.goodbye now) = some error) :
    (c.dismissed now).channel.trace =
      c.channel.trace ++ [.refused (.goodbye now) error, .closed] := by
  rw [dismissed, value_send_of_refused hstate hrefused]
  rfl

end Connection

namespace Broker

variable {now : Instant} {b b' : Broker} {peer : PeerId} {c : Connection}

/-! ## Goodbyes -/

theorem find?_farewell (b : Broker) (peer q : PeerId) (now : Instant) :
    (b.farewell peer now).value.connections.find? q =
      if q = peer then (b.connections.find? q).map (·.dismissed now)
      else b.connections.find? q := by
  unfold farewell
  cases hc : b.connections.find? peer with
  | none =>
    by_cases hq : q = peer
    · simp [hq, hc]
    · simp [hq]
  | some c =>
    simp only [Noted.value_bind, Noted.value_pure]
    rw [find?_putConnection]
    by_cases hq : q = peer
    · simp [hq, hc, Connection.dismissed, Connection.sendControl, Transmission.goodbye]
    · simp [hq]

/-- Every connection in the table is dismissed once. -/
theorem find?_farewells (b : Broker) (q : PeerId) (now : Instant) :
    (b.farewells now).connections.find? q =
      (b.connections.find? q).map (·.dismissed now) := by
  -- Said of any peers, since those that are left and the broker both change as the loop goes on.
  have hfold : ∀ (peers : List PeerId) (b : Broker), peers.Nodup →
      (peers.foldl (fun b peer => (b.farewell peer now).value) b).connections.find? q =
        if q ∈ peers then (b.connections.find? q).map (·.dismissed now)
        else b.connections.find? q := by
    intro peers
    induction peers with
    | nil => exact fun _ _ => rfl
    | cons peer rest ih =>
      intro b hpeers
      obtain ⟨hpeer, hrest⟩ := List.nodup_cons.1 hpeers
      rw [List.foldl_cons, ih _ hrest, find?_farewell]
      by_cases hq : q = peer
      · subst hq
        simp [hpeer]
      · simp [hq]
  rw [farewells, hfold _ b (SortedMap.nodup_keys b.connections)]
  cases hc : b.connections.find? q with
  | none => simp
  | some c => simp [SortedMap.mem_keys_iff, hc]

/-- The broker when the goodbyes have been processed. -/
def deserted (b : Broker) (now : Instant) : Broker := ((b.farewells now).drain now).value

/-- A guest that was there has left with its goodbye, and nothing more was done with its channel. -/
theorem Reachable.leaves_deserted (hb : b.Reachable) (hc : b.connections.find? peer = some c)
    (now : Instant) : (b.deserted now).connections.find? peer = none ∧
      (b.deserted now).traceOf peer = (c.dismissed now).channel.trace := by
  -- The goodbyes are part of a call, so that the queue in front of the drain is in order.
  have hstrand : Strand .shutdown now b (b.farewells now) := .steps (steps_farewells b)
  have hqueued : (b.farewells now).Queued [] := (hstrand.works hb.rested.queued).2
  have hdismissed : (b.farewells now).connections.find? peer = some (c.dismissed now) := by
    rw [find?_farewells, hc, Option.map_some]
  obtain ⟨hgone, -, htrace⟩ := leaves_drain hqueued (hb.buried.strand hstrand hb.rested.queued)
    (drain_rests hqueued) hdismissed (c.isClosed_dismissed now)
  exact ⟨hgone, htrace⟩

/-- Nothing has happened to a peer that was not there. -/
theorem serves_deserted (hc : b.connections.find? peer = none) (now : Instant) :
    Serves peer b (b.deserted now) := by
  have hsteps : Steps (.clearCache []) now b (b.farewells now) := steps_farewells b
  have hfarewells : Serves peer b (b.farewells now) := serves_of_steps hsteps peer
  obtain ⟨rounds, hrounds⟩ : ∃ rounds, Rounds now (b.farewells now) rounds (b.deserted now) :=
    rounds_drainWithin _ _
  exact hfarewells.trans (hrounds.absent (hfarewells.find?_eq_none_iff.2 hc)).1

/-- So nobody is left in the table. -/
theorem Reachable.connections_deserted (hb : b.Reachable) (now : Instant) :
    (b.deserted now).connections = .empty := by
  refine SortedMap.ext fun q => ?_
  rw [SortedMap.find?_empty]
  cases hc : b.connections.find? q with
  | none => exact (serves_deserted hc now).find?_eq_none_iff.2 hc
  | some c => exact (hb.leaves_deserted hc now).1

theorem Reachable.sound_deserted (hb : b.Reachable) (now : Instant) : (b.deserted now).Sound := by
  have hstrand : Strand .shutdown now b (b.deserted now) :=
    .trans (.steps (steps_farewells b)) (.drain _)
  exact (hb.tidy.moves (hstrand.works hb.rested.queued).1).sound

/-! ## The sweep -/

section Empty

variable (hempty : b.connections = .empty)

include hempty

theorem find?_of_empty (q : PeerId) : b.connections.find? q = none := by
  rw [hempty, SortedMap.find?_empty]

theorem rested_of_empty : b.Rested := by
  intro q c hc
  cases (find?_of_empty hempty q).symm.trans hc

/-- Where nobody is in the table no channel refuses anything. -/
theorem unfailing_of_empty : ∀ q ∈ b.connections.keys, b.Unfailing b' q := by
  intro q hq
  obtain ⟨c, hc⟩ := SortedMap.mem_keys_iff.1 hq
  cases (find?_of_empty hempty q).symm.trans hc

/-- Then a sweep does all that it should. -/
theorem swept_of_empty (hb : b.Sound) : Swept now b.staleRecords b (b.sweep now).value :=
  (rested_of_empty hempty).swept hb (unfailing_of_empty hempty)

/-- And it leaves all channels alone. -/
theorem channel?_sweep_of_empty (peer : PeerId) :
    (b.sweep now).value.channel? peer = b.channel? peer := by
  have heq : (b.sweep now).value = b.forgetClosed.afterRemovals b.staleRecords now :=
    (value_sweep_of_unfailing (rested_of_empty hempty) (unfailing_of_empty hempty)).2
  have hserves : Serves peer b.forgetClosed (b.forgetClosed.afterRemovals b.staleRecords now) :=
    serves_of_steps (steps_afterRemovals _ _ _) peer
  rw [heq, hserves.channel?_of_gone (find?_of_empty hempty peer), channel?_forgetClosed]

end Empty

/-- Shutting down is sweeping a deserted broker. -/
theorem perform_shutdown (b : Broker) (now : Instant) :
    b.perform .shutdown now = ((b.deserted now).sweep now).value :=
  value_shutdown b now

theorem Reachable.swept_deserted (hb : b.Reachable) (now : Instant) :
    Swept now (b.deserted now).staleRecords (b.deserted now) (b.perform .shutdown now) := by
  rw [perform_shutdown]
  exact swept_of_empty (hb.connections_deserted now) (hb.sound_deserted now)

/-! ## What is left -/

/-- What is left of a broker that was shut down, whatever the channels have refused. -/
structure ShutDown (now : Instant) (before after : Broker) : Prop where
  /-- There are no connections. -/
  connections : after.connections = .empty
  /-- None is remembered as closed. -/
  closed : after.closed = .empty
  /-- No group has a member. -/
  groups : ∀ name g, after.group? name = some g → g.members = []
  /-- What is cached of a type with clean-up was written last by the host. -/
  owned : ∀ schema cache key e, after.registry.findStruct? schema.name = some schema →
    schema.flags.cached = true → schema.flags.cleanup = true →
    after.container? schema.name = some cache → cache.find? key = some e →
      e.provenance.lastUpdateFrom = hostId
  /-- The channel of a guest that was there took the goodbye as its last frame, and was closed. -/
  told : ∀ peer c, before.connections.find? peer = some c →
    c.channel.refusal c.channel.trace (.goodbye now) = none →
      after.traceOf peer = before.traceOf peer ++ [.sent (.goodbye now), .closed] ∧
      (after.framesTo peer).getLast? = some (.goodbye now)
  /-- If it did not take it, the refusal was the end. -/
  refused : ∀ peer c error, before.connections.find? peer = some c →
    c.channel.refusal c.channel.trace (.goodbye now) = some error →
      after.traceOf peer = before.traceOf peer ++ [.refused (.goodbye now) error, .closed]
  /-- The channels of guests that were there before are as they were. -/
  others : ∀ peer, before.connections.find? peer = none →
    after.channel? peer = before.channel? peer

/-- Where nobody is in either table no group has a member. -/
theorem Reachable.members_eq_nil (hb : b.Reachable) (hempty : b.connections = .empty)
    (hclosed : b.closed = .empty) {name : String} {g : Group} (hg : b.group? name = some g) :
    g.members = [] := by
  refine List.eq_nil_iff_forall_not_mem.2 fun peer hpeer => ?_
  have hmember : b.groups.hasMember name peer = true := by
    have hfound : b.groups.find? name = some g := hg
    rw [GroupTable.hasMember, hfound]
    exact SortedMap.contains_eq_true_iff.2 (SortedMap.mem_keys_iff.1 hpeer)
  -- A member would have a connection in one of the tables.
  rcases hb.members name peer hmember with hthere | hthere
  · exact hthere (find?_of_empty hempty peer)
  · rw [hclosed, SortedMap.find?_empty] at hthere
    exact hthere rfl

/-- Where nobody is in the table the host is the last writer of all that goes with its writer. -/
theorem Reachable.writer_eq_host (hb : b.Reachable) (hempty : b.connections = .empty)
    {typeName : String} {key : ObjectKey} {e : Entry} (hclean : typeName ∈ b.cleanupTypes)
    (he : b.cachedAt? typeName key = some e) : e.provenance.lastUpdateFrom = hostId := by
  refine (hb.tidy.owned typeName key e hclean he).resolve_right ?_
  rintro ⟨c, hc⟩
  cases (find?_of_empty hempty _).symm.trans hc

theorem Reachable.connections_shutdown (hb : b.Reachable) (now : Instant) :
    (b.perform .shutdown now).connections = .empty := by
  refine SortedMap.ext fun q => ?_
  rw [(hb.swept_deserted now).connections, find?_of_empty (hb.connections_deserted now),
    SortedMap.find?_empty, Option.map_none]

theorem Reachable.channel?_shutdown (hb : b.Reachable) (now : Instant) (peer : PeerId) :
    (b.perform .shutdown now).channel? peer = (b.deserted now).channel? peer := by
  rw [perform_shutdown]
  exact channel?_sweep_of_empty (hb.connections_deserted now) peer

/-- What was done with the channel of a guest that was there is what was done when it was
dismissed. -/
theorem Reachable.traceOf_shutdown (hb : b.Reachable) (hc : b.connections.find? peer = some c)
    (now : Instant) :
    (b.perform .shutdown now).traceOf peer = (c.dismissed now).channel.trace := by
  rw [← (hb.leaves_deserted hc now).2, traceOf, hb.channel?_shutdown, traceOf]

/-- This is what is left of every reachable broker. -/
theorem Reachable.shutDown (hb : b.Reachable) (now : Instant) :
    ShutDown now b (b.perform .shutdown now) := by
  have hafter : (b.perform .shutdown now).Reachable := hb.perform .shutdown now
  have hempty := hb.connections_shutdown now
  have hclosed := (hb.swept_deserted now).closed
  -- The connections in the table take part, so that their channels are handed the goodbye.
  have hstate : ∀ peer c, b.connections.find? peer = some c →
      c.state ≠ .closed ∧ c.state ≠ .suspended := fun peer c hc =>
    ⟨Connection.isClosed_eq_false_iff.1 (hb.rested peer c hc).2, hb.state_ne_suspended hc⟩
  refine ⟨hempty, hclosed, fun name g hg => hafter.members_eq_nil hempty hclosed hg,
    fun schema cache key e hs hcached hasks hcache he => ?_, fun peer c hc htaken => ?_,
    fun peer c error hc hrefused => ?_, fun peer hc => ?_⟩
  · have hclean : schema.name ∈ (b.perform .shutdown now).cleanupTypes :=
      (hafter.tidy.listed.2 schema.name).2 ⟨schema, hs, hcached, hasks⟩
    have hentry : (b.perform .shutdown now).cachedAt? schema.name key = some e := by
      rw [cachedAt?, hcache]
      exact he
    exact hafter.writer_eq_host hempty hclean hentry
  · have htrace := hb.traceOf_shutdown hc now
    rw [Connection.trace_dismissed_of_taken (hstate peer c hc) htaken,
      ← traceOf_of_open hc] at htrace
    refine ⟨htrace, ?_⟩
    rw [framesTo_eq, htrace, List.filterMap_append]
    simp [ChannelAction.sent?]
  · rw [hb.traceOf_shutdown hc,
      Connection.trace_dismissed_of_refused (hstate peer c hc) hrefused, traceOf_of_open hc]
  · rw [hb.channel?_shutdown, (serves_deserted hc now).channel?_of_gone hc]

/-- A record that is left says that its peer has closed, and is kept because something that is left
names the peer. -/
theorem Truthful.left_by_shutdown (h : Truthful [] b) (hb : b.Reachable) (now : Instant)
    {key : ObjectKey} {o : Object}
    (ho : (b.perform .shutdown now).cached? peerStateType key = some o) :
    ∃ peer name, key = [.uint peer.toUInt64] ∧ o = PeerState.record peer name .closed ∧
      (b.perform .shutdown now).Refers peer := by
  have hsound : (b.perform .shutdown now).Sound := (hb.perform .shutdown now).sound
  -- A record tells the state of its peer, and that of a peer that is gone is closed.
  have htruthful : Truthful [] (b.perform .shutdown now) := h.shutdown hb.tidy hb.rested now
  obtain ⟨peer, name, state, hkey, rfl, hgone, -⟩ := htruthful.records key o ho
  obtain rfl := hgone (find?_of_empty (hb.shutDown now).connections peer)
  refine ⟨peer, name, hkey, rfl, ?_⟩
  by_contra hnone
  -- Otherwise the record would be stale, and a sweep leaves none that is.
  obtain ⟨e, he, hobject⟩ := Option.map_eq_some_iff.1 ho
  obtain ⟨x, hin, hplace, rfl⟩ := exists_isIn hsound he
  have hstale : x ∈ (b.perform .shutdown now).staleRecords := by
    refine (mem_staleRecords_iff hsound).2 ⟨hin, congrArg Prod.fst hplace, peer, ?_, hnone⟩
    rw [hobject, PeerState.ofRecord?_record]
  rw [(hb.swept_deserted now).staleRecords_eq_nil hsound] at hstale
  cases hstale

/-- Shutting down leaves nothing behind, in whatever state the broker is and however channels fail:
no connections, no members, and no objects of guests that were to go with them. Every guest whose
channel takes the goodbye is handed nothing after it. Unless records of peers were published as the
host, only those are left that say of a peer that it has closed and are still referred to. -/
theorem Reachable.shutdown_leaves_nothing (hb : b.Reachable) (now : Instant) :
    ShutDown now b (b.perform .shutdown now) ∧
    (Transmission.goodbye now).noticeCode? = some 0 ∧
    ∀ start calls, Started start → (∀ call ∈ calls, ¬call.1.Records) → b = start.after calls →
      ∀ key o, (b.perform .shutdown now).cached? peerStateType key = some o →
        ∃ peer name, key = [.uint peer.toUInt64] ∧ o = PeerState.record peer name .closed ∧
          (b.perform .shutdown now).Refers peer := by
  refine ⟨hb.shutDown now, rfl, ?_⟩
  rintro start calls hstart hcalls rfl key o ho
  exact (hstart.truthful.after hstart.reachable hcalls).left_by_shutdown hb now ho

/-- Notes that are kept when their writers go. -/
def keptNotes : StructSchema := { noteSchema with flags := { cached := true } }

/-- A guest writes such a note, and another one comes whose channel begins to fail. -/
def evening : List (BrokerCall × Instant) :=
  [(.registerStruct keptNotes, default),
    (.accept (.reliable "author"), default),
    (.receive 2 (.ofControl (.connectAs "author" false) default), default),
    (.receive 2 (.ofObject { typeName := keptNotes.name } (note 1 "mine")), default),
    (.accept (.reliable "other"), default),
    (.disturb 3 fun _ _ => some .closed, default)]

/-- The goodbye is the last frame of the first guest, and the channel of the second refuses it. The
record of the first is kept for the sake of its note, and that of the second is retracted. -/
theorem shutdown_after_evening :
    let b := (new "lobby" default).value.after evening
    let b' := b.perform .shutdown default
    ShutDown default b b' ∧
      b'.traceOf 2 = b.traceOf 2 ++ [.sent (.goodbye default), .closed] ∧
      b'.traceOf 3 = b.traceOf 3 ++ [.refused (.goodbye default) .closed, .closed] ∧
      (∃ name, b'.cached? peerStateType [.uint 2] = some (PeerState.record 2 name .closed)) ∧
      b'.Refers 2 ∧ b'.cached? peerStateType [.uint 3] = none := by
  intro b b'
  have hstart : Started (new "lobby" default).value := .new "lobby" default
  have hb : b.Reachable := hstart.reachable.after evening
  have hcalls : ∀ call ∈ evening, ¬call.1.Records := by
    simp [evening, BrokerCall.Records]
  obtain ⟨hshut, -, hrecords⟩ := Reachable.shutdown_leaves_nothing hb default
  obtain ⟨author, hauthor, htaken⟩ : ∃ c, b.connections.find? 2 = some c ∧
      c.channel.refusal c.channel.trace (.goodbye default) = none := ⟨_, rfl, rfl⟩
  obtain ⟨other, hother, hrefused⟩ : ∃ c, b.connections.find? 3 = some c ∧
      c.channel.refusal c.channel.trace (.goodbye default) = some .closed := ⟨_, rfl, rfl⟩
  obtain ⟨o, ho⟩ : ∃ o, b'.cached? peerStateType [.uint 2] = some o := by
    refine Option.ne_none_iff_exists'.1 ?_
    decide +kernel
  have hnone : b'.cached? peerStateType [.uint 3] = none := by decide +kernel
  obtain ⟨peer, name, hkey, rfl, hrefers⟩ := hrecords _ evening hstart hcalls rfl _ o ho
  obtain rfl : 2 = peer := PeerState.recordKey_inj.1 hkey
  exact ⟨hshut, (hshut.told 2 author hauthor htaken).1,
    hshut.refused 3 other .closed hother hrefused, ⟨name, ho⟩, hrefers, hnone⟩

end Broker

end ObjectBus
