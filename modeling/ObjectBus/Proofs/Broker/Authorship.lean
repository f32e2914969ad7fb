import ObjectBus.Proofs.Broker.Partings

/-!
# Who speaks for whom

Whatever a guest declares, it writes in its own name. What the host publishes while it processes an
object is not on behalf of that object: when it is handed on, connections may be found closed, and
then the host records that their guests have parted and takes out what goes with them.

* `TellsPartings`: observers are told of objects and of guests that have parted only;
* `tellsPartings_drain`, `Reachable.tellsPartings_receive`: so it is while an object is processed;
* `Obituary`: what the host then publishes on its own account;
* `Reachable.authority`: all frames are authentic and all states attributed.
-/

namespace ObjectBus

namespace Broker

variable {now : Instant} {b b' b'' m s : Broker} {peer q : PeerId} {c : Connection}
variable {t : Transmission} {o : Object}

/-! ## What observers are told -/

/-- Between two states observers are told of objects and of guests that have parted, and of nothing
else. Nobody comes. -/
structure TellsPartings (b b' : Broker) : Prop where
  /-- Nobody has come. -/
  leaves : Leaves b b'
  /-- Events are only appended. -/
  events : b.events <+: b'.events
  /-- They are about objects, or a connection has closed and its guest has parted. -/
  told : ∀ event ∈ b.newEvents b', (∃ e, event = .object e) ∨
    ∃ q name cause, event = .peerState q name .closed cause ∧ Parted q b b'

/-- Passing on an object tells of objects. -/
theorem mem_eventsOf {schema : StructSchema} {h : Header} {event : BrokerEvent}
    (hevent : event ∈ b.eventsOf schema h o now) : ∃ e, event = .object e := by
  unfold eventsOf at hevent
  split at hevent
  · exact ⟨_, List.mem_singleton.1 hevent⟩
  · cases hevent

theorem events_publishAsHost (b : Broker) (o : Object) (included : Option PropertySet)
    (remove : Bool) (now : Instant) :
    ∃ events, (b.publishAsHost o included remove now).value.1.events = b.events ++ events ∧
      ∀ event ∈ events, ∃ e, event = .object e := by
  rcases b.publishAsHost_cases o now included remove with ⟨schema, -, -, heq⟩ | heq
  · exact ⟨_, heq ▸ events_dispatch .., fun _ => mem_eventsOf⟩
  · exact ⟨[], by rw [heq, List.append_nil], List.forall_mem_nil _⟩

namespace TellsPartings

theorem refl (b : Broker) : TellsPartings b b where
  leaves := .refl b
  events := List.prefix_rfl
  told event hevent := by
    rw [newEvents_of_append (List.append_nil b.events).symm] at hevent
    cases hevent

/-- A later part may be judged from the start. -/
theorem extend (h : TellsPartings m s) (hleaves : Leaves s b') {events : List BrokerEvent}
    (hevents : b'.events = s.events ++ events)
    (htold : ∀ event ∈ events, (∃ e, event = .object e) ∨
      ∃ q name cause, event = .peerState q name .closed cause ∧ Parted q m b') :
    TellsPartings m b' := by
  refine ⟨h.leaves.trans hleaves, h.events.trans ⟨events, hevents.symm⟩, fun event hevent => ?_⟩
  rw [newEvents_append h.events ⟨events, hevents.symm⟩, newEvents_of_append hevents] at hevent
  rcases List.mem_append.1 hevent with hold | hnew
  · refine (h.told event hold).imp_right ?_
    rintro ⟨q, name, cause, heq, hparted⟩
    exact ⟨q, name, cause, heq, hparted.later hleaves⟩
  · exact htold event hnew

theorem trans (h : TellsPartings b b') (h' : TellsPartings b' b'') : TellsPartings b b'' := by
  obtain ⟨events, hevents⟩ := h'.events
  refine h.extend h'.leaves hevents.symm fun event hevent => ?_
  rw [← newEvents_of_append hevents.symm] at hevent
  refine (h'.told event hevent).imp_right ?_
  rintro ⟨q, name, cause, heq, hparted⟩
  exact ⟨q, name, cause, heq, hparted.earlier h.leaves⟩

theorem takePending (h : TellsPartings m s) : TellsPartings m s.takePending :=
  h.extend (leaves_takePending s) (List.append_nil s.events).symm (List.forall_mem_nil _)

/-- Processing a closing tells of it, and of the objects that go with the guest. -/
theorem onTransition (h : TellsPartings m s) (hs : s.Tidy) (hq : m.connections.find? q ≠ none)
    {t : Transition} (hcloses : t.closes = true) :
    TellsPartings m (s.onTransition q t now).value := by
  obtain ⟨hleaves, hgone⟩ := leaves_onTransition s q t now
  have hstate : t.state = .closed := by simpa [Transition.closes] using hcloses
  have hparted : Parted q m (s.onTransition q t now).value := ⟨hq, hgone hcloses⟩
  obtain ⟨events, hevents, hobjects⟩ := events_publishAsHost
    ((s.onClosed q now).value.emit
      (.peerState q ((s.peerName? q).getD unnamedPeer) .closed t.cause))
    (PeerState.record q ((s.peerName? q).getD unnamedPeer) .closed) none false now
  have hall : (s.onTransition q t now).value.events = s.events ++
      (((s.orphans q).map fun x => .object (x.removal now)) ++
        .peerState q ((s.peerName? q).getD unnamedPeer) .closed t.cause :: events) := by
    rw [value_onTransition, leftBy, if_pos hcloses, hstate, hevents, Broker.emit,
      (hs.departure q now).events, List.append_assoc, List.append_assoc, List.singleton_append]
  refine h.extend hleaves hall fun event hevent => ?_
  rcases List.mem_append.1 hevent with hremoval | hrest
  · obtain ⟨x, -, rfl⟩ := List.mem_map.1 hremoval
    exact .inl ⟨_, rfl⟩
  · rcases List.mem_cons.1 hrest with rfl | hobject
    · exact .inr ⟨q, _, _, rfl, hparted⟩
    · exact .inl (hobjects event hobject)

end TellsPartings

/-- If nothing waits but that connections have closed, draining tells of nothing else. -/
theorem tellsPartings_drain (hm : m.Tidy) (hq : m.Queued [])
    (hcloses : ∀ peer c, m.connections.find? peer = some c → c.OnlyCloses) :
    TellsPartings m (m.drain now).value := by
  refine (hm.drain_induction hq (I := fun taken s => TellsPartings m s ∧ Closing m taken s) ?_ ?_
    ⟨.refl m, List.forall_mem_nil _, hcloses⟩).1
  · rintro s - ⟨htells, hclosing⟩
    exact ⟨htells.takePending, hclosing.takePending htells.leaves⟩
  · rintro s x taken hs ⟨htells, hclosing⟩
    obtain ⟨hparts, hpresent⟩ := hclosing.taken x List.mem_cons_self
    exact ⟨htells.onTransition hs hpresent hparts, hclosing.onTransition now⟩

/-! ## Frames with objects -/

theorem events_report (b : Broker) (peer : PeerId) (e : BrokerError) :
    (b.report peer e now).value.events = b.events := by
  unfold report
  split
  · rfl
  · split <;> rfl

theorem events_settle (peer : PeerId) (r : Broker × Outcome Unit) :
    (settle peer now r).value.events = r.1.events := by
  unfold settle
  split
  · rfl
  · exact events_report r.1 peer _

theorem events_acceptObject (b : Broker) (h : Header) (o : Object) (now : Instant) :
    ∃ events, (b.acceptObject h o now).value.1.events = b.events ++ events ∧
      ∀ event ∈ events, ∃ e, event = .object e := by
  have hsame : ∃ events, b.events = b.events ++ events ∧
      ∀ event ∈ events, ∃ e, event = .object e :=
    ⟨[], (List.append_nil _).symm, List.forall_mem_nil _⟩
  unfold acceptObject
  split
  · exact hsame
  · split
    · exact hsame
    · split
      · exact hsame
      · exact ⟨_, events_dispatch .., fun _ => mem_eventsOf⟩

/-- What follows from an object that a guest has sent, before the queues are drained: every guest is
only served, and observers are told of objects. -/
theorem acceptReceived_of_object (hc : b.connections.find? peer = some c)
    (hpayload : t.payload = .object o) (now : Instant) :
    Steps (.receive peer t) now b (b.acceptReceived peer (c.receive t now).value.2 now).value ∧
      ∃ events, (b.acceptReceived peer (c.receive t now).value.2 now).value.events =
        b.events ++ events ∧ ∀ event ∈ events, ∃ e, event = .object e := by
  have hreports : ∀ e, Steps (.receive peer t) now b (b.report peer e now).value ∧
      ∃ events, (b.report peer e now).value.events = b.events ++ events ∧
        ∀ event ∈ events, ∃ e, event = .object e := fun e =>
    ⟨steps_report b peer e, [], by rw [events_report, List.append_nil], List.forall_mem_nil _⟩
  cases hreceived : (c.receive t now).value.2 with
  | handled => exact ⟨.refl, [], (List.append_nil _).symm, List.forall_mem_nil _⟩
  | rejected violation => exact hreports _
  | fatal e => exact hreports e
  | object h o =>
    obtain ⟨events, hevents, hobjects⟩ := b.events_acceptObject h o now
    refine ⟨(steps_acceptObject rfl hc hreceived).trans (steps_settle peer _), events, ?_, hobjects⟩
    exact (events_settle peer _).trans hevents
  | control request =>
    rw [Connection.payload_of_receive hreceived] at hpayload
    cases hpayload

/-- While an object is processed that a guest has sent, observers are told of objects and of guests
that part. -/
theorem Reachable.tellsPartings_receive (hb : b.Reachable)
    (hc : b.connections.find? peer = some c) (hpayload : t.payload = .object o) (now : Instant) :
    TellsPartings b (b.perform (.receive peer t) now) := by
  obtain ⟨hsteps, events, hevents, hobjects⟩ := acceptReceived_of_object hc hpayload now
  have hperform : b.perform (.receive peer t) now =
      ((b.acceptReceived peer (c.receive t now).value.2 now).value.drain now).value := by
    show (b.receive peer t now).value.1 = _
    unfold receive
    simp only [hc, Noted.value_bind, Noted.value_pure]
    rw [Connection.receive_fst_of_object hpayload, putConnection_self hc]
  -- Hearing an object changes no connection, so that nothing waits in any but a closing.
  have hserves : ∀ q, Serves q b (b.acceptReceived peer (c.receive t now).value.2 now).value := by
    refine fun q => hsteps.serves rfl fun t' heq c => ?_
    cases heq
    exact Connection.receive_fst_of_object hpayload c
  have htells : TellsPartings b (b.acceptReceived peer (c.receive t now).value.2 now).value :=
    (TellsPartings.refl b).extend (hsteps.leaves (by simp)) hevents fun event hevent =>
      .inl (hobjects event hevent)
  rw [hperform]
  exact htells.trans (tellsPartings_drain (hb.tidy.moves (Moves.of_steps hsteps))
    (hb.rested.queued.steps hsteps) fun q _ hc' => onlyCloses_of_serves hb.rested (hserves q) hc')

/-- What the host publishes because a guest has parted. -/
inductive Obituary (now : Instant) (b b' : Broker) : Passage → Prop
  /-- The record of the guest, which says that it has closed. -/
  | record {schema : StructSchema} {peer : PeerId} {name : String} (h : Parted peer b b') :
      Obituary now b b' (.publication schema (PeerState.record peer name .closed) now)
  /-- The removal of an object that the guest wrote last, and whose type asks for clean-up. -/
  | removal {x : CachedObject} (h : Parted x.entry.provenance.lastUpdateFrom b b')
      (hcleanup : x.schema.flags.cleanup = true) (hheld : b.Held b' x) :
      Obituary now b b' (.removal x.schema x.entry.object now)

/-- Where observers are told of objects and of partings only, and no cache is to be cleared, the
host publishes nothing else. -/
theorem TellsPartings.obituary {cleared : String → Prop} {p : Passage} (h : TellsPartings b b')
    (hclear : ∀ typeName, ¬cleared typeName) (hdeed : Deed now b b' cleared p) :
    Obituary now b b' p := by
  cases hdeed with
  | errand herrand =>
    cases herrand with
    | announcement hevent =>
      obtain ⟨e, heq⟩ | ⟨q, name, cause, heq, -⟩ := h.told _ hevent
      · cases heq
      · cases heq
    | clear hcleared => exact absurd hcleared (hclear _)
  | record hrecord =>
    obtain @⟨schema, peer, name, state, cause, hevent, -⟩ := hrecord
    obtain ⟨e, heq⟩ | ⟨q, name', cause', heq, hparted⟩ := h.told _ hevent
    · cases heq
    · cases heq
      exact .record hparted
  | cleanUp _ hparted hcleanup hheld => exact .removal hparted hcleanup hheld

/-! ## Authority -/

/-- Whatever a guest declares, it writes in its own name and where it may. Every frame of a guest is
authentic, and if it carries an object the host does nothing on its own account but for guests that
part meanwhile. So in every state everything is attributed. The types that are reserved are the
built-in ones, if the broker knows these. -/
theorem Reachable.authority (hb : b.Reachable) :
    (∀ peer c t now, b.connections.find? peer = some c →
      Authentic b (b.perform (.receive peer t) now) peer c t now ∧
      ∀ o, t.payload = .object o → TellsPartings b (b.perform (.receive peer t) now) ∧
        ∀ p, Deed now b (b.perform (.receive peer t) now) (Clears t) p →
          Obituary now b (b.perform (.receive peer t) now) p) ∧
    b.Attributed ∧
    (b.KnowsBuiltin → ∀ typeName,
      b.Reserved typeName ↔ typeName = peerStateType ∨ typeName = typeAnnounceType) := by
  refine ⟨fun peer c t now hc => ⟨hb.authentic_receive hc t now, fun o hpayload => ?_⟩,
    hb.attributed, fun hbuiltin _ => hbuiltin.reserved_iff⟩
  have htells := hb.tellsPartings_receive hc hpayload now
  refine ⟨htells, fun p hdeed => htells.obituary (fun typeName hclears => ?_) hdeed⟩
  -- A frame with an object asks for nothing to be cleared.
  obtain ⟨typeNames, hcontrol, -⟩ := hclears
  rw [hpayload] at hcontrol
  cases hcontrol

/-- A note whose header declares that the host itself published it. -/
def forgedNote : Transmission :=
  .ofObject { typeName := noteSchema.name, sender := some hostId, isFromMyself := true }
    (note 2 "mine")

/-- The reader's forged note is passed on as the reader's. -/
theorem authority_of_forged_note : ∃ c p event,
    (boardWithReader false).connections.find? 2 = some c ∧
    (boardWithReader false).Authored 2 c forgedNote default p ∧
    .object event ∈ (boardWithReader false).newEvents
      ((boardWithReader false).perform (.receive 2 forgedNote) default) ∧
    event.Tells p ∧ event.header.sender = some 2 ∧ event.isFromMyself = false ∧
      event.provenance.createdFrom = 2 := by
  have hreachable : (boardWithReader false).Reachable := reachable_board.perform _ _
  obtain ⟨hauthentic, -⟩ := Reachable.authority hreachable
  obtain ⟨c, hc⟩ : ∃ c, (boardWithReader false).connections.find? 2 = some c := ⟨_, rfl⟩
  obtain ⟨event, hevents, hsender, hforeign, hcreator⟩ : ∃ event,
      (boardWithReader false).newEvents
        ((boardWithReader false).perform (.receive 2 forgedNote) default) = [.object event] ∧
      event.header.sender = some 2 ∧ event.isFromMyself = false ∧
        event.provenance.createdFrom = 2 := ⟨_, rfl, rfl, rfl, rfl⟩
  have hmem : .object event ∈ (boardWithReader false).newEvents
      ((boardWithReader false).perform (.receive 2 forgedNote) default) := by
    rw [hevents]
    exact List.mem_singleton_self _
  obtain ⟨p, hauthored | hdeed, htells⟩ := (hauthentic 2 c forgedNote default hc).1.told event hmem
  · exact ⟨c, p, event, hc, hauthored, hmem, htells, hsender, hforeign, hcreator⟩
  · -- A deed of the host would name the host as its sender.
    rw [htells.header, hdeed.sender.1] at hsender
    cases hsender

end Broker

end ObjectBus
