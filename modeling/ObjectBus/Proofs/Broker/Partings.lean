import ObjectBus.Proofs.Broker.Rounds

/-!
# Partings

When nothing waits but that connections have closed, draining is a matter of partings. The objects
that a guest wrote last go with it if their types ask for that, and its record is written anew.
Nothing else is removed or written, although sending the removals and the records may close more
connections.

* `Connection.OnlyCloses`: nothing waits but a closing, and what a host does with a connection keeps
  it so;
* `Follows`: an object that goes with a guest that has parted;
* `OnRecord`, `Affected`: the entries that may change;
* `Partings`: what has changed between two states, with one lemma for each part of a drain;
* `partings_drain`: all of a drain;
* `Reachable.partings_after`: the drain that ends a call.
-/

namespace ObjectBus

namespace Connection

variable {c c' : Connection}

/-- Nothing waits but that the connection has closed. -/
def OnlyCloses (c : Connection) : Prop := ∀ t ∈ c.transitions, t.closes = true

theorem OnlyCloses.close (h : c.OnlyCloses) (cause : Option String) :
    (c.close cause).value.OnlyCloses := by
  by_cases hclosed : c.isClosed = true
  · unfold Connection.close
    rwa [if_pos hclosed]
  · rw [value_close_of_open (by simpa using hclosed)]
    intro t ht
    rcases List.mem_append.1 ht with ht | ht
    · exact h t ht
    · obtain rfl := List.mem_singleton.1 ht
      rfl

theorem OnlyCloses.send (h : c.OnlyCloses) (t : Transmission) : (c.send t).value.OnlyCloses := by
  rcases c.send_cases t with ⟨hsame, -⟩ | ⟨-, ⟨channel, heq, -⟩ | ⟨channel, error, heq, -⟩⟩
  · rwa [hsame]
  · rw [heq]
    exact h
  · -- A channel that fails closes its connection.
    have hchannel : OnlyCloses { c with channel := channel } := h
    rw [heq, value_transportFailed]
    exact hchannel.close _

/-- What a host does with a connection on its own account is at most to close it. -/
theorem Hosted.onlyCloses (h : c.Hosted c') (hc : c.OnlyCloses) : c'.OnlyCloses := by
  refine h.induction (fun d t hd => hd.send t) (fun d cause hd => hd.close cause)
    (fun d typeName hd => ?_) (fun _ _ hd => hd) hc
  show (d.rememberImport typeName).OnlyCloses
  unfold rememberImport
  split <;> exact hd

end Connection

namespace Broker

variable {call : BrokerCall} {now : Instant} {b b' b'' m s s' : Broker} {q : PeerId}
variable {x : CachedObject} {typeName : String} {key : ObjectKey}
variable {taken : List (PeerId × Transition)}

/-! ## What may change -/

/-- An object goes with a guest that has parted. -/
structure Follows (x : CachedObject) (q : PeerId) (b b' : Broker) : Prop where
  /-- The guest has parted. -/
  parted : Parted q b b'
  /-- The type asks for clean-up. -/
  cleanup : x.schema.flags.cleanup = true
  /-- The guest wrote the object last. -/
  writer : x.entry.provenance.lastUpdateFrom = q
  /-- The object was cached before. What the host has written since then are records, and those go
  with a guest only when the numbers have run out and the guest has that of the host. -/
  origin : x.IsIn b ∨ x.schema.name = peerStateType ∧ q = hostId

/-- An entry is under the key of the record of a guest that has parted, and was written by the host
if it is there at all. -/
structure OnRecord (typeName : String) (key : ObjectKey) (q : PeerId) (b b' : Broker) : Prop where
  /-- The guest has parted. -/
  parted : Parted q b b'
  /-- The type is that of the records. -/
  record : typeName = peerStateType
  /-- The key is that of the record. -/
  keyed : ∃ name schema, b'.registry.findStruct? peerStateType = some schema ∧
    schema.keyOf (PeerState.record q name .closed) = .ok key
  /-- The host wrote it last. -/
  writer : ∀ e, b'.cachedAt? typeName key = some e → e.provenance.lastUpdateFrom = hostId

/-- An entry may change because of a guest that has parted. -/
inductive Affected (typeName : String) (key : ObjectKey) (b b' : Broker) : Prop
  /-- The object has gone with the guest. -/
  | gone {x : CachedObject} {q : PeerId} (hx : Follows x q b b') (hin : x.IsIn b)
      (hplace : x.place = (typeName, key)) (hnone : b'.cachedAt? typeName key = none)
  /-- It is the record of the guest. -/
  | recorded {q : PeerId} (h : OnRecord typeName key q b b')

theorem Follows.later (h : Follows x q b b') (hleaves : Leaves b' b'') : Follows x q b b'' :=
  ⟨h.parted.later hleaves, h.cleanup, h.writer, h.origin⟩

theorem OnRecord.later (h : OnRecord typeName key q b b') (hleaves : Leaves b' b'')
    (hregistry : b''.registry = b'.registry)
    (hwriter : ∀ e, b''.cachedAt? typeName key = some e → e.provenance.lastUpdateFrom = hostId) :
    OnRecord typeName key q b b'' :=
  ⟨h.parted.later hleaves, h.record, hregistry ▸ h.keyed, hwriter⟩

/-- An entry that stays as it is stays affected. -/
theorem Affected.later (h : Affected typeName key b b') (hleaves : Leaves b' b'')
    (hregistry : b''.registry = b'.registry)
    (hsame : b''.cachedAt? typeName key = b'.cachedAt? typeName key) :
    Affected typeName key b b'' := by
  cases h with
  | gone hx hin hplace hnone => exact .gone (hx.later hleaves) hin hplace (hsame.trans hnone)
  | recorded h => exact .recorded (h.later hleaves hregistry fun e he => h.writer e (hsame ▸ he))

/-- All that has changed between two states comes from guests that have parted. -/
structure Partings (now : Instant) (b b' : Broker) : Prop where
  /-- The types are the same. -/
  registry : b'.registry = b.registry
  /-- Nobody has come. -/
  leaves : Leaves b b'
  /-- Events are only appended. -/
  events : b.events <+: b'.events
  /-- Other entries are the same. -/
  entries : ∀ typeName key, b'.cachedAt? typeName key = b.cachedAt? typeName key ∨
    Affected typeName key b b'
  /-- Observers are told of no other removals. -/
  removals : ∀ e, .object e ∈ b.newEvents b' → e.operation = .remove →
    ∃ x q, Follows x q b b' ∧ e = x.removal now
  /-- Guests are sent no other removals. -/
  frames : b.Sends (fun _ t => t.header.remove = true →
    ∃ x q, Follows x q b b' ∧ t = x.removalFrame now) b'

/-! ## The parts of a drain -/

namespace Partings

theorem refl (now : Instant) (b : Broker) : Partings now b b where
  registry := rfl
  leaves := .refl b
  events := List.prefix_rfl
  entries _ _ := .inl rfl
  removals e he := by
    rw [newEvents_of_append (List.append_nil b.events).symm] at he
    cases he
  frames := .of_eq _ fun _ => rfl

/-- What has changed in two parts. The second one may go by what was there before the first. -/
theorem extend (h : Partings now m s) (hregistry : s'.registry = s.registry) (hleaves : Leaves s s')
    (hevents : s.events <+: s'.events)
    (hentries : ∀ typeName key, s'.cachedAt? typeName key = s.cachedAt? typeName key ∨
      Affected typeName key m s')
    (hremovals : ∀ e, .object e ∈ s.newEvents s' → e.operation = .remove →
      ∃ x q, Follows x q m s' ∧ e = x.removal now)
    (hframes : s.Sends (fun _ t => t.header.remove = true →
      ∃ x q, Follows x q m s' ∧ t = x.removalFrame now) s') : Partings now m s' := by
  refine ⟨hregistry.trans h.registry, h.leaves.trans hleaves,
    h.events.trans hevents, fun typeName key => ?_, fun e he hremove => ?_, ?_⟩
  · rcases hentries typeName key with hsame | haffected
    -- What the first part has changed is still affected if the second one leaves it alone.
    · exact (h.entries typeName key).imp hsame.trans fun haffected =>
        haffected.later hleaves hregistry hsame
    · exact .inr haffected
  · rw [newEvents_append h.events hevents, List.mem_append] at he
    rcases he with he | he
    · obtain ⟨x, q, hx, heq⟩ := h.removals e he hremove
      exact ⟨x, q, hx.later hleaves, heq⟩
    · exact hremovals e he hremove
  · refine .trans (h.frames.mono fun _ t ht hremove => ?_) hframes
    obtain ⟨x, q, hx, heq⟩ := ht hremove
    exact ⟨x, q, hx.later hleaves, heq⟩

/-- What is not about objects makes no difference. -/
theorem of_same (h : Partings now m s) (hregistry : s'.registry = s.registry)
    (hleaves : Leaves s s') {events : List BrokerEvent} (hevents : s'.events = s.events ++ events)
    (hnone : ∀ e, .object e ∉ events) (hpool : ∀ typeName, s'.container? typeName =
      s.container? typeName) (hchannels : ∀ q, s'.channel? q = s.channel? q) :
    Partings now m s' := by
  refine h.extend hregistry hleaves ⟨events, hevents.symm⟩ (fun typeName key => .inl ?_)
    (fun e he => ?_) (.of_eq _ hchannels)
  · rw [cachedAt?, cachedAt?, hpool]
  · rw [newEvents_of_append hevents] at he
    exact absurd he (hnone e)

theorem takePending (h : Partings now m s) : Partings now m s.takePending :=
  h.of_same rfl (leaves_takePending s) (List.append_nil s.events).symm (by simp)
    (fun _ => rfl) (channel?_takePending s)

/-- Observers are told that a connection has closed. -/
theorem emit (h : Partings now m s) (peer : PeerId) (name : String) (state : ConnectionState)
    (cause : Option String) : Partings now m (s.emit (.peerState peer name state cause)) := by
  have hevents : (s.emit (.peerState peer name state cause)).events =
    s.events ++ [.peerState peer name state cause] := rfl
  exact h.of_same rfl (.refl s) hevents (by simp) (fun _ => rfl) fun _ => rfl

/-- What a guest wrote last was cached from the start, unless the guest has the number of the host
and the object is a record. -/
theorem origin (h : Partings now m s) (hin : x.IsIn s)
    (hwriter : x.entry.provenance.lastUpdateFrom = q) :
    x.IsIn m ∨ x.schema.name = peerStateType ∧ q = hostId := by
  rcases h.entries x.schema.name x.key with hsame | haffected
  · exact .inl ⟨h.registry ▸ hin.registered, hin.cached, hsame ▸ hin.entry⟩
  · cases haffected with
    | gone _ _ _ hnone =>
      rw [hin.entry] at hnone
      cases hnone
    | recorded h => exact .inr ⟨h.record, hwriter.symm.trans (h.writer x.entry hin.entry)⟩

/-- A guest parts, and its objects go with it. -/
theorem onClosed (h : Partings now m s) (hs : s.Tidy) (hq : m.connections.find? q ≠ none) :
    Partings now m (s.onClosed q now).value := by
  have hdeparture := hs.departure q now
  have hretracts := retracts_onClosed hs.sound hs.listed.1 q now
  have hsteps : Steps (.clearCache []) now (s.setAside q) (s.onClosed q now).value :=
    onClosed_steps s q
  have hfollows : ∀ x ∈ s.orphans q, Follows x q m (s.onClosed q now).value := by
    intro x hx
    obtain ⟨hin, hcleanup, hwriter⟩ := (hdeparture.exactly x).1 hx
    exact ⟨⟨hq, hdeparture.gone⟩, hcleanup, hwriter, h.origin hin hwriter⟩
  have hleaves : Leaves s (s.onClosed q now).value :=
    (leaves_setAside s q).trans (hsteps.leaves (by simp))
  have hregistry : (s.onClosed q now).value.registry = s.registry := by
    rw [hretracts.registry, registry_setAside]
  refine h.extend hregistry hleaves ⟨_, hdeparture.events.symm⟩ (fun typeName key => ?_)
    (fun e he _ => ?_) ?_
  · rw [hdeparture.entries]
    split
    · rename_i hplace
      obtain ⟨x, hx, heq⟩ := List.mem_map.1 hplace
      obtain ⟨rfl, rfl⟩ := Prod.mk.inj heq
      have hnone : (s.onClosed q now).value.cachedAt? x.schema.name x.key = none := by
        rw [hdeparture.entries, if_pos hplace]
      obtain ⟨hin, -, -⟩ := (hdeparture.exactly x).1 hx
      refine .inr ?_
      -- It may have been cached before, or may have been written since.
      rcases h.entries x.schema.name x.key with hsame | haffected
      · have hin' : x.IsIn m := ⟨h.registry ▸ hin.registered, hin.cached, hsame ▸ hin.entry⟩
        exact .gone (hfollows x hx) hin' rfl hnone
      · cases haffected with
        | gone _ _ _ hgone =>
          rw [hin.entry] at hgone
          cases hgone
        -- The object is a record that the host has written since, and now it is gone.
        | recorded h =>
          refine .recorded (h.later hleaves hregistry fun e he => ?_)
          rw [hnone] at he
          cases he
    · exact .inl rfl
  · rw [newEvents_of_append hdeparture.events] at he
    obtain ⟨x, hx, heq⟩ := List.mem_map.1 he
    obtain rfl := BrokerEvent.object.inj heq
    exact ⟨x, q, hfollows x hx, rfl⟩
  · have haside : s.Sends (fun _ t => ∃ x ∈ s.orphans q, t = x.removalFrame now) (s.setAside q) :=
      .of_eq _ (channel?_setAside s q)
    refine (haside.trans (hretracts.sends hsteps.closed)).mono fun _ t ht _ => ?_
    obtain ⟨x, hx, heq⟩ := ht
    exact ⟨x, q, hfollows x hx, heq⟩

/-- The record of a guest that has parted is written anew. -/
theorem record (h : Partings now m s) (hs : s.Sound) (hparted : Parted q m s) (name : String) :
    Partings now m
      (s.publishAsHost (PeerState.record q name .closed) none false now).value.1 := by
  let passed : Passage → Prop := fun p => p.object = PeerState.record q name .closed ∧
    p.header.origin = hostId ∧ p.header.remove = false
  have heffects : Effects passed (fun _ _ => False) s
      (s.publishAsHost (PeerState.record q name .closed) none false now).value.1 :=
    effects_publishAsHost hs _ none false now fun schema _ => ⟨rfl, rfl, rfl⟩
  have hsteps : Steps .sweep now s
      (s.publishAsHost (PeerState.record q name .closed) none false now).value.1 :=
    steps_publishAsHost s _ none false
  have hleaves := hsteps.leaves (by simp)
  refine h.extend (registry_publishAsHost ..) hleaves heffects.events (fun typeName key => ?_)
    (fun e he => ?_) (heffects.frames.mono fun _ t ht hremove => ?_)
  · by_cases hsame : (s.publishAsHost (PeerState.record q name .closed) none false
        now).value.1.cachedAt? typeName key = s.cachedAt? typeName key
    · exact .inl hsame
    · -- An entry that has changed is under the key of the record and was written by the host.
      obtain ⟨p, ⟨hobject, -, -⟩, hof, rfl, hkey⟩ :=
        (heffects.entries typeName key).resolve_left hsame
      have hname : p.schema.name = peerStateType := by
        rw [← hof.typeName_object, hobject]
        rfl
      refine .inr (.recorded ⟨hparted.later hleaves, hname,
        ⟨name, p.schema, hname ▸ hof.registered, hobject ▸ hkey⟩, fun e he => ?_⟩)
      rcases heffects.written p.schema.name key e he with hold | ⟨event, hevent, -, -, hprovenance⟩
      · exact absurd (he.trans hold.symm) hsame
      · -- The event of the write names its origin, which is the host.
        obtain ⟨p', ⟨-, horigin, -⟩, -, htells⟩ := heffects.told event hevent
        rw [← hprovenance, htells.writer, horigin]
  · rcases s.publishAsHost_cases (PeerState.record q name .closed) now none false with
      ⟨schema, -, -, heq⟩ | heq
    · rw [heq, newEvents_of_append (events_dispatch ..)] at he
      have htells := tells_of_mem_eventsOf (p := ⟨schema, _, _⟩) he
      exact fun hremove => by cases htells.removal.1 hremove
    · rw [heq, newEvents_of_append (List.append_nil s.events).symm] at he
      cases he
  · rcases ht with hnever | ⟨p, ⟨-, -, hwrite⟩, -, rfl⟩
    · exact hnever.elim
    · exact absurd hremove (by simp [Passage.frame, Transmission.ofObject, hwrite])

/-- Processing a closing. -/
theorem onTransition (h : Partings now m s) (hs : s.Tidy) (hq : m.connections.find? q ≠ none)
    {t : Transition} (hcloses : t.closes = true) :
    Partings now m (s.onTransition q t now).value := by
  have hparted : Partings now m (s.onClosed q now).value := h.onClosed hs hq
  have hstate : t.state = .closed := by simpa [Transition.closes] using hcloses
  have hsteps : Steps .sweep now (s.onClosed q now).value
      ((s.onClosed q now).value.emit
        (.peerState q ((s.peerName? q).getD unnamedPeer) .closed t.cause)) :=
    .single (.announce (by simp))
  rw [value_onTransition, leftBy, if_pos hcloses, hstate]
  refine (hparted.emit q _ .closed t.cause).record
    (Steps.induction Sound.step (hs.onClosed q now).sound hsteps) ⟨hq, ?_⟩ _
  exact (hs.departure q now).gone

end Partings

/-! ## A drain -/

/-- Nothing waits but that connections have closed, and nothing else was taken, from connections
that were in the table of an earlier state. -/
structure Closing (m : Broker) (taken : List (PeerId × Transition)) (s : Broker) : Prop where
  /-- What was taken. -/
  taken : ∀ x ∈ taken, x.2.closes = true ∧ m.connections.find? x.1 ≠ none
  /-- What waits. -/
  queued : ∀ peer c, s.connections.find? peer = some c → c.OnlyCloses

namespace Closing

/-- Processing a closing closes connections at most. -/
theorem onTransition {x : PeerId × Transition} (h : Closing m (x :: taken) s) (now : Instant) :
    Closing m taken (s.onTransition x.1 x.2 now).value := by
  obtain ⟨hx, hrest⟩ := List.forall_mem_cons.1 h.taken
  refine ⟨hrest, fun peer c' hc' => ?_⟩
  have hserves : Serves peer (if x.2.closes then s.setAside x.1 else s)
      (s.onTransition x.1 x.2 now).value :=
    serves_of_steps (steps_departed (.clearCache []) s x.1 x.2 now) peer
  rw [if_pos hx.1] at hserves
  obtain ⟨c, hc, hhosted⟩ := exists_before_of_rel hserves.connection hc'
  rw [find?_setAside] at hc
  split at hc
  · cases hc
  · exact hhosted.onlyCloses (h.queued peer c hc)

theorem takePending (h : Closing m [] s) (hleaves : Leaves m s) :
    Closing m s.pending s.takePending := by
  refine ⟨fun x hx => ?_, fun peer c' hc' => ?_⟩
  · obtain ⟨c, hc, ht⟩ := mem_pending_iff.1 hx
    -- Nobody has come since, so that whoever is in the table now was there before.
    refine ⟨h.queued x.1 c hc x.2 ht, fun hnone => ?_⟩
    rw [hleaves x.1 hnone] at hc
    cases hc
  · rw [find?_takePending, Option.map_eq_some_iff] at hc'
    obtain ⟨c, -, rfl⟩ := hc'
    exact List.forall_mem_nil _

end Closing

/-- If nothing waits but that connections have closed, all that a drain changes comes from guests
that have parted. -/
theorem partings_drain (hm : m.Tidy) (hq : m.Queued [])
    (hcloses : ∀ peer c, m.connections.find? peer = some c → c.OnlyCloses) :
    Partings now m (m.drain now).value := by
  refine (hm.drain_induction hq (I := fun taken s => Partings now m s ∧ Closing m taken s) ?_ ?_
    ⟨.refl now m, List.forall_mem_nil _, hcloses⟩).1
  · rintro s - ⟨hpartings, hclosing⟩
    exact ⟨hpartings.takePending, hclosing.takePending hpartings.leaves⟩
  · rintro s x taken hs ⟨hpartings, hclosing⟩
    obtain ⟨hparts, hpresent⟩ := hclosing.taken x List.mem_cons_self
    exact ⟨hpartings.onTransition hs hpresent hparts, hclosing.onTransition now⟩

/-- Where nothing waited and connections have only been served since then, nothing waits but that
connections have closed. -/
theorem onlyCloses_of_serves {c' : Connection} (hr : b.Rested) (hserves : Serves q b s)
    (hc' : s.connections.find? q = some c') : c'.OnlyCloses := by
  obtain ⟨c, hc, hhosted⟩ := exists_before_of_rel hserves.connection hc'
  refine hhosted.onlyCloses fun t ht => ?_
  rw [(hr q c hc).1] at ht
  cases ht

/-- So it is for the drain that ends a call of whose steps none did more than that. -/
theorem Reachable.partings_after (hb : b.Reachable) (hsteps : Steps call now b s)
    (hserves : ∀ q, Serves q b s) : Partings now s (s.drain now).value :=
  partings_drain (hb.tidy.moves (Moves.of_steps hsteps)) (hb.rested.queued.steps hsteps)
    fun q _ hc' => onlyCloses_of_serves hb.rested (hserves q) hc'

end Broker

end ObjectBus
