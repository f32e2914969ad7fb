import ObjectBus.Proofs.Broker.Replay
import ObjectBus.Proofs.Broker.Silence

/-!
# One order for all members

A member whose channel fails is closed while a transmission is being handed to its group. What
follows from the closing goes to groups as well, but not before the transmission has reached the
other members: the change of state waits in its queue until the broker drains. So every
transmission is offered to the whole group before the next one is, and members of the same groups
are handed the same frames in the same order.

* `Broker.FedAlike`: two guests were handed the same frames;
* `Broker.Unison`: parts of a call in which members of the same groups are fed alike;
* `keptInSilence_unison`: the calls that hear neither of them consist of such parts;
* `fedAlike_perform`, `one_order`: so it is in every call that hears neither of them, and in any
  number of calls.
-/

namespace ObjectBus

namespace Channel

/-- A channel was handed some more frames, and took all of them. -/
def Took (frames : List Transmission) (c c' : Channel) : Prop :=
  c'.trace = c.trace ++ frames.map ChannelAction.sent

variable {frames frames' : List Transmission} {c c' c'' : Channel}

theorem Took.refl (c : Channel) : Took [] c c := (List.append_nil _).symm

theorem Took.trans (h : Took frames c c') (h' : Took frames' c' c'') :
    Took (frames ++ frames') c c'' := by
  rw [Took] at h h' ⊢
  rw [h', h, List.map_append, List.append_assoc]

theorem Took.sent (h : Took frames c c') : c'.sent = c.sent ++ frames := by
  have hhanded : c'.sent = (c.handed frames).sent := by
    rw [Channel.sent, h, Channel.sent, Channel.handed]
  rw [hhanded, sent_handed]

end Channel

/-- A connection that is connected after it was offered a transmission was so before, and its
channel took the transmission. -/
theorem Connection.took_offered {c : Connection} {t : Transmission}
    (hconnected : (c.offered t).state = .connected) :
    c.state = .connected ∧ Channel.Took [t] c.channel (c.offered t).channel := by
  have hstate : c.state = .connected := by
    by_contra hother
    rw [offered_of_ne_connected hother] at hconnected
    exact hother hconnected
  refine ⟨hstate, ?_⟩
  have hoffered : c.offered t = (c.send t).value := by
    rw [offered, hstate]
    rfl
  rw [hoffered] at hconnected ⊢
  simp only [Connection.send, hstate, Channel.send] at hconnected ⊢
  cases hrefusal : c.channel.refusal c.channel.trace t with
  | none => rfl
  | some error =>
    -- A channel that refuses closes the connection.
    simp only [hrefusal] at hconnected
    rw [state_transportFailed] at hconnected
    cases hconnected

namespace Broker

variable {call : BrokerCall} {now : Instant} {b b' b'' : Broker} {p q sender : PeerId}

/-! ## Being fed alike -/

/-- Two peers are members of the same groups. -/
def SameGroups (b : Broker) (p q : PeerId) : Prop :=
  ∀ group, b.groups.hasMember group p = b.groups.hasMember group q

/-- If a peer is connected in the end it was so before, and meanwhile its channel has been handed
just these frames and has taken them. -/
def Fed (peer : PeerId) (frames : List Transmission) (b b' : Broker) : Prop :=
  ∀ c', b'.connections.find? peer = some c' → c'.state = .connected →
    ∃ c, b.connections.find? peer = some c ∧ c.state = .connected ∧
      c.channel.Took frames c'.channel

/-- Two peers were handed the same frames in the same order. -/
def FedAlike (p q : PeerId) (b b' : Broker) : Prop :=
  ∃ frames, Fed p frames b b' ∧ Fed q frames b b'

namespace Fed

variable {peer : PeerId} {frames frames' : List Transmission}

theorem trans (h : Fed peer frames b b') (h' : Fed peer frames' b' b'') :
    Fed peer (frames ++ frames') b b'' := by
  intro c'' hc'' hconnected''
  obtain ⟨c', hc', hconnected', htook'⟩ := h' c'' hc'' hconnected''
  obtain ⟨c, hc, hconnected, htook⟩ := h c' hc' hconnected'
  exact ⟨c, hc, hconnected, htook.trans htook'⟩

/-- A peer whose connection stays as it is is handed nothing. -/
theorem of_eq (h : b'.connections.find? peer = b.connections.find? peer) : Fed peer [] b b' :=
  fun c' hc' hconnected => ⟨c', h ▸ hc', hconnected, .refl _⟩

/-- A delivery hands the transmission to a connected member, or closes its connection. -/
theorem of_offered {t : Transmission}
    (h : b'.connections.find? peer = (b.connections.find? peer).map (·.offered t)) :
    Fed peer [t] b b' := by
  intro c' hc' hconnected
  rw [h, Option.map_eq_some_iff] at hc'
  obtain ⟨c, hc, rfl⟩ := hc'
  obtain ⟨hbefore, htook⟩ := Connection.took_offered hconnected
  exact ⟨c, hc, hbefore, htook⟩

end Fed

theorem FedAlike.trans (h : FedAlike p q b b') (h' : FedAlike p q b' b'') : FedAlike p q b b'' := by
  obtain ⟨frames, hp, hq⟩ := h
  obtain ⟨frames', hp', hq'⟩ := h'
  exact ⟨frames ++ frames', hp.trans hp', hq.trans hq'⟩

/-- A part of a call that leaves two peers in the same groups, or in different ones, and feeds them
alike if they are in the same. -/
structure Unison (p q : PeerId) (b b' : Broker) : Prop where
  /-- Whether they are in the same groups stays as it is. -/
  groups : b'.SameGroups p q ↔ b.SameGroups p q
  /-- In the same groups they are fed alike. -/
  fed : b.SameGroups p q → FedAlike p q b b'

namespace Unison

theorem trans (h : Unison p q b b') (h' : Unison p q b' b'') : Unison p q b b'' where
  groups := h'.groups.trans h.groups
  fed hgroups := (h.fed hgroups).trans (h'.fed (h.groups.2 hgroups))

/-- Neither of them is handed anything. -/
theorem of_eq (hp : b'.connections.find? p = b.connections.find? p)
    (hq : b'.connections.find? q = b.connections.find? q) (hgroups : b'.groups = b.groups) :
    Unison p q b b' :=
  ⟨by rw [SameGroups, hgroups, SameGroups], fun _ => ⟨[], .of_eq hp, .of_eq hq⟩⟩

theorem refl (p q : PeerId) (b : Broker) : Unison p q b b := .of_eq rfl rfl rfl

end Unison

/-- What concerns a third guest only. -/
theorem Concerns.unison (h : Concerns sender b b') (hp : p ≠ sender) (hq : q ≠ sender) :
    Unison p q b b' where
  groups := by
    refine forall_congr' fun group => ?_
    rw [h.membership p group hp, h.membership q group hq]
  fed _ := ⟨[], .of_eq (h.connection p hp), .of_eq (h.connection q hq)⟩

/-- A connection is put in its place that is not connected, or was so before and whose channel was
handed nothing. -/
theorem unison_putConnection (b : Broker) (peer : PeerId) {c' : Connection}
    (hc' : c'.state = .connected → ∃ c, b.connections.find? peer = some c ∧
      c.state = .connected ∧ c.channel.Took [] c'.channel) :
    Unison p q b (b.putConnection peer c') := by
  have hfed : ∀ r, Fed r [] b (b.putConnection peer c') := by
    intro r
    by_cases hr : r = peer
    · subst hr
      intro d hd hconnected
      rw [find?_putConnection, if_pos rfl] at hd
      obtain rfl := Option.some.inj hd
      exact hc' hconnected
    · exact .of_eq (by rw [find?_putConnection, if_neg hr])
  exact ⟨Iff.rfl, fun _ => ⟨[], hfed p, hfed q⟩⟩

/-! ## Traffic -/

/-- Members of the same groups are both offered a transmission, or neither is. -/
theorem unison_of_offered (group : String) (t : Transmission) (offers : Prop) [Decidable offers]
    (hgroups : b'.groups = b.groups)
    (hfind : ∀ r, b'.connections.find? r =
      if offers ∧ b.groups.hasMember group r = true then (b.connections.find? r).map (·.offered t)
      else b.connections.find? r) : Unison p q b b' := by
  refine ⟨by rw [SameGroups, hgroups, SameGroups], fun hsame => ?_⟩
  -- Whether a peer is offered anything depends on its memberships only, and these are the same.
  by_cases hoffered : offers ∧ b.groups.hasMember group p = true
  · have hp := hfind p
    have hq := hfind q
    rw [if_pos hoffered] at hp
    rw [hsame group] at hoffered
    rw [if_pos hoffered] at hq
    exact ⟨[t], .of_offered hp, .of_offered hq⟩
  · have hp := hfind p
    have hq := hfind q
    rw [if_neg hoffered] at hp
    rw [hsame group] at hoffered
    rw [if_neg hoffered] at hq
    exact ⟨[], .of_eq hp, .of_eq hq⟩

theorem unison_dispatch (b : Broker) (schema : StructSchema) (h : Header) (o : Object)
    (now : Instant) : Unison p q b (b.dispatch schema h o now).value.1 :=
  unison_of_offered _ _ _ (groups_dispatch b schema h o now) (find?_dispatch b schema h o now)

theorem unison_forward (b : Broker) (group : String) (t : Transmission) :
    Unison p q b (b.forward group t).value := by
  refine unison_of_offered group t True rfl fun r => ?_
  rw [connections_forward, GroupTable.find?_deliver]
  simp only [true_and]

theorem keptByObjects_unison (p q : PeerId) : KeptByObjects (Unison p q) where
  trans := .trans
  idle hconnections hgroups _ _ := .of_eq (by rw [hconnections]) (by rw [hconnections]) hgroups
  dispatch := unison_dispatch

/-! ## Draining -/

/-- A connection that leaves the table is handed nothing any more. -/
theorem unison_setAside (b : Broker) (peer : PeerId) : Unison p q b (b.setAside peer) := by
  have hfed : ∀ r, Fed r [] b (b.setAside peer) := by
    intro r c' hc' hconnected
    rw [find?_setAside] at hc'
    split at hc'
    · cases hc'
    · exact ⟨c', hc', hconnected, .refl _⟩
  exact ⟨by rw [SameGroups, groups_setAside, SameGroups], fun _ => ⟨[], hfed p, hfed q⟩⟩

/-- Taking the queues leaves states and channels alone. -/
theorem unison_takePending (b : Broker) : Unison p q b b.takePending := by
  have hfed : ∀ r, Fed r [] b b.takePending := by
    intro r c' hc' hconnected
    rw [find?_takePending, Option.map_eq_some_iff] at hc'
    obtain ⟨c, hc, rfl⟩ := hc'
    exact ⟨c, hc, hconnected, .refl _⟩
  exact ⟨Iff.rfl, fun _ => ⟨[], hfed p, hfed q⟩⟩

theorem unison_drain (b : Broker) (now : Instant) : Unison p q b (b.drain now).value :=
  (keptByObjects_unison p q).drain unison_takePending unison_setAside b now

/-- Two guests are fed alike in all parts of the calls that hear neither of them. -/
theorem keptInSilence_unison (p q : PeerId) :
    KeptInSilence (fun r => r = p ∨ r = q) (Unison p q) where
  toKeptByObjects := keptByObjects_unison p q
  forward b group t _ := unison_forward b group t
  concerns hother hconcerns :=
    hconcerns.unison (fun hp => hother (.inl hp.symm)) fun hq => hother (.inr hq.symm)
  drain := unison_drain

/-! ## Whole calls -/

/-- A guest that has just been greeted is not connected, even if it has been given a number that
was in use. -/
theorem unison_accept (b : Broker) (channel : Channel) :
    Unison p q b (b.perform (.accept channel) now) := by
  have hnext : Unison p q b { b with nextPeer := b.nextPeer + 1 } := .of_eq rfl rfl rfl
  have hgreeted : (b.greeted channel now).state ≠ .connected := by
    rcases Connection.state_beginHandshake b.nextPeer channel b.name now with hstate | hstate
    · rw [greeted, hstate]
      simp
    · rw [greeted, hstate]
      simp
  have hput : Unison p q { b with nextPeer := b.nextPeer + 1 }
      ({ b with nextPeer := b.nextPeer + 1 }.putConnection b.nextPeer (b.greeted channel now)) :=
    unison_putConnection _ _ fun hconnected => absurd hconnected hgreeted
  exact (hnext.trans hput).trans (unison_drain _ now)

theorem unison_transportFailed (b : Broker) (peer : PeerId) (error : TransportError) :
    Unison p q b (b.transportFailed peer error now).value := by
  unfold transportFailed
  cases b.connections.find? peer with
  | none => exact .refl p q b
  | some c =>
    refine (unison_putConnection b peer fun hconnected => ?_).trans (unison_drain _ now)
    rw [Connection.state_transportFailed] at hconnected
    cases hconnected

/-- A channel that fails in another way from now on has been handed nothing by that. -/
theorem unison_disturb (b : Broker) (peer : PeerId)
    (refusal : List ChannelAction → Transmission → Option TransportError) :
    Unison p q b (b.disturb peer refusal) := by
  unfold disturb
  cases hc : b.connections.find? peer with
  | none => exact .refl p q b
  | some c => exact unison_putConnection b peer fun hconnected => ⟨c, hc, hconnected, .refl _⟩

theorem unison_farewell (b : Broker) (peer : PeerId) :
    Unison p q b (b.farewell peer now).value := by
  unfold farewell
  cases b.connections.find? peer with
  | none => exact .refl p q b
  | some c =>
    refine unison_putConnection b peer fun hconnected => ?_
    rw [Connection.state_close] at hconnected
    cases hconnected

/-- A sweep ends memberships before it sends anything, so that the groups in the end count. -/
theorem fedAlike_sweep (b : Broker) (hgroups : (b.sweep now).value.SameGroups p q) :
    FedAlike p q b (b.sweep now).value := by
  -- This part is no `Unison`: one of the peers may leave its groups and the other not.
  have hforget : FedAlike p q b b.forgetClosed := ⟨[], .of_eq rfl, .of_eq rfl⟩
  have hrest : Unison p q b.forgetClosed (b.sweep now).value := (keptInSilence_unison p q).sweep b
  exact hforget.trans (hrest.fed (hrest.groups.1 hgroups))

theorem fedAlike_shutdown (b : Broker) (hgroups : b.SameGroups p q)
    (hgroups' : (b.shutdown now).value.SameGroups p q) : FedAlike p q b (b.shutdown now).value := by
  unfold shutdown at hgroups' ⊢
  simp only [Noted.value_bind, Noted.value_foldlM] at hgroups' ⊢
  have hfarewells : Unison p q b
      (b.connections.keys.foldl (fun b peer => (b.farewell peer now).value) b) :=
    (keptByObjects_unison p q).foldl unison_farewell _ b
  exact ((hfarewells.trans (unison_drain _ now)).fed hgroups).trans (fedAlike_sweep _ hgroups')

/-- Members of the same groups are fed alike in every call that hears neither of them. -/
theorem fedAlike_perform (b : Broker) (call : BrokerCall) (now : Instant)
    (hp : ∀ t, call ≠ .receive p t) (hq : ∀ t, call ≠ .receive q t)
    (hgroups : b.SameGroups p q) (hgroups' : (b.perform call now).SameGroups p q) :
    FedAlike p q b (b.perform call now) := by
  have hkept := keptInSilence_unison p q
  cases call with
  | accept channel => exact (unison_accept b channel).fed hgroups
  | receive sender t =>
    have hsender : ¬(sender = p ∨ sender = q) := by
      rintro (rfl | rfl)
      · exact hp t rfl
      · exact hq t rfl
    exact (hkept.receive hsender b t).fed hgroups
  | transportFailed peer error => exact (unison_transportFailed b peer error).fed hgroups
  | publish | remove | clearCache | registerStruct | registerEnum | subscribe | unsubscribe =>
    refine (hkept.perform b _ ?_ ?_ ?_ now).fed hgroups <;> simp [addressee?]
  | sweep => exact fedAlike_sweep b hgroups'
  | shutdown => exact fedAlike_shutdown b hgroups hgroups'
  | disturb peer refusal => exact (unison_disturb b peer refusal).fed hgroups

/-! ## Whole runs -/

/-- Two guests are connected and members of the same groups. -/
structure Together (b : Broker) (p q : PeerId) : Prop where
  /-- The one is connected. -/
  left : ∃ c, b.connections.find? p = some c ∧ c.state = .connected
  /-- The other is connected. -/
  right : ∃ c, b.connections.find? q = some c ∧ c.state = .connected
  /-- They are members of the same groups. -/
  groups : b.SameGroups p q

theorem fedAlike_after {calls : List (BrokerCall × Instant)}
    (hstays : b.Throughout (·.SameGroups p q) calls)
    (hsilent : ∀ call ∈ calls, ∀ t, call.1 ≠ .receive p t ∧ call.1 ≠ .receive q t) :
    FedAlike p q b (b.after calls) := by
  induction calls generalizing b with
  | nil => exact ⟨[], .of_eq rfl, .of_eq rfl⟩
  | cons call rest ih =>
    obtain ⟨hgroups, hrest⟩ := hstays
    have hfirst : FedAlike p q b (b.perform call.1 call.2) :=
      fedAlike_perform b call.1 call.2 (fun t => (hsilent call List.mem_cons_self t).1)
        (fun t => (hsilent call List.mem_cons_self t).2) hgroups hrest.head
    exact hfirst.trans (ih hrest fun call hcall => hsilent call (List.mem_cons_of_mem _ hcall))

/-- While two guests stay connected in the same groups and send nothing, their channels are handed
the same frames in the same order and take all of them, whatever the broker is called to do, for
other guests or on its own account, and whichever other channels fail at whatever moment. -/
theorem one_order {calls : List (BrokerCall × Instant)}
    (hstay : b.Throughout (·.Together p q) calls)
    (hsilent : ∀ call ∈ calls, ∀ t, call.1 ≠ .receive p t ∧ call.1 ≠ .receive q t) :
    ∃ cp cq cp' cq' frames,
      b.connections.find? p = some cp ∧ (b.after calls).connections.find? p = some cp' ∧
      b.connections.find? q = some cq ∧ (b.after calls).connections.find? q = some cq' ∧
      cp.channel.Took frames cp'.channel ∧ cq.channel.Took frames cq'.channel := by
  obtain ⟨frames, hp, hq⟩ := fedAlike_after (hstay.mono fun _ h => h.groups) hsilent
  obtain ⟨⟨cp', hcp', hconnectedp⟩, ⟨cq', hcq', hconnectedq⟩, -⟩ := hstay.last
  obtain ⟨cp, hcp, -, htookp⟩ := hp cp' hcp' hconnectedp
  obtain ⟨cq, hcq, -, htookq⟩ := hq cq' hcq' hconnectedq
  exact ⟨cp, cq, cp', cq', frames, hcp, hcp', hcq, hcq', htookp, htookq⟩

/-- A board with two readers of notes and a writer, who has left a note. -/
def sharedBoard : Broker :=
  (boardWithReader false).after
    [(.accept (.reliable "second"), default), (.accept (.reliable "writer"), default),
      (.receive 3 (.ofControl (.connectAs "second" false) default), default),
      (.receive 4 (.ofControl (.connectAs "writer" false) default), default),
      (.receive 2 joinNotes, default), (.receive 3 joinNotes, default),
      (.receive 4 joinNotes, default),
      (.receive 4 (.ofObject { typeName := noteSchema.name } (note 3 "mine")), default)]

/-- The channel of the writer begins to fail, and then the host publishes a note. -/
def fatalNews : List (BrokerCall × Instant) :=
  [(.disturb 4 fun _ _ => some .closed, default), (news, default)]

/-- The channel of the writer fails while the note is handed to all of them, and its own note is
removed. Both readers are handed the note first and the removal after it. -/
theorem one_order_on_sharedBoard : ∃ cp cq cp' cq' frames,
    sharedBoard.connections.find? 2 = some cp ∧
    (sharedBoard.after fatalNews).connections.find? 2 = some cp' ∧
    sharedBoard.connections.find? 3 = some cq ∧
    (sharedBoard.after fatalNews).connections.find? 3 = some cq' ∧
    cp.channel.Took frames cp'.channel ∧ cq.channel.Took frames cq'.channel ∧
    frames.map (·.header.remove) = [false, true] := by
  have hjoined : sharedBoard.groups =
      (((GroupTable.empty.join noteSchema.name 2).value.1.join noteSchema.name 3).value.1.join
        noteSchema.name 4).value.1 := rfl
  have hgroups : ∀ b : Broker, b.groups = sharedBoard.groups → b.SameGroups 2 3 := by
    intro b hb group
    have hnobody : ∀ peer, GroupTable.empty.hasMember group peer = false := fun _ => rfl
    rw [hb, hjoined]
    simp [GroupTable.hasMember_join, hnobody]
  have hstay : sharedBoard.Throughout (·.Together 2 3) fatalNews :=
    ⟨⟨⟨_, rfl, rfl⟩, ⟨_, rfl, rfl⟩, hgroups _ rfl⟩, ⟨⟨_, rfl, rfl⟩, ⟨_, rfl, rfl⟩, hgroups _ rfl⟩,
      ⟨_, rfl, rfl⟩, ⟨_, rfl, rfl⟩, hgroups _ rfl⟩
  obtain ⟨cp, cq, cp', cq', frames, hcp, hcp', hcq, hcq', htookp, htookq⟩ :=
    one_order hstay (by simp [fatalNews, news])
  -- The frames are those by which what the channel was handed has grown.
  have hbefore : (sharedBoard.connections.find? 2).map (·.channel.sent.length) = some 5 := rfl
  have hafter : ((sharedBoard.after fatalNews).connections.find? 2).map
      (fun c => (c.channel.sent.drop 5).map (·.header.remove)) = some [false, true] := rfl
  rw [hcp, Option.map_some] at hbefore
  rw [hcp', Option.map_some, htookp.sent, List.drop_left' (Option.some.inj hbefore)] at hafter
  exact ⟨cp, cq, cp', cq', frames, hcp, hcp', hcq, hcq', htookp, htookq, Option.some.inj hafter⟩

end Broker

end ObjectBus
