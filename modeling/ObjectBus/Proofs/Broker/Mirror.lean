import ObjectBus.Proofs.Broker.Soundness
import ObjectBus.Proofs.Cache.Mirror

/-!
# What a member of a group sees of a cache

A connected member of the group of a cached type that feeds a container of its own with the
objects of the type that it is sent has a mirror of the broker's container.

* `Mirrors`: the mirror of a guest agrees with the cache on a key;
* `Step.traffic`: what a step may do to what a guest has seen and to the caches;
* `Step.mirrors`: no step breaks the mirror of a connected member;
* `While`: what is so as long as a guest is in a state;
* `Tracks`, `Tracks.moves`: no chain of moves breaks the mirror either.
-/

namespace ObjectBus

/-- The objects of a type that a guest was sent after the first so many transmissions. -/
def Connection.objectsSince (c : Connection) (typeName : String) (start : Nat) :
    List Transmission :=
  (c.channel.sent.drop start).filter (·.isObjectOf typeName)

theorem Transmission.isObjectOf_of_noObject {t : Transmission} (ht : t.NoObject)
    (typeName : String) : t.isObjectOf typeName = false := by
  simp [isObjectOf, show t.object? = none from ht]

namespace Broker

variable {call : BrokerCall} {now : Instant} {b b' : Broker} {peer : PeerId}
variable {schema : StructSchema} {full : Bool} {key : ObjectKey} {start : Nat}
variable {c c' : Connection} {h : Header} {o : Object}

/-- Whatever the times at which the objects arrived that a guest was sent from some point on, the
container that they were fed into agrees with the cache on a key. -/
structure Mirrors (schema : StructSchema) (full : Bool) (key : ObjectKey) (start : Nat)
    (b : Broker) (c : Connection) : Prop where
  /-- That point has been reached. -/
  started : start ≤ c.channel.sent.length
  /-- The mirror agrees. -/
  agrees : ∀ received : List (Transmission × Instant),
    received.map (·.1) = c.objectsSince schema.name start →
      ((Container.empty schema).afterFrames received).look full key =
        (b.cacheOf schema).look full key

/-- What is sent next is appended to what is mirrored. -/
theorem objectsSince_append {typeName : String} {frames : List Transmission}
    (hsent : c'.channel.sent = c.channel.sent ++ frames)
    (hstart : start ≤ c.channel.sent.length) :
    c'.objectsSince typeName start =
      c.objectsSince typeName start ++ frames.filter (·.isObjectOf typeName) := by
  rw [Connection.objectsSince, hsent, List.drop_append_of_le_length hstart, List.filter_append]
  rfl

/-- A mirror is not touched by objects of other types. -/
theorem Mirrors.of_advances (hm : Mirrors schema full key start b c)
    (hadvances : c.Advances (fun t => t.isObjectOf schema.name = false) c')
    (hcache : (b'.cacheOf schema).look full key = (b.cacheOf schema).look full key) :
    Mirrors schema full key start b' c' := by
  obtain ⟨frames, hsent, hother, -⟩ := hadvances.sent
  have hsame : c'.objectsSince schema.name start = c.objectsSince schema.name start := by
    rw [objectsSince_append hsent hm.started, List.filter_eq_nil_iff.2, List.append_nil]
    intro t ht
    simp [hother t ht]
  refine ⟨?_, fun received hreceived => ?_⟩
  · rw [hsent, List.length_append]
    exact Nat.le_add_right_of_le hm.started
  · rw [hcache]
    exact hm.agrees received (hsame ▸ hreceived)

/-- A mirror that receives the object which is applied to the cache goes on agreeing. -/
theorem Mirrors.dispatch (hm : Mirrors schema full key start b c)
    (hcache : (b.cacheOf schema).schema = schema)
    (hsent : c'.channel.sent = c.channel.sent ++ [.ofObject h o])
    (htype : h.typeName = schema.name) {sent : Instant} (htime : h.sentTime = some sent)
    (happlied : b'.cacheOf schema =
      ((b.cacheOf schema).perform (Dispatcher.callOf h o now)).1) :
    Mirrors schema full key start b' c' := by
  have hobject : Transmission.isObjectOf schema.name (.ofObject h o) = true := by
    simp [Transmission.isObjectOf, Transmission.ofObject, Transmission.object?, htype]
  refine ⟨?_, fun received hreceived => ?_⟩
  · rw [hsent, List.length_append]
    exact Nat.le_add_right_of_le hm.started
  · rw [objectsSince_append hsent hm.started, List.filter_cons_of_pos hobject,
      List.filter_nil, List.map_eq_append_iff] at hreceived
    obtain ⟨earlier, last, rfl, hearlier, hlast⟩ := hreceived
    obtain ⟨⟨t, arrival⟩, rfl, rfl⟩ := List.map_eq_singleton_iff.1 hlast
    -- The last object received is the one just sent, and the mirror agreed before it.
    rw [Container.afterFrames_append, Container.afterFrames_cons_object, happlied]
    refine Container.look_perform_congr ?_ (hm.agrees earlier hearlier) rfl rfl rfl htime
    rw [Container.schema_afterFrames, hcache]
    rfl

/-- The objects of a replay are of the type that is replayed. -/
theorem filter_replayFrames (now : Instant) (hcache : (b.cacheOf schema).schema = schema)
    (typeName : String) :
    (b.replayFrames schema now).filter (·.isObjectOf typeName) =
      if schema.name = typeName then (b.cacheOf schema).replay now else [] := by
  have hreplay : ∀ entries, ∀ t ∈ (b.cacheOf schema).replayOf now entries,
      t.isObjectOf typeName = decide (schema.name = typeName) := by
    intro entries
    induction entries with
    | nil => simp [Container.replayOf]
    | cons e rest ih =>
      intro t ht
      rcases List.mem_cons.1 ht with rfl | ht
      · simp [Transmission.isObjectOf, Transmission.ofObject, Transmission.object?,
          Container.replayHeader, hcache, beq_eq_decide]
      · exact ih t ht
  -- The mark of the end is no object.
  have hmark : Transmission.isObjectOf typeName
      (.ofControl (.endOfReplay schema.name) now) = false := rfl
  rw [replayFrames, List.filter_append, List.filter_cons_of_neg (by simp [hmark]),
    List.filter_nil, List.append_nil]
  split
  · rename_i hname
    rw [List.filter_eq_self]
    intro t ht
    rw [hreplay _ t ht, hname, decide_eq_true rfl]
  · rename_i hname
    rw [List.filter_eq_nil_iff]
    intro t ht
    simp [hreplay _ t ht, hname]

/-- A mirror that lacks a key, or agrees on it, agrees on it after a replay. -/
theorem mirrors_of_replay (now : Instant) (hb : b.Sound)
    (hs : b.registry.findStruct? schema.name = some schema)
    (hstart : start ≤ c.channel.sent.length)
    (hbefore : ∀ received : List (Transmission × Instant),
      received.map (·.1) = c.objectsSince schema.name start →
        ((Container.empty schema).afterFrames received).look full key = none ∨
        ((Container.empty schema).afterFrames received).look full key =
          (b.cacheOf schema).look full key)
    (hsent : c'.channel.sent = c.channel.sent ++ b.replayFrames schema now)
    (hcache : b'.cacheOf schema = b.cacheOf schema) :
    Mirrors schema full key start b' c' := by
  obtain ⟨hschema, hvalid⟩ := hb.cacheOf hs
  obtain ⟨-, hcheck⟩ := hb.registry _ _ hs
  refine ⟨?_, fun received hreceived => ?_⟩
  · rw [hsent, List.length_append]
    exact Nat.le_add_right_of_le hstart
  · rw [objectsSince_append hsent hstart, filter_replayFrames now hschema, if_pos rfl,
      List.map_eq_append_iff] at hreceived
    obtain ⟨earlier, replayed, rfl, hearlier, hreplayed⟩ := hreceived
    rw [Container.afterFrames_append, hcache]
    refine Container.look_replay ?_ hvalid ?_ (hbefore earlier hearlier) hreplayed
    · rw [hschema, hcheck]
    · rw [Container.schema_afterFrames, hschema]
      rfl

/-! ## What steps do to a mirror -/

/-- A type that is known already, or new, has the container that it had before when it is made
sure that some type has one. -/
theorem cacheOf_touch (touched : StructSchema)
    (hpool : b'.dispatcher.pool = b.dispatcher.pool.touch touched)
    (hsame : touched.name = schema.name → touched = schema) :
    b'.cacheOf schema = b.cacheOf schema := by
  unfold cacheOf
  rw [hpool, ContainerPool.getD, ContainerPool.find?_touch]
  split
  · rename_i hname
    rw [hsame hname.symm, Option.getD_some]
  · rfl

/-- Accepting an object of any type keeps the mirror of a connected member. -/
theorem Mirrors.of_dispatch (hm : Mirrors schema full key start b c) (hb : b.Sound)
    {accepted : StructSchema}
    (hs : b.registry.findStruct? accepted.name = some accepted)
    (hsame : accepted.name = schema.name → accepted = schema)
    (hcached : schema.flags.cached = true) (htype : h.typeName = accepted.name) {sent : Instant}
    (htime : h.sentTime = some sent)
    (hgroup : accepted.name = schema.name → h.destinationGroup = none)
    (hc : b.connections.find? peer = some c)
    (hc' : (b.dispatch accepted h o now).value.1.connections.find? peer = some c')
    (hconnected : c.state = .connected) (hopen : c'.state = .connected)
    (hmember : b.groups.hasMember schema.name peer = true) :
    Mirrors schema full key start (b.dispatch accepted h o now).value.1 c' := by
  rw [find?_dispatch, hc] at hc'
  by_cases hname : accepted.name = schema.name
  · -- The object is of the mirrored type, so that the guest is offered what the cache is given.
    obtain rfl := hsame hname
    have happlied := b.cacheOf_dispatch accepted h o now hcached
    by_cases happlies : b.applies accepted h o now = true
    · have htarget : h.group = accepted.name := by
        rw [Header.group, hgroup rfl, htype]
        rfl
      rw [if_pos ⟨happlies, htarget ▸ hmember⟩, Option.map_some] at hc'
      obtain rfl := Option.some.inj hc'
      have hsend : c.offered (.ofObject h o) = (c.send (.ofObject h o)).value := by
        rw [Connection.offered, hconnected]
        rfl
      rw [hsend] at hopen ⊢
      refine hm.dispatch (hb.cacheOf hs).1 ?_ htype htime happlied
      refine Connection.sent_send_of_open (by simp [hconnected]) ?_
      simp [Connection.isClosed, hopen]
    · rw [if_neg fun hboth => happlies hboth.1] at hc'
      obtain rfl := Option.some.inj hc'
      refine hm.of_advances (.refl _ c) ?_
      -- An object that cannot be applied has not changed the cache either.
      have hfails : (((b.cacheOf accepted).perform (Dispatcher.callOf h o now)).1) =
          b.cacheOf accepted := by
        cases hanswer : ((b.cacheOf accepted).perform (Dispatcher.callOf h o now)).2 with
        | error e => exact Container.perform_of_error hanswer
        | ok answer =>
          exact absurd ((b.applies_eq_true_iff accepted h o now).2 fun _ => ⟨answer, hanswer⟩)
            happlies
      rw [happlied, hfails]
  · have hcache := b.cacheOf_dispatch_of_ne accepted h o now (Ne.symm hname)
    have hother : Transmission.isObjectOf schema.name (.ofObject h o) = false := by
      simp [Transmission.isObjectOf, Transmission.ofObject, Transmission.object?, htype, hname]
    refine hm.of_advances ?_ (by rw [hcache])
    split at hc'
    · obtain rfl := Option.some.inj hc'
      exact c.advances_offered hother
    · obtain rfl := Option.some.inj hc'
      exact .refl _ c

/-- A replay to any guest of any type keeps the mirror of a connected guest. -/
theorem Mirrors.of_replay (hm : Mirrors schema full key start b c) (hb : b.Sound)
    {replayed : StructSchema} {q : PeerId} {d : Connection}
    (hs : b.registry.findStruct? replayed.name = some replayed)
    (hsame : replayed.name = schema.name → replayed = schema)
    (hd : b.connections.find? q = some d) (hc : b.connections.find? peer = some c)
    (hc' : (b.replayTo q replayed now).value.1.connections.find? peer = some c')
    (hconnected : c.state = .connected) (hopen : c'.state = .connected) :
    Mirrors schema full key start (b.replayTo q replayed now).value.1 c' := by
  rw [value_replayTo _ _ _ hd] at hc' ⊢
  simp only [find?_putConnection] at hc'
  have hcache : ∀ c'', (putConnection { b with
      dispatcher := { b.dispatcher with pool := b.dispatcher.pool.touch replayed } } q
        c'').cacheOf schema = b.cacheOf schema :=
    fun c'' => cacheOf_touch replayed rfl hsame
  split at hc'
  · rename_i hq
    subst hq
    obtain rfl : d = c := Option.some.inj (hd.symm.trans hc)
    obtain rfl := Option.some.inj hc'
    by_cases hname : replayed.name = schema.name
    · obtain rfl := hsame hname
      -- The guest has joined once more, and the second replay tells it nothing new.
      refine mirrors_of_replay now hb hs hm.started (fun received hreceived => ?_) ?_ (hcache _)
      · exact .inr (hm.agrees received hreceived)
      · refine Connection.sent_foldl_send_of_open (by simp [hconnected]) ?_
        simp [Connection.isClosed, hopen]
    · refine hm.of_advances (Connection.advances_foldl_send _ d fun t ht => ?_) (by rw [hcache])
      have hnone := filter_replayFrames now (hb.cacheOf hs).1 schema.name
      rw [if_neg hname, List.filter_eq_nil_iff] at hnone
      simpa using hnone t ht
  · obtain rfl : c = c' := Option.some.inj (hc.symm.trans hc')
    exact hm.of_advances (.refl _ c) (by rw [hcache])

end Broker

/-- Whether a call hands over a guest's request to join a group. -/
def BrokerCall.Joins (call : BrokerCall) (peer : PeerId) (group : String) : Prop :=
  ∃ t, call = .receive peer t ∧ t.payload = .control (.member group .join)

/-- Whether a call hands over an object of a type that is sent to a group of the sender's
choice, and not to that of its type. -/
def BrokerCall.redirects (call : BrokerCall) (typeName : String) : Bool :=
  match call with
  | .receive _ t => t.isObjectOf typeName && t.header.destinationGroup.isSome
  | _ => false

namespace Broker

/-- The type has no other definition than the given one. -/
def Knows (b : Broker) (schema : StructSchema) : Prop :=
  ∀ s, b.registry.findStruct? schema.name = some s → s = schema

/-- As far as a guest is concerned that is in the table before and after a step, and not new, the
step sends it control messages only, or it accepts an object, or it replays a cache to some
guest. -/
theorem Step.traffic (h : Step call now b b') (hb : b.Sound)
    (hc : b.connections.find? peer = some c) (hc' : b'.connections.find? peer = some c')
    (hnew : c'.state ≠ .connecting) (hopen : c'.state ≠ .closed) :
    (c.Advances Transmission.NoObject c' ∧
      ∀ schema, b'.Knows schema → b'.cacheOf schema = b.cacheOf schema) ∨
    (∃ accepted h o, b' = (b.dispatch accepted h o now).value.1 ∧
      b.registry.findStruct? accepted.name = some accepted ∧ h.typeName = accepted.name ∧
      (∃ sent, h.sentTime = some sent) ∧
      (call.redirects accepted.name = false → h.destinationGroup = none)) ∨
    ∃ q t d replayed, b' = (b.replayTo q replayed now).value.1 ∧
      b.registry.findStruct? replayed.name = some replayed ∧
      b.connections.find? q = some d ∧ call = .receive q t ∧
      t.payload = .control (.member replayed.name .join) := by
  have hsame : b'.connections.find? peer = b.connections.find? peer →
      c.Advances Transmission.NoObject c' := by
    intro hconnection
    rw [hconnection, hc] at hc'
    obtain rfl := Option.some.inj hc'
    exact .refl _ c
  have hput : ∀ {q d d'}, b.connections.find? q = some d →
      d.Advances Transmission.NoObject d' → b' = b.putConnection q d' →
        c.Advances Transmission.NoObject c' := by
    rintro q d d' hd hadvances rfl
    by_cases hq : peer = q
    · subst hq
      obtain rfl : d = c := Option.some.inj (hd.symm.trans hc)
      rw [find?_putConnection, if_pos rfl] at hc'
      obtain rfl := Option.some.inj hc'
      exact hadvances
    · exact hsame (by rw [find?_putConnection, if_neg hq])
  cases h with
  | @accept channel hcall =>
    refine .inl ⟨hsame ?_, fun _ _ => rfl⟩
    by_cases hpeer : peer = b.nextPeer
    · -- A guest that has just been greeted is still connecting, or closed already.
      subst hpeer
      rw [find?_putConnection, if_pos rfl] at hc'
      obtain rfl := Option.some.inj hc'
      rcases Connection.state_beginHandshake b.nextPeer channel b.name now with hstate | hstate
      · exact absurd hstate hnew
      · exact absurd hstate hopen
    · rw [find?_putConnection, if_neg hpeer]
  | hear hcall hd =>
    exact .inl ⟨hput hd (Connection.advances_receive _ _ now) rfl, fun _ _ => rfl⟩
  | act hd hact => exact .inl ⟨hput hd hact.advances rfl, fun _ _ => rfl⟩
  | publish hschema hvalid included remove =>
    obtain ⟨hname, hs⟩ := hb.findStruct?_name hschema
    exact .inr (.inl ⟨_, _, _, rfl, hs, rfl, ⟨_, rfl⟩, fun _ => rfl⟩)
  | @dispatch q t d accepted h o hcall hd hreceived hschema hspace hvalid =>
    obtain ⟨hname, hs⟩ := hb.findStruct?_name hschema
    obtain ⟨-, hpayload, rfl⟩ := Connection.receive_eq_object hreceived
    refine .inr (.inl ⟨accepted, _, o, rfl, hs, hname.symm, ⟨_, rfl⟩, fun hdirect => ?_⟩)
    -- The header that is passed on keeps the destination that the guest gave it.
    have htype : t.header.typeName = accepted.name := hname.symm
    simp only [hcall, BrokerCall.redirects, Transmission.isObjectOf, Transmission.object?,
      hpayload, htype, Option.isSome_some, Bool.true_and, beq_self_eq_true] at hdirect
    change t.header.destinationGroup = none
    simpa using hdirect
  | forward group h message =>
    refine .inl ⟨?_, fun _ _ => rfl⟩
    rw [connections_forward, GroupTable.find?_deliver, hc] at hc'
    have hobject : (⟨h, .control message⟩ : Transmission).NoObject := rfl
    split at hc'
    · obtain rfl := Option.some.inj hc'
      exact c.advances_offered hobject
    · obtain rfl := Option.some.inj hc'
      exact .refl _ c
  | @replay q t group d replayed hcall hmessage hschema _ hd =>
    obtain ⟨rfl, hs⟩ := hb.findStruct?_name hschema
    exact .inr (.inr ⟨q, t, d, replayed, rfl, hs, hd, hcall, hmessage⟩)
  | @learn learned hcheck hnew =>
    refine .inl ⟨hsame rfl, fun schema hknown => ?_⟩
    unfold adoptType
    by_cases hkeeps : learned.flags.cached = true
    · refine cacheOf_touch learned (by simp [hkeeps]) fun heq => hknown _ ?_
      simp [adoptType, heq]
    · simp [cacheOf, hkeeps]
  | unsubscribe id =>
    refine .inl ⟨hsame rfl, fun schema _ => ?_⟩
    unfold cacheOf Dispatcher.unsubscribe
    split <;> rfl
  | join | leave | learnEnum | announce | subscribe | forgetClosed =>
    exact .inl ⟨hsame rfl, fun _ _ => rfl⟩

/-- No step keeps a mirror from agreeing as long as the guest is a connected member and objects
of the type go to its own group. -/
theorem Step.mirrors (h : Step call now b b') (hb : b.Sound) (hknown : b'.Knows schema)
    (hcached : schema.flags.cached = true) (hdirect : call.redirects schema.name = false)
    (hc : b.connections.find? peer = some c) (hc' : b'.connections.find? peer = some c')
    (hconnected : c.state = .connected) (hopen : c'.state = .connected)
    (hmember : b.groups.hasMember schema.name peer = true)
    (hm : Mirrors schema full key start b c) : Mirrors schema full key start b' c' := by
  rcases h.traffic hb hc hc' (by simp [hopen]) (by simp [hopen]) with ⟨hadvances, hcache⟩ |
    ⟨accepted, h', o, rfl, hs, htype, ⟨sent, htime⟩, hgroup⟩ |
    ⟨q, t, d, replayed, rfl, hs, hd, -⟩
  · exact hm.of_advances (hadvances.mono fun t ht => t.isObjectOf_of_noObject ht schema.name)
      (by rw [hcache schema hknown])
  · refine hm.of_dispatch hb hs (fun hname => ?_) hcached htype htime (fun hname => ?_) hc hc'
      hconnected hopen hmember
    · exact hknown _ (by rw [registry_dispatch, ← hname, hs])
    · exact hgroup (hname ▸ hdirect)
  · refine hm.of_replay hb hs (fun hname => hknown _ ?_) hd hc hc' hconnected hopen
    rw [value_replayTo _ _ _ hd]
    exact hname ▸ hs

/-- A guest that asks to join a group is not taken out of it by the same call. -/
theorem Step.hasMember_of_joins (h : Step call now b b') {group : String}
    (hjoins : call.Joins peer group) (hmember : b.groups.hasMember group peer = true) :
    b'.groups.hasMember group peer = true := by
  obtain ⟨t, hcall, hmessage⟩ := hjoins
  cases h with
  | join hcall' hmessage' => simp [GroupTable.hasMember_join, hmember]
  | @leave q t' group' hcall' hmessage' =>
    rw [hcall] at hcall'
    cases hcall'
    rw [hmessage] at hmessage'
    cases hmessage'
  | forgetClosed hcall' =>
    rcases hcall' with hcall' | hcall' <;> exact absurd (hcall.symm.trans hcall') (by simp)
  | publish => rwa [groups_dispatch]
  | dispatch => rwa [groups_dispatch]
  | replay _ _ _ _ hd => rwa [value_replayTo _ _ _ hd]
  | accept | hear | act | forward | learn | learnEnum | announce | subscribe |
    unsubscribe => exact hmember

/-- Nobody becomes a member without asking for it. -/
theorem Step.hasMember_back (h : Step call now b b') {group : String}
    (hmember : b'.groups.hasMember group peer = true) :
    call.Joins peer group ∨ b.groups.hasMember group peer = true := by
  cases h with
  | @join q t group' hcall hmessage =>
    simp only [GroupTable.hasMember_join, Bool.or_eq_true, decide_eq_true_eq] at hmember
    rcases hmember with ⟨rfl, rfl⟩ | hmember
    · exact .inl ⟨t, hcall, hmessage⟩
    · exact .inr hmember
  | leave hcall hmessage =>
    simp only [GroupTable.hasMember_leave, Bool.and_eq_true] at hmember
    exact .inr hmember.2
  -- Forgetting closed connections takes members away and adds none.
  | forgetClosed hcall =>
    have hboth := hmember
    rw [Broker.forgetClosed, GroupTable.hasMember_foldl_drop, Bool.and_eq_true] at hboth
    exact .inr hboth.2
  | publish => exact .inr (by rwa [groups_dispatch] at hmember)
  | dispatch => exact .inr (by rwa [groups_dispatch] at hmember)
  | replay _ _ _ _ hd => exact .inr (by rwa [value_replayTo _ _ _ hd] at hmember)
  | accept | hear | act | forward | learn | learnEnum | announce | subscribe |
    unsubscribe => exact .inr hmember

/-! ## As long as a guest is in a state -/

/-- Something holds of the connection of a guest as long as it is in a state. The connection has
been in that state or does not enter it in this call. -/
def While (call : BrokerCall) (peer : PeerId) (s : ConnectionState)
    (P : Broker → Connection → Prop) (b : Broker) : Prop :=
  ∀ c, b.connections.find? peer = some c →
    (s.progress ≤ c.state.progress ∧ (c.state = s → P b c)) ∨
    ((∀ t, call ≠ .receive peer t) ∧ c.state ≠ s)

namespace While

variable {s : ConnectionState} {P : Broker → Connection → Prop}

/-- A step keeps what it keeps of each connection that stays in the state. -/
theorem step (hw : While call peer s P b) (hconnecting : s ≠ .connecting) (hclosed : s ≠ .closed)
    (h : Step call now b b')
    (hkeeps : ∀ c c', b.connections.find? peer = some c → b'.connections.find? peer = some c' →
      c.state = s → c'.state = s → P b c → P b' c') :
    While call peer s P b' := by
  intro c' hc'
  rcases h.connection peer with ⟨channel, rfl, -, hfresh⟩ | hrel
  · -- A new guest is still to answer the greeting.
    obtain rfl : b.greeted channel now = c' := Option.some.inj (hfresh.symm.trans hc')
    refine .inr ⟨fun t => by simp, fun hstate => ?_⟩
    rcases Connection.state_beginHandshake b.nextPeer channel b.name now with hgreeted | hgreeted
    · exact hconnecting (hstate.symm.trans hgreeted)
    · exact hclosed (hstate.symm.trans hgreeted)
  · obtain ⟨c, hc, hadvances, hsettles⟩ := exists_before_of_rel hrel hc'
    rcases hw c hc with ⟨hprogress, hP⟩ | ⟨hquiet, hstate⟩
    · refine .inl ⟨hprogress.trans hadvances.progress, fun hstate' => ?_⟩
      -- A connection that is in the state after the step was in it before.
      have hstate : c.state = s := by
        have hle := hadvances.progress
        rw [hstate'] at hle
        exact ConnectionState.eq_of_progress_eq (Nat.le_antisymm hle hprogress)
      exact hkeeps c c' hc hc' hstate hstate' (hP hstate)
    · refine .inr ⟨hquiet, ?_⟩
      rcases (hsettles hquiet).state with hsame | hend
      · rwa [hsame]
      · rw [hend]
        exact Ne.symm hclosed

theorem takePending (hw : While call peer s P b)
    (hkeeps : ∀ c, P b c → P b.takePending c.drained) : While call peer s P b.takePending := by
  intro c' hc'
  rw [find?_takePending, Option.map_eq_some_iff] at hc'
  obtain ⟨c, hc, rfl⟩ := hc'
  rcases hw c hc with ⟨hprogress, hP⟩ | hother
  · exact .inl ⟨hprogress, fun hstate => hkeeps c (hP hstate)⟩
  · exact .inr hother

theorem setAside (hw : While call peer s P b) {q : PeerId}
    (hkeeps : ∀ c, P b c → P (b.setAside q) c) : While call peer s P (b.setAside q) := by
  intro c hc
  rw [find?_setAside] at hc
  split at hc
  · cases hc
  · rcases hw c hc with ⟨hprogress, hP⟩ | hother
    · exact .inl ⟨hprogress, fun hstate => hkeeps c (hP hstate)⟩
    · exact .inr hother

end While

/-! ## Through a whole call -/

/-- The mirror of a guest agrees as long as the guest is a connected member. During a call by
which it asks to join it is a member already. -/
structure Tracks (call : BrokerCall) (peer : PeerId) (schema : StructSchema) (full : Bool)
    (key : ObjectKey) (start : Nat) (b : Broker) : Prop where
  /-- A guest that asks to join is a member already. -/
  member : call.Joins peer schema.name → b.groups.hasMember schema.name peer = true
  /-- The mirror of a connected member agrees. -/
  mirror : While call peer .connected (fun b c => b.groups.hasMember schema.name peer = true →
    Mirrors schema full key start b c) b

namespace Tracks

/-- Every step keeps the mirror of a connected member. -/
theorem step (ht : Tracks call peer schema full key start b) (hb : b.Sound)
    (hknown : b'.Knows schema) (hcached : schema.flags.cached = true)
    (hdirect : call.redirects schema.name = false) (h : Step call now b b') :
    Tracks call peer schema full key start b' := by
  refine ⟨fun hjoins => h.hasMember_of_joins hjoins (ht.member hjoins),
    ht.mirror.step (by simp) (by simp) h fun c c' hc hc' hconnected hopen hm hmember' => ?_⟩
  have hmember : b.groups.hasMember schema.name peer = true := by
    rcases h.hasMember_back hmember' with hjoins | hmember
    · exact ht.member hjoins
    · exact hmember
  exact h.mirrors hb hknown hcached hdirect hc hc' hconnected hopen hmember (hm hmember)

/-- Taking the queues does not concern the mirror. -/
theorem takePending (ht : Tracks call peer schema full key start b) :
    Tracks call peer schema full key start b.takePending :=
  ⟨ht.member, ht.mirror.takePending fun _ hm hmember =>
    ⟨(hm hmember).started, (hm hmember).agrees⟩⟩

/-- The leaving of a connection does not concern the mirrors of the others. -/
theorem setAside (ht : Tracks call peer schema full key start b) (q : PeerId) :
    Tracks call peer schema full key start (b.setAside q) := by
  refine ⟨fun hjoins => ?_, ht.mirror.setAside fun c hm hmember => ?_⟩
  · rw [groups_setAside]
    exact ht.member hjoins
  · rw [groups_setAside] at hmember
    refine (hm hmember).of_advances (.refl _ c) ?_
    rw [Broker.cacheOf, dispatcher_setAside, Broker.cacheOf]

/-- Every chain of moves keeps the mirror of a connected member. -/
theorem moves (ht : Tracks call peer schema full key start b) (hb : b.Sound)
    (hknown : b'.Knows schema) (hcached : schema.flags.cached = true)
    (hdirect : call.redirects schema.name = false) (h : Moves call now b b') :
    Tracks call peer schema full key start b' := by
  -- A type that has another definition after a move cannot have had the given one before.
  have hkept : b'.Sound ∧ (b'.Knows schema → Tracks call peer schema full key start b') := by
    refine Moves.induction
      (I := fun b => b.Sound ∧ (b.Knows schema → Tracks call peer schema full key start b))
      ?_ ?_ ?_ ⟨hb, fun _ => ht⟩ h
    · rintro b b' ⟨hb, ht⟩ h
      refine ⟨hb.step h, fun hknown => ?_⟩
      exact (ht fun s hs => hknown s (h.findStruct? hs)).step hb hknown hcached hdirect h
    · rintro b ⟨hb, ht⟩
      exact ⟨hb.takePending, fun hknown => (ht hknown).takePending⟩
    · rintro b q ⟨hb, ht⟩ -
      refine ⟨hb.setAside q, fun hknown => Tracks.setAside (ht fun s hs => ?_) q⟩
      exact hknown s (by rwa [registry_setAside])
  exact hkept.2 hknown

end Tracks

end Broker

end ObjectBus
