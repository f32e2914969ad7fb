import ObjectBus.Proofs.Broker.Mirror

/-!
# Caches converge

A guest that joins the group of a cached type while it is connected, and stays a connected
member, has seen enough to know the whole cache after every call: a container that is fed with
what the guest was sent holds the same objects, with the same last writers and the same times.

* `joinFrames`: what a guest is sent when it joins a group;
* `mirrors_join`: a replay makes the mirror of the new member agree;
* `Mirrors.after`: it agrees after any further calls;
* `Reachable.view_eq_cache`: both together.
-/

namespace ObjectBus.Broker

variable {call : BrokerCall} {now : Instant} {b b' : Broker} {peer : PeerId}
variable {schema : StructSchema} {full : Bool} {key : ObjectKey} {start : Nat}
variable {c c' : Connection} {t : Transmission} {group : String}

/-! ## Runs -/

/-- Something holds now and after each of the calls. -/
def Throughout (I : Broker → Prop) : Broker → List (BrokerCall × Instant) → Prop
  | b, [] => I b
  | b, call :: rest => I b ∧ Throughout I (b.perform call.1 call.2) rest

/-- Whether a guest is connected and a member of a group. -/
def ConnectedMember (b : Broker) (peer : PeerId) (group : String) : Prop :=
  b.groups.hasMember group peer = true ∧
    ∃ c, b.connections.find? peer = some c ∧ c.state = .connected

theorem Throughout.head {I : Broker → Prop} {calls : List (BrokerCall × Instant)}
    (h : b.Throughout I calls) : I b := by
  cases calls with
  | nil => exact h
  | cons call rest => exact h.1

theorem Throughout.last {I : Broker → Prop} {calls : List (BrokerCall × Instant)}
    (h : b.Throughout I calls) : I (b.after calls) := by
  induction calls generalizing b with
  | nil => exact h
  | cons call rest ih => exact ih h.2

theorem Throughout.mono {I J : Broker → Prop} (himp : ∀ b, I b → J b)
    {calls : List (BrokerCall × Instant)} (h : b.Throughout I calls) : b.Throughout J calls := by
  induction calls generalizing b with
  | nil => exact himp b h
  | cons call rest ih => exact ⟨himp b h.1, ih h.2⟩

/-- No call forgets a type or changes its definition. -/
theorem Reachable.findStruct?_perform (hb : b.Reachable) {name : String} {s : StructSchema}
    (hs : b.registry.findStruct? name = some s) :
    (b.perform call now).registry.findStruct? name = some s := by
  refine Moves.induction (I := fun b => b.registry.findStruct? name = some s)
    (fun hs h => h.findStruct? hs) id (fun hs _ => ?_) hs (perform_moves hb.rested call now)
  rwa [registry_setAside]

/-- No calls forget a type or change its definition. -/
theorem Reachable.findStruct?_after (hb : b.Reachable) {name : String} {s : StructSchema}
    (hs : b.registry.findStruct? name = some s) (calls : List (BrokerCall × Instant)) :
    (b.after calls).registry.findStruct? name = some s := by
  induction calls generalizing b with
  | nil => exact hs
  | cons call rest ih => exact ih (hb.perform _ _) (hb.findStruct?_perform hs)

/-- A type that has a definition in the end had no other one before. -/
theorem Reachable.knows_of_after (hb : b.Reachable) {calls : List (BrokerCall × Instant)}
    (hs : (b.after calls).registry.findStruct? schema.name = some schema) : b.Knows schema := by
  intro s hs'
  have hkept := hb.findStruct?_after hs' calls
  exact Option.some.inj (hkept.symm.trans hs)

/-! ## Joining -/

/-- Sweeping is not a request to join. -/
theorem not_joins_sweep (peer : PeerId) (group : String) : ¬ BrokerCall.sweep.Joins peer group := by
  rintro ⟨t, hcall, -⟩
  cases hcall

/-- What a guest that joins a group is sent: if it is the group of a cached type, its objects
and the mark of their end. -/
def joinFrames (b : Broker) (group : String) (now : Instant) : List Transmission :=
  match b.registry.findStruct? group with
  | some schema => if schema.flags.cached then b.replayFrames schema now else []
  | none => []

/-- What joining a group does: the guest becomes a member and is sent what it missed. -/
theorem changeMembership_join (hb : b.Sound) (hc : b.connections.find? peer = some c)
    (group : String) (now : Instant) :
    ∃ b', (b.changeMembership peer group .join now).value = (b', .ok ()) ∧
      b'.registry = b.registry ∧ b'.groups = (b.groups.join group peer).value.1 ∧
      (∀ s, b.Knows s → b'.cacheOf s = b.cacheOf s) ∧
      ∀ q, b'.connections.find? q = if q = peer then
          some ((b.joinFrames group now).foldl (fun c t => (c.send t).value) c)
        else b.connections.find? q := by
  have hsame : ∀ q, b.connections.find? q =
      if q = peer then some c else b.connections.find? q := by
    intro q
    split
    · rename_i hq
      rw [hq, hc]
    · rfl
  unfold changeMembership joinFrames
  simp only [Noted.value_bind]
  cases hschema : b.registry.findStruct? group with
  -- A group that is not that of a cached type has nothing to replay.
  | none => exact ⟨_, rfl, rfl, rfl, fun s _ => rfl, hsame⟩
  | some replayed =>
    simp only
    split
    · obtain ⟨rfl, hs⟩ := hb.findStruct?_name hschema
      rw [value_replayTo { b with groups := (b.groups.join replayed.name peer).value.1 } _ _ hc]
      refine ⟨_, rfl, rfl, rfl, fun s hknown => ?_, fun q => ?_⟩
      · exact cacheOf_touch replayed rfl fun hname => hknown replayed (hname ▸ hs)
      · rw [find?_putConnection]
        rfl
    · exact ⟨_, rfl, rfl, rfl, fun s _ => rfl, hsame⟩

/-- A call by which a guest asks to join a group is the joining and the draining after it. -/
theorem perform_join (hc : b.connections.find? peer = some c)
    (hjoin : (c.receive t now).value.2 = .control (.member group .join))
    (hb' : (b.changeMembership peer group .join now).value = (b', .ok ())) :
    Steps (.receive peer t) now b b' ∧
      b.perform (.receive peer t) now = (b'.drain now).value := by
  obtain ⟨hsame, -⟩ := Connection.receive_eq_control hjoin
  have hmessage : t.payload = .control (.member group .join) := Connection.payload_of_receive hjoin
  have hsteps : Steps (.receive peer t) now b (b.changeMembership peer group .join now).value.1 :=
    steps_changeMembership rfl hmessage hc
  rw [hb'] at hsteps
  refine ⟨hsteps, ?_⟩
  unfold perform receive
  simp only [hc, Noted.value_bind, Noted.value_pure, hsame, hjoin, putConnection_self hc,
    acceptReceived, acceptRequest, hb', settle]

/-- Joining a group does not set the protocol back. -/
theorem progress_join (hb : b.Sound)
    (hb' : (b.changeMembership peer group .join now).value = (b', .ok ()))
    (hc : b.connections.find? peer = some c) (hc' : b'.connections.find? peer = some c') :
    c.state.progress ≤ c'.state.progress := by
  obtain ⟨b'', heq, -, -, -, hconnections⟩ := changeMembership_join hb hc group now
  obtain rfl : b'' = b' := congrArg Prod.fst (heq.symm.trans hb')
  rw [hconnections, if_pos rfl] at hc'
  obtain rfl := Option.some.inj hc'
  have hadvances : c.Advances (fun _ => True)
      ((b.joinFrames group now).foldl (fun c t => (c.send t).value) c) :=
    Connection.advances_foldl_send _ c fun _ _ => trivial
  exact hadvances.progress

/-- The mirror that a guest begins when it joins agrees with the cache. -/
theorem mirrors_join (hb : b.Sound) (hknown : b.Knows schema) (hcached : schema.flags.cached = true)
    (hb' : (b.changeMembership peer schema.name .join now).value = (b', .ok ()))
    (hc : b.connections.find? peer = some c) (hc' : b'.connections.find? peer = some c')
    (hsuspended : c.state ≠ .suspended) (hopen : c'.isClosed = false) :
    Mirrors schema full key c.channel.sent.length b' c' := by
  obtain ⟨b'', heq, -, -, hcache, hconnections⟩ := changeMembership_join hb hc schema.name now
  obtain rfl : b'' = b' := congrArg Prod.fst (heq.symm.trans hb')
  rw [hconnections, if_pos rfl] at hc'
  obtain rfl := Option.some.inj hc'
  have hsent := Connection.sent_foldl_send_of_open hsuspended hopen
  have hnothing : c.objectsSince schema.name c.channel.sent.length = [] := by
    rw [Connection.objectsSince, List.drop_length, List.filter_nil]
  unfold joinFrames at *
  cases hs : b.registry.findStruct? schema.name with
  | none =>
    -- A type that is not registered yet has no objects, and the guest is sent none.
    refine ⟨Nat.le_refl _, fun received hreceived => ?_⟩
    simp only [List.foldl_nil, hnothing, List.map_eq_nil_iff] at hreceived
    rw [hcache schema hknown, hb.cacheOf_of_unknown hs, hreceived]
    rfl
  | some s =>
    obtain rfl := hknown s hs
    simp only [hs, hcached, if_true] at hsent ⊢
    -- The mirror begins empty, so that it lacks every key before the replay.
    refine mirrors_of_replay now hb hs (Nat.le_refl _) (fun received hreceived => .inl ?_) hsent
      (hcache s hknown)
    rw [hnothing, List.map_eq_nil_iff] at hreceived
    rw [hreceived]
    rfl

/-- A guest that joins a group while it is connected has a mirror that agrees, as long as it is
connected, when everything that follows from its joining has been done. -/
theorem Reachable.tracks_join (hb : b.Reachable) (full : Bool) (key : ObjectKey)
    (hcached : schema.flags.cached = true)
    (hknown : (b.perform (.receive peer t) now).Knows schema)
    (hc : b.connections.find? peer = some c) (hconnected : c.state = .connected)
    (hjoin : (c.receive t now).value.2 = .control (.member schema.name .join)) :
    Tracks .sweep peer schema full key c.channel.sent.length
      (b.perform (.receive peer t) now) := by
  have hknown₀ : b.Knows schema := fun s hs => hknown s (hb.findStruct?_perform hs)
  obtain ⟨b', heq, -⟩ := changeMembership_join hb.sound hc schema.name now
  obtain ⟨hsteps, hperform⟩ := perform_join hc hjoin heq
  have hsound : b'.Sound := Steps.induction Sound.step hb.sound hsteps
  have hqueued : b'.Queued [] := hb.rested.queued.steps hsteps
  -- The joining begins the mirror, and the draining after it keeps it.
  have htracks : Tracks .sweep peer schema full key c.channel.sent.length b' := by
    refine ⟨fun hjoins => absurd hjoins (not_joins_sweep peer _), fun c' hc' => .inl ⟨?_, ?_⟩⟩
    · exact hconnected ▸ progress_join hb.sound heq hc hc'
    · intro hopen _
      exact mirrors_join hb.sound hknown₀ hcached heq hc hc' (by simp [hconnected])
        (by simp [Connection.isClosed, hopen])
  rw [hperform] at hknown ⊢
  exact htracks.moves hsound hknown hcached rfl (drain_moves hqueued)

/-! ## Staying -/

/-- The mirror of a guest agrees after every call as long as the guest is a connected member. -/
theorem Mirrors.after (hm : Mirrors schema full key start b c) (hb : b.Reachable)
    (hcached : schema.flags.cached = true) (hc : b.connections.find? peer = some c)
    {calls : List (BrokerCall × Instant)}
    (hstays : b.Throughout (·.ConnectedMember peer schema.name) calls)
    (hdirect : ∀ call ∈ calls, call.1.redirects schema.name = false)
    (hs : (b.after calls).registry.findStruct? schema.name = some schema) :
    ∃ c', (b.after calls).connections.find? peer = some c' ∧
      Mirrors schema full key start (b.after calls) c' := by
  induction calls generalizing b c with
  | nil => exact ⟨c, hc, hm⟩
  | cons call rest ih =>
    obtain ⟨⟨hmember, d, hd, hconnected⟩, hrest⟩ := hstays
    obtain rfl : d = c := Option.some.inj (hd.symm.trans hc)
    have hb' : (b.perform call.1 call.2).Reachable := hb.perform call.1 call.2
    -- One call more: the mirror agrees before it, its moves keep that, and the guest has stayed.
    have htracks : Tracks call.1 peer schema full key start b := by
      refine ⟨fun _ => hmember, fun c' hc' => .inl ?_⟩
      obtain rfl : d = c' := Option.some.inj (hc.symm.trans hc')
      exact ⟨by rw [hconnected], fun _ _ => hm⟩
    have htracks' := htracks.moves hb.sound (hb'.knows_of_after hs) hcached
      (hdirect call List.mem_cons_self) (perform_moves hb.rested call.1 call.2)
    obtain ⟨hmember', d', hd', hconnected'⟩ := hrest.head
    have hm' : Mirrors schema full key start (b.perform call.1 call.2) d' := by
      rcases htracks'.mirror d' hd' with ⟨-, hagrees⟩ | ⟨-, hstate⟩
      · exact hagrees hconnected' hmember'
      · exact absurd hconnected' hstate
    exact ih hm' hb' hd' hrest (fun call hcall => hdirect call (List.mem_cons_of_mem _ hcall)) hs

/-- A registered cached type has a container, and that is its cache. -/
theorem Reachable.container?_eq_cacheOf (hb : b.Reachable)
    (hs : b.registry.findStruct? schema.name = some schema) (hcached : schema.flags.cached = true) :
    b.container? schema.name = some (b.cacheOf schema) := by
  obtain ⟨cache, hcache⟩ :=
    Option.ne_none_iff_exists'.1 (hb.stocked schema.name schema hs hcached)
  rw [hcache, cacheOf_eq, hcache]
  rfl

/-- After every call, a guest that joined the group of a cached type while it was connected, and
has been a connected member ever since, has been sent what the cache holds: whenever the objects
arrived, the container that they were fed into in order has the same objects under the same
keys, with the same last writers and the same times.

The guest may have joined again since then, and other guests and channels may do anything, only
that objects of the type are sent to its own group. -/
theorem Reachable.view_eq_cache (hb : b.Reachable) (hc : b.connections.find? peer = some c)
    (hconnected : c.state = .connected)
    (hjoin : (c.receive t now).value.2 = .control (.member schema.name .join))
    {calls : List (BrokerCall × Instant)}
    (hstays : (b.perform (.receive peer t) now).Throughout (·.ConnectedMember peer schema.name)
      calls)
    (hdirect : ∀ call ∈ calls, call.1.redirects schema.name = false)
    (hs : ((b.perform (.receive peer t) now).after calls).registry.findStruct? schema.name =
      some schema)
    (hcached : schema.flags.cached = true) :
    ∃ cache c', ((b.perform (.receive peer t) now).after calls).container? schema.name =
        some cache ∧
      ((b.perform (.receive peer t) now).after calls).connections.find? peer = some c' ∧
      ∀ received : List (Transmission × Instant),
        received.map (·.1) = c'.objectsSince schema.name c.channel.sent.length →
          ∀ key, ((Container.empty schema).afterFrames received).look true key =
            cache.look true key := by
  have hjoined : (b.perform (.receive peer t) now).Reachable := hb.perform _ _
  have hknown := hjoined.knows_of_after hs
  obtain ⟨hmember, d, hd, hopen⟩ := hstays.head
  -- The same objects are fed into one container, whichever key is looked at.
  have hall : ∀ key, ∃ c', ((b.perform (.receive peer t) now).after calls).connections.find? peer =
      some c' ∧ Mirrors schema true key c.channel.sent.length
        ((b.perform (.receive peer t) now).after calls) c' := by
    intro key
    have htracks := hb.tracks_join true key hcached hknown hc hconnected hjoin
    rcases htracks.mirror d hd with ⟨-, hagrees⟩ | ⟨-, hstate⟩
    · exact (hagrees hopen hmember).after hjoined hcached hd hstays hdirect hs
    · exact absurd hopen hstate
  obtain ⟨-, c', hc', -⟩ := hstays.last
  refine ⟨_, c', (hjoined.after calls).container?_eq_cacheOf hs hcached, hc',
    fun received hreceived key => ?_⟩
  obtain ⟨c'', hc'', hm⟩ := hall key
  obtain rfl : c'' = c' := Option.some.inj (hc''.symm.trans hc')
  exact hm.agrees received hreceived

/-- A reader that joins the notes and then is sent a second one knows both. -/
theorem view_of_reader : ∃ cache c',
    (((boardWithReader false).perform (.receive 2 joinNotes) default).after
      [(news, default)]).container? noteSchema.name = some cache ∧
    (((boardWithReader false).perform (.receive 2 joinNotes) default).after
      [(news, default)]).connections.find? 2 = some c' ∧
    cache.size = 2 ∧
    ∀ received : List (Transmission × Instant),
      received.map (·.1) = c'.objectsSince noteSchema.name 2 →
        ∀ key, ((Container.empty noteSchema).afterFrames received).look true key =
          cache.look true key := by
  have hstays : Throughout (·.ConnectedMember 2 noteSchema.name)
      ((boardWithReader false).perform (.receive 2 joinNotes) default) [(news, default)] :=
    ⟨⟨rfl, _, rfl, rfl⟩, ⟨rfl, _, rfl, rfl⟩⟩
  obtain ⟨cache, c', hcache, hc', hview⟩ :=
    Reachable.view_eq_cache (reachable_board.perform _ _) rfl rfl rfl hstays
      (by simp [BrokerCall.redirects, news]) rfl rfl
  -- The container is the one that the calls leave behind, so that its size can be computed.
  have hsize : (some cache).map Container.size = some 2 := by
    rw [← hcache]
    rfl
  exact ⟨cache, c', hcache, hc', Option.some.inj hsize, hview⟩

end ObjectBus.Broker
