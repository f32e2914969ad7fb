import ObjectBus.Proofs.Broker.Convergence

/-!
# Preloading

A guest that preloads joins groups before it takes part in traffic. It is sent each cache when
it joins, and nothing that is accepted afterwards, until it says that it has finished. So what
it has seen then is the cache as it was when it joined, and it catches up only with what did
not change in between.

* `Step.advances_of_preloading`: a preloading guest is sent no objects;
* `Reachable.preloaded_view_eq_cache`: what a guest that has preloaded sees.
-/

namespace ObjectBus

/-- The object under a key. -/
def Container.object? (c : Container) (key : ObjectKey) : Option Object :=
  (c.find? key).map (·.object)

/-- Two containers have the same object under a key when the faces without writer and time are
the same. -/
theorem Container.look_false_eq_iff {c c' : Container} {key : ObjectKey} :
    c.look false key = c'.look false key ↔ c.object? key = c'.object? key := by
  have hlook : ∀ c : Container, c.look false key = (c.object? key).map fun o => (o, none) := by
    intro c
    unfold look object?
    rw [Option.map_map]
    rfl
  rw [hlook, hlook]
  exact (Option.map_injective fun o o' h => congrArg Prod.fst h).eq_iff

namespace Broker

variable {call : BrokerCall} {now : Instant} {b b' : Broker} {peer : PeerId}
variable {schema : StructSchema} {full : Bool} {key : ObjectKey} {start : Nat}
variable {c c' : Connection} {t : Transmission}

/-- The cached object of a type under a key. -/
def cached? (b : Broker) (typeName : String) (key : ObjectKey) : Option Object :=
  (b.cachedAt? typeName key).map (·.object)

theorem object?_cacheOf (b : Broker) (schema : StructSchema) (key : ObjectKey) :
    (b.cacheOf schema).object? key = b.cached? schema.name key := by
  rw [cacheOf_eq, cached?, cachedAt?]
  cases b.container? schema.name <;> rfl

/-- Whether a guest joins groups and does not take part in traffic yet. -/
def Preloading (b : Broker) (peer : PeerId) : Prop :=
  ∃ c, b.connections.find? peer = some c ∧ c.state = .earlySubscribe

/-! ## While a guest preloads -/

/-- A preloading guest is sent no objects of a type whose group it does not ask to join. -/
theorem Step.advances_of_preloading (h : Step call now b b') (hb : b.Sound)
    (hjoins : ¬call.Joins peer schema.name)
    (hc : b.connections.find? peer = some c) (hc' : b'.connections.find? peer = some c')
    (hearly : c.state = .earlySubscribe) (hearly' : c'.state = .earlySubscribe) :
    c.Advances (fun t => t.isObjectOf schema.name = false) c' := by
  rcases h.traffic hb hc hc' (by simp [hearly']) (by simp [hearly']) with ⟨hadvances, -⟩ |
    ⟨accepted, h', o, rfl, -⟩ | ⟨q, t, d, replayed, rfl, hs, hd, hcall, hmessage⟩
  · exact hadvances.mono fun t ht => t.isObjectOf_of_noObject ht schema.name
  · -- Nothing is offered to a guest that does not take part in traffic.
    have hoffered : ∀ t, c.offered t = c := by
      intro t
      rw [Connection.offered, hearly]
      rfl
    rw [find?_dispatch, hc, Option.map_some, hoffered, ite_self] at hc'
    obtain rfl := Option.some.inj hc'
    exact .refl _ c
  · rw [value_replayTo _ _ _ hd, find?_putConnection] at hc'
    split at hc'
    · rename_i hq
      subst hq
      obtain rfl : d = c := Option.some.inj (hd.symm.trans hc)
      obtain rfl := Option.some.inj hc'
      refine Connection.advances_foldl_send _ d fun t' ht' => ?_
      have hname : replayed.name ≠ schema.name := by
        intro hname
        exact hjoins ⟨t, hcall, hname ▸ hmessage⟩
      have hnone := filter_replayFrames now (hb.cacheOf hs).1 schema.name
      rw [if_neg hname, List.filter_eq_nil_iff] at hnone
      simpa using hnone t' ht'
    · obtain rfl : c = c' := Option.some.inj (hc.symm.trans hc')
      exact .refl _ c

/-- The mirror of a preloading guest shows what some earlier cache held. -/
abbrev Lingers (call : BrokerCall) (peer : PeerId) (schema : StructSchema) (full : Bool)
    (key : ObjectKey) (start : Nat) (joined : Broker) : Broker → Prop :=
  While call peer .earlySubscribe fun _ c => Mirrors schema full key start joined c

/-- No chain of moves changes what the mirror of a preloading guest shows. -/
theorem Lingers.moves {joined : Broker}
    (hl : Lingers call peer schema full key start joined b) (hb : b.Sound)
    (hjoins : ¬call.Joins peer schema.name) (h : Moves call now b b') :
    Lingers call peer schema full key start joined b' := by
  have hkept : b'.Sound ∧ Lingers call peer schema full key start joined b' := by
    refine Moves.induction
      (I := fun b => b.Sound ∧ Lingers call peer schema full key start joined b)
      ?_ ?_ ?_ ⟨hb, hl⟩ h
    · rintro b b' ⟨hb, hl⟩ h
      refine ⟨hb.step h, hl.step (by simp) (by simp) h fun c c' hc hc' hearly hearly' hm => ?_⟩
      exact hm.of_advances (h.advances_of_preloading hb hjoins hc hc' hearly hearly') rfl
    · rintro b ⟨hb, hl⟩
      exact ⟨hb.takePending, hl.takePending fun _ hm => ⟨hm.started, hm.agrees⟩⟩
    · rintro b q ⟨hb, hl⟩ -
      exact ⟨hb.setAside q, hl.setAside fun _ hm => hm⟩
  exact hkept.2

/-- What a guest that joins while it preloads has seen when everything that follows from its
joining has been done: the cache that it joined. -/
theorem Reachable.lingers_join (hb : b.Reachable) (full : Bool) (key : ObjectKey)
    (hcached : schema.flags.cached = true) (hknown : b.Knows schema)
    (hc : b.connections.find? peer = some c) (hearly : c.state = .earlySubscribe)
    (hjoin : (c.receive t now).value.2 = .control (.member schema.name .join)) :
    Lingers .sweep peer schema full key c.channel.sent.length b
      (b.perform (.receive peer t) now) := by
  obtain ⟨b', heq, -, -, hcache, -⟩ := changeMembership_join hb.sound hc schema.name now
  obtain ⟨hsteps, hperform⟩ := perform_join hc hjoin heq
  have hlingers : Lingers .sweep peer schema full key c.channel.sent.length b b' := by
    intro c' hc'
    refine .inl ⟨hearly ▸ progress_join hb.sound heq hc hc', fun hearly' => ?_⟩
    refine (mirrors_join hb.sound hknown hcached heq hc hc' (by simp [hearly])
      (by simp [Connection.isClosed, hearly'])).of_advances (.refl _ c') ?_
    rw [hcache schema hknown]
  rw [hperform]
  exact hlingers.moves (Steps.induction Sound.step hb.sound hsteps) (not_joins_sweep peer _)
    (drain_moves (hb.rested.queued.steps hsteps))

/-- What the mirror of a guest shows does not change as long as the guest preloads and joins
the group no more. -/
theorem Mirrors.after_preloading {joined : Broker}
    (hm : Mirrors schema full key start joined c) (hb : b.Reachable)
    (hc : b.connections.find? peer = some c) {calls : List (BrokerCall × Instant)}
    (hwaits : b.Throughout (·.Preloading peer) calls)
    (hjoins : ∀ call ∈ calls, ¬call.1.Joins peer schema.name) :
    ∃ c', (b.after calls).connections.find? peer = some c' ∧ c'.state = .earlySubscribe ∧
      Mirrors schema full key start joined c' := by
  induction calls generalizing b c with
  | nil =>
    obtain ⟨d, hd, hearly⟩ := hwaits
    obtain rfl : d = c := Option.some.inj (hd.symm.trans hc)
    exact ⟨d, hd, hearly, hm⟩
  | cons call rest ih =>
    obtain ⟨⟨d, hd, hearly⟩, hrest⟩ := hwaits
    obtain rfl : d = c := Option.some.inj (hd.symm.trans hc)
    have hlingers : Lingers call.1 peer schema full key start joined b := by
      intro c' hc'
      obtain rfl : d = c' := Option.some.inj (hc.symm.trans hc')
      exact .inl ⟨by rw [hearly], fun _ => hm⟩
    have hlingers' := hlingers.moves hb.sound (hjoins call List.mem_cons_self)
      (perform_moves hb.rested call.1 call.2)
    obtain ⟨d', hd', hearly'⟩ := hrest.head
    have hm' : Mirrors schema full key start joined d' := by
      rcases hlingers' d' hd' with ⟨-, hshows⟩ | ⟨-, hstate⟩
      · exact hshows hearly'
      · exact absurd hearly' hstate
    exact ih hm' (hb.perform _ _) hd' hrest fun call hcall =>
      hjoins call (List.mem_cons_of_mem _ hcall)

/-! ## Finishing -/

/-- The connection of a preloading guest that says that it has finished goes on to live
traffic. -/
theorem receive_finishing (hearly : c.state = .earlySubscribe)
    (hcontrol : t.header.isControl = true) {message : ControlMessage}
    (hpayload : t.payload = .control message) (hfinishes : message.finishesPreload = true) :
    (c.receive t now).value = ((c.finishPreload now).value, .handled) := by
  obtain ⟨header, payload⟩ := t
  subst hpayload
  have hstamped : (c.stamp header now).isControl = true := hcontrol
  have hopen : c.isClosed = false := by simp [Connection.isClosed, hearly]
  unfold Connection.receive
  simp only [hopen, Bool.false_eq_true, if_false, hstamped, if_true]
  -- A reported error is also a control message, but does not finish preloading.
  split
  · cases hfinishes
  · simp only [Connection.receiveMessage, hearly, hfinishes, if_true]
    rfl

/-- A connection that goes on to live traffic is connected, unless that closes it. -/
theorem progress_finishPreload (hearly : c.state = .earlySubscribe) (now : Instant) :
    2 ≤ (c.finishPreload now).value.state.progress := by
  have hconnected : (c.setState .connected none).value.state = .connected := by
    rw [Connection.state_setState]
    simp [Connection.isClosed, hearly]
  have hsettles : (c.setState .connected none).value.Settles (c.finishPreload now).value :=
    Connection.settles_send _ _
  -- The mark that is sent afterwards leaves the state as it is or closes.
  rcases hsettles.state with hstate | hstate
  · rw [hstate, hconnected]
    decide
  · rw [hstate]
    decide

/-- A call by which a guest finishes preloading is the change of its state and the draining
after it. -/
theorem perform_finishing (hc : b.connections.find? peer = some c)
    (hearly : c.state = .earlySubscribe) (hcontrol : t.header.isControl = true)
    {message : ControlMessage} (hpayload : t.payload = .control message)
    (hfinishes : message.finishesPreload = true) :
    Step (.receive peer t) now b (b.putConnection peer (c.finishPreload now).value) ∧
      b.perform (.receive peer t) now =
        ((b.putConnection peer (c.finishPreload now).value).drain now).value := by
  have hreceive : (c.receive t now).value = ((c.finishPreload now).value, .handled) :=
    receive_finishing hearly hcontrol hpayload hfinishes
  have hstep : Step (.receive peer t) now b (b.putConnection peer (c.receive t now).value.1) :=
    .hear rfl hc
  rw [hreceive] at hstep
  refine ⟨hstep, ?_⟩
  unfold perform receive
  simp only [hc, Noted.value_bind, Noted.value_pure, hreceive, acceptReceived]

/-- A guest that finishes preloading has a mirror that agrees on every key that is cached as it
was when the mirror began. -/
theorem Reachable.tracks_finish (hb : b.Reachable) {joined : Broker}
    (hcached : schema.flags.cached = true)
    (hknown : (b.perform (.receive peer t) now).Knows schema)
    (hc : b.connections.find? peer = some c) (hearly : c.state = .earlySubscribe)
    (hcontrol : t.header.isControl = true) {message : ControlMessage}
    (hpayload : t.payload = .control message) (hfinishes : message.finishesPreload = true)
    (hm : Mirrors schema full key start joined c)
    (hsame : (b.cacheOf schema).look full key = (joined.cacheOf schema).look full key) :
    Tracks .sweep peer schema full key start (b.perform (.receive peer t) now) := by
  obtain ⟨hstep, hperform⟩ := perform_finishing hc hearly hcontrol hpayload hfinishes
  have hadvances := Connection.advances_finishPreload hearly now
  have htracks : Tracks .sweep peer schema full key start
      (b.putConnection peer (c.finishPreload now).value) := by
    refine ⟨fun hjoins => absurd hjoins (not_joins_sweep peer _), fun c' hc' => ?_⟩
    rw [find?_putConnection, if_pos rfl] at hc'
    obtain rfl := Option.some.inj hc'
    -- What finishing sends is no object, and the key is cached as the mirror has seen it.
    refine .inl ⟨progress_finishPreload hearly now, fun hconnected hmember => ?_⟩
    exact hm.of_advances (hadvances.mono fun t ht => t.isObjectOf_of_noObject ht.noObject _) hsame
  rw [hperform] at hknown ⊢
  exact htracks.moves (hb.sound.step hstep) hknown hcached rfl
    (drain_moves (hb.rested.queued.step hstep))

/-! ## What a guest that has preloaded sees -/

/-- What a guest sees that joins the group of a cached type while it preloads, joins it no more
until it finishes, and is a connected member from then on.

When it finishes it has seen the cache as it was when it joined. After every later call it has
been sent what the cache holds under each key whose object was the same when it finished as when
it joined. Other guests and channels may do anything, only that objects of the type are sent to
its own group once the guest is connected. -/
theorem Reachable.preloaded_view_eq_cache (hb : b.Reachable)
    (hc : b.connections.find? peer = some c) (hearly : c.state = .earlySubscribe)
    (hjoin : (c.receive t now).value.2 = .control (.member schema.name .join))
    {waiting : List (BrokerCall × Instant)}
    (hwaits : (b.perform (.receive peer t) now).Throughout (·.Preloading peer) waiting)
    (hjoins : ∀ call ∈ waiting, ¬call.1.Joins peer schema.name)
    {ready : Broker} (hready : ready = (b.perform (.receive peer t) now).after waiting)
    {t' : Transmission} {now' : Instant} (hcontrol : t'.header.isControl = true)
    {message : ControlMessage} (hpayload : t'.payload = .control message)
    (hfinishes : message.finishesPreload = true) {calls : List (BrokerCall × Instant)}
    (hstays : (ready.perform (.receive peer t') now').Throughout
      (·.ConnectedMember peer schema.name) calls)
    (hdirect : ∀ call ∈ calls, call.1.redirects schema.name = false)
    {last : Broker} (hlast : last = (ready.perform (.receive peer t') now').after calls)
    (hs : last.registry.findStruct? schema.name = some schema)
    (hcached : schema.flags.cached = true) :
    (∃ d, ready.connections.find? peer = some d ∧
      ∀ received : List (Transmission × Instant),
        received.map (·.1) = d.objectsSince schema.name c.channel.sent.length →
          ∀ key, ((Container.empty schema).afterFrames received).object? key =
            b.cached? schema.name key) ∧
    ∃ cache c', last.container? schema.name = some cache ∧
      last.connections.find? peer = some c' ∧
      ∀ received : List (Transmission × Instant),
        received.map (·.1) = c'.objectsSince schema.name c.channel.sent.length →
          ∀ key, ready.cached? schema.name key = b.cached? schema.name key →
            ((Container.empty schema).afterFrames received).object? key = cache.object? key := by
  subst hready hlast
  have hjoined : (b.perform (.receive peer t) now).Reachable := hb.perform _ _
  have hready := hjoined.after waiting
  have hfinished := hready.perform (.receive peer t') now'
  have hknown := hfinished.knows_of_after hs
  obtain ⟨d, hd, hearly'⟩ := hwaits.last
  -- Until it finishes, the guest sees what it saw when it joined.
  have hlingers : ∀ key, Mirrors schema false key c.channel.sent.length b d := by
    intro key
    have hknown₀ : b.Knows schema := fun s hs' =>
      hknown s (hready.findStruct?_perform (hjoined.findStruct?_after
        (hb.findStruct?_perform hs') waiting))
    obtain ⟨d₀, hd₀, hearly₀⟩ := hwaits.head
    have hjoin' := hb.lingers_join false key hcached hknown₀ hc hearly hjoin d₀ hd₀
    rcases hjoin' with ⟨-, hshows⟩ | ⟨-, hstate⟩
    · obtain ⟨d', hd', -, hm⟩ := (hshows hearly₀).after_preloading hjoined hd₀ hwaits hjoins
      obtain rfl : d' = d := Option.some.inj (hd'.symm.trans hd)
      exact hm
    · exact absurd hearly₀ hstate
  refine ⟨⟨d, hd, fun received hreceived key => ?_⟩, ?_⟩
  · rw [← object?_cacheOf]
    exact Container.look_false_eq_iff.1 ((hlingers key).agrees received hreceived)
  · obtain ⟨-, c', hc', -⟩ := hstays.last
    refine ⟨_, c', (hfinished.after calls).container?_eq_cacheOf hs hcached, hc',
      fun received hreceived key hsame => ?_⟩
    rw [← object?_cacheOf, ← object?_cacheOf] at hsame
    -- From here on the guest takes part, so that its mirror is kept as that of any member.
    have htracks := hready.tracks_finish hcached hknown hd hearly' hcontrol hpayload hfinishes
      (hlingers key) (Container.look_false_eq_iff.2 hsame)
    obtain ⟨hmember, e, he, hconnected⟩ := hstays.head
    rcases htracks.mirror e he with ⟨-, hagrees⟩ | ⟨-, hstate⟩
    · obtain ⟨c'', hc'', hm⟩ :=
        (hagrees hconnected hmember).after hfinished hcached he hstays hdirect hs
      obtain rfl : c'' = c' := Option.some.inj (hc''.symm.trans hc')
      exact Container.look_false_eq_iff.1 (hm.agrees received hreceived)
    · exact absurd hconnected hstate

/-- The board when its guest has joined the notes before it takes part in traffic, and another
note has been published since. -/
def boardWithNews : Broker :=
  ((boardWithReader true).perform (.receive 2 joinNotes) default).after [(news, default)]

/-- The statement that a guest has finished preloading. -/
def finishPreloading : Transmission := .ofControl .preloadClientFinished default

/-- The reader sees the note that was there when it joined and one that is published once it is
connected. -/
theorem view_of_preloaded_reader :
    (∃ d, boardWithNews.connections.find? 2 = some d ∧
      ∀ received : List (Transmission × Instant),
        received.map (·.1) = d.objectsSince noteSchema.name 2 →
          ∀ key, ((Container.empty noteSchema).afterFrames received).object? key =
            (boardWithReader true).cached? noteSchema.name key) ∧
    ∃ cache c', ((boardWithNews.perform (.receive 2 finishPreloading) default).after
        [(.publish (note 3 "more") none false, default)]).container? noteSchema.name =
        some cache ∧
      ((boardWithNews.perform (.receive 2 finishPreloading) default).after
        [(.publish (note 3 "more") none false, default)]).connections.find? 2 = some c' ∧
      ∀ received : List (Transmission × Instant),
        received.map (·.1) = c'.objectsSince noteSchema.name 2 →
          ∀ key, boardWithNews.cached? noteSchema.name key =
              (boardWithReader true).cached? noteSchema.name key →
            ((Container.empty noteSchema).afterFrames received).object? key =
              cache.object? key := by
  have hwaits : Throughout (·.Preloading 2)
      ((boardWithReader true).perform (.receive 2 joinNotes) default) [(news, default)] :=
    ⟨⟨_, rfl, rfl⟩, ⟨_, rfl, rfl⟩⟩
  have hjoins : ∀ call ∈ [(news, (default : Instant))], ¬call.1.Joins 2 noteSchema.name := by
    rintro call hcall ⟨t, hjoin, -⟩
    rw [List.mem_singleton.1 hcall] at hjoin
    cases hjoin
  have hstays : Throughout (·.ConnectedMember 2 noteSchema.name)
      (boardWithNews.perform (.receive 2 finishPreloading) default)
      [(.publish (note 3 "more") none false, default)] :=
    ⟨⟨rfl, _, rfl, rfl⟩, ⟨rfl, _, rfl, rfl⟩⟩
  exact Reachable.preloaded_view_eq_cache (reachable_board.perform _ _) rfl rfl rfl hwaits hjoins
    rfl rfl rfl rfl hstays (by simp [BrokerCall.redirects]) rfl rfl rfl

/-- What the host publishes between a guest's request to join and the end of its preloading is
missing from what the guest sees, although the guest is a connected member by then. -/
theorem preload_misses_news :
    (boardWithReader true).Reachable ∧
    (∃ c, (boardWithReader true).connections.find? 2 = some c ∧ c.state = .earlySubscribe ∧
      (c.receive joinNotes default).value.2 = .control (.member noteSchema.name .join) ∧
      c.channel.sent.length = 2) ∧
    (boardWithNews.perform (.receive 2 finishPreloading) default).ConnectedMember 2
      noteSchema.name ∧
    ∃ cache c', (boardWithNews.perform (.receive 2 finishPreloading) default).container?
        noteSchema.name = some cache ∧
      (boardWithNews.perform (.receive 2 finishPreloading) default).connections.find? 2 = some c' ∧
      cache.object? [.uint 2] = some (note 2 "news") ∧
      ∃ received : List (Transmission × Instant),
        received.map (·.1) = c'.objectsSince noteSchema.name 2 ∧
          ((Container.empty noteSchema).afterFrames received).object? [.uint 2] = none :=
  ⟨reachable_board.perform _ _, ⟨_, rfl, rfl, rfl, rfl⟩, ⟨rfl, _, rfl, rfl⟩, _, _, rfl, rfl, rfl,
    ((board.replayFrames noteSchema default).take 1).map (·, default), rfl, rfl⟩

end Broker

end ObjectBus
