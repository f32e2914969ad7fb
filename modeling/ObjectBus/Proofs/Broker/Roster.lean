import ObjectBus.Proofs.Broker.Numbers
import ObjectBus.Proofs.Broker.PeerRecords

/-!
# The records of peers mirror the connections

Whenever a call is over, the records of peers show which guests are there, under which names and in
which states, and that all others have closed their connections. This holds as long as the records
are left to the broker: nobody else clears or writes them.

* `BrokerCall.Spares`: the calls that leave the objects of a type alone;
* `Recorded.perform`: every such call keeps all peers recorded, whether it is a course, accepts a
  guest or sweeps;
* `Roster`: what the records show of a broker at rest;
* `roster_after`: they show it after every run.
-/

namespace ObjectBus

/-- A call publishes or removes an object of a type as the host. -/
def BrokerCall.Writes : BrokerCall → String → Prop
  | .publish o _ _, typeName => o.typeName = typeName
  | .remove o, typeName => o.typeName = typeName
  | _, _ => False

/-- A call asks neither to clear the cache of a type nor to write to it as the host. -/
structure BrokerCall.Spares (call : BrokerCall) (typeName : String) : Prop where
  /-- It does not clear the cache. -/
  clears : ¬call.Clears typeName
  /-- It writes nothing. -/
  writes : ¬call.Writes typeName

/-- A new connection that is greeted has its first state to tell, and perhaps that it has closed. -/
theorem Connection.tracked_beginHandshake (q peer : PeerId) (channel : Channel) (hostName : String)
    (now : Instant) (record? : Option Object) :
    Tracked [] record? q ((ofChannel peer channel).beginHandshake hostName now).value.1 := by
  let connecting : Connection :=
    { ofChannel peer channel with
      started := true
      hostName := hostName
      transitions := [⟨.connecting, none⟩] }
  have hconnecting : Tracked [] record? q connecting := by
    have hsplit : ∀ earlier t, [] ++ connecting.transitions = earlier ++ [t] →
        earlier = [] ∧ (⟨.connecting, none⟩ : Transition) = t := by
      intro earlier t heq
      have hone : [] ++ [(⟨.connecting, none⟩ : Transition)] = earlier ++ [t] := heq
      obtain ⟨hearlier, hlast⟩ := List.append_inj' hone rfl
      exact ⟨hearlier.symm, List.singleton_inj.1 hlast⟩
    refine ⟨fun earlier t heq => ?_, fun earlier t heq t' ht' => ?_, ?_, ?_⟩
    · rw [← (hsplit earlier t heq).2]
      rfl
    · rw [(hsplit earlier t heq).1] at ht'
      cases ht'
    · exact fun hnone => absurd hnone (List.cons_ne_nil _ _)
    · exact fun hnone => absurd hnone (List.cons_ne_nil _ _)
  exact hconnecting.evolves (evolves_send connecting _)

namespace Broker

variable {call : BrokerCall} {now : Instant} {b b' : Broker} {peer : PeerId}
variable {taken : List (PeerId × Transition)} {cleared : String → Prop} {given : Passage → Prop}
variable {passed : Passage → Prop} {sent : PeerId → Transmission → Prop} {o : Object}

/-- What a call brings is not of a type that the host alone writes, if the call spares that type. -/
theorem name_ne_of_brings {typeName : String} (hbuiltin : b.KnowsBuiltin)
    (hrecord : isHostRecord typeName = true) (hcall : call.Spares typeName) {p : Passage}
    {r : Registry} (hp : b.Brings now p call) (hof : p.IsOf r) : p.schema.name ≠ typeName := by
  have htype : p.object.typeName = p.schema.name := hof.typeName_object
  intro hname
  cases call with
  | publish o included remove =>
    obtain rfl : p.object = o := hp
    exact hcall.writes (htype.trans hname)
  | remove o =>
    obtain rfl : p.object = o := hp
    exact hcall.writes (htype.trans hname)
  | receive peer t =>
    obtain ⟨c, -, hauthored⟩ := hp
    refine hauthored.ordinary (hbuiltin.reserved_iff.2 ?_)
    rw [hname]
    simpa [isHostRecord] using hrecord
  | accept | transportFailed | clearCache | registerStruct | registerEnum | subscribe |
    unsubscribe | sweep | shutdown | disturb => exact hp

namespace Recorded

/-! ## Calls that are courses -/

/-- Steps that write no records keep everything recorded. -/
theorem steps (h : Recorded taken b) (hsteps : Steps call now b b')
    (hcall : call.rearranges = false) (heffects : Effects passed sent b b')
    (hnone : ∀ p, passed p → p.IsOf b'.registry → p.schema.name ≠ peerStateType) :
    Recorded taken b' := by
  have hsame := cached?_of_effects heffects hnone
  refine ⟨fun s hs => heffects.registry _ s (h.builtin s hs), fun key o ho => ?_, fun peer => ?_⟩
  · exact h.keys key o (hsame key ▸ ho)
  · exact (h.peers peer).carried (hsteps.carries hcall peer) (hsame _)

/-- A course in which nobody but the host writes records keeps everything recorded. -/
theorem course (h : Recorded [] b) (hcourse : Course call now cleared given sent b b')
    (hcall : call.rearranges = false) (hclear : ¬cleared peerStateType)
    (hgiven : ∀ p r, given p → p.IsOf r → p.schema.name ≠ peerStateType)
    (hb : b.Tidy) (hq : b.Queued []) : Recorded [] b' := by
  induction hcourse with
  | steps hsteps heffects =>
    refine h.steps hsteps hcall (heffects hb.sound) fun p hp hof => ?_
    rcases hp with hbrought | herrand
    · exact hgiven p _ hbrought hof
    · exact herrand.name_ne hof hclear
  | drain b => exact h.drain hb hq now
  | trans hfirst _ ih ih' =>
    obtain ⟨hb', hq'⟩ := hfirst.tidy hb hq
    exact ih' (ih h hb hq) hb' hq'

/-- A call that is a course keeps everything recorded. -/
theorem perform_of_course (h : Recorded [] b) (hb : b.Reachable) (hcourse : call.rearranges = false)
    (hcall : call.Spares peerStateType) (now : Instant) : Recorded [] (b.perform call now) :=
  h.course (hb.course_perform hcourse now) hcourse hcall.clears
    (fun _ _ hp hof => name_ne_of_brings h.builtin rfl hcall hp hof) hb.tidy hb.rested.queued

/-! ## Accepting a guest -/

/-- A guest that is greeted takes its number, and whatever was recorded under it. -/
theorem accept (h : Recorded [] b) (hb : b.Reachable) (channel : Channel) (now : Instant) :
    Recorded [] (b.perform (.accept channel) now) := by
  let greeting : Broker :=
    { b with nextPeer := b.nextPeer + 1 }.putConnection b.nextPeer (b.greeted channel now)
  have hstep : Step (.accept channel) now b greeting := .accept rfl
  have hfind : ∀ q, greeting.connections.find? q =
      if q = b.nextPeer then some (b.greeted channel now) else b.connections.find? q :=
    fun q => find?_putConnection _ _ q _
  have hgreeting : Recorded [] greeting := by
    refine ⟨h.builtin, h.keys, fun q => ?_⟩
    by_cases hq : q = b.nextPeer
    -- Whatever is recorded under the number, the first state is still to be told.
    · have hthere : greeting.connections.find? q = some (b.greeted channel now) := by
        rw [hfind, if_pos hq]
      have hsome : greeting.connections.find? q ≠ none := hthere ▸ Option.some_ne_none _
      refine ⟨fun c hc => ?_, fun hnone => absurd hnone hsome, fun hnone => absurd hnone hsome,
        fun o ho => ?_⟩
      · obtain rfl := Option.some.inj (hthere.symm.trans hc)
        exact Connection.tracked_beginHandshake q _ channel b.name now _
      · obtain ⟨-, name, state, heq, -⟩ := (h.peers q).known o ho
        exact ⟨assigned_of_open hthere, name, state, heq, fun hnone => absurd hnone hsome⟩
    · refine (h.peers q).carried ⟨?_, rfl, hstep.assigned⟩ rfl
      rw [hfind, if_neg hq]
      exact rel_refl (fun _ => .refl) _
  exact hgreeting.drain (hb.tidy.step hstep) (hb.rested.queued.step hstep) now

/-! ## Sweeping -/

/-- Forgetting the closed connections leaves their records. -/
theorem forgetClosed (h : Recorded [] b) : Recorded [] b.forgetClosed := by
  refine ⟨h.builtin, h.keys, fun peer => ?_⟩
  obtain ⟨htracked, habsent, -, hknown⟩ := h.peers peer
  refine ⟨htracked, habsent, fun _ c hc => ?_, fun o ho => ?_⟩
  · cases hc
  · obtain ⟨hassigned, hrecord⟩ := hknown o ho
    exact ⟨assigned_forgetClosed.2 hassigned, hrecord⟩

end Recorded

/-- Publishing the removal of an object takes entries out and changes none. -/
theorem cachedAt?_publishAsHost_removal (hb : b.Sound) (o : Object)
    (included : Option PropertySet) (now : Instant) (typeName : String) (key : ObjectKey) :
    (b.publishAsHost o included true now).value.1.cachedAt? typeName key = none ∨
      (b.publishAsHost o included true now).value.1.cachedAt? typeName key =
        b.cachedAt? typeName key := by
  rcases b.publishAsHost_cases o now included true with ⟨schema, hschema, -, heq⟩ | heq
  · obtain ⟨-, hs⟩ := hb.findStruct?_name hschema
    rw [heq, cachedAt?_dispatch_eq hb hs]
    split
    · exact .inl rfl
    · exact .inr rfl
  · rw [heq]
    exact .inr rfl

/-- The cached objects of a type. -/
def cachedObjects (b : Broker) (typeName : String) : List Object :=
  ((b.container? typeName).map (·.objects)).getD []

theorem mem_cachedObjects_iff {typeName : String} :
    o ∈ b.cachedObjects typeName ↔ ∃ key, b.cached? typeName key = some o := by
  unfold cachedObjects cached? cachedAt?
  cases b.container? typeName with
  | none => simp
  | some c =>
    simp only [Option.map_some, Option.getD_some, Option.bind_some, Container.objects,
      Container.snapshot, KeyedList.values, List.map_map, List.mem_map, Option.map_eq_some_iff,
      Container.find?, KeyedList.find?_eq_some_iff]
    constructor
    · rintro ⟨⟨key, e⟩, hmem, rfl⟩
      exact ⟨key, e, hmem, rfl⟩
    · rintro ⟨key, e, hmem, rfl⟩
      exact ⟨(key, e), hmem, rfl⟩

namespace Recorded

/-- The record of a peer that is forgotten can be retracted. -/
theorem publishRemoval (h : Recorded [] b) (hb : b.Sound)
    (hgone : b.connections.find? peer = none) (hforgotten : b.closed.find? peer = none)
    (name : String) (state : ConnectionState) (keys : PropertySet) (now : Instant) :
    Recorded []
      (b.publishAsHost (PeerState.record peer name state) (some keys) true now).value.1 := by
  let retracted : Broker :=
    (b.publishAsHost (PeerState.record peer name state) (some keys) true now).value.1
  have hsteps : Steps (.clearCache []) now b retracted := steps_publishAsHost b _ _ true
  have hcarries : ∀ q, Carries q b retracted := hsteps.carries rfl
  have hremoved : ∀ key, retracted.cached? peerStateType key = none ∨
      retracted.cached? peerStateType key = b.cached? peerStateType key := fun key => by
    rcases cachedAt?_publishAsHost_removal hb (PeerState.record peer name state) (some keys) now
      peerStateType key with hnone | hsame
    · exact .inl (by rw [cached?, hnone]; rfl)
    · exact .inr (by rw [cached?, hsame, cached?])
  have hothers : ∀ q, q ≠ peer → retracted.record? q = b.record? q := fun q hq =>
    cached?_publishAsHost hb h.builtin name state _ true now fun heq =>
      hq (PeerState.recordKey_inj.1 heq)
  refine ⟨fun s hs => ?_, fun key o ho => ?_, fun q => ?_⟩
  · rw [registry_publishAsHost]
    exact h.builtin s hs
  · rcases hremoved key with hnone | hsame
    · rw [hnone] at ho
      cases ho
    · exact h.keys key o (hsame ▸ ho)
  · by_cases hq : q = peer
    · subst hq
      -- Of a peer in no table there may be a record or none.
      have hnone := (hcarries q).find?_eq_none_iff.2 hgone
      have hclosed : retracted.closed.find? q = none := (hcarries q).closed.trans hforgotten
      refine ⟨fun c hc => ?_, fun _ => rfl, fun _ c hc => ?_, fun o ho => ?_⟩
      · rw [hnone] at hc
        cases hc
      · rw [hclosed] at hc
        cases hc
      · rcases hremoved [.uint q.toUInt64] with hnone | hsame
        · rw [record?, hnone] at ho
          cases ho
        · obtain ⟨hassigned, name', state', heq, hstate⟩ :=
            (h.peers q).known o (by rw [record?, ← hsame]; exact ho)
          exact ⟨(hcarries q).assigned hassigned, name', state', heq, fun _ => hstate hgone⟩
    · exact (h.peers q).carried (hcarries q) (hothers q hq)

/-- The records of peers that are forgotten can be retracted one after the other. -/
theorem retract (h : Recorded [] b) (hb : b.Sound) {objects : List Object}
    (hobjects : ∀ o ∈ objects, ∃ peer name state, o = PeerState.record peer name state ∧
      b.connections.find? peer = none ∧ b.closed.find? peer = none) (keys : PropertySet)
    (failure : String) (fields : List (String × NoteValue)) (now : Instant) :
    Recorded [] (b.retract objects keys failure fields now).value := by
  rw [value_retract]
  induction objects generalizing b with
  | nil => exact h
  | cons o rest ih =>
    obtain ⟨peer, name, state, rfl, hgone, hforgotten⟩ := hobjects o List.mem_cons_self
    have hsteps : Steps (.clearCache []) now b
        (b.publishAsHost (PeerState.record peer name state) (some keys) true now).value.1 :=
      steps_publishAsHost b _ _ true
    refine ih (h.publishRemoval hb hgone hforgotten name state keys now)
      (Steps.induction Sound.step hb hsteps) fun o ho => ?_
    obtain ⟨q, name', state', heq, hgone', hforgotten'⟩ :=
      hobjects o (List.mem_cons_of_mem _ ho)
    have hcarries := hsteps.carries rfl q
    exact ⟨q, name', state', heq, hcarries.find?_eq_none_iff.2 hgone',
      hcarries.closed.trans hforgotten'⟩

/-- A stale record is one of a peer whose connection is not in the table. -/
theorem gone_of_isStale (h : Recorded [] b) (hr : b.Rested) {key : ObjectKey}
    (ho : b.cached? peerStateType key = some o) (hstale : b.isStale o = true) :
    ∃ peer name state, o = PeerState.record peer name state ∧
      b.connections.find? peer = none := by
  obtain ⟨peer, rfl⟩ := h.keys key o ho
  obtain ⟨-, name, state, rfl, -⟩ := (h.peers peer).known o ho
  refine ⟨peer, name, state, rfl, ?_⟩
  have hclosed : state = .closed := by
    rw [isStale, PeerState.ofRecord?_record] at hstale
    cases state with
    | closed => rfl
    | connecting | earlySubscribe | connected | suspended => cases hstale
  by_contra hthere
  obtain ⟨c, hc⟩ := Option.ne_none_iff_exists'.1 hthere
  obtain ⟨hqueue, hopen⟩ := hr peer c hc
  -- The record of an open connection shows another state.
  have hcurrent := ((h.peers peer).tracked c hc).current (by rw [hqueue]; rfl)
  have hsame : (peer, state) = (peer, c.state) := by
    have heq := congrArg PeerState.ofRecord? (Option.some.inj (ho.symm.trans hcurrent))
    rw [PeerState.ofRecord?_record, PeerState.ofRecord?_record] at heq
    exact Option.some.inj heq
  have hstate : c.state = .closed := (Prod.mk.inj hsame).2.symm.trans hclosed
  rw [Connection.isClosed, hstate] at hopen
  cases hopen

/-- Sweeping retracts only records of peers that are not in the table. -/
theorem sweep (h : Recorded [] b) (hb : b.Tidy) (hr : b.Rested) (now : Instant) :
    Recorded [] (b.sweep now).value := by
  have hforget : Step .sweep now b b.forgetClosed := .forgetClosed (.inl rfl)
  have hb' : b.forgetClosed.Tidy := hb.step hforget
  unfold Broker.sweep
  simp only [Noted.value_bind]
  split
  · exact h.forgetClosed
  · rename_i c hc
    -- What is stale was settled before anything is retracted, and those peers stay away meanwhile.
    have hstale : ∀ o ∈ c.objects.filter b.forgetClosed.isStale, ∃ peer name state,
        o = PeerState.record peer name state ∧
          b.forgetClosed.connections.find? peer = none ∧
          b.forgetClosed.closed.find? peer = none := by
      intro o ho
      obtain ⟨hmem, hstale⟩ := List.mem_filter.1 ho
      obtain ⟨key, hkey⟩ := mem_cachedObjects_iff.1 (by rwa [cachedObjects, hc])
      obtain ⟨peer, name, state, heq, hgone⟩ := h.forgetClosed.gone_of_isStale hr hkey hstale
      exact ⟨peer, name, state, heq, hgone, rfl⟩
    have hsteps : ∀ failure fields, Steps .sweep now b.forgetClosed
        (b.forgetClosed.retract (c.objects.filter b.forgetClosed.isStale) c.schema.keyProperties
          failure fields now).value :=
      fun failure fields => steps_retract _ _ _ failure fields
    exact (h.forgetClosed.retract hb'.sound hstale _ _ _ now).drain
      (hb'.moves (Moves.of_steps (hsteps _ _))) ((hr.queued.step hforget).steps (hsteps _ _)) now

/-- Shutting down closes all connections, and then it is sweeping. -/
theorem shutdown (h : Recorded [] b) (hb : b.Tidy) (hr : b.Rested) (now : Instant) :
    Recorded [] (b.shutdown now).value := by
  unfold Broker.shutdown
  simp only [Noted.value_bind, Noted.value_foldlM]
  -- The goodbyes are a course of their own.
  have hcourse : Course (.clearCache []) now (fun _ => False) (fun _ => False) (fun _ _ => True) b
      ((b.connections.keys.foldl (fun b peer => (b.farewell peer now).value) b).drain now).value :=
    .trans (.foldl (fun b peer _ => course_farewell (fun _ _ _ => trivial) b peer) b) (.drain _)
  have hfarewells : Steps .sweep now b
      (b.connections.keys.foldl (fun b peer => (b.farewell peer now).value) b) :=
    steps_foldl steps_farewell _ _
  obtain ⟨hb', -⟩ := hcourse.tidy hb hr.queued
  exact (h.course hcourse rfl id (fun _ _ hp _ => hp.elim) hb hr.queued).sweep hb'
    (drain_rests (hr.queued.steps hfarewells)) now

/-- Every call that spares the records keeps everything recorded. -/
theorem perform (h : Recorded [] b) (hb : b.Reachable) (hcall : call.Spares peerStateType)
    (now : Instant) : Recorded [] (b.perform call now) := by
  cases call with
  | accept channel => exact h.accept hb channel now
  | sweep => exact h.sweep hb.tidy hb.rested now
  | shutdown => exact h.shutdown hb.tidy hb.rested now
  | receive | transportFailed | publish | remove | clearCache | registerStruct | registerEnum |
    subscribe | unsubscribe | disturb => exact h.perform_of_course hb rfl hcall now

theorem after (h : Recorded [] b) (hb : b.Reachable) {calls : List (BrokerCall × Instant)}
    (hcalls : ∀ call ∈ calls, call.1.Spares peerStateType) : Recorded [] (b.after calls) := by
  induction calls generalizing b with
  | nil => exact h
  | cons call rest ih =>
    have hfirst := h.perform hb (hcalls call List.mem_cons_self) call.2
    exact ih hfirst (hb.perform call.1 call.2) fun c hc => hcalls c (List.mem_cons_of_mem _ hc)

end Recorded

/-- Announcing a type concerns no records of peers. -/
theorem Recorded.onNewType (h : Recorded [] b) (hb : b.Sound) {schema : StructSchema}
    (hs : b.registry.findStruct? schema.name = some schema) (now : Instant) :
    Recorded [] (b.onNewType schema now).value := by
  let adopted : Broker := b.adoptType schema
  let told : Broker := adopted.emit (.typeAnnounced b.nextTypeId schema.name)
  have hsame : ∀ key, adopted.cached? peerStateType key = b.cached? peerStateType key := by
    intro key
    rw [cached?, cachedAt?_adoptType, cached?]
  have hadopted : Recorded [] adopted := by
    refine ⟨h.builtin, fun key o ho => h.keys key o (hsame key ▸ ho), fun peer => ?_⟩
    exact (h.peers peer).carried ⟨(Carries.refl peer b).connection, rfl, id⟩ (hsame _)
  have htell : Steps (.clearCache []) now adopted told := .single (.announce (by simp))
  have hsteps : Steps (.clearCache []) now adopted (b.onNewType schema now).value :=
    htell.trans (steps_publishOrNote told _ _ _ _ _)
  have hpublish : Effects (fun p => p.object.typeName = typeAnnounceType) (fun _ _ => True) told
      (b.onNewType schema now).value := by
    have hsound : told.Sound := Steps.induction Sound.step (hb.adoptType hs) htell
    unfold Broker.onNewType
    simp only [Noted.value_bind, value_publishOrNote]
    exact effects_publishAsHost hsound _ none false now fun _ _ => rfl
  refine hadopted.steps hsteps rfl ((effects_emit _ (by simp)).trans hpublish) ?_
  intro p hp hof hname
  exact absurd (hp.symm.trans (hof.typeName_object.trans hname)) (by decide)

/-- A broker that was started with the built-in types has no records, and nobody to be recorded. -/
theorem recorded_ofRegistry {registry : Registry} (hbuilt : registry.Built)
    (hbuiltin : ∀ s ∈ builtinStructs, registry.findStruct? s.name = some s) (name : String)
    (eventCapacity : Nat) (now : Instant) :
    Recorded [] (ofRegistry name registry eventCapacity now).value := by
  refine (ofRegistry_onNewType_induction (I := fun _ b => b.Sound ∧ Recorded [] b)
    hbuilt.wellFormed ⟨.bare hbuilt name eventCapacity, ?_⟩ ?_).2
  -- Before the first type is made known there are no containers and no connections.
  · refine ⟨hbuiltin, fun key o ho => ?_, fun peer => ⟨fun c hc => ?_, fun _ => rfl,
      fun _ c hc => ?_, fun o ho => ?_⟩⟩
    · cases ho
    · cases hc
    · cases hc
    · cases ho
  · rintro adopted b schema ⟨hb, h⟩ hs
    have hsteps : Steps (.clearCache []) now (b.adoptType schema)
        (b.onNewType schema now).value := by
      refine .head (.announce ?_) (steps_publishOrNote _ _ _ _ _ _)
      simp
    exact ⟨Steps.induction Sound.step (hb.adoptType hs) hsteps, h.onNewType hb hs now⟩

/-! ## The records -/

/-- The cached records that are about a peer. -/
def recordsOf (b : Broker) (peer : PeerId) : List Object :=
  (b.cachedObjects peerStateType).filter fun o =>
    o.get? PeerState.idTag == some (.uint peer.toUInt64)

/-- There is one record of a peer at most. -/
theorem Recorded.recordsOf_eq (h : Recorded taken b) (peer : PeerId) :
    b.recordsOf peer = (b.record? peer).toList := by
  cases hc : b.container? peerStateType with
  | none => simp [recordsOf, cachedObjects, record?, cached?, cachedAt?, hc]
  | some c =>
    -- To be about the peer is to be kept under its key.
    have hkey : ∀ x ∈ c.entries.toList,
        (x.2.object.get? PeerState.idTag == some (.uint peer.toUInt64)) =
          decide (x.1 = [.uint peer.toUInt64]) := by
      rintro ⟨key, e⟩ hx
      have hcached : b.cached? peerStateType key = some e.object := by
        rw [cached?, cachedAt?, hc, Option.bind_some, Container.find?,
          KeyedList.find?_eq_some_iff.2 hx, Option.map_some]
      obtain ⟨q, rfl⟩ := h.keys key e.object hcached
      obtain ⟨-, name, state, heq, -⟩ := (h.peers q).known e.object hcached
      have hid : e.object.get? PeerState.idTag = some (.uint q.toUInt64) := by
        rw [heq, PeerState.get?_record]
        rfl
      rw [Bool.eq_iff_iff, hid]
      simp
    have hrecord : b.record? peer = (c.entries.find? [.uint peer.toUInt64]).map (·.object) := by
      rw [record?, cached?, cachedAt?, hc, Option.bind_some, Container.find?]
    have hfilter := (List.filter_congr hkey).trans (c.entries.filter_key [.uint peer.toUInt64])
    rw [recordsOf, cachedObjects, hc, hrecord]
    simp only [Option.map_some, Option.getD_some, Container.objects, Container.snapshot,
      KeyedList.values, List.map_map, List.filter_map, Function.comp_def, hfilter]
    cases c.entries.find? [.uint peer.toUInt64] <;> rfl

/-- The records of peers mirror the connections. -/
structure Roster (b : Broker) : Prop where
  /-- A connection in the table has one record, which shows its name and its state. -/
  present : ∀ peer c, b.connections.find? peer = some c →
    b.recordsOf peer = [PeerState.record peer c.name c.state]
  /-- A connection that has closed has one record, which says so. -/
  closed : ∀ peer c, b.connections.find? peer = none → b.closed.find? peer = some c →
    b.recordsOf peer = [PeerState.record peer c.name .closed]
  /-- All other records are of guests that were there, and say that they have closed. -/
  others : ∀ o ∈ b.cachedObjects peerStateType, ∃ peer name state,
    o = PeerState.record peer name state ∧ b.Assigned peer ∧
      (b.connections.find? peer = none → state = .closed)

theorem Recorded.roster (h : Recorded [] b) (hr : b.Rested) : b.Roster := by
  refine ⟨fun peer c hc => ?_, fun peer c hnone hc => ?_, fun o ho => ?_⟩
  · obtain ⟨hqueue, -⟩ := hr peer c hc
    rw [h.recordsOf_eq, ((h.peers peer).tracked c hc).current (by rw [hqueue]; rfl)]
    rfl
  · rw [h.recordsOf_eq, (h.peers peer).closed hnone c hc]
    rfl
  · obtain ⟨key, hkey⟩ := mem_cachedObjects_iff.1 ho
    obtain ⟨peer, rfl⟩ := h.keys key o hkey
    obtain ⟨hassigned, name, state, heq, hclosed⟩ := (h.peers peer).known o hkey
    exact ⟨peer, name, state, heq, hassigned, hclosed⟩

/-- In every run of a broker that was started with the built-in types, if no call clears the records
of peers or writes to them, the records mirror the connections. No closed connection shares its
number with an open one, as long as fewer guests have come than there are numbers for. -/
theorem roster_after {registry : Registry} (hbuilt : registry.Built)
    (hbuiltin : ∀ s ∈ builtinStructs, registry.findStruct? s.name = some s) (name : String)
    (eventCapacity : Nat) (now : Instant) (calls : List (BrokerCall × Instant))
    (hcalls : ∀ call ∈ calls, call.1.Spares peerStateType) :
    let b := (ofRegistry name registry eventCapacity now).value.after calls
    b.Roster ∧ (calls.countP (·.1.accepts) + 2 < UInt32.size →
      ∀ peer, b.closed.find? peer ≠ none → b.connections.find? peer = none) := by
  have hstart : (ofRegistry name registry eventCapacity now).value.Reachable :=
    .start hbuilt name eventCapacity now
  have hrecorded := recorded_ofRegistry hbuilt hbuiltin name eventCapacity now
  refine ⟨(hrecorded.after hstart hcalls).roster (hstart.after calls).rested, fun hroom => ?_⟩
  have hnumbered := numbered_ofRegistry hbuilt.wellFormed name eventCapacity now
  exact (numbered_after hstart hnumbered calls (by omega)).apart

/-- Two guests come, and the first one is lost again. -/
def visits : List (BrokerCall × Instant) :=
  [(.accept (.reliable "guest"), default),
    (.receive 2 (.ofControl (.connectAs "guest" false) default), default),
    (.accept (.reliable "other"), default),
    (.transportFailed 2 .closed, default)]

/-- The record of the first says that it has closed, that of the second that it is connecting. -/
theorem roster_of_visitors : ∃ lost other,
    ((new "lobby" default).value.after visits).closed.find? 2 = some lost ∧
    ((new "lobby" default).value.after visits).connections.find? 3 = some other ∧
    ((new "lobby" default).value.after visits).recordsOf 2 =
      [PeerState.record 2 "guest" .closed] ∧
    ((new "lobby" default).value.after visits).recordsOf 3 =
      [PeerState.record 3 unnamedPeer .connecting] := by
  have hcalls : ∀ call ∈ visits, call.1.Spares peerStateType := by
    intro call hcall
    simp only [visits, List.mem_cons, List.not_mem_nil, or_false] at hcall
    rcases hcall with rfl | rfl | rfl | rfl
    · exact ⟨id, id⟩
    · refine ⟨?_, id⟩
      rintro ⟨typeNames, hpayload, -⟩
      cases hpayload
    · exact ⟨id, id⟩
    · exact ⟨id, id⟩
  obtain ⟨hroster, hapart⟩ := roster_after Registry.built_builtin findStruct?_builtin "lobby"
    defaultEventCapacity default visits hcalls
  obtain ⟨lost, hlost, hname⟩ : ∃ c, ((new "lobby" default).value.after visits).closed.find? 2 =
      some c ∧ c.name = "guest" := ⟨_, rfl, rfl⟩
  obtain ⟨other, hother, hname', hstate⟩ : ∃ c,
      ((new "lobby" default).value.after visits).connections.find? 3 = some c ∧
        c.name = unnamedPeer ∧ c.state = .connecting := ⟨_, rfl, rfl, rfl⟩
  have hgone := hapart (by decide) 2 (hlost.trans_ne (Option.some_ne_none lost))
  refine ⟨lost, other, hlost, hother, ?_, ?_⟩
  · rw [← hname]
    exact hroster.closed 2 lost hgone hlost
  · rw [← hname', ← hstate]
    exact hroster.present 3 other hother

end Broker

end ObjectBus
