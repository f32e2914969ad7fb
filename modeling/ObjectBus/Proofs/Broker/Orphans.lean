import ObjectBus.Proofs.Broker.Departures
import ObjectBus.Proofs.Broker.Sweeping
import ObjectBus.Proofs.Broker.Tables

/-!
# No objects without their writers

Whatever is cached of a type that asks for clean-up was written last by the host or by a guest that
is still there. The objects of the others have gone with them, and that is all that a call takes out
on its own account, however often it drains.

* `Course.cleansUp`, `Tidy.cleansUp_sweep`: what the parts of a call clean up;
* `Asked`, `Reachable.cleansUp_perform`: what a whole call cleans up;
* `Reachable.tidies_at`: what goes in each of its drains;
* `no_orphans_after`: so it is in every run in which the numbers of the guests do not run out.
-/

namespace ObjectBus

/-- Who looks on while a call is made: the guest whose frame is processed may join a group or leave
one, and a shutdown leaves nobody connected. -/
def BrokerCall.Onlooker (call : BrokerCall) (q : PeerId) : Prop :=
  call ≠ .shutdown ∧ ∀ t, call ≠ .receive q t

namespace Broker

open Relation (ReflTransGen)

variable {call : BrokerCall} {now : Instant} {b b' m : Broker} {q : PeerId}
variable {asked : Passage → Prop} {onlooker : PeerId → Prop} {gone : List CachedObject}
variable {cleared : String → Prop} {given : Passage → Prop}

/-! ## Whole calls -/

/-- What is cleaned up by some part of a call and by a drain after it. -/
theorem CleansUp.drain (h : CleansUp now asked onlooker gone b m) (hb : b.Sound) (hm : m.Tidy)
    (hq : m.Queued []) (hhost : m.connections.find? hostId = none)
    (hrecords : ∀ p, Recording now m (m.drain now).value p → asked p)
    (hthere : ∀ x : CachedObject, x.IsIn m → x.schema.flags.cleanup = true →
      m.connections.find? x.writer ≠ none → b.connections.find? x.writer ≠ none) :
    ∃ gone', CleansUp now asked onlooker (gone ++ gone') b (m.drain now).value := by
  obtain ⟨gone', hgone, hin⟩ := hm.cleansUp_drain hq hhost now onlooker
  have hdoes : Does now (fun _ => False) (fun _ => False) RemovesNothing m (m.drain now).value :=
    does_drain hm hq
  refine ⟨gone', h.trans hb (hgone.mono hrecords fun _ => id) hdoes.leaves (fun x hx => ?_)
    fun q _ => unmoved_drain m now q⟩
  obtain ⟨-, hcleanup, hparted⟩ := hgone.follows x hx
  exact hthere x (hin x hx) hcleanup hparted.1

/-- What a course cleans up. -/
theorem Course.cleansUp (h : Course call now cleared given RemovesNothing b b')
    (hcall : call.rearranges = false) (hb : b.Tidy) (hq : b.Queued [])
    (hhost : b.connections.find? hostId = none) :
    (∃ gone, CleansUp now (fun p => given p ∨ Errand now b b' cleared p ∨ Recording now b b' p)
      (fun q => ∀ t, call ≠ .receive q t) gone b b') ∧
      ∀ q, (∀ t, call ≠ .receive q t) → Unmoved q b b' := by
  have hquiet : ∀ channel, call ≠ .accept channel := BrokerCall.ne_accept hcall
  induction h with
  | @steps b b' hsteps heffects =>
    refine ⟨⟨[], ?_⟩, fun q honlooker => hsteps.unmoved hcall honlooker⟩
    refine ((heffects hb.sound).cleansUp_of_steps (fun _ _ => id) hsteps).mono (fun p hp => ?_)
      fun _ => id
    exact hp.imp_right .inl
  | drain b =>
    obtain ⟨gone, hgone, -⟩ := hb.cleansUp_drain hq hhost now fun q => ∀ t, call ≠ .receive q t
    exact ⟨⟨gone, hgone.mono (fun p hp => .inr (.inr hp)) fun _ => id⟩,
      fun q _ => unmoved_drain b now q⟩
  | @trans b b' b'' h h' ih ih' =>
    have hfirst := h.does hquiet hb hq
    obtain ⟨hb', hq'⟩ := h.tidy hb hq
    have hsecond := h'.does hquiet hb' hq'
    obtain ⟨⟨gone, hgone⟩, hunmoved⟩ := ih hb hq hhost
    obtain ⟨⟨gone', hgone'⟩, hunmoved'⟩ := ih' hb' hq' (hfirst.leaves _ hhost)
    have hleft : Within b b' b b'' := within_left hfirst.events hsecond.events hsecond.leaves
    have hright : Within b' b'' b b'' := hfirst.within_right hb.sound hfirst.leaves hsecond.events
    have hwhole : ∀ {s s' : Broker}, Within s s' b b'' → ∀ p,
        given p ∨ Errand now s s' cleared p ∨ Recording now s s' p →
          given p ∨ Errand now b b'' cleared p ∨ Recording now b b'' p := fun hwithin p hp =>
      hp.imp_right fun hp => hp.imp (·.within hwithin) (·.within hwithin)
    refine ⟨⟨gone ++ gone', (hgone.mono (hwhole hleft) fun _ => id).trans hb.sound
      (hgone'.mono (hwhole hright) fun _ => id) hsecond.leaves (fun x hx => ?_) hunmoved'⟩,
      fun q honlooker => (hunmoved q honlooker).trans (hunmoved' q honlooker)⟩
    obtain ⟨-, -, hparted⟩ := hgone'.follows x hx
    exact (hparted.earlier hfirst.leaves).1

/-- The removal of a record that says of a peer that it has closed. -/
inductive Retirement (now : Instant) (b b' : Broker) : Passage → Prop
  /-- The removal. -/
  | record {x : CachedObject} {peer : PeerId} (hname : x.schema.name = peerStateType)
      (hrecord : PeerState.ofRecord? x.entry.object = some (peer, .closed)) (hheld : b.Held b' x) :
      Retirement now b b' (.removal x.schema x.entry.object now)

theorem Retirement.within {s s' : Broker} {p : Passage} (h : Retirement now s s' p)
    (hwithin : Within s s' b b') : Retirement now b b' p := by
  cases h with
  | record hname hrecord hheld => exact .record hname hrecord (hwithin.held _ hheld)

/-- What a sweep cleans up. -/
theorem Tidy.cleansUp_sweep (hb : b.Tidy) (hr : b.Rested)
    (hhost : b.connections.find? hostId = none) (now : Instant) (onlooker : PeerId → Prop) :
    Leaves b (b.sweep now).value ∧ ∃ gone, CleansUp now
      (fun p => Retirement now b (b.sweep now).value p ∨ Recording now b (b.sweep now).value p)
      onlooker gone b (b.sweep now).value := by
  rw [value_sweep hr]
  let retracted := b.forgetClosed.afterRemovals b.staleRecords now
  have hstep : Step .sweep now b b.forgetClosed := .forgetClosed (.inl rfl)
  have hretract : ∀ call, Steps call now b.forgetClosed retracted := fun call =>
    steps_afterRemovals call _ _
  have hsteps : Steps .sweep now b retracted := .head hstep (hretract _)
  have hstale : ∀ x ∈ b.staleRecords, x.IsIn b := fun x hx =>
    ((mem_staleRecords_iff hb.sound).1 hx).1
  -- Until the drain nobody leaves the table, and nothing is removed but the stale records.
  have hretired : ∀ asked : Passage → Prop,
      (∀ x ∈ b.staleRecords, asked (.removal x.schema x.entry.object now)) →
        Effects asked RemovesNothing b retracted := by
    intro asked hasked
    have hforget : Effects asked RemovesNothing b b.forgetClosed :=
      .of_sends (fun _ _ => id) rfl (fun _ _ => rfl) (.of_eq _ (channel?_forgetClosed b))
    exact hforget.trans ((retracts_staleRecords hb.sound now).effects (hb.sound.step hstep)
      (fun x hx => ⟨(hstale x hx).registered, (hstale x hx).cached, (hstale x hx).entry⟩)
      (hretract _) hasked)
  have htidy : retracted.Tidy := hb.moves (Moves.of_steps hsteps)
  have hqueued : retracted.Queued [] := hr.queued.steps hsteps
  have hdrain : Does now (fun _ => False) (fun _ => False) RemovesNothing retracted
      (retracted.drain now).value := does_drain htidy hqueued
  have hleaves : Leaves b retracted := hsteps.leaves (by simp)
  have hafter : Within retracted (retracted.drain now).value b (retracted.drain now).value :=
    (hretired (fun _ => True) fun _ _ => trivial).within_right hb.sound hleaves hdrain.events
  have hfirst : CleansUp now (fun p => Retirement now b (retracted.drain now).value p ∨
      Recording now b (retracted.drain now).value p) onlooker [] b retracted := by
    refine (hretired _ fun x hx => .inl ?_).cleansUp_of_steps (fun _ _ => id) hsteps
    obtain ⟨-, hname, peer, hrecord, -⟩ := (mem_staleRecords_iff hb.sound).1 hx
    exact .record hname hrecord (.inl (hstale x hx))
  exact ⟨hleaves.trans hdrain.leaves, hfirst.drain hb.sound htidy hqueued (hleaves _ hhost)
    (fun p hp => .inr (hp.within hafter)) fun x _ _ hthere hnone => hthere (hleaves _ hnone)⟩

/-- What is passed on in a call apart from removals with guests that have parted. -/
inductive Asked (now : Instant) (call : BrokerCall) (b b' : Broker) : Passage → Prop
  /-- The call brings it. -/
  | brought {p : Passage} (h : b.Brings now p call) : Asked now call b b' p
  /-- The host publishes it on request. -/
  | errand {p : Passage} (h : Errand now b b' call.Clears p) : Asked now call b b' p
  /-- The record of a peer, in a state that observers are told of. -/
  | record {schema : StructSchema} {peer : PeerId} {name : String} {state : ConnectionState}
      {cause : Option String} (h : .peerState peer name state cause ∈ b.newEvents b') :
      Asked now call b b' (.publication schema (PeerState.record peer name state) now)
  /-- A sweep retracts the record of a peer that has closed. -/
  | retirement {p : Passage} (hcall : call = .sweep ∨ call = .shutdown)
      (h : Retirement now b b' p) : Asked now call b b' p

theorem asked_of_recording {s s' : Broker} {p : Passage} (h : Recording now s s' p)
    (hevents : s.newEvents s' ⊆ b.newEvents b') : Asked now call b b' p := by
  cases h with
  | record h hpresent => exact .record (hevents h)

/-- The number of the host is given to no guest, and the next number is free. -/
structure Unshared (b : Broker) : Prop where
  /-- The host has no connection. -/
  host : ¬b.Assigned hostId
  /-- The next number is not the host's. -/
  other : b.nextPeer ≠ hostId
  /-- Nor is it given to a guest. -/
  free : ¬b.Assigned b.nextPeer

theorem find?_of_not_assigned (h : ¬b.Assigned q) : b.connections.find? q = none := by
  by_contra hthere
  exact h (assigned_iff.2 (.inl hthere))

/-- What accepting a guest cleans up. -/
theorem Reachable.cleansUp_accept (hb : b.Reachable) (hu : b.Unshared) (channel : Channel)
    (now : Instant) :
    ∃ gone, CleansUp now (Asked now (.accept channel) b (b.perform (.accept channel) now))
      onlooker gone b (b.perform (.accept channel) now) := by
  let greeting : Broker :=
    { b with nextPeer := b.nextPeer + 1 }.putConnection b.nextPeer (b.greeted channel now)
  have hstep : Step (.accept channel) now b greeting := .accept rfl
  have hsteps : Steps (.accept channel) now b greeting := .single hstep
  have hfind : ∀ q, q ≠ b.nextPeer → greeting.connections.find? q = b.connections.find? q := by
    intro q hq
    rw [find?_putConnection, if_neg hq]
  have hchannel : ∀ q, b.Assigned q → greeting.channel? q = b.channel? q := by
    intro q hq
    have hother : q ≠ b.nextPeer := by
      rintro rfl
      exact hu.free hq
    rw [channel?, channel?, connection?, connection?, hfind q hother]
    rfl
  have hhost : greeting.connections.find? hostId = none := by
    rw [hfind hostId hu.other.symm, find?_of_not_assigned hu.host]
  -- Until the drain nothing has happened to anybody but the guest that has come.
  have hgreet : ∀ asked : Passage → Prop, CleansUp now asked onlooker [] b greeting := by
    intro asked
    exact .of_untouched rfl rfl (fun _ _ => rfl) hchannel fun _ => hsteps.not_parted
  have htidy : greeting.Tidy := hb.tidy.step hstep
  refine (hgreet _).drain hb.sound htidy (hb.rested.queued.step hstep) hhost
    (fun p hp => asked_of_recording hp fun _ => id) fun x hx hcleanup hthere => ?_
  -- The guest that has come has not written anything yet.
  have hin : x.IsIn b := ⟨hx.registered, hx.cached, hx.entry⟩
  rcases hb.tidy.writer hin hcleanup with hwriter | hbefore
  · rw [hwriter] at hthere
    exact absurd hhost hthere
  · exact hbefore

/-- What shutting down cleans up. -/
theorem Reachable.cleansUp_shutdown (hb : b.Reachable) (hhost : b.connections.find? hostId = none)
    (now : Instant) :
    ∃ gone, CleansUp now (Asked now .shutdown b (b.perform .shutdown now)) (fun _ => False) gone b
      (b.perform .shutdown now) := by
  let left : Broker := ((b.farewells now).drain now).value
  have hparts : Course (.clearCache []) now (fun _ => False) (fun _ => False) RemovesNothing b
      left := by
    refine .trans (.foldl (fun b peer _ => ?_) b) (.drain _)
    exact course_farewell removesNothing_of_noObject b peer
  have hshutdown : b.perform .shutdown now = (left.sweep now).value := value_shutdown b now
  have hdoes := hparts.does (by simp) hb.tidy hb.rested.queued
  obtain ⟨htidy, -⟩ := hparts.tidy hb.tidy hb.rested.queued
  have hsteps : Steps .shutdown now b (b.farewells now) := steps_farewells b
  have hrested : left.Rested := drain_rests (hb.rested.queued.steps hsteps)
  obtain ⟨⟨gone, hgone⟩, -⟩ := hparts.cleansUp rfl hb.tidy hb.rested.queued hhost
  obtain ⟨hleaves, gone', hgone'⟩ := htidy.cleansUp_sweep hrested (hdoes.leaves _ hhost) now
    fun _ => False
  rw [hshutdown]
  have hleft : Within b left b (left.sweep now).value :=
    within_left hgone.events hgone'.events hleaves
  have hright : Within left (left.sweep now).value b (left.sweep now).value :=
    hdoes.within_right hb.sound hdoes.leaves hgone'.events
  refine ⟨gone ++ gone', (hgone.mono (fun p hp => ?_) fun _ => False.elim).trans hb.sound
    (hgone'.mono (fun p hp => ?_) fun _ => id) hleaves (fun x hx => ?_) fun _ => False.elim⟩
  · rcases hp with hp | herrand | hrecord
    · exact hp.elim
    · cases herrand with
      | announcement h => exact .errand (.announcement (hleft.events h))
      | clear h => exact h.elim
    · exact asked_of_recording hrecord hleft.events
  · rcases hp with hretired | hrecord
    · exact .retirement (.inr rfl) (hretired.within hright)
    · exact asked_of_recording hrecord hright.events
  · obtain ⟨-, -, hparted⟩ := hgone'.follows x hx
    exact (hparted.earlier hdoes.leaves).1

/-- What a call cleans up. -/
theorem Reachable.cleansUp_perform (hb : b.Reachable) (hu : b.Unshared) (call : BrokerCall)
    (now : Instant) :
    ∃ gone, CleansUp now (Asked now call b (b.perform call now)) call.Onlooker gone b
      (b.perform call now) := by
  have hhost : b.connections.find? hostId = none := find?_of_not_assigned hu.host
  by_cases hcall : call.rearranges = true
  · cases call with
    | accept channel => exact hb.cleansUp_accept hu channel now
    | sweep =>
      obtain ⟨-, gone, hgone⟩ := hb.tidy.cleansUp_sweep hb.rested hhost now
        (BrokerCall.Onlooker .sweep)
      refine ⟨gone, hgone.mono (fun p hp => ?_) fun _ => id⟩
      rcases hp with hretired | hrecord
      · exact .retirement (.inl rfl) hretired
      · exact asked_of_recording hrecord fun _ => id
    | shutdown =>
      obtain ⟨gone, hgone⟩ := hb.cleansUp_shutdown hhost now
      exact ⟨gone, hgone.mono (fun _ => id) fun q hq => hq.1 rfl⟩
    | receive | transportFailed | publish | remove | clearCache | registerStruct | registerEnum |
      subscribe | unsubscribe | disturb => cases hcall
  · obtain ⟨⟨gone, hgone⟩, -⟩ := (hb.course_perform (Bool.eq_false_iff.2 hcall) now).cleansUp
      (Bool.eq_false_iff.2 hcall) hb.tidy hb.rested.queued hhost
    refine ⟨gone, hgone.mono (fun p hp => ?_) fun q hq => hq.2⟩
    rcases hp with hbrought | herrand | hrecord
    · exact .brought hbrought
    · exact .errand herrand
    · exact asked_of_recording hrecord fun _ => id

/-- What goes in each drain of a call. -/
theorem Reachable.tidies_at (hb : b.Reachable) (hu : b.Unshared) (hs : DrainsAt now b call m) :
    ∃ gone, Tidies now gone m (m.drain now).value := by
  obtain ⟨hmoves, hq⟩ := hs.strand.works hb.rested.queued
  refine (hb.tidy.moves hmoves).tidies_drain hq ?_ now
  by_cases hquiet : ∀ channel, call ≠ .accept channel
  · exact hmoves.leaves hquiet _ (find?_of_not_assigned hu.host)
  · obtain ⟨channel, rfl⟩ := not_forall_not.1 hquiet
    cases hs
    rw [find?_putConnection, if_neg hu.other.symm]
    exact find?_of_not_assigned hu.host

/-- As long as the numbers do not run out, no guest has the number of the host. -/
theorem unshared_after {registry : Registry} (hbuilt : registry.Built) (name : String)
    (eventCapacity : Nat) (start : Instant) (calls : List (BrokerCall × Instant))
    (hroom : calls.countP (·.1.accepts) < UInt32.size - 2) :
    ((ofRegistry name registry eventCapacity start).value.after calls).Unshared := by
  have hstart : (ofRegistry name registry eventCapacity start).value.Reachable :=
    .start hbuilt name eventCapacity start
  have hnone := numbered_ofRegistry hbuilt.wellFormed name eventCapacity start
  have hroom' : 0 + calls.countP (·.1.accepts) + 2 < UInt32.size := by omega
  have hnumbered := numbered_after hstart hnone calls hroom'
  have hnext := hnumbered.next
  have hhost : hostId.toNat = 1 := rfl
  refine ⟨fun hassigned => ?_, fun heq => ?_, fun hassigned => ?_⟩
  · -- The numbers that were given begin behind that of the host.
    have hissued := ((assigned_after_iff hstart calls).1 hassigned).resolve_left
      (not_assigned_ofRegistry hbuilt.wellFormed name eventCapacity start)
    have hmem := List.mem_map_of_mem (f := (·.toNat)) hissued
    rw [toNat_issued hstart hnone hroom', List.mem_range'_1] at hmem
    omega
  · rw [heq] at hnext
    omega
  · have hless := hnumbered.assigned _ hassigned
    omega

/-- No objects without their writers. After every run, whatever is cached of a type that asks for
clean-up was written last by the host or by a guest whose connection is open. As long as the numbers
do not run out, exactly those objects go during the next call, whatever it is, that were written
last by guests whose connections close, each with one event and with one frame for every connected
member of its group. So it is whenever the call drains, and otherwise nothing changes during the
call but what it was asked for. -/
theorem no_orphans_after {registry : Registry} (hbuilt : registry.Built) (name : String)
    (eventCapacity : Nat) (start : Instant) (calls : List (BrokerCall × Instant))
    (hb : (ofRegistry name registry eventCapacity start).value.after calls = b) :
    (∀ schema cache key e, b.registry.findStruct? schema.name = some schema →
      schema.flags.cached = true → schema.flags.cleanup = true →
      b.container? schema.name = some cache → cache.find? key = some e →
        e.provenance.lastUpdateFrom = hostId ∨
        ∃ c, b.connections.find? e.provenance.lastUpdateFrom = some c ∧ c.isClosed = false) ∧
    (calls.countP (·.1.accepts) < UInt32.size - 2 → ∀ call now,
      (∃ gone, CleansUp now (Asked now call b (b.perform call now)) call.Onlooker gone b
        (b.perform call now)) ∧
      ∀ m, DrainsAt now b call m → ∃ gone, Tidies now gone m (m.drain now).value) := by
  have hstart : (ofRegistry name registry eventCapacity start).value.Reachable :=
    .start hbuilt name eventCapacity start
  have hreachable : b.Reachable := hb ▸ hstart.after calls
  refine ⟨fun schema cache key e hs hcached hasks hcache he => ?_, fun hroom call now => ?_⟩
  · have hentry : b.cachedAt? schema.name key = some e := by
      rw [cachedAt?, hcache]
      exact he
    have hin : CachedObject.IsIn ⟨schema, key, e⟩ b := ⟨hs, hcached, hentry⟩
    refine (hreachable.tidy.writer hin hasks).imp_right fun hthere => ?_
    obtain ⟨c, hc⟩ := Option.ne_none_iff_exists'.1 hthere
    exact ⟨c, hc, (hreachable.rested _ c hc).2⟩
  · have hunshared : b.Unshared :=
      hb ▸ unshared_after hbuilt name eventCapacity start calls hroom
    exact ⟨hreachable.cleansUp_perform hunshared call now,
      fun m hs => hreachable.tidies_at hunshared hs⟩

/-- A guest puts up a note of its own, and another one watches the notes. -/
def postings : List (BrokerCall × Instant) :=
  [(.publish (note 1 "welcome") none false, default),
    (.accept (.reliable "author"), default),
    (.receive 2 (.ofControl (.connectAs "author" false) default), default),
    (.accept (.reliable "watcher"), default),
    (.receive 3 (.ofControl (.connectAs "watcher" false) default), default),
    (.receive 3 joinNotes, default),
    (.receive 2 (.ofObject { typeName := noteSchema.name } (note 2 "mine")), default)]

/-- The board when this has happened. -/
def boardWithPost : Broker :=
  (ofRegistry "board" (Registry.empty.addStruct noteSchema) 1 default).value.after postings

/-- When the transport of the author fails its note goes, the watcher is told so once, and the note
of the host stays. -/
theorem no_orphans_after_postings : ∃ m gone x,
    DrainsAt default boardWithPost (.transportFailed 2 .closed) m ∧
    (m.drain default).value = boardWithPost.perform (.transportFailed 2 .closed) default ∧
    Tidies default gone m (m.drain default).value ∧ gone = [x] ∧
    x.entry.object = note 2 "mine" ∧ x.writer = 2 ∧
    m.removalsTo (m.drain default).value 3 = [x.removalFrame default] ∧
    (m.drain default).value.cachedAt? noteSchema.name [.uint 2] = none ∧
    ((m.drain default).value.cachedAt? noteSchema.name [.uint 1]).map (·.object) =
      some (note 1 "welcome") := by
  have hbuilt : (Registry.empty.addStruct noteSchema).Built :=
    .registerStruct .empty (Registry.registerStruct_of_new rfl rfl)
  obtain ⟨-, hcalls⟩ := no_orphans_after hbuilt "board" 1 default postings
    (show _ = boardWithPost from rfl)
  obtain ⟨-, hdrains⟩ := hcalls (by decide) (.transportFailed 2 .closed) default
  have hs : DrainsAt default boardWithPost (.transportFailed 2 .closed) _ :=
    .transportFailed rfl .closed
  obtain ⟨gone, htidies⟩ := hdrains _ hs
  obtain ⟨e, he⟩ : ∃ e, boardWithPost.cachedAt? noteSchema.name [.uint 2] = some e := ⟨_, rfl⟩
  have hwriter : (boardWithPost.cachedAt? noteSchema.name [.uint 2]).map
    (·.provenance.lastUpdateFrom) = some 2 := rfl
  have hobject : (boardWithPost.cachedAt? noteSchema.name [.uint 2]).map (·.object) =
    some (note 2 "mine") := rfl
  rw [he] at hwriter hobject
  let x : CachedObject := ⟨noteSchema, [.uint 2], e⟩
  have hx : x.writer = 2 := Option.some.inj hwriter
  have hother : noteSchema.name ≠ peerStateType := by decide
  have hmem : x ∈ gone := by
    refine (htidies.complete x ⟨rfl, rfl, he⟩ rfl ?_).resolve_left hother
    rw [hx]
    exact ⟨Option.some_ne_none _, rfl⟩
  -- Only one removal is told, so that nothing else has gone.
  have hone : gone.length = 1 := by
    have hlength := htidies.told.length_eq
    rw [List.length_map] at hlength
    exact hlength.symm
  obtain ⟨y, rfl⟩ := List.length_eq_one_iff.1 hone
  obtain rfl := List.mem_singleton.1 hmem
  obtain ⟨handed, hperm, -, hall⟩ := htidies.frames 3 (Option.some_ne_none _)
  rw [hall ⟨_, rfl, rfl⟩] at hperm
  refine ⟨_, _, x, hs, rfl, htidies, rfl, Option.some.inj hobject, hx, ?_, rfl, rfl⟩
  exact List.perm_singleton.1 hperm

end Broker

end ObjectBus
