import ObjectBus.Proofs.Broker.Outcomes
import ObjectBus.Proofs.Broker.Roster
import ObjectBus.Proofs.Broker.StateEvents
import ObjectBus.Proofs.Broker.Sweeping
import ObjectBus.Proofs.Broker.Types

/-!
# Records that tell the truth

The records of peers can be cleared, by guests and on behalf of the host, and then some peers have
none. But whatever is cached as a record was recorded by the broker itself, unless somebody
publishes records as the host. A record never says that a peer has closed whose connection is open,
and what is recorded of a peer that is not there says that it has closed. Between the closing of a
connection and its record there may be changes of state that were taken and not processed yet, so
that in the middle of a drain a record may be behind.

* `AwaitedAt`: what waits of a peer leads to the present state of its connection;
* `Truthful`: no record says too early that a peer has closed, nor fails to say so later;
* `Truthful.erased`: records may be lost;
* `Truthful.drain`, `Truthful.course`: processing changes of state, and other parts of calls;
* `BrokerCall.Records`: the calls that publish records as the host;
* `Truthful.after`, `Started.truthful`: so it is after every run without them;
* `Truthful.gone`: between calls a record of a closed peer is one of a peer that is not there;
* `Reachable.sweep_exact`: so a sweep, which is exact, retracts no record of a peer that is there.
-/

namespace ObjectBus

open Relation (ReflTransGen)

/-- A call publishes records of peers as the host. Removing some is not publishing them. -/
def BrokerCall.Records : BrokerCall → Prop
  | .publish o _ removes => o.typeName = peerStateType ∧ removes = false
  | _ => False

/-- What a connection has queued stays queued. -/
theorem Connection.Evolves.transitions {c c' : Connection} (h : c.Evolves c') :
    c.transitions <+: c'.transitions := by
  induction h with
  | refl => exact List.prefix_rfl
  | tail _ hturn ih =>
    refine ih.trans ?_
    cases hturn with
    | stay _ _ hqueue => exact hqueue ▸ List.prefix_rfl
    | enter t _ _ hqueue _ =>
      rw [hqueue]
      exact List.prefix_append _ _

namespace Broker

variable {call : BrokerCall} {now : Instant} {b b' : Broker} {peer : PeerId} {t : Transition}
variable {taken : List (PeerId × Transition)} {waiting : List Transition}
variable {cleared : String → Prop} {given passed : Passage → Prop}
variable {sent : PeerId → Transmission → Prop} {o : Object}

/-! ## What waits of a peer -/

/-- What waits of a peer while some changes of its state were taken and not processed yet: what
leads to the present state of its connection, or nothing if that is not in the table. -/
structure AwaitedAt (waiting : List Transition) (peer : PeerId) (b : Broker) : Prop where
  /-- A connection in the table is tracked, whatever is recorded of it. -/
  tracked : ∀ c, b.connections.find? peer = some c → ∃ record?, c.Tracked waiting record? peer
  /-- Nothing was taken from a peer without one. -/
  absent : b.connections.find? peer = none → waiting = []

theorem RecordedAt.awaited (h : RecordedAt waiting peer b) : AwaitedAt waiting peer b :=
  ⟨fun c hc => ⟨_, h.tracked c hc⟩, h.absent⟩

namespace AwaitedAt

theorem carried (h : AwaitedAt waiting peer b) (hcarries : Carries peer b b') :
    AwaitedAt waiting peer b' := by
  refine ⟨fun c' hc' => ?_, fun hc' => h.absent (hcarries.find?_eq_none_iff.1 hc')⟩
  obtain ⟨c, hc, hevolves⟩ := exists_before_of_rel hcarries.connection hc'
  obtain ⟨record?, htracked⟩ := h.tracked c hc
  exact ⟨record?, htracked.evolves hevolves⟩

/-- Processing the first change of state that waits. -/
theorem onTransition (h : AwaitedAt (t :: waiting) peer b) (now : Instant) :
    AwaitedAt waiting peer (b.onTransition peer t now).value := by
  obtain ⟨c, hc⟩ : ∃ c, b.connections.find? peer = some c := by
    refine Option.ne_none_iff_exists'.1 fun hnone => ?_
    cases h.absent hnone
  obtain ⟨record?, htracked⟩ := h.tracked c hc
  have hcarries := carries_departed b peer t now peer
  by_cases hcloses : t.closes = true
  · -- The connection leaves the table, and nothing else has been taken from it.
    have hgone : (b.onTransition peer t now).value.connections.find? peer = none := by
      rw [if_pos hcloses] at hcarries
      exact hcarries.find?_eq_none_iff.2 (by simp)
    refine ⟨fun c' hc' => ?_, fun _ => ?_⟩
    · cases hgone.symm.trans hc'
    · exact (List.append_eq_nil_iff.1 (htracked.nil_of_closes hcloses)).1
  · have hstays : t.closes = false := by simpa using hcloses
    rw [if_neg hcloses] at hcarries
    refine carried ⟨fun d hd => ?_, fun hnone => ?_⟩ hcarries
    · obtain rfl := Option.some.inj (hc.symm.trans hd)
      exact ⟨_, htracked.processed hstays⟩
    · cases hc.symm.trans hnone

/-- Taking what waits. -/
theorem takePending (h : AwaitedAt [] peer b) :
    AwaitedAt (takenOf peer b.pending) peer b.takePending := by
  rw [takenOf_pending]
  refine ⟨fun c' hc' => ?_, fun hnone => ?_⟩
  · rw [find?_takePending, Option.map_eq_some_iff] at hc'
    obtain ⟨c, hc, rfl⟩ := hc'
    obtain ⟨record?, hlast, hearlier, hidle, hcurrent⟩ := h.tracked c hc
    -- What was queued is now among what was taken.
    have hsame : ((b.connections.find? peer).map (·.transitions)).getD [] ++
        c.drained.transitions = [] ++ c.transitions := by
      simp [hc, Connection.drained]
    exact ⟨record?, hsame ▸ hlast, hsame ▸ hearlier, hsame ▸ hidle, hsame ▸ hcurrent⟩
  · rw [find?_takePending, Option.map_eq_none_iff] at hnone
    rw [hnone]
    rfl

end AwaitedAt

/-! ## Records -/

/-- Whatever is cached as a record is one that the broker made of a peer, while some changes of
state that were taken have not been processed yet. If it says that the peer has closed, the peer's
connection is not in the table or has changes of state that still have to be processed. If the
connection is not in the table, the record says that the peer has closed. -/
structure Truthful (taken : List (PeerId × Transition)) (b : Broker) : Prop where
  /-- The type of the records is known. -/
  builtin : b.KnowsBuiltin
  /-- What waits leads to what will be recorded. -/
  awaited : ∀ peer, AwaitedAt (takenOf peer taken) peer b
  /-- Records are kept under the numbers of their peers and do not speak too early of a closing. -/
  records : ∀ key o, b.cached? peerStateType key = some o → ∃ (peer : PeerId) (name : String)
    (state : ConnectionState), key = [.uint peer.toUInt64] ∧ o = PeerState.record peer name state ∧
      (b.connections.find? peer = none → state = .closed) ∧
      (state = .closed → ∀ c, b.connections.find? peer = some c →
        takenOf peer taken ++ c.transitions ≠ [])

/-- If all peers are recorded the records tell the truth. -/
theorem Recorded.truthful (h : Recorded taken b) : Truthful taken b := by
  refine ⟨h.builtin, fun peer => (h.peers peer).awaited, fun key o ho => ?_⟩
  obtain ⟨peer, rfl⟩ := h.keys key o ho
  obtain ⟨-, name, state, rfl, hgone⟩ := (h.peers peer).known o ho
  refine ⟨peer, name, state, rfl, rfl, hgone, fun hclosed c hc hnone => ?_⟩
  -- If nothing waits the record shows the present state, and the connection is open.
  have htracked := (h.peers peer).tracked c hc
  have hopen := htracked.idle hnone
  have hrecord := Option.some.inj (ho.symm.trans (htracked.current hnone))
  have hsame : (peer, state) = (peer, c.state) := by
    have heq := congrArg PeerState.ofRecord? hrecord
    rw [PeerState.ofRecord?_record, PeerState.ofRecord?_record] at heq
    exact Option.some.inj heq
  rw [Connection.isClosed, ← (Prod.mk.inj hsame).2, hclosed] at hopen
  cases hopen

namespace Truthful

/-- Records may be lost meanwhile, and connections may go on. -/
theorem erased (h : Truthful taken b) (hbuiltin : b'.KnowsBuiltin)
    (hcarries : ∀ q, Carries q b b')
    (hlost : ∀ key, b'.cached? peerStateType key = none ∨
      b'.cached? peerStateType key = b.cached? peerStateType key) : Truthful taken b' := by
  refine ⟨hbuiltin, fun peer => (h.awaited peer).carried (hcarries peer), fun key o ho => ?_⟩
  rcases hlost key with hnone | hsame
  · rw [hnone] at ho
    cases ho
  · obtain ⟨peer, name, state, hkey, heq, hgone, hwaits⟩ := h.records key o (hsame ▸ ho)
    refine ⟨peer, name, state, hkey, heq,
      fun hnone => hgone ((hcarries peer).find?_eq_none_iff.1 hnone), fun hclosed c' hc' => ?_⟩
    obtain ⟨c, hc, hevolves⟩ := exists_before_of_rel (hcarries peer).connection hc'
    obtain ⟨more, hmore⟩ := Connection.Evolves.transitions hevolves
    rw [← hmore, ← List.append_assoc]
    exact List.append_ne_nil_of_left_ne_nil (hwaits hclosed c hc) _

/-! ## Processing changes of state -/

/-- Processing the first change of state that was taken. -/
theorem onTransition (h : Truthful ((peer, t) :: taken) b) (hb : b.Tidy) (now : Instant) :
    Truthful taken (b.onTransition peer t now).value := by
  have hbuiltin : (b.onTransition peer t now).value.KnowsBuiltin := by
    rw [value_onTransition, KnowsBuiltin, registry_publishAsHost]
    exact knowsBuiltin_telling h.builtin hb peer t now
  refine ⟨hbuiltin, fun q => ?_, fun key o ho => ?_⟩
  · have hawaited := h.awaited q
    rw [takenOf_cons] at hawaited
    split at hawaited
    · rename_i hq
      subst hq
      exact hawaited.onTransition now
    · rename_i hq
      exact hawaited.carried (carries_onTransition b t now (Ne.symm hq))
  by_cases hkey : key = [.uint peer.toUInt64]
  · subst hkey
    -- The record is the one that is published now.
    have hknown (old : Object) (hold : b.record? peer = some old) :
        ∃ name state, old = PeerState.record peer name state := by
      obtain ⟨q, name, state, hsame, heq, -⟩ := h.records _ old hold
      obtain rfl : peer = q := PeerState.recordKey_inj.1 hsame
      exact ⟨name, state, heq⟩
    have hrecord := record?_onTransition h.builtin hb hknown t now
    obtain rfl := Option.some.inj (hrecord.symm.trans ho)
    have hcarries := carries_departed b peer t now peer
    refine ⟨peer, _, t.state, rfl, rfl, fun hgone => ?_, fun hclosed c hc => ?_⟩
    · -- A connection that does not close stays, and something was taken from this one.
      by_contra hopen
      rw [if_neg (by simp [Transition.closes, hopen])] at hcarries
      have habsent := (h.awaited peer).absent (hcarries.find?_eq_none_iff.1 hgone)
      rw [takenOf_cons, if_pos rfl] at habsent
      cases habsent
    · -- If it says that the peer has closed, the connection has just been set aside.
      have hcloses : t.closes = true := by simp [Transition.closes, hclosed]
      rw [if_pos hcloses] at hcarries
      have hgone := hcarries.find?_eq_none_iff.2 (by simp)
      cases hgone.symm.trans hc
  · -- The record of another peer stays, and so does what waits for that peer.
    rw [cached?_onTransition h.builtin hb peer t now hkey] at ho
    obtain ⟨q, name, state, rfl, heq, hgone, hwaits⟩ := h.records key o ho
    have hq : q ≠ peer := fun hq => hkey (by rw [hq])
    have hcarries := carries_onTransition b t now hq
    refine ⟨q, name, state, rfl, heq, fun hnone => hgone (hcarries.find?_eq_none_iff.1 hnone),
      fun hclosed c' hc' => ?_⟩
    obtain ⟨c, hc, hevolves⟩ := exists_before_of_rel hcarries.connection hc'
    obtain ⟨more, hmore⟩ := Connection.Evolves.transitions hevolves
    have hbefore := hwaits hclosed c hc
    rw [takenOf_cons, if_neg (Ne.symm hq)] at hbefore
    rw [← hmore, ← List.append_assoc]
    exact List.append_ne_nil_of_left_ne_nil hbefore _

/-- Taking what waits. -/
theorem takePending (h : Truthful [] b) : Truthful b.pending b.takePending := by
  refine ⟨h.builtin, fun peer => (h.awaited peer).takePending, fun key o ho => ?_⟩
  obtain ⟨peer, name, state, hkey, heq, hgone, hwaits⟩ := h.records key o ho
  refine ⟨peer, name, state, hkey, heq, fun hnone => ?_, fun hclosed c' hc' => ?_⟩
  · rw [find?_takePending, Option.map_eq_none_iff] at hnone
    exact hgone hnone
  rw [find?_takePending, Option.map_eq_some_iff] at hc'
  obtain ⟨c, hc, rfl⟩ := hc'
  -- What was queued is now among what was taken.
  have hqueue : takenOf peer b.pending = c.transitions := by
    rw [takenOf_pending, hc]
    rfl
  rw [hqueue]
  simpa [Connection.drained, takenOf] using hwaits hclosed c hc

/-- Processing all changes of state that wait. -/
theorem drain (h : Truthful [] b) (hb : b.Tidy) (hq : b.Queued []) (now : Instant) :
    Truthful [] (b.drain now).value :=
  hb.drain_induction hq (fun _ _ hs => hs.takePending) (fun _ _ _ hs h => h.onTransition hs now) h

/-! ## Parts of calls -/

/-- Steps that write no records. -/
theorem steps (h : Truthful taken b) (hsteps : Steps call now b b')
    (hcall : call.rearranges = false) (heffects : Effects passed sent b b')
    (hnone : ∀ p, passed p → p.IsOf b'.registry → p.schema.name ≠ peerStateType) :
    Truthful taken b' :=
  h.erased (fun s hs => heffects.registry _ s (h.builtin s hs)) (hsteps.carries hcall)
    fun key => .inr (cached?_of_effects heffects hnone key)

/-- A course in which nobody but the host writes records, and none are cleared. -/
theorem course (h : Truthful [] b) (hcourse : Course call now cleared given sent b b')
    (hcall : call.rearranges = false) (hclear : ¬cleared peerStateType)
    (hgiven : ∀ p r, given p → p.IsOf r → p.schema.name ≠ peerStateType)
    (hb : b.Tidy) (hq : b.Queued []) : Truthful [] b' := by
  induction hcourse with
  | steps hsteps heffects =>
    refine h.steps hsteps hcall (heffects hb.sound) fun p hp hof => ?_
    rcases hp with hbrought | herrand
    · exact hgiven p _ hbrought hof
    · exact herrand.name_ne hof hclear
  | drain b => exact h.drain hb hq now
  | trans hfirst _ ih ih' =>
    obtain ⟨hb', hq'⟩ := hfirst.tidy hb hq
    exact ih' (ih h hb hq) hb' hq'

/-- Removals of cached objects take records out and change none. -/
theorem retracted {l : List CachedObject} (h : Truthful taken b)
    (hretracts : Retracts now l b b') (hsteps : Steps (.clearCache []) now b b') :
    Truthful taken b' := by
  refine h.erased ?_ (hsteps.carries rfl) fun key => ?_
  · rw [KnowsBuiltin, hretracts.registry]
    exact h.builtin
  · unfold cached?
    rw [hretracts.entries]
    split
    · exact .inl rfl
    · exact .inr rfl

/-- Clearing caches, whichever they are. -/
theorem clearCache (h : Truthful [] b) (hb : b.Tidy) (hq : b.Queued []) (typeNames : List String)
    (now : Instant) : Truthful [] (b.clearCache typeNames now).value := by
  obtain ⟨cleared, hretracts, -, -⟩ := retracts_clearTypes hb.sound typeNames now
  have hsteps : Steps (.clearCache []) now b (b.clearTypes typeNames now) :=
    steps_clearTypes b typeNames
  rw [value_clearCache]
  exact (h.retracted hretracts hsteps).drain (hb.moves (Moves.of_steps hsteps))
    (hq.steps hsteps) now

/-! ## Whole calls -/

/-- The host removes an object, perhaps a record. -/
theorem publish_removal (h : Truthful [] b) (hb : b.Tidy) (hq : b.Queued [])
    (included : Option PropertySet) (now : Instant) :
    Truthful [] (b.publish o included true now).value.1 := by
  have hsteps : Steps (.clearCache []) now b (b.publishAsHost o included true now).value.1 :=
    steps_publishAsHost b o included true
  have hremoved : Truthful [] (b.publishAsHost o included true now).value.1 := by
    refine h.erased ?_ (hsteps.carries rfl) fun key => ?_
    · rw [KnowsBuiltin, registry_publishAsHost]
      exact h.builtin
    · rcases cachedAt?_publishAsHost_removal hb.sound o included now peerStateType key with
        hnone | hsame
      · exact .inl (by rw [cached?, hnone]; rfl)
      · exact .inr (by rw [cached?, hsame, cached?])
  rcases b.publish_cases o included true now with ⟨s, hs, heq⟩ | heq
  · rw [heq]
    cases hs with
    | publish hok => exact hremoved.drain (hb.moves (Moves.of_steps hsteps)) (hq.steps hsteps) now
  · rw [heq]
    exact hremoved

/-- A guest asks to clear caches, whether it may or not. -/
theorem receive_clearCache (h : Truthful [] b) (hb : b.Reachable) (peer : PeerId)
    {f : Transmission} {typeNames : List String}
    (hpayload : f.payload = .control (.clearCache typeNames)) (now : Instant) :
    Truthful [] (b.perform (.receive peer f) now) := by
  -- Besides removals it causes only frames.
  have hframes : ∀ {s s' : Broker}, Truthful [] s → s.Tidy → s.Queued [] →
      Steps (.clearCache []) now s s' →
      Effects (fun p => False ∨ Errand now s s' (fun _ => False) p) (fun _ _ => True)
        s s' → Truthful [] (s'.drain now).value := by
    intro s s' hs htidy hqueued hsteps heffects
    have hcourse : Course (.clearCache []) now (fun _ => False) (fun _ => False) (fun _ _ => True)
        s (s'.drain now).value := .trans (.steps hsteps fun _ => heffects) (.drain s')
    exact hs.course hcourse rfl id (fun _ _ hp _ => hp.elim) htidy hqueued
  have hrefused : ∀ e, Truthful [] ((b.report peer e now).value.drain now).value := fun e =>
    hframes h hb.tidy hb.rested.queued (steps_report b peer e) (effects_report b peer e now trivial)
  cases hc : b.connections.find? peer with
  | none =>
    rw [perform_receive_of_none hc]
    exact h
  | some c =>
    have hrequested : f.payload = .control (ControlRequest.clearCache typeNames f.header).message :=
      hpayload
    have hsame : (c.receive f now).value.1 = c := Connection.receive_fst_of_request hrequested c
    rw [perform_receive_of_open hc, heeding, hsame, putConnection_self hc]
    cases hreceived : (c.receive f now).value.2 with
    | handled => exact h.drain hb.tidy hb.rested.queued now
    | rejected violation => exact hrefused _
    | fatal e => exact hrefused e
    | object header o =>
      obtain ⟨-, hobject, -⟩ := Connection.receive_eq_object hreceived
      cases hpayload.symm.trans hobject
    | control request =>
      have hrequest := hpayload.symm.trans (Connection.payload_of_receive hreceived)
      cases request with
      | clearCache asked header =>
        have hcleared := h.clearCache hb.tidy hb.rested.queued asked now
        have hcourse : Course (.clearCache []) now (· ∈ asked) (fun _ => False) (fun _ _ => True)
            b (b.clearCache asked now).value := course_clearCache (fun _ => id) b
        obtain ⟨htidy, hqueued⟩ := hcourse.tidy hb.tidy hb.rested.queued
        exact hframes hcleared htidy hqueued (.single (.forward _ header _))
          (effects_forward _ _ _ fun _ => trivial)
      | member | descriptorRequest | importStruct | importEnum => cases hrequest

/-- A call that is a course and leaves the records alone. -/
theorem perform_of_course (h : Truthful [] b) (hb : b.Reachable)
    (hcourse : call.rearranges = false) (hcall : call.Spares peerStateType) (now : Instant) :
    Truthful [] (b.perform call now) :=
  h.course (hb.course_perform hcourse now) hcourse hcall.clears
    (fun _ _ hp hof => name_ne_of_brings h.builtin rfl hcall hp hof) hb.tidy hb.rested.queued

/-- A guest that is greeted has changes of state to be processed, whatever is recorded under its
number. -/
theorem accept (h : Truthful [] b) (hb : b.Reachable) (channel : Channel) (now : Instant) :
    Truthful [] (b.perform (.accept channel) now) := by
  let greeting : Broker :=
    { b with nextPeer := b.nextPeer + 1 }.putConnection b.nextPeer (b.greeted channel now)
  have hstep : Step (.accept channel) now b greeting := .accept rfl
  have hfind : ∀ q, greeting.connections.find? q =
      if q = b.nextPeer then some (b.greeted channel now) else b.connections.find? q :=
    fun q => find?_putConnection _ _ q _
  -- Under the new number the connection has just begun, and that waits to be recorded.
  have htracked : ∀ q, (b.greeted channel now).Tracked [] none q := fun q =>
    Connection.tracked_beginHandshake q b.nextPeer channel b.name now none
  have hgreeting : Truthful [] greeting := by
    refine ⟨h.builtin, fun q => ⟨fun c hc => ?_, fun _ => rfl⟩, fun key o ho => ?_⟩
    · rw [hfind] at hc
      split at hc
      · obtain rfl := Option.some.inj hc
        exact ⟨none, htracked q⟩
      · exact (h.awaited q).tracked c hc
    · obtain ⟨peer, name, state, hkey, heq, hgone, hwaits⟩ := h.records key o ho
      refine ⟨peer, name, state, hkey, heq, fun hnone => ?_, fun hclosed c hc => ?_⟩
      · rw [hfind] at hnone
        split at hnone
        · cases hnone
        · exact hgone hnone
      · rw [hfind] at hc
        split at hc
        · obtain rfl := Option.some.inj hc
          intro hnone
          cases (htracked peer).current hnone
        · exact hwaits hclosed c hc
  exact hgreeting.drain (hb.tidy.step hstep) (hb.rested.queued.step hstep) now

/-- A sweep loses records only. -/
theorem sweep (h : Truthful [] b) (hb : b.Tidy) (hr : b.Rested) (now : Instant) :
    Truthful [] (b.sweep now).value := by
  have hforget : Step .sweep now b b.forgetClosed := .forgetClosed (.inl rfl)
  have hsteps : ∀ call, Steps call now b.forgetClosed
      (b.forgetClosed.afterRemovals b.staleRecords now) := fun call => steps_afterRemovals call _ _
  have hforgotten : Truthful [] b.forgetClosed := by
    refine ⟨h.builtin, fun peer => ?_, h.records⟩
    exact ⟨(h.awaited peer).tracked, (h.awaited peer).absent⟩
  rw [value_sweep hr]
  exact (hforgotten.retracted (retracts_staleRecords hb.sound now) (hsteps _)).drain
    ((hb.step hforget).moves (Moves.of_steps (hsteps .sweep)))
    ((hr.queued.step hforget).steps (hsteps .sweep)) now

/-- Shutting down closes all connections, and then it is sweeping. -/
theorem shutdown (h : Truthful [] b) (hb : b.Tidy) (hr : b.Rested) (now : Instant) :
    Truthful [] (b.shutdown now).value := by
  have hcourse : Course (.clearCache []) now (fun _ => False) (fun _ => False) (fun _ _ => True) b
      ((b.farewells now).drain now).value :=
    .trans (.foldl (fun b peer _ => course_farewell (fun _ _ _ => trivial) b peer) b) (.drain _)
  obtain ⟨hb', -⟩ := hcourse.tidy hb hr.queued
  have hfarewells : Steps .sweep now b (b.farewells now) := steps_farewells b
  -- The goodbyes write no records, and what is left is a sweep.
  rw [value_shutdown]
  exact (h.course hcourse rfl id (fun _ _ hp _ => hp.elim) hb hr.queued).sweep hb'
    (drain_rests (hr.queued.steps hfarewells)) now

/-- Every call that does not publish records as the host keeps them true. -/
theorem perform (h : Truthful [] b) (hb : b.Reachable) (hcall : ¬call.Records) (now : Instant) :
    Truthful [] (b.perform call now) := by
  cases call with
  | accept channel => exact h.accept hb channel now
  | sweep => exact h.sweep hb.tidy hb.rested now
  | shutdown => exact h.shutdown hb.tidy hb.rested now
  | clearCache typeNames => exact h.clearCache hb.tidy hb.rested.queued typeNames now
  | publish o included remove =>
    cases remove with
    | true => exact h.publish_removal hb.tidy hb.rested.queued included now
    | false =>
      have hspares : (BrokerCall.publish o included false).Spares peerStateType :=
        ⟨id, fun htype => hcall ⟨htype, rfl⟩⟩
      exact h.perform_of_course hb rfl hspares now
  | remove o =>
    show Truthful [] (b.remove o now).value.1
    unfold Broker.remove
    split
    · exact h
    · exact h.publish_removal hb.tidy hb.rested.queued _ now
  | receive peer f =>
    -- A guest may not publish records, but it may ask for them to be cleared.
    by_cases hclears : (BrokerCall.receive peer f).Clears peerStateType
    · obtain ⟨typeNames, hpayload, -⟩ := hclears
      exact h.receive_clearCache hb peer hpayload now
    · exact h.perform_of_course hb rfl ⟨hclears, id⟩ now
  | transportFailed | registerStruct | registerEnum | subscribe | unsubscribe | disturb =>
    exact h.perform_of_course hb rfl ⟨id, id⟩ now

/-- So it is in a run without such calls. -/
theorem after (h : Truthful [] b) (hb : b.Reachable) {calls : List (BrokerCall × Instant)}
    (hcalls : ∀ call ∈ calls, ¬call.1.Records) : Truthful [] (b.after calls) := by
  induction calls generalizing b with
  | nil => exact h
  | cons call rest ih =>
    have hfirst := h.perform hb (hcalls call List.mem_cons_self) call.2
    exact ih hfirst (hb.perform call.1 call.2) fun c hc => hcalls c (List.mem_cons_of_mem _ hc)

/-- Between calls the record of a closed peer is that of a peer whose connection is not there. -/
theorem gone (h : Truthful [] b) (hr : b.Rested) {key : ObjectKey}
    (ho : b.cached? peerStateType key = some o)
    (hclosed : PeerState.ofRecord? o = some (peer, .closed)) :
    b.connections.find? peer = none := by
  obtain ⟨q, name, state, -, rfl, -, hwaits⟩ := h.records key o ho
  rw [PeerState.ofRecord?_record] at hclosed
  obtain ⟨rfl, rfl⟩ := Prod.mk.inj (Option.some.inj hclosed)
  by_contra hthere
  obtain ⟨c, hc⟩ := Option.ne_none_iff_exists'.1 hthere
  -- Between calls no change of state waits.
  exact hwaits rfl c hc (hr q c hc).1

end Truthful

/-- The records of a broker that has just been started tell the truth. -/
theorem Started.truthful (h : Started b) : Truthful [] b := by
  obtain ⟨name, registry, eventCapacity, now, ⟨hbuilt, hbuiltin⟩, rfl⟩ := h.exists_registry
  exact (recorded_ofRegistry hbuilt hbuiltin name eventCapacity now).truthful

/-! ## Sweeping -/

/-- A sweep during which no channel of a guest refuses anything forgets the closed connections and
retracts exactly the records of closed peers to which nothing refers, and a second one does nothing.
Unless records are published as the host, no record is retracted of a peer that is there. -/
theorem Reachable.sweep_exact (hb : b.Reachable) (now : Instant)
    (hunfailing : ∀ q ∈ b.connections.keys, b.Unfailing (b.sweep now).value q) :
    ∃ stale, Swept now stale b (b.sweep now).value ∧
      (∀ start calls, Started start → (∀ call ∈ calls, ¬call.1.Records) → b = start.after calls →
        ∀ x ∈ stale, ∀ peer state, PeerState.ofRecord? x.entry.object = some (peer, state) →
          b.connections.find? peer = none) ∧
      ∀ now', (b.sweep now).value.sweep now' = pure (b.sweep now).value := by
  have hswept := hb.swept hunfailing
  refine ⟨b.staleRecords, hswept, ?_, fun now' => ?_⟩
  · rintro start calls hstart hcalls rfl x hx peer state hrecord
    obtain ⟨hin, hname, q, hclosed, -⟩ := (hswept.exactly x).1 hx
    obtain ⟨rfl, rfl⟩ := Prod.mk.inj (Option.some.inj (hrecord.symm.trans hclosed))
    have htruthful := hstart.truthful.after hstart.reachable hcalls
    have hcached : (start.after calls).cached? peerStateType x.key = some x.entry.object := by
      rw [cached?, ← hname, hin.entry]
      rfl
    exact htruthful.gone hb.rested hcached hclosed
  · exact hswept.again (hb.perform .sweep now).sound now'

/-- One guest watches the records of peers, and another one comes and is lost. -/
def watching : List (BrokerCall × Instant) :=
  [(.accept (.reliable "guest"), default),
    (.receive 2 (.ofControl (.connectAs "guest" false) default), default),
    (.receive 2 (.ofControl (.member peerStateType .join) default), default),
    (.accept (.reliable "other"), default),
    (.transportFailed 3 .closed, default)]

/-- A sweep retracts the record of the second guest. The first one is sent its removal and takes
it. -/
theorem sweep_exact_after_watching :
    let b := (new "lobby" default).value.after watching
    ∃ stale x, Swept default stale b (b.sweep default).value ∧
      x ∈ stale ∧ x.entry.object = PeerState.record 3 unnamedPeer .closed ∧
      b.connections.find? 3 = none ∧
      (b.sweep default).value.traceOf 2 ≠ b.traceOf 2 ∧
      (b.sweep default).value.sweep default = pure (b.sweep default).value := by
  intro b
  have hstart : Started (new "lobby" default).value := .new "lobby" default
  have hb : b.Reachable := hstart.reachable.after watching
  have hcalls : ∀ call ∈ watching, ¬call.1.Records := by
    simp [watching, BrokerCall.Records]
  have hkeys : b.connections.keys = [2] := rfl
  have hunfailing : ∀ q ∈ b.connections.keys, b.Unfailing (b.sweep default).value q := by
    rw [hkeys, List.forall_mem_singleton]
    show ∀ a ∈ b.newActions (b.sweep default).value 2, a.isRefusal = false
    decide +kernel
  obtain ⟨stale, hswept, hgone, hagain⟩ := Reachable.sweep_exact hb default hunfailing
  obtain ⟨e, he, hobject⟩ : ∃ e, b.cachedAt? peerStateType [.uint 3] = some e ∧
      e.object = PeerState.record 3 unnamedPeer .closed := ⟨_, rfl, rfl⟩
  have hrecord : PeerState.ofRecord? e.object = some (3, .closed) := by
    rw [hobject, PeerState.ofRecord?_record]
  have hstale : (⟨PeerState.schema, [.uint 3], e⟩ : CachedObject) ∈ stale := by
    refine (hswept.exactly _).2 ⟨⟨rfl, rfl, he⟩, rfl, 3, hrecord, ?_⟩
    rw [← isReferenced_eq_true_iff hb.sound]
    decide +kernel
  refine ⟨stale, _, hswept, hstale, hobject, ?_, ?_, hagain default⟩
  · exact hgone _ watching hstart hcalls rfl _ hstale 3 .closed hrecord
  · decide +kernel

end Broker

end ObjectBus
