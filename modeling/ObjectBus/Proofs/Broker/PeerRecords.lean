import ObjectBus.Proofs.Broker.Courses
import ObjectBus.Proofs.Broker.HostRecords
import ObjectBus.Proofs.Broker.Preload

/-!
# The records of peers

The broker keeps a record of every peer, and publishes it anew for each change of state that it
processes. A change waits in the queue of its connection until then, so that a record may be
published for a state that the connection has left already. What carries the records over this is
that the last change that waits leads to the present state, and that a closing is always the last.

* `Connection.Tracked`: a connection, its record and what waits between them;
* `Carries`: what the steps of a call do to one peer;
* `RecordedAt`, `Recorded`: one peer, and all peers, while some changes that were taken have not
  been processed yet;
* `record?_onTransition`: what processing a change leaves as the record of the peer;
* `Recorded.drain`: processing all that waits.
-/

namespace ObjectBus

namespace PeerState

/-- A record conforms to the type of records. -/
theorem validate_record (peer : PeerId) (name : String) (state : ConnectionState) :
    schema.validate (record peer name state) = .ok () := rfl

/-- What a record holds. -/
theorem get?_record (peer : PeerId) (name : String) (state : ConnectionState) (tag : Tag) :
    (record peer name state).get? tag =
      if tag = stateTag then some (.enumerator state.toEnumerator)
      else if tag = nameTag then some (.str name)
      else if tag = idTag then some (.uint peer.toUInt64) else none := by
  simp only [record, Object.get?_set]
  rfl

/-- Different peers have different keys. -/
theorem recordKey_inj {peer q : PeerId} :
    ([.uint q.toUInt64] : ObjectKey) = [.uint peer.toUInt64] ↔ q = peer := by
  rw [List.cons.injEq, Value.uint.injEq, UInt32.toUInt64_inj]
  simp

/-- A record is read back as what it was made of. -/
theorem ofRecord?_record (peer : PeerId) (name : String) (state : ConnectionState) :
    ofRecord? (record peer name state) = some (peer, state) := by
  have hid : (record peer name state).get? idTag = some (.uint peer.toUInt64) := by
    rw [get?_record]
    rfl
  have hstate : (record peer name state).get? stateTag =
      some (.enumerator state.toEnumerator) := by
    rw [get?_record]
    rfl
  have hsize : peer.toNat < UInt32.size := peer.toNat_lt
  unfold ofRecord?
  simp [hid, hstate, Value.asUInt64?, hsize]

/-- The properties of a record. -/
def tags : PropertySet := .ofTags [idTag, nameTag, stateTag]

/-- The host publishes a record with all its properties. -/
theorem attributes_hostHeader (peer : PeerId) (name : String) (state : ConnectionState)
    (now : Instant) :
    (Broker.hostHeader schema (record peer name state) none false now).attributes = tags := by
  -- Which properties are set depends neither on the name nor on the state.
  have hkeys : (record peer name state).values.keys = [idTag, nameTag, stateTag] := rfl
  show (record peer name state).setProperties ∩ schema.allProperties ∪ schema.keyProperties = tags
  rw [Object.setProperties, hkeys]
  decide

/-- A record that is created is kept as it is. -/
theorem restrict_record (peer : PeerId) (name : String) (state : ConnectionState) :
    (record peer name state).restrict (tags ∪ schema.keyProperties) = record peer name state := by
  have hall : ∀ tag ∈ [idTag, nameTag, stateTag],
      (tags ∪ schema.keyProperties).contains tag = true :=
    List.all_eq_true.1 (by decide)
  refine Object.restrict_eq_self fun tag hset => hall tag ?_
  by_contra hnot
  simp only [List.mem_cons, List.not_mem_nil, or_false, not_or] at hnot
  simp [get?_record, hnot] at hset

/-- A record of the same peer takes the place of an older one. -/
theorem merge_record (peer : PeerId) (name name' : String) (state state' : ConnectionState) :
    (record peer name state).merge (record peer name' state') (tags \ schema.keyProperties) =
      record peer name' state' := by
  -- All is merged but the key, which both have in common.
  have htags : tags \ schema.keyProperties = .ofTags [nameTag, stateTag] := by decide
  refine Object.ext_get? (Object.typeName_merge _ _ _) fun tag => ?_
  rw [htags, Object.get?_merge, get?_record, get?_record]
  by_cases hstate : tag = stateTag
  · subst hstate
    have hlisted : (PropertySet.ofTags [nameTag, stateTag]).contains stateTag = true := by decide
    rw [if_pos hlisted]
  · by_cases hname : tag = nameTag
    · subst hname
      rfl
    · simp [hstate, hname]

end PeerState

/-! ## What a connection has still to tell -/

namespace Connection

variable {c c' : Connection} {waiting : List Transition} {record? : Option Object}

/-- A connection and the record of its peer, while some of its changes of state were taken and not
processed yet. Of all that wait the last one leads to the present state, and no other closes; if
none waits the connection is open, and the record shows its name and its state. -/
structure Tracked (taken : List Transition) (record? : Option Object) (peer : PeerId)
    (c : Connection) : Prop where
  /-- The last change that waits leads to the present state. -/
  last : ∀ earlier t, taken ++ c.transitions = earlier ++ [t] → t.state = c.state
  /-- No other change that waits closes. -/
  earlier : ∀ earlier t, taken ++ c.transitions = earlier ++ [t] →
    ∀ t' ∈ earlier, t'.closes = false
  /-- If no change waits the connection is open. -/
  idle : taken ++ c.transitions = [] → c.isClosed = false
  /-- If no change waits the record is up to date. -/
  current : taken ++ c.transitions = [] →
    record? = some (PeerState.record peer c.name c.state)

namespace Tracked

variable {taken : List Transition} {peer : PeerId}

/-- Nothing that waits for an open connection closes it. -/
theorem closes_eq_false (h : c.Tracked taken record? peer) (hopen : c.isClosed = false)
    {t : Transition} (ht : t ∈ taken ++ c.transitions) : t.closes = false := by
  rcases List.eq_nil_or_concat (taken ++ c.transitions) with hnone | ⟨before, last, hlast⟩
  · rw [hnone] at ht
    cases ht
  · rw [List.concat_eq_append] at hlast
    rw [hlast] at ht
    rcases List.mem_append.1 ht with hbefore | hmem
    · exact h.earlier before last hlast t hbefore
    · obtain rfl := List.mem_singleton.1 hmem
      unfold Transition.closes
      rw [h.last before t hlast]
      simpa [isClosed] using hopen

/-- One turn keeps a connection tracked. -/
theorem turn (h : c.Tracked taken record? peer) (hturn : c.Turn c') :
    c'.Tracked taken record? peer := by
  cases hturn with
  | stay hname hstate hqueue =>
    have hclosed : c'.isClosed = c.isClosed := by rw [isClosed, hstate, isClosed]
    constructor
    · rw [hqueue, hstate]
      exact h.last
    · rw [hqueue]
      exact h.earlier
    · rw [hqueue, hclosed]
      exact h.idle
    · rw [hqueue, hname, hstate]
      exact h.current
  | enter t hopen hstate hqueue hruns =>
    -- The change that is queued is the last one now, and all that waited before leave the
    -- connection open.
    have hsplit : ∀ earlier last, taken ++ c'.transitions = earlier ++ [last] →
        earlier = taken ++ c.transitions ∧ last = t := by
      intro earlier last heq
      rw [hqueue, ← List.append_assoc] at heq
      obtain ⟨hearlier, hlast⟩ := List.append_inj' heq rfl
      exact ⟨hearlier.symm, by simpa using hlast.symm⟩
    have hsome : taken ++ c'.transitions ≠ [] := by simp [hqueue]
    refine ⟨fun earlier last heq => ?_, fun earlier last heq t' ht' => ?_,
      fun hnone => absurd hnone hsome, fun hnone => absurd hnone hsome⟩
    · rw [(hsplit earlier last heq).2, hstate]
    · rw [(hsplit earlier last heq).1] at ht'
      exact h.closes_eq_false hopen ht'

theorem evolves (h : c.Tracked taken record? peer) (hevolves : c.Evolves c') :
    c'.Tracked taken record? peer := by
  induction hevolves with
  | refl => exact h
  | tail _ hturn ih => exact ih.turn hturn

/-- Processing the first change that was taken, if it does not close, and publishing the record of
the peer in the new state. -/
theorem processed {t : Transition} (h : c.Tracked (t :: taken) record? peer)
    (hstays : t.closes = false) :
    c.Tracked taken (some (PeerState.record peer c.name t.state)) peer := by
  have hlonger : ∀ earlier last, taken ++ c.transitions = earlier ++ [last] →
      t :: taken ++ c.transitions = t :: earlier ++ [last] := by
    intro earlier last heq
    rw [List.cons_append, heq, List.cons_append]
  refine ⟨fun earlier last heq => h.last _ last (hlonger earlier last heq),
    fun earlier last heq t' ht' => ?_, fun hnone => ?_, fun hnone => ?_⟩
  · exact h.earlier _ last (hlonger earlier last heq) t' (List.mem_cons_of_mem t ht')
  -- If nothing else waits, this change was the last one.
  · have hstate : t.state = c.state := h.last [] t (by rw [List.cons_append, hnone]; rfl)
    simpa [isClosed, Transition.closes, hstate] using hstays
  · have hstate : t.state = c.state := h.last [] t (by rw [List.cons_append, hnone]; rfl)
    rw [hstate]

/-- A closing is the last change that waits. -/
theorem nil_of_closes {t : Transition} (h : c.Tracked (t :: taken) record? peer)
    (hcloses : t.closes = true) : taken ++ c.transitions = [] := by
  rcases List.eq_nil_or_concat (taken ++ c.transitions) with hnone | ⟨before, last, hlast⟩
  · exact hnone
  · rw [List.concat_eq_append] at hlast
    have hall := h.earlier (t :: before) last (by rw [List.cons_append, hlast]; rfl) t
      List.mem_cons_self
    rw [hcloses] at hall
    cases hall

end Tracked

end Connection

namespace Broker

open Relation (ReflTransGen)

variable {call : BrokerCall} {now : Instant} {b b' b'' : Broker} {peer q : PeerId}
variable {taken : List (PeerId × Transition)} {waiting : List Transition} {t : Transition}
variable {passed : Passage → Prop} {sent : PeerId → Transmission → Prop}

/-! ## What happens to a peer -/

/-- Between two states the connection of a peer stays in its table and evolves there. -/
structure Carries (peer : PeerId) (b b' : Broker) : Prop where
  /-- The connection evolves if it is in the table. -/
  connection : Option.Rel Connection.Evolves (b.connections.find? peer)
    (b'.connections.find? peer)
  /-- If it has closed it stays as it is. -/
  closed : b'.closed.find? peer = b.closed.find? peer
  /-- A number stays assigned. -/
  assigned : b.Assigned peer → b'.Assigned peer

namespace Carries

theorem refl (peer : PeerId) (b : Broker) : Carries peer b b where
  connection := rel_refl (fun _ => .refl) _
  closed := rfl
  assigned := id

theorem trans (h : Carries peer b b') (h' : Carries peer b' b'') : Carries peer b b'' where
  connection := rel_trans ReflTransGen.trans h.connection h'.connection
  closed := h'.closed.trans h.closed
  assigned hpeer := h'.assigned (h.assigned hpeer)

/-- A peer without a connection gets none. -/
theorem find?_eq_none_iff (h : Carries peer b b') :
    b'.connections.find? peer = none ↔ b.connections.find? peer = none :=
  eq_none_iff_of_rel h.connection

end Carries

/-- Steps of a call that does not rearrange the tables carry every peer. -/
theorem Steps.carries (h : Steps call now b b') (hcall : call.rearranges = false)
    (peer : PeerId) : Carries peer b b' := by
  induction h with
  | refl => exact .refl peer b
  | tail _ h ih =>
    -- Only the arrival of a guest and the forgetting of closed ones could get in the way.
    refine ih.trans ⟨?_, ?_, h.assigned⟩
    · rcases h.evolves peer with ⟨channel, rfl, -⟩ | hrel
      · cases hcall
      · exact hrel
    · rcases h.tables with ⟨hclosed, -⟩ | ⟨rfl | rfl, -⟩
      · rw [hclosed]
      · cases hcall
      · cases hcall

/-- The leaving of one peer carries the others. -/
theorem carries_setAside (b : Broker) (hne : q ≠ peer) : Carries q b (b.setAside peer) where
  connection := by
    rw [find?_setAside, if_neg hne]
    exact (Carries.refl q b).connection
  closed := by
    unfold setAside
    cases b.connections.find? peer with
    | none => rfl
    | some c => simp [hne]
  assigned := (assigned_setAside peer).2

theorem closed_setAside {c : Connection} (hc : b.connections.find? peer = some c) :
    (b.setAside peer).closed.find? peer = some c := by
  unfold setAside
  simp [hc]

/-! ## The record of a peer -/

/-- The record of a peer. -/
def record? (b : Broker) (peer : PeerId) : Option Object :=
  b.cached? peerStateType [.uint peer.toUInt64]

/-- The connection of a peer and its record, while some changes of its state were taken and not
processed yet. -/
structure RecordedAt (waiting : List Transition) (peer : PeerId) (b : Broker) : Prop where
  /-- A connection in the table is tracked. -/
  tracked : ∀ c, b.connections.find? peer = some c → c.Tracked waiting (b.record? peer) peer
  /-- Nothing was taken from a peer without one. -/
  absent : b.connections.find? peer = none → waiting = []
  /-- The record of a closed connection says so. -/
  closed : b.connections.find? peer = none → ∀ c, b.closed.find? peer = some c →
    b.record? peer = some (PeerState.record peer c.name .closed)
  /-- Whatever is recorded is recorded of a guest, and as closed if its connection is not in the
  table. -/
  known : ∀ o, b.record? peer = some o → b.Assigned peer ∧ ∃ name state,
    o = PeerState.record peer name state ∧ (b.connections.find? peer = none → state = .closed)

/-- A peer that is carried, and whose record stays as it is, stays recorded. -/
theorem RecordedAt.carried (h : RecordedAt waiting peer b) (hcarries : Carries peer b b')
    (hrecord : b'.record? peer = b.record? peer) : RecordedAt waiting peer b' := by
  have hnone := hcarries.find?_eq_none_iff
  refine ⟨fun c' hc' => ?_, fun hc' => h.absent (hnone.1 hc'), fun hc' c hc => ?_, fun o ho => ?_⟩
  · obtain ⟨c, hc, hevolves⟩ := exists_before_of_rel hcarries.connection hc'
    rw [hrecord]
    exact (h.tracked c hc).evolves hevolves
  · rw [hrecord]
    exact h.closed (hnone.1 hc') c (hcarries.closed ▸ hc)
  · obtain ⟨hassigned, name, state, heq, hclosed⟩ := h.known o (hrecord ▸ ho)
    exact ⟨hcarries.assigned hassigned, name, state, heq, fun hc' => hclosed (hnone.1 hc')⟩

/-- Publishing a record of a peer leaves that record, in the place of an older one. -/
theorem record?_publishAsHost (hb : b.Sound) (hbuiltin : b.KnowsBuiltin)
    (hold : ∀ o, b.record? peer = some o → ∃ name state, o = PeerState.record peer name state)
    (name : String) (state : ConnectionState) (now : Instant) :
    (b.publishAsHost (PeerState.record peer name state) none false now).value.1.record? peer =
      some (PeerState.record peer name state) := by
  have hs : b.registry.findStruct? PeerState.schema.name = some PeerState.schema :=
    hbuiltin PeerState.schema (by simp [builtinStructs])
  have hpublish : (b.publishAsHost (PeerState.record peer name state) none false now).value =
      (b.dispatch PeerState.schema
        (hostHeader PeerState.schema (PeerState.record peer name state) none false now)
        (PeerState.record peer name state) now).value := by
    have hresolve : b.registry.findStruct? (PeerState.record peer name state).typeName =
        some PeerState.schema := hs
    unfold publishAsHost Registry.resolve
    rw [hresolve]
    simp only [PeerState.validate_record]
  have hcache : (b.cacheOf PeerState.schema).schema = PeerState.schema := (hb.cacheOf hs).1
  have hconcerns : (Dispatcher.callOf
      (hostHeader PeerState.schema (PeerState.record peer name state) none false now)
      (PeerState.record peer name state) now).concerns PeerState.schema
        [.uint peer.toUInt64] = true :=
    CacheCall.concerns_eq_true_iff.2 (PeerState.keyOf_record peer name state)
  have hwrite : (hostHeader PeerState.schema (PeerState.record peer name state) none false
      now).remove = false := rfl
  rw [record?, cached?, hpublish, cachedAt?_dispatch_eq hb hs, if_pos ⟨⟨rfl, rfl⟩, hconcerns⟩,
    hwrite, if_neg Bool.false_ne_true, Option.map_some]
  congr 1
  -- Without an older record the new one is kept as it is, and otherwise both are merged.
  cases hfind : b.cachedAt? peerStateType [.uint peer.toUInt64] with
  | none =>
    show (PeerState.record peer name state).restrict (_ ∪ _) = _
    rw [hcache, Dispatcher.callOf, PeerState.attributes_hostHeader, PeerState.restrict_record]
  | some old =>
    obtain ⟨name', state', hold⟩ := hold old.object (by rw [record?, cached?, hfind]; rfl)
    show old.object.merge (PeerState.record peer name state) (_ \ _) = _
    rw [hcache, Dispatcher.callOf, PeerState.attributes_hostHeader, hold, PeerState.merge_record]

/-- Publishing a record of a peer, or the removal of one, concerns no other record. -/
theorem cached?_publishAsHost (hb : b.Sound) (hbuiltin : b.KnowsBuiltin) (name : String)
    (state : ConnectionState) (included : Option PropertySet) (remove : Bool) (now : Instant)
    {key : ObjectKey} (hkey : key ≠ [.uint peer.toUInt64]) :
    (b.publishAsHost (PeerState.record peer name state) included remove now).value.1.cached?
      peerStateType key = b.cached? peerStateType key := by
  let published : Broker :=
    (b.publishAsHost (PeerState.record peer name state) included remove now).value.1
  have heffects : Effects
      (fun p => ∃ h, p = ⟨PeerState.schema, h, PeerState.record peer name state⟩)
      (fun _ _ => True) b published := by
    refine effects_publishAsHost hb _ included remove now fun s hs => ?_
    obtain rfl : s = PeerState.schema :=
      Option.some.inj (hs.symm.trans (hbuiltin PeerState.schema (by simp [builtinStructs])))
    exact ⟨_, rfl⟩
  have hsame : published.cachedAt? peerStateType key = b.cachedAt? peerStateType key := by
    refine heffects.spares ?_
    rintro p ⟨h, rfl⟩ - - heq
    exact hkey (Except.ok.inj (heq.symm.trans (PeerState.keyOf_record peer name state)))
  rw [cached?, hsame, cached?]

/-! ## Processing a change of state -/

/-- The changes of state of one peer among those that were taken. -/
def takenOf (peer : PeerId) (taken : List (PeerId × Transition)) : List Transition :=
  (taken.filter fun x => decide (x.1 = peer)).map (·.2)

theorem takenOf_cons (x : PeerId × Transition) (taken : List (PeerId × Transition)) :
    takenOf peer (x :: taken) =
      if x.1 = peer then x.2 :: takenOf peer taken else takenOf peer taken := by
  unfold takenOf
  by_cases hx : x.1 = peer <;> simp [hx]

theorem takenOf_append (taken taken' : List (PeerId × Transition)) :
    takenOf peer (taken ++ taken') = takenOf peer taken ++ takenOf peer taken' := by
  simp [takenOf]

/-- All peers are recorded, and nothing else is. -/
structure Recorded (taken : List (PeerId × Transition)) (b : Broker) : Prop where
  /-- The type of the records is known. -/
  builtin : b.KnowsBuiltin
  /-- Every record is kept under the number of a peer. -/
  keys : ∀ key o, b.cached? peerStateType key = some o →
    ∃ peer : PeerId, key = [.uint peer.toUInt64]
  /-- Every peer is recorded. -/
  peers : ∀ peer, RecordedAt (takenOf peer taken) peer b

/-- When nothing is passed on of a type, its cached objects all stay as they are. -/
theorem cached?_of_effects {typeName : String} (h : Effects passed sent b b')
    (hnone : ∀ p, passed p → p.IsOf b'.registry → p.schema.name ≠ typeName)
    (key : ObjectKey) : b'.cached? typeName key = b.cached? typeName key := by
  rw [cached?, cached?, h.spares fun p hp hof hname => absurd hname (hnone p hp hof)]

/-- What goes with a guest is no record. -/
theorem removal_ne_peerState (hbuiltin : b.KnowsBuiltin) {p : Passage}
    (hp : ∃ schema o, schema.flags.cleanup = true ∧ p = .removal schema o now)
    (hof : p.IsOf b.registry) : p.schema.name ≠ peerStateType := by
  obtain ⟨schema, o, hcleanup, rfl⟩ := hp
  intro hname
  have hnot := hbuiltin.cleanup_eq_false hof (by simp [isHostRecord, hname])
  simp [Passage.removal, hcleanup] at hnot

/-- The broker when observers have been told of a change of state, and before the record of the peer
is published. -/
def telling (b : Broker) (peer : PeerId) (t : Transition) (now : Instant) : Broker :=
  (b.leftBy peer t now).emit
    (.peerState peer ((b.peerName? peer).getD unnamedPeer) t.state t.cause)

theorem sound_telling (hb : b.Tidy) (peer : PeerId) (t : Transition) (now : Instant) :
    (b.telling peer t now).Sound := by
  have hsteps : Steps .sweep now (b.leftBy peer t now) (b.telling peer t now) :=
    .single (.announce (by simp))
  exact Steps.induction Sound.step (sound_leftBy hb peer t now) hsteps

/-- Until the record is published nothing is passed on but what goes with the guest. -/
theorem effects_telling (sent : PeerId → Transmission → Prop) (hb : b.Tidy) (peer : PeerId)
    (t : Transition) (now : Instant) :
    Effects (fun p => ∃ schema o, schema.flags.cleanup = true ∧ p = .removal schema o now) sent b
      (b.telling peer t now) := by
  refine (effects_leftBy hb peer t now fun _ x hx => ?_).trans (effects_emit _ (by simp))
  obtain ⟨-, hcleanup, -⟩ := ((hb.departure peer now).exactly x).1 hx
  exact ⟨x.schema, x.entry.object, hcleanup, rfl⟩

theorem knowsBuiltin_telling (hbuiltin : b.KnowsBuiltin) (hb : b.Tidy) (peer : PeerId)
    (t : Transition) (now : Instant) : (b.telling peer t now).KnowsBuiltin :=
  fun s hs => (effects_telling (fun _ _ => True) hb peer t now).registry _ s (hbuiltin s hs)

theorem cached?_telling (hbuiltin : b.KnowsBuiltin) (hb : b.Tidy) (peer : PeerId)
    (t : Transition) (now : Instant) (key : ObjectKey) :
    (b.telling peer t now).cached? peerStateType key = b.cached? peerStateType key :=
  cached?_of_effects (effects_telling (fun _ _ => True) hb peer t now)
    (fun _ hp hof => removal_ne_peerState (knowsBuiltin_telling hbuiltin hb peer t now) hp hof) key

/-- Processing a change of state concerns no record but that of the peer. -/
theorem cached?_onTransition (hbuiltin : b.KnowsBuiltin) (hb : b.Tidy) (peer : PeerId)
    (t : Transition) (now : Instant) {key : ObjectKey} (hkey : key ≠ [.uint peer.toUInt64]) :
    (b.onTransition peer t now).value.cached? peerStateType key = b.cached? peerStateType key := by
  rw [value_onTransition]
  refine .trans ?_ (cached?_telling hbuiltin hb peer t now key)
  exact cached?_publishAsHost (sound_telling hb peer t now)
    (knowsBuiltin_telling hbuiltin hb peer t now) _ _ _ _ now hkey

/-- Processing a change of state leaves a record of the peer in the new state. -/
theorem record?_onTransition (hbuiltin : b.KnowsBuiltin) (hb : b.Tidy) {peer : PeerId}
    (hold : ∀ o, b.record? peer = some o → ∃ name state, o = PeerState.record peer name state)
    (t : Transition) (now : Instant) :
    (b.onTransition peer t now).value.record? peer =
      some (PeerState.record peer ((b.peerName? peer).getD unnamedPeer) t.state) := by
  rw [value_onTransition]
  refine record?_publishAsHost (sound_telling hb peer t now)
    (knowsBuiltin_telling hbuiltin hb peer t now) (fun o ho => hold o ?_) _ _ now
  rwa [record?, cached?_telling hbuiltin hb] at ho

theorem carries_departed (b : Broker) (peer : PeerId) (t : Transition) (now : Instant)
    (q : PeerId) :
    Carries q (if t.closes then b.setAside peer else b) (b.onTransition peer t now).value :=
  (steps_departed (.clearCache []) b peer t now).carries rfl q

/-- Processing a change of state of one peer carries the others. -/
theorem carries_onTransition (b : Broker) (t : Transition) (now : Instant) (hne : q ≠ peer) :
    Carries q b (b.onTransition peer t now).value := by
  refine .trans ?_ (carries_departed b peer t now q)
  split
  · exact carries_setAside b hne
  · exact .refl q b

/-- Processing the first change of state of a peer leaves it recorded. -/
theorem RecordedAt.onTransition (h : RecordedAt (t :: waiting) peer b) (hbuiltin : b.KnowsBuiltin)
    (hb : b.Tidy) (now : Instant) : RecordedAt waiting peer (b.onTransition peer t now).value := by
  obtain ⟨c, hc⟩ : ∃ c, b.connections.find? peer = some c := by
    refine Option.ne_none_iff_exists'.1 fun hnone => ?_
    cases h.absent hnone
  have htracked := h.tracked c hc
  have hname : (b.peerName? peer).getD unnamedPeer = c.name := by
    simp [peerName?, connection?, hc]
  have hrecord : (b.onTransition peer t now).value.record? peer =
      some (PeerState.record peer c.name t.state) := by
    rw [record?_onTransition hbuiltin hb (fun o ho => ?_) t now, hname]
    obtain ⟨-, name, state, heq, -⟩ := h.known o ho
    exact ⟨name, state, heq⟩
  have hcarries := carries_departed b peer t now peer
  by_cases hcloses : t.closes = true
  · -- The connection leaves the table, and nothing else has been taken from it.
    rw [if_pos hcloses] at hcarries
    have hstate : t.state = .closed := by simpa [Transition.closes] using hcloses
    have hgone : (b.onTransition peer t now).value.connections.find? peer = none :=
      hcarries.find?_eq_none_iff.2 (by simp)
    have hassigned : (b.onTransition peer t now).value.Assigned peer :=
      hcarries.assigned ((assigned_setAside peer).2 (assigned_of_open hc))
    refine ⟨fun c' hc' => ?_, fun _ => ?_, fun _ d hd => ?_, fun o ho => ?_⟩
    · rw [hgone] at hc'
      cases hc'
    · exact (List.append_eq_nil_iff.1 (htracked.nil_of_closes hcloses)).1
    · rw [hcarries.closed, closed_setAside hc] at hd
      obtain rfl := Option.some.inj hd
      rw [hrecord, hstate]
    · obtain rfl := Option.some.inj (hrecord.symm.trans ho)
      exact ⟨hassigned, c.name, t.state, rfl, fun _ => hstate⟩
  · have hstays : t.closes = false := by simpa using hcloses
    rw [if_neg hcloses] at hcarries
    have hthere : (b.onTransition peer t now).value.connections.find? peer ≠ none := by
      rw [ne_eq, hcarries.find?_eq_none_iff, hc]
      exact Option.some_ne_none c
    refine ⟨fun c' hc' => ?_, fun hnone => absurd hnone hthere,
      fun hnone => absurd hnone hthere, fun o ho => ?_⟩
    · obtain ⟨d, hd, hevolves⟩ := exists_before_of_rel hcarries.connection hc'
      obtain rfl := Option.some.inj (hc.symm.trans hd)
      rw [hrecord]
      exact (htracked.processed hstays).evolves hevolves
    · obtain rfl := Option.some.inj (hrecord.symm.trans ho)
      exact ⟨hcarries.assigned (assigned_of_open hc), c.name, t.state, rfl,
        fun hnone => absurd hnone hthere⟩

/-- Processing the first change of state that was taken. -/
theorem Recorded.onTransition (h : Recorded ((peer, t) :: taken) b) (hb : b.Tidy) (now : Instant) :
    Recorded taken (b.onTransition peer t now).value := by
  refine ⟨?_, fun key o ho => ?_, fun q => ?_⟩
  · rw [value_onTransition, KnowsBuiltin, registry_publishAsHost]
    exact knowsBuiltin_telling h.builtin hb peer t now
  · by_cases hkey : key = [.uint peer.toUInt64]
    · exact ⟨peer, hkey⟩
    · rw [cached?_onTransition h.builtin hb peer t now hkey] at ho
      exact h.keys key o ho
  · have hpeer := h.peers q
    rw [takenOf_cons] at hpeer
    by_cases hq : peer = q
    · subst hq
      rw [if_pos rfl] at hpeer
      exact hpeer.onTransition h.builtin hb now
    · rw [if_neg hq] at hpeer
      refine hpeer.carried (carries_onTransition b t now (Ne.symm hq)) ?_
      refine cached?_onTransition h.builtin hb peer t now fun heq => hq ?_
      exact (PeerState.recordKey_inj.1 heq).symm

/-! ## Processing all that wait -/

/-- What waits of a peer is what its connection has queued. -/
theorem takenOf_pending (b : Broker) (peer : PeerId) :
    takenOf peer b.pending = ((b.connections.find? peer).map (·.transitions)).getD [] := by
  have hqueue : ∀ x : PeerId × Connection,
      takenOf peer (x.2.transitions.map (x.1, ·)) =
        if x.1 = peer then x.2.transitions else [] := by
    intro x
    unfold takenOf
    rw [List.filter_map]
    by_cases hx : x.1 = peer <;> simp [hx, Function.comp_def]
  have hlist : ∀ l : List (PeerId × Connection), l.Pairwise (fun x y => x.1 < y.1) →
      takenOf peer (l.flatMap fun x => x.2.transitions.map (x.1, ·)) =
        ((SortedMap.findBinding peer l).map (·.transitions)).getD [] := by
    intro l hsorted
    induction l with
    | nil => rfl
    | cons x rest ih =>
      obtain ⟨hless, hrest⟩ := List.pairwise_cons.1 hsorted
      rw [List.flatMap_cons, takenOf_append, hqueue, ih hrest, SortedMap.findBinding]
      by_cases hx : peer = x.1
      · -- The keys ascend, so that no other connection is that of the peer.
        have hnone : SortedMap.findBinding peer rest = none :=
          SortedMap.findBinding_eq_none_of_forall_lt fun y hy => hx ▸ hless y hy
        rw [hnone, if_pos hx.symm, if_pos hx]
        simp
      · rw [if_neg (Ne.symm hx), if_neg hx, List.nil_append]
  exact hlist b.connections.toList b.connections.sorted

/-- Taking what waits leaves everything recorded. -/
theorem Recorded.takePending (h : Recorded [] b) : Recorded b.pending b.takePending := by
  refine ⟨h.builtin, h.keys, fun peer => ?_⟩
  have hpeer := h.peers peer
  have hpending := takenOf_pending b peer
  cases hc : b.connections.find? peer with
  | none =>
    rw [hc] at hpending
    rw [hpending]
    have hnone : b.takePending.connections.find? peer = none := by rw [find?_takePending, hc]; rfl
    refine ⟨fun c' hc' => ?_, fun _ => rfl, fun _ => hpeer.closed hc, fun o ho => ?_⟩
    · rw [hnone] at hc'
      cases hc'
    · obtain ⟨hassigned, name, state, heq, hclosed⟩ := hpeer.known o ho
      exact ⟨assigned_takePending.2 hassigned, name, state, heq, fun _ => hclosed hc⟩
  | some c =>
    rw [hc] at hpending
    rw [hpending]
    have hsome : b.takePending.connections.find? peer = some c.drained := by
      rw [find?_takePending, hc]
      rfl
    have hthere : b.takePending.connections.find? peer ≠ none := by simp [hsome]
    refine ⟨fun c' hc' => ?_, fun hnone => absurd hnone hthere, fun hnone => absurd hnone hthere,
      fun o ho => ?_⟩
    · obtain rfl := Option.some.inj (hsome.symm.trans hc')
      obtain ⟨hlast, hearlier, hidle, hcurrent⟩ := hpeer.tracked c hc
      -- What was queued is now among what was taken.
      have hsame : c.transitions ++ c.drained.transitions = takenOf peer [] ++ c.transitions := by
        simp [Connection.drained, takenOf]
      exact ⟨hsame ▸ hlast, hsame ▸ hearlier, hsame ▸ hidle, hsame ▸ hcurrent⟩
    · obtain ⟨hassigned, name, state, heq, -⟩ := hpeer.known o ho
      exact ⟨assigned_takePending.2 hassigned, name, state, heq, fun hnone => absurd hnone hthere⟩

/-- Processing all changes of state that wait. -/
theorem Recorded.drain (h : Recorded [] b) (hb : b.Tidy) (hq : b.Queued []) (now : Instant) :
    Recorded [] (b.drain now).value :=
  hb.drain_induction hq (fun _ _ hs => hs.takePending) (fun _ _ _ hs h => h.onTransition hs now) h

end Broker

end ObjectBus
