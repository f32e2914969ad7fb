import ObjectBus.Proofs.Broker.Marks

/-!
# Frames with objects

An object reaches the channel of a guest in one of a few ways: another guest sent it, the host
published it or its removal, or the guest joined a group and is brought up to date. Its header is
made in a different place each time. In all of them header and object fit together, and they fit the
type.

* `Channel.handedOver`: all that a channel was ever handed, taken or not;
* `Connection.Hands`: a connection hands its channel nothing but what is allowed;
* `ObjectFrame`: what header and object of a frame have in common;
* `objectFrame_hostHeader`, `objectFrame_accepted`, `objectFrame_replayed`: the three ways in which
  such a frame is made;
* `Step.wellFormed_handedOver`, `object_frames_after`: in every run all frames are made so.
-/

namespace ObjectBus

/-! ## What a channel is handed -/

/-- The transmission that was handed over, taken or refused. -/
def ChannelAction.handedOver? : ChannelAction → Option Transmission
  | sent t => some t
  | refused t _ => some t
  | closed => none

/-- All that a channel was handed, in order, whether it was taken or refused. -/
def Channel.handedOver (c : Channel) : List Transmission := c.trace.filterMap (·.handedOver?)

@[simp]
theorem Channel.handedOver_send (c : Channel) (t : Transmission) :
    (c.send t).1.handedOver = c.handedOver ++ [t] := by
  unfold send
  split <;> simp [handedOver, ChannelAction.handedOver?]

@[simp]
theorem Channel.handedOver_close (c : Channel) : c.close.handedOver = c.handedOver := by
  simp [close, handedOver, ChannelAction.handedOver?]

namespace Connection

variable {c c' : Connection} {allowed : Transmission → Prop} {t : Transmission} {now : Instant}

/-- The channel was handed nothing but what is allowed. -/
def Hands (allowed : Transmission → Prop) (c : Connection) : Prop :=
  ∀ t ∈ c.channel.handedOver, allowed t

namespace Hands

theorem of_eq (h : c.Hands allowed) (hsame : c'.channel.handedOver = c.channel.handedOver) :
    c'.Hands allowed := by
  intro t ht
  rw [hsame] at ht
  exact h t ht

theorem setState (h : c.Hands allowed) (state : ConnectionState) (cause : Option String) :
    (c.setState state cause).value.Hands allowed := by
  unfold Connection.setState
  split <;> exact h

theorem close (h : c.Hands allowed) (cause : Option String) :
    (c.close cause).value.Hands allowed := by
  unfold Connection.close
  split
  · exact h
  · exact (h.setState .closed cause).of_eq (Channel.handedOver_close _)

theorem send (h : c.Hands allowed) (ht : allowed t) : (c.send t).value.Hands allowed := by
  have hchannel : ∀ t' ∈ (c.channel.send t).1.handedOver, allowed t' := by
    intro t' ht'
    rw [Channel.handedOver_send, List.mem_append, List.mem_singleton] at ht'
    rcases ht' with ht' | rfl
    · exact h t' ht'
    · exact ht
  unfold Connection.send
  cases hsend : c.channel.send t with
  | mk channel error =>
    rw [hsend] at hchannel
    have hnext : Hands allowed { c with channel := channel } := hchannel
    split
    · exact h
    · exact h
    · cases error with
      | none => exact hnext
      | some e =>
        simp only [value_transportFailed]
        exact hnext.close _

theorem foldl_send {ts : List Transmission} (h : c.Hands allowed) (hts : ∀ t ∈ ts, allowed t) :
    (ts.foldl (fun c t => (c.send t).value) c).Hands allowed := by
  induction ts generalizing c with
  | nil => exact h
  | cons t rest ih =>
    exact ih (h.send (hts t List.mem_cons_self)) fun t' ht' => hts t' (List.mem_cons_of_mem _ ht')

theorem offered (h : c.Hands allowed) (ht : allowed t) : (c.offered t).Hands allowed := by
  unfold Connection.offered
  split
  · exact h.send ht
  · exact h

/-- What a connection sends on its own account is control messages. -/
theorem receive (h : c.Hands allowed) (hcontrol : ∀ t : Transmission, t.NoObject → allowed t)
    (t : Transmission) (now : Instant) : (c.receive t now).value.1.Hands allowed := by
  have hsend : ∀ {c : Connection} (message : ControlMessage), c.Hands allowed →
      (c.sendControl message now).value.Hands allowed :=
    fun message h => h.send (hcontrol _ (Transmission.noObject_ofControl message now))
  have haccept : ∀ name preload, (c.acceptConnect name preload now).value.Hands allowed := by
    intro name preload
    have hnamed : Hands allowed { c with name := name } := h
    exact (hsend _ hnamed).setState _ none
  have hfinish : (c.finishPreload now).value.Hands allowed := hsend _ (h.setState .connected none)
  have hmessage : ∀ header message,
      (c.receiveMessage header message now).value.1.Hands allowed := by
    intro header message
    unfold receiveMessage
    -- Only a guest that names itself or has finished preloading is answered right away.
    split
    · split
      · exact haccept _ _
      · exact h
    · split
      · exact hfinish
      · exact h
    · exact h
    · exact h
    · exact h
  unfold Connection.receive
  split
  · exact h
  · simp only
    split
    · exact h
    · split
      · split
        · unfold peerReported
          split <;> exact h.close _
        · exact hmessage _ _
      · exact h

theorem acts (h : c.Hands allowed) (hcontrol : ∀ t : Transmission, t.NoObject → allowed t)
    (hacts : c.Acts now c') : c'.Hands allowed := by
  cases hacts with
  | tell messages =>
    refine h.foldl_send fun t ht => ?_
    obtain ⟨message, -, rfl⟩ := List.mem_map.1 ht
    exact hcontrol _ (Transmission.noObject_ofControl message now)
  | close cause => exact h.close cause
  | rememberImport typeName =>
    unfold Connection.rememberImport
    split <;> exact h
  | disturb refusal => exact h

/-- A new guest is greeted with a control message. -/
theorem beginHandshake {channel : Channel} (hnone : channel.handedOver = [])
    (hcontrol : ∀ t : Transmission, t.NoObject → allowed t) (peer : PeerId) (hostName : String)
    (now : Instant) :
    ((ofChannel peer channel).beginHandshake hostName now).value.1.Hands allowed := by
  let started : Connection :=
    { ofChannel peer channel with started := true, hostName := hostName }
  have hstarted : started.Hands allowed := by
    intro t ht
    have hempty : started.channel.handedOver = [] := hnone
    rw [hempty] at ht
    cases ht
  exact (hstarted.setState .connecting none).send
    (hcontrol _ (Transmission.noObject_ofControl (.hello hostName 0 false) now))

end Hands

end Connection

/-! ## Frames -/

/-- The properties of the key are declared. -/
theorem StructSchema.contains_allProperties_of_key {s : StructSchema} {tag : Tag}
    (htag : s.keyProperties.contains tag = true) : s.allProperties.contains tag = true := by
  obtain ⟨hrange, hmem⟩ := PropertySet.contains_ofTags_iff.1 htag
  obtain ⟨p, hp, hptag⟩ := List.mem_map.1 hmem
  exact contains_allProperties_iff.2 ⟨hrange, p, List.mem_of_mem_filter hp, hptag⟩

/-- Header and object of a frame fit together, and they fit the type. -/
structure ObjectFrame (r : Registry) (s : StructSchema) (h : Header) (o : Object) : Prop where
  /-- The header names a registered type. -/
  registered : r.findStruct? h.typeName = some s
  /-- So does the object. -/
  typeName : o.typeName = h.typeName
  /-- The object conforms to the type. -/
  conforms : s.validate o = .ok ()
  /-- Objects of internal types, and no others, travel in the control namespace. -/
  nameSpace : h.isControl = s.flags.internal
  /-- The properties of the key are included. -/
  keys : ∀ tag, s.keyProperties.contains tag = true → h.attributes.contains tag = true
  /-- Unless the host published the object, no others are included than are declared. -/
  declared : h.isFromMyself = false →
    ∀ tag, h.attributes.contains tag = true → s.allProperties.contains tag = true
  /-- What the host published has the host for its sender. -/
  own : h.isFromMyself = true → h.sender = some hostId
  /-- The key of an object of a cached type is set. -/
  keyed : s.flags.cached = true →
    ∀ tag, s.keyProperties.contains tag = true → o.get? tag ≠ none
  /-- The header tells the sender. -/
  sender : h.sender ≠ none
  /-- It tells when the object was sent. -/
  sentTime : h.sentTime ≠ none
  /-- It tells when the host took the object over. -/
  serverSentTime : h.serverSentTime ≠ none

/-- A frame is well-formed if it carries a control message, or an object that fits its header and a
registered type. -/
def Transmission.WellFormed (r : Registry) (t : Transmission) : Prop :=
  ∀ o, t.object? = some o → ∃ s, ObjectFrame r s t.header o

namespace Transmission.WellFormed

variable {r r' : Registry} {t : Transmission}

theorem of_noObject (ht : t.NoObject) : t.WellFormed r := by
  intro o ho
  rw [ht] at ho
  cases ho

theorem of_objectFrame {s : StructSchema} {h : Header} {o : Object} (hframe : ObjectFrame r s h o) :
    (ofObject h o).WellFormed r := by
  intro o' ho'
  obtain rfl : o = o' := Option.some.inj ho'
  exact ⟨s, hframe⟩

/-- More types do no harm. -/
theorem mono (ht : t.WellFormed r)
    (h : ∀ name s, r.findStruct? name = some s → r'.findStruct? name = some s) :
    t.WellFormed r' := by
  intro o ho
  obtain ⟨s, hframe⟩ := ht o ho
  exact ⟨s, { hframe with registered := h _ _ hframe.registered }⟩

end Transmission.WellFormed

namespace Broker

variable {call : BrokerCall} {now : Instant} {b b' : Broker} {peer : PeerId} {c : Connection}
variable {schema : StructSchema} {h : Header} {o : Object}

/-- An object of a cached type that can be applied has its key set. -/
theorem Sound.keyed_of_applies (hb : b.Sound)
    (hs : b.registry.findStruct? schema.name = some schema)
    (happlies : b.applies schema h o now = true) (hcached : schema.flags.cached = true) (tag : Tag)
    (htag : schema.keyProperties.contains tag = true) : o.get? tag ≠ none := by
  obtain ⟨answer, hanswer⟩ := (b.applies_eq_true_iff schema h o now).1 happlies hcached
  have hkey : ∃ key, schema.keyOf o = .ok key := by
    cases hkey : schema.keyOf o with
    | ok key => exact ⟨key, rfl⟩
    | error e =>
      have hsame : (b.cacheOf schema).schema.keyOf (Dispatcher.callOf h o now).object =
          .error e := by
        rw [(hb.cacheOf hs).1]
        exact hkey
      rw [Container.perform_of_keyOf_error hsame] at hanswer
      cases hanswer
  exact StructSchema.exists_keyOf_eq_ok_iff.1 hkey tag htag

/-- What the host publishes or removes. -/
theorem objectFrame_hostHeader (hb : b.Sound)
    (hs : b.registry.findStruct? schema.name = some schema) (hvalid : schema.validate o = .ok ())
    {included : Option PropertySet} {remove : Bool}
    (happlies : b.applies schema (hostHeader schema o included remove now) o now = true) :
    ObjectFrame b.registry schema (hostHeader schema o included remove now) o where
  registered := hs
  typeName := (StructSchema.validate_eq_ok_iff.1 hvalid).1
  conforms := hvalid
  nameSpace := by
    unfold hostHeader Header.forObject Header.isControl
    cases schema.flags.internal <;> simp
  keys tag htag := by
    have hincluded : (hostHeader schema o included remove now).attributes =
        included.getD (schema.validProperties o) ∪ schema.keyProperties := rfl
    rw [hincluded, PropertySet.contains_union, htag, Bool.or_true]
  declared hmine := by cases hmine
  own _ := rfl
  keyed := hb.keyed_of_applies hs happlies
  sender := Option.some_ne_none _
  sentTime := Option.some_ne_none _
  serverSentTime := Option.some_ne_none _

/-- What a guest sends and the host passes on. -/
theorem objectFrame_accepted (hb : b.Sound) (c : Connection) (sent : Header)
    (hh : h = c.stamp sent now) (hs : b.registry.findStruct? h.typeName = some schema)
    (hspace : h.isControl = schema.flags.internal) (hvalid : schema.validate o = .ok ())
    (happlies : b.applies schema { h with attributes := acceptedAttributes schema h o } o now =
      true) :
    ObjectFrame b.registry schema { h with attributes := acceptedAttributes schema h o } o where
  registered := hs
  typeName := (StructSchema.validate_eq_ok_iff.1 hvalid).1.trans (hb.findStruct?_name hs).1
  conforms := hvalid
  nameSpace := hspace
  keys tag htag := by
    show (acceptedAttributes schema h o).contains tag = true
    unfold acceptedAttributes
    rw [PropertySet.contains_union, htag, Bool.or_true]
  declared _ tag htag := by
    have hincluded : (acceptedAttributes schema h o).contains tag = true := htag
    unfold acceptedAttributes at hincluded
    rw [PropertySet.contains_union, PropertySet.contains_inter, Bool.or_eq_true,
      Bool.and_eq_true] at hincluded
    rcases hincluded with ⟨-, hdeclared⟩ | hkey
    · exact hdeclared
    · exact StructSchema.contains_allProperties_of_key hkey
  own hmine := by
    have hmine' : h.isFromMyself = true := hmine
    rw [hh] at hmine'
    cases hmine'
  keyed := hb.keyed_of_applies (hb.findStruct?_name hs).2 happlies
  sender := by
    rw [hh]
    exact Option.some_ne_none _
  sentTime := by
    rw [hh]
    exact Option.some_ne_none _
  serverSentTime := by
    rw [hh]
    exact Option.some_ne_none _

/-- What a guest that joins is sent of a cached object. -/
theorem objectFrame_replayed (hb : b.Sound)
    (hs : b.registry.findStruct? schema.name = some schema) {key : ObjectKey} {e : Entry}
    (he : (b.cacheOf schema).find? key = some e) (left : Nat) (now : Instant) :
    ObjectFrame b.registry schema ((b.cacheOf schema).replayHeader e left now) e.object := by
  obtain ⟨hschema, hentries⟩ := hb.cacheOf hs
  obtain ⟨hvalid, hkey⟩ := hentries key e he
  rw [hschema] at hvalid hkey
  have hcheck : schema.checkDefinition = .ok () := (hb.registry _ _ hs).2
  have hset := StructSchema.exists_keyOf_eq_ok_iff.1 ⟨key, hkey⟩
  have hheader : (b.cacheOf schema).replayHeader e left now =
      { typeName := schema.name
        sender := some e.provenance.lastUpdateFrom
        sentTime := some e.provenance.modified
        serverSentTime := some now
        attributes := schema.validProperties e.object
        fromCache := some (UInt32.ofNat left)
        nameSpace := if schema.flags.internal then some controlNamespace else none } := by
    rw [Container.replayHeader, hschema]
  rw [hheader]
  refine
    { registered := hs
      typeName := (StructSchema.validate_eq_ok_iff.1 hvalid).1
      conforms := hvalid
      nameSpace := ?_
      keys := fun tag htag => ?_
      declared := fun _ tag htag => ?_
      own := fun hmine => by cases hmine
      keyed := fun _ => hset
      sender := Option.some_ne_none _
      sentTime := Option.some_ne_none _
      serverSentTime := Option.some_ne_none _ }
  · unfold Header.isControl
    cases schema.flags.internal <;> simp
  · exact StructSchema.contains_validProperties_of_validate hcheck hvalid (hset tag htag)
  · have hboth : (schema.validProperties e.object).contains tag = true := htag
    rw [StructSchema.validProperties, PropertySet.contains_inter, Bool.and_eq_true] at hboth
    exact hboth.2

/-- All that guests are sent when they are brought up to date. -/
theorem wellFormed_replayFrames (hb : b.Sound)
    (hs : b.registry.findStruct? schema.name = some schema) (now : Instant) :
    ∀ t ∈ b.replayFrames schema now, t.WellFormed b.registry := by
  intro t ht
  rcases List.mem_append.1 ht with ht | ht
  · obtain ⟨e, he, left, rfl⟩ := Container.exists_of_mem_replayOf ht
    obtain ⟨⟨key, e⟩, hmem, rfl⟩ := List.mem_map.1 he
    exact .of_objectFrame
      (objectFrame_replayed hb hs (KeyedList.find?_eq_some_iff.2 hmem) left now)
  · obtain rfl := List.mem_singleton.1 ht
    exact .of_noObject rfl

/-! ## All channels -/

/-- Forgetting the closed connections keeps their channels. -/
theorem channel?_forgetClosed (b : Broker) (q : PeerId) :
    b.forgetClosed.channel? q = b.channel? q := by
  have hreleased : b.forgetClosed.released.find? q =
      ((b.closed.find? q).map (·.channel) <|> b.released.find? q) :=
    SortedMap.find?_foldl_insert_toList b.closed Connection.channel b.released q
  cases hc : b.connections.find? q with
  | some c => rw [channel?_of_open hc, channel?_of_open (b := b.forgetClosed) hc]
  | none =>
    have hgone : b.forgetClosed.connections.find? q = none := hc
    rw [channel?_of_gone hc, channel?_of_gone hgone, hreleased]
    rfl

/-- One step hands the channels in the table nothing but well-formed frames. -/
theorem Step.hands (hb : b.Sound)
    (hfresh : ∀ channel, call = .accept channel → channel.handedOver = [])
    (h : Step call now b b')
    (hbefore : ∀ q c, b.connections.find? q = some c → c.Hands (·.WellFormed b.registry)) :
    ∀ q c, b'.connections.find? q = some c → c.Hands (·.WellFormed b.registry) := by
  have hcontrol : ∀ t : Transmission, t.NoObject → t.WellFormed b.registry :=
    fun _ => .of_noObject
  -- Either one connection is replaced, or some are offered one frame.
  have hput : ∀ {p : PeerId} {d : Connection}, d.Hands (·.WellFormed b.registry) →
      ∀ q c, (b.putConnection p d).connections.find? q = some c →
        c.Hands (·.WellFormed b.registry) := by
    intro p d hd q c hc
    rw [find?_putConnection] at hc
    split at hc
    · exact Option.some.inj hc ▸ hd
    · exact hbefore q c hc
  have hoffered : ∀ {t : Transmission} {q : PeerId} {c : Connection},
      (b.connections.find? q).map (·.offered t) = some c → t.WellFormed b.registry →
        c.Hands (·.WellFormed b.registry) := by
    intro t q c hc ht
    obtain ⟨d, hd, rfl⟩ := Option.map_eq_some_iff.1 hc
    exact (hbefore q d hd).offered ht
  cases h with
  | @accept channel hcall =>
    exact hput (.beginHandshake (hfresh channel hcall) hcontrol b.nextPeer b.name now)
  | hear hcall hc => exact hput ((hbefore _ _ hc).receive hcontrol _ now)
  | act hc hact => exact hput ((hbefore _ _ hc).acts hcontrol hact)
  | publish hschema hvalid included remove =>
    obtain ⟨-, hs⟩ := hb.findStruct?_name hschema
    intro q c hc
    rw [find?_dispatch] at hc
    split at hc
    · rename_i happlies
      exact hoffered hc (.of_objectFrame (objectFrame_hostHeader hb hs hvalid happlies.1))
    · exact hbefore q c hc
  | @dispatch p t d schema h o hcall hd hreceived hschema hspace hvalid =>
    obtain ⟨-, -, hh⟩ := Connection.receive_eq_object hreceived
    intro q c hc
    rw [find?_dispatch] at hc
    split at hc
    · rename_i happlies
      exact hoffered hc (.of_objectFrame
        (objectFrame_accepted hb d t.header hh hschema hspace hvalid happlies.1))
    · exact hbefore q c hc
  | forward group h message =>
    intro q c hc
    rw [connections_forward, GroupTable.find?_deliver] at hc
    split at hc
    · exact hoffered hc (.of_noObject rfl)
    · exact hbefore q c hc
  | @replay p t group d schema hcall hmessage hschema hcached hd =>
    rw [value_replayTo _ _ _ hd]
    obtain ⟨-, hs⟩ := hb.findStruct?_name hschema
    exact hput ((hbefore p d hd).foldl_send (wellFormed_replayFrames hb hs now))
  | join | leave | learn | learnEnum | announce | subscribe | unsubscribe | forgetClosed =>
    exact hbefore

/-- All that the channels of guests were handed is well-formed. -/
def WellSpoken (b : Broker) : Prop :=
  ∀ q channel, b.channel? q = some channel → ∀ t ∈ channel.handedOver, t.WellFormed b.registry

namespace WellSpoken

/-- Where no channel changes. -/
theorem of_eq (h : b.WellSpoken) (hchannels : ∀ q, b'.channel? q = b.channel? q)
    (hregistry : ∀ name s, b.registry.findStruct? name = some s →
      b'.registry.findStruct? name = some s) : b'.WellSpoken := by
  intro q channel hchannel t ht
  rw [hchannels] at hchannel
  exact (h q channel hchannel t ht).mono hregistry

theorem step (h : b.WellSpoken) (hb : b.Sound)
    (hfresh : ∀ channel, call = .accept channel → channel.handedOver = [])
    (hstep : Step call now b b') : b'.WellSpoken := by
  have hregistry : ∀ name s, b.registry.findStruct? name = some s →
      b'.registry.findStruct? name = some s := fun _ _ => hstep.findStruct?
  rcases hstep.tables with ⟨hclosed, hreleased⟩ | ⟨-, rfl⟩
  · intro q channel hchannel t ht
    cases hc : b'.connections.find? q with
    | some c =>
      obtain rfl := Option.some.inj ((channel?_of_open hc).symm.trans hchannel)
      have hhands := hstep.hands hb hfresh fun p d hd => h p d.channel (channel?_of_open hd)
      exact (hhands q c hc t ht).mono hregistry
    | none =>
      -- A channel that is not in the table was handed nothing.
      have hgone : b.connections.find? q = none := by
        by_contra hthere
        obtain ⟨c', hc'⟩ := hstep.stays (Option.ne_none_iff_exists'.1 hthere)
        rw [hc] at hc'
        cases hc'
      rw [channel?_of_gone hc, hclosed, hreleased, ← channel?_of_gone hgone] at hchannel
      exact (h q channel hchannel t ht).mono hregistry
  · exact h.of_eq (channel?_forgetClosed b) hregistry

/-- Moves of a call hand the channels nothing but well-formed frames. -/
theorem moves (h : b.WellSpoken) (hb : b.Sound)
    (hfresh : ∀ channel, call = .accept channel → channel.handedOver = [])
    (hmoves : Moves call now b b') : b'.WellSpoken := by
  refine (Moves.induction (I := fun b => b.Sound ∧ b.WellSpoken) (fun hI hstep => ?_)
    (fun {b} hI => ?_) (fun {b peer} hI _ => ?_) ⟨hb, h⟩ hmoves).2
  · exact ⟨hI.1.step hstep, hI.2.step hI.1 hfresh hstep⟩
  · exact ⟨hI.1.takePending, hI.2.of_eq (channel?_takePending b) fun _ _ => id⟩
  · refine ⟨hI.1.setAside peer, hI.2.of_eq (channel?_setAside b peer) fun name s hs => ?_⟩
    rwa [registry_setAside]

theorem after (h : b.WellSpoken) (hb : b.Reachable) (calls : List (BrokerCall × Instant))
    (hfresh : ∀ channel now, (.accept channel, now) ∈ calls → channel.handedOver = []) :
    (b.after calls).WellSpoken := by
  induction calls generalizing b with
  | nil => exact h
  | cons call rest ih =>
    obtain ⟨call, now⟩ := call
    have hfirst : (b.perform call now).WellSpoken := by
      refine h.moves hb.sound (fun channel hcall => ?_) (perform_moves hb.rested call now)
      exact hfresh channel now (hcall ▸ List.mem_cons_self)
    exact ih hfirst (hb.perform call now) fun channel now' hmem =>
      hfresh channel now' (List.mem_cons_of_mem _ hmem)

end WellSpoken

/-- A broker that was started has handed nobody anything. -/
theorem wellSpoken_ofRegistry {registry : Registry} (hbuilt : registry.Built) (name : String)
    (eventCapacity : Nat) (start : Instant) :
    (ofRegistry name registry eventCapacity start).value.WellSpoken := by
  refine (ofRegistry_induction (I := fun _ b => b.Sound ∧ b.WellSpoken) hbuilt.wellFormed
    ⟨.bare hbuilt name eventCapacity, ?_⟩ (fun hI hs => ?_) (fun hI hstep => ?_)).2
  · intro q channel hchannel
    cases hchannel
  · exact ⟨hI.1.adoptType hs, hI.2.of_eq (fun _ => rfl) fun _ _ => id⟩
  · have hnobody : ∀ channel, BrokerCall.sweep = .accept channel → channel.handedOver = [] := by
      intro channel hcall
      cases hcall
    exact ⟨hI.1.step hstep, hI.2.step hI.1 hnobody hstep⟩

/-- In every run, if nothing was handed to the channels of guests before they came, every object
that the channel of a guest is ever handed goes under a header that fits it and its type. -/
theorem object_frames_after {registry : Registry} (hbuilt : registry.Built) (name : String)
    (eventCapacity : Nat) (start : Instant) (calls : List (BrokerCall × Instant))
    (hfresh : ∀ channel now, (.accept channel, now) ∈ calls → channel.handedOver = []) :
    let b := (ofRegistry name registry eventCapacity start).value.after calls
    ∀ peer channel, b.channel? peer = some channel →
      ∀ h o, .ofObject h o ∈ channel.handedOver → ∃ s, ObjectFrame b.registry s h o := by
  intro b peer channel hchannel h o hmem
  have hstart : (ofRegistry name registry eventCapacity start).value.Reachable :=
    .start hbuilt name eventCapacity start
  have hspoken : b.WellSpoken :=
    (wellSpoken_ofRegistry hbuilt name eventCapacity start).after hstart calls hfresh
  exact hspoken peer channel hchannel _ hmem o rfl

/-- The note that a guest has marked reaches the reader under a header that fits it. -/
theorem object_frame_on_forgedBoard : ∃ channel h, forgedBoard.channel? 2 = some channel ∧
    .ofObject h (note 2 "news") ∈ channel.handedOver ∧ h.sender = some 3 ∧
    ∃ s, ObjectFrame forgedBoard.registry s h (note 2 "news") := by
  have hbuilt : (Registry.empty.addStruct noteSchema).Built :=
    .registerStruct .empty (Registry.registerStruct_of_new rfl rfl)
  have hfresh : ∀ channel now, (.accept channel, now) ∈ forgery → channel.handedOver = [] := by
    intro channel now hmem
    simp only [forgery, List.mem_cons, Prod.mk.injEq, BrokerCall.accept.injEq, reduceCtorEq,
      false_and, List.not_mem_nil, or_false, false_or] at hmem
    rcases hmem with ⟨rfl, -⟩ | ⟨rfl, -⟩ <;> rfl
  obtain ⟨channel, hchannel, h, hlast, hsender⟩ : ∃ channel,
      forgedBoard.channel? 2 = some channel ∧ ∃ h,
        channel.handedOver.getLast? = some (.ofObject h (note 2 "news")) ∧ h.sender = some 3 :=
    ⟨_, rfl, _, rfl, rfl⟩
  have hmem : .ofObject h (note 2 "news") ∈ channel.handedOver := List.mem_of_getLast? hlast
  exact ⟨channel, h, hchannel, hmem, hsender,
    object_frames_after hbuilt "board" 1 default forgery hfresh 2 channel hchannel h _ hmem⟩

end Broker

end ObjectBus
